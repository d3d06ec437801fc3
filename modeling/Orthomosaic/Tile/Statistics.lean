import Orthomosaic.Word

/-!
# Cache statistics

What a tile cache has done so far and what it holds.
-/

namespace Orthomosaic

/-- Counts of a tile cache: lookups answered from memory and from the files, paths looked at, files
decoded, and what is held. -/
structure CacheStatistics where
  hits : Nat
  misses : Nat
  probes : Nat
  loads : Nat
  entries : Nat
  bytes : Nat
deriving DecidableEq, Repr

namespace CacheStatistics

/-- The statistics as messages show them. -/
def text (s : CacheStatistics) : String :=
  s!"{s.entries} entries, {s.bytes} bytes, {s.hits} hits / {s.misses} misses, "
    ++ s!"{s.probes} probes, {s.loads} loads"

/-- The share of lookups that were answered from memory, 0 if there were none. There is no answer if
the lookups cannot be counted in 64 bits. -/
def hitRate? (s : CacheStatistics) : Option Float :=
  let total := s.hits + s.misses
  if Word.unsigned64 < total then none
  else if total = 0 then some 0
  else some (Float.ofNat s.hits / Float.ofNat total)

end CacheStatistics

end Orthomosaic
