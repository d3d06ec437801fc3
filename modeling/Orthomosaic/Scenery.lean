import Orthomosaic.Path

/-!
# Lists of scenery roots

Roots are listed with the one searched first in front. Two spellings of one path are one root, so
that neither operation below lists a root twice if the list it is given does not.
-/

namespace Orthomosaic.Scenery

/-- The list with a root behind the others, unless it is there already. -/
def append (roots : List Path) (root : Path) : List Path :=
  if roots.contains root then roots else roots ++ [root]

/-- The list with some roots in front, in their order. Those that were listed already move
there. -/
def prioritize (roots given : List Path) : List Path :=
  let front := given.eraseDups
  front ++ roots.filter (!front.contains ·)

end Orthomosaic.Scenery
