import Orthomosaic.Proofs.Raster.Conversion
import Orthomosaic.Raster.WordBlit

/-!
# What painting in machine words comes to

Nothing ever stops `Raster.blitInWords?`, whatever the offsets, and its last loop is never entered. It paints
what `Raster.blit` paints, and that is told by the pixels alone: `Raster.blit_changes_overlap`.
-/

namespace Orthomosaic

namespace Word

theorem unsigned32?_eq {n : ℤ} (h0 : 0 ≤ n) (h1 : n ≤ unsigned32) : unsigned32? n = some n.toNat :=
  if_pos ⟨h0, h1⟩

end Word

namespace Raster

/-! ## One axis -/

theorem unsigned32?_alongSide {side : ℕ} (h : side ≤ Word.unsigned32) (n : ℤ) :
    Word.unsigned32? (alongSide side n) = some (alongSide side n).toNat := by
  refine Word.unsigned32?_eq ?_ ?_ <;> unfold alongSide <;> omega

/-- Along an axis no step leaves its word, what is copied lies on both rasters, and it is the overlap. -/
theorem clip?_spec {offset : ℤ} {source target : ℕ} (hoffset : Word.Fits64 offset)
    (hsource : source ≤ Word.unsigned32) (htarget : target ≤ Word.unsigned32) :
    ∃ c, clip? offset source target = some c
      ∧ c.count = (overlap offset source target).2
      ∧ c.start + c.count ≤ target ∧ c.first + c.count ≤ source
      ∧ (0 < c.count → c.start = offset.toNat ∧ c.first = (-offset).toNat) := by
  -- neither saturation matters between the sides, which are shorter by far than a word of 64 bits
  have hfinish : alongSide target (Word.saturate64 (offset + source))
      = alongSide target (offset + source) := by
    obtain ⟨hlow, hhigh⟩ := hoffset
    unfold Word.unsigned32 at htarget
    unfold alongSide Word.saturate64
    unfold Word.least64 Word.greatest64 at *
    omega
  have hfirst : alongSide source (Word.saturate64 (-offset)) = alongSide source (-offset) := by
    obtain ⟨hlow, hhigh⟩ := hoffset
    unfold Word.unsigned32 at hsource
    unfold alongSide Word.saturate64
    unfold Word.least64 Word.greatest64 at *
    omega
  have hcount : Word.unsigned32? (((alongSide target (offset + source)).toNat : ℤ)
        - (alongSide target offset).toNat)
      = some ((alongSide target (offset + source)).toNat - (alongSide target offset).toNat) := by
    rw [Word.unsigned32?_eq]
    · congr 1
      unfold alongSide
      omega
    · unfold alongSide
      omega
    · unfold alongSide
      omega
  refine ⟨⟨(alongSide target offset).toNat, (alongSide source (-offset)).toNat,
    (alongSide target (offset + source)).toNat - (alongSide target offset).toNat⟩, ?_, ?_⟩
  · simp only [clip?, hfinish, hfirst, hcount, unsigned32?_alongSide htarget,
      unsigned32?_alongSide hsource, Option.bind_eq_bind, Option.bind_some]
  · dsimp only [overlap, alongSide]
    omega

/-- At the greatest offset there is nothing to copy, and no sum wraps around. -/
example : clip? Word.greatest64 5 7 = some ⟨7, 0, 0⟩ := by decide

/-! ## Loops -/

/-- Two rasters of one format have the loop of that format. -/
theorem copyLoop_self (f : PixelFormat) : copyLoop f f = .samples f := by
  cases f <;> rfl

/-- Steps that never stop are a fold. -/
theorem foldlM_eq_some {α β : Type} {step? : β → α → Option β} {step : β → α → β} {l : List α}
    (h : ∀ x ∈ l, ∀ b, step? b x = some (step b x)) (b : β) : l.foldlM step? b = some (l.foldl step b) := by
  induction l generalizing b with
  | nil => rfl
  | cons x l ih =>
    rw [List.foldlM_cons, h x (by simp), List.foldl_cons]
    exact ih (fun x' hx' => h x' (by simp [hx'])) _

/-- A pixel of what is copied is there to be read, and its place to be written. -/
theorem copyPixel?_eq {dest source : Raster} {columns rows : Clip} {j i : ℕ} (hdest : dest.FitsWords)
    (hsource : source.FitsWords) (hformat : source.format = dest.format)
    (hcolumns : columns.start + columns.count ≤ dest.width ∧ columns.first + columns.count ≤ source.width)
    (hrows : rows.start + rows.count ≤ dest.height ∧ rows.first + rows.count ≤ source.height)
    (hi : i < columns.count) (hj : j < rows.count) (a : Array Pixel) :
    copyPixel? dest source columns rows j i a
      = some (match source.pixels[(rows.first + j) * source.width + columns.first + i]? with
        | some p => a.setIfInBounds ((rows.start + j) * dest.width + columns.start + i) p
        | none => a) := by
  obtain ⟨hdestX, hdestY⟩ := hdest
  obtain ⟨hsourceX, hsourceY⟩ := hsource
  have hword : ∀ n : ℕ, n ≤ Word.unsigned32 → Word.unsigned32? (n : ℤ) = some n := fun n hn => by
    rw [Word.unsigned32?_eq (by omega) (by omega), Int.toNat_natCast]
  obtain ⟨p, hp⟩ := source.exists_pixel? (x := columns.first + i) (y := rows.first + j)
    (by omega) (by omega)
  have hindex : source.pixels[(rows.first + j) * source.width + columns.first + i]? = some p := by
    rw [Nat.add_assoc]
    exact getElem?_of_pixel? hp
  have hplace : columns.start + i < dest.width ∧ rows.start + j < dest.height := by omega
  rw [hindex]
  simp only [copyPixel?, hword _ (show columns.first + i ≤ Word.unsigned32 by omega),
    hword _ (show rows.first + j ≤ Word.unsigned32 by omega),
    hword _ (show columns.start + i ≤ Word.unsigned32 by omega),
    hword _ (show rows.start + j ≤ Word.unsigned32 by omega), Option.bind_eq_bind, Option.bind_some, hp,
    if_pos hplace, hformat, copyLoop_self, CopyLoop.passOn, Nat.add_assoc]

/-- Without rows or without columns nothing is copied. -/
theorem copyRows_of_zero (target : Array Pixel) (width left top : ℕ) (source : Array Pixel)
    (sourceWidth sourceLeft sourceTop : ℕ) {columns rows : ℕ} (h : columns = 0 ∨ rows = 0) :
    copyRows target width left top source sourceWidth sourceLeft sourceTop columns rows = target := by
  rcases h with rfl | rfl
  · induction rows with
    | zero => rfl
    | succ rows ih =>
      rw [copyRows_succ, ih]
      rfl
  · rfl

/-- Painting in words never stops, and its result is that of painting. -/
theorem blitInWords?_eq {dest source : Raster} {x y : ℤ} (hx : Word.Fits64 x) (hy : Word.Fits64 y)
    (hdest : dest.FitsWords) (hsource : source.FitsWords) :
    blitInWords? dest source x y = some (dest.blit source x y).pixels := by
  have hsource' : (source.convert dest.format).FitsWords := by
    unfold FitsWords
    rw [width_convert, height_convert]
    exact hsource
  obtain ⟨columns, hcolumns, hcount, htarget, hfirst, hplaces⟩ :=
    clip?_spec hx hsource'.1 hdest.1
  obtain ⟨rows, hrows, hcount', htarget', hfirst', hplaces'⟩ := clip?_spec hy hsource'.2 hdest.2
  have hloops : blitInWords? dest source x y
      = some (copyRows dest.pixels dest.width columns.start rows.start (source.convert dest.format).pixels
        (source.convert dest.format).width columns.first rows.first columns.count rows.count) := by
    simp only [blitInWords?, hcolumns, hrows, Option.bind_eq_bind, Option.bind_some]
    refine foldlM_eq_some (fun j hj a => foldlM_eq_some (fun i hi a => ?_) a) dest.pixels
    exact copyPixel?_eq hdest hsource' (format_convert _ _) ⟨htarget, hfirst⟩ ⟨htarget', hfirst'⟩
      (List.mem_range.1 hi) (List.mem_range.1 hj) a
  have hblit : (dest.blit source x y).pixels = blitPixels dest (source.convert dest.format) x y := rfl
  rw [hloops, hblit, blitPixels_eq, ← hcount, ← hcount']
  congr 1
  rcases Nat.eq_zero_or_pos columns.count with hnone | hsome
  · rw [copyRows_of_zero _ _ _ _ _ _ _ _ (.inl hnone), copyRows_of_zero _ _ _ _ _ _ _ _ (.inl hnone)]
  rcases Nat.eq_zero_or_pos rows.count with hnone | hsome'
  · rw [copyRows_of_zero _ _ _ _ _ _ _ _ (.inr hnone), copyRows_of_zero _ _ _ _ _ _ _ _ (.inr hnone)]
  · rw [(hplaces hsome).1, (hplaces hsome).2, (hplaces' hsome').1, (hplaces' hsome').2]

/-! ## Painting -/

/-- What is left of a destination after a source has been painted with its top left pixel in column `left` and
row `top`. -/
structure Painted (dest source : Raster) (left top : ℤ) (result : Raster) : Prop where
  width_eq : result.width = dest.width
  height_eq : result.height = dest.height
  format_eq : result.format = dest.format
  pixel_inside : ∀ x < dest.width, ∀ y < dest.height, ∀ sourceX < source.width, ∀ sourceY < source.height,
    (x : ℤ) - left = sourceX → (y : ℤ) - top = sourceY → ∃ p, source.pixel? sourceX sourceY = some p
      ∧ result.pixel? x y = some (source.format.convert dest.format p)
      ∧ (source.format = dest.format → result.pixel? x y = some p)
  pixel_outside : ∀ x < dest.width, ∀ y < dest.height,
    ¬ ((0 ≤ (x : ℤ) - left ∧ (x : ℤ) - left < source.width) ∧ 0 ≤ (y : ℤ) - top ∧ (y : ℤ) - top < source.height) →
      result.pixel? x y = dest.pixel? x y

/-- Painting keeps the size and the format, puts the pixels of the source where it covers the destination and
leaves all others as they are. Done in machine words it stops nowhere, whatever the offsets, and has the same
result, and its loop is the one that copies the samples of the destination's format. -/
theorem blit_changes_overlap (dest source : Raster) (left top : ℤ) :
    Painted dest source left top (dest.blit source left top)
      ∧ (Word.Fits64 left → Word.Fits64 top → dest.FitsWords → source.FitsWords →
        blitInWords? dest source left top = some (dest.blit source left top).pixels)
      ∧ copyLoop dest.format (source.convert dest.format).format = .samples dest.format := by
  refine ⟨⟨rfl, rfl, rfl, ?_, ?_⟩, fun hx hy hdest hsource => blitInWords?_eq hx hy hdest hsource, ?_⟩
  · intro x hx y hy sourceX hsourceX sourceY hsourceY hleft htop
    obtain ⟨p, hp⟩ := source.exists_pixel? hsourceX hsourceY
    have hinside : (left ≤ x ∧ x < left + source.width) ∧ top ≤ y ∧ y < top + source.height := by omega
    have hpixel : (dest.blit source left top).pixel? x y = some (source.format.convert dest.format p) := by
      rw [pixel?_blit dest source left top hx hy, if_pos hinside, hleft, htop, Int.toNat_natCast,
        Int.toNat_natCast, pixel?_convert hp]
    refine ⟨p, hp, hpixel, fun hformat => ?_⟩
    rw [hpixel, ← hformat, PixelFormat.convert_self (length_of_pixel? hp)]
  · intro x hx y hy houtside
    rw [pixel?_blit dest source left top hx hy, if_neg]
    intro hinside
    exact houtside (by omega)
  · rw [format_convert, copyLoop_self]

/-- A gray raster in bytes over the left edge of one in words, a row down: its right column is seen in the left
column there, and next to it nothing has changed. -/
theorem blit_changes_overlap_at_edge :
    ∃ dest source : Raster, (dest.width = 3 ∧ dest.height = 2 ∧ dest.format = .gray16)
      ∧ (source.width = 2 ∧ source.height = 2 ∧ source.format = .gray8)
      ∧ Word.Fits64 (-1) ∧ Word.Fits64 1 ∧ dest.FitsWords ∧ source.FitsWords
      ∧ blitInWords? dest source (-1) 1 = some (dest.blit source (-1) 1).pixels
      ∧ (dest.blit source (-1) 1).pixel? 0 1 = some [2570]
      ∧ (dest.blit source (-1) 1).pixel? 1 1 = some [0] := by
  let dest : Raster := .zero 3 2 .gray16
  let source : Raster := .tabulate 2 2 .gray8 (fun x y => [(10 * x + y).toUInt32]) (fun _ _ => rfl)
  have hleft : Word.Fits64 (-1) := by unfold Word.Fits64; decide
  have htop : Word.Fits64 1 := by unfold Word.Fits64; decide
  have hdest : dest.FitsWords := by unfold FitsWords; decide
  have hsource : source.FitsWords := by unfold FitsWords; decide
  obtain ⟨hpainted, hwords, -⟩ := blit_changes_overlap dest source (-1) 1
  obtain ⟨p, hp, hpixel, -⟩ := hpainted.pixel_inside 0 (by decide) 1 (by decide) 1 (by decide) 0 (by decide)
    (by decide) (by decide)
  have hten : p = [10] := by
    have hsample : source.pixel? 1 0 = some [10] := by simp [source]
    simpa using hp.symm.trans hsample
  have hnext := hpainted.pixel_outside 1 (by decide) 1 (by decide) (by decide)
  refine ⟨dest, source, ⟨rfl, rfl, rfl⟩, ⟨rfl, rfl, rfl⟩, hleft, htop, hdest, hsource,
    hwords hleft htop hdest hsource, ?_, ?_⟩
  · rw [hpixel, hten]
    rfl
  · rw [hnext]
    rfl

end Raster

end Orthomosaic
