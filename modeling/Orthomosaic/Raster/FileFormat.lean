import Orthomosaic.FileTree
import Orthomosaic.Raster.Farbfeld
import Orthomosaic.Raster.Netpbm
import Orthomosaic.Text.Quoted

/-!
# Image files

The extension of a file's name says how its image is kept. An image that cannot be written leaves an
error that says why; one that cannot be read is no image. Textures and images of wide range are known
by name, but neither read nor written.
-/

namespace Orthomosaic

/-- How an image file keeps its image. -/
inductive FileFormat where
  | netpbm
  | farbfeld
  | dds
  | radiance
  | openExr
deriving DecidableEq, Repr

namespace FileFormat

/-- The format of an extension, in letters of either case. -/
def ofExtension? (extension : List Char) : Option FileFormat :=
  let name := String.ofList (extension.map Char.toLower)
  if ["pbm", "pgm", "ppm", "pam", "pnm"].contains name then some .netpbm
  else if name == "ff" then some .farbfeld
  else if name == "dds" then some .dds
  else if name == "hdr" then some .radiance
  else if name == "exr" then some .openExr
  else none

/-- The name of a format in messages. -/
def name : FileFormat → String
  | netpbm => "Pnm"
  | farbfeld => "Farbfeld"
  | dds => "Dds"
  | radiance => "Hdr"
  | openExr => "OpenExr"

/-- The raster of a file. -/
def decode? : FileFormat → List UInt8 → Option Raster
  | netpbm => Netpbm.decode?
  | farbfeld => Farbfeld.decode?
  | dds | radiance | openExr => fun _ => none

/-- The file of a raster. -/
def encode? : FileFormat → Raster → Option (List UInt8)
  | netpbm => Netpbm.encode?
  | farbfeld => Farbfeld.encode?
  | dds | radiance | openExr => fun _ => none

end FileFormat

/-- The name of a pixel format in messages. -/
def PixelFormat.name : PixelFormat → String
  | gray8 => "L8"
  | grayAlpha8 => "La8"
  | rgb8 => "Rgb8"
  | rgba8 => "Rgba8"
  | gray16 => "L16"
  | grayAlpha16 => "La16"
  | rgb16 => "Rgb16"
  | rgba16 => "Rgba16"
  | rgb32 => "Rgb32F"
  | rgba32 => "Rgba32F"

/-- Why an image is not written. Pixels are unmatched if the format has a name for their channels but
does not keep them at their depth. -/
inductive SaveFailure where
  | noExtension
  | unknownExtension (extension : List Char)
  | unsupportedFormat (file : FileFormat)
  | unsupportedPixels (file : FileFormat) (pixels : PixelFormat)
  | unmatchedPixels
  | unwritable
deriving DecidableEq, Repr

/-- The wording of the failure. -/
def SaveFailure.message : SaveFailure → String
  | noExtension => "The image format could not be determined"
  | unknownExtension extension =>
    "The file extension \x60." ++ Text.quoted extension
      ++ "\x60 was not recognized as an image format"
  | unsupportedFormat file =>
    "The image format \x60" ++ file.name ++ "\x60 is not supported"
  | unsupportedPixels file pixels =>
    s!"The encoder or decoder for {file.name} does not support the color type "
      ++ "\x60" ++ pixels.name ++ "\x60"
  | unmatchedPixels => "The parameter is malformed: Invalid color type for selected color type"
  | unwritable => "The file could not be created"

/-- Why a format does not keep some pixels. -/
def FileFormat.refusal (file : FileFormat) (pixels : PixelFormat) : SaveFailure :=
  if file = .dds then .unsupportedFormat file
  else if file = .netpbm ∧ pixels = .grayAlpha16 then .unmatchedPixels
  else .unsupportedPixels file pixels

/-- An image that is not written, and where. -/
structure SaveError where
  path : Path
  failure : SaveFailure

/-- The wording of the error. -/
def SaveError.message (e : SaveError) : String :=
  s!"Failed to save image {e.path.text}: {e.failure.message}"

namespace Raster

/-- The raster in a file of a name, if the extension names a format and the file keeps to it. -/
def decodeFile? (p : Path) (bytes : List UInt8) : Option Raster := do
  (← FileFormat.ofExtension? (← p.extension?)).decode? bytes

/-- The tree with a raster written to a path. If the format is known but does not keep such pixels,
the file is made all the same and stays empty. -/
def save (r : Raster) (tree : FileTree (List UInt8)) (p : Path) :
    Except SaveError Unit × FileTree (List UInt8) :=
  let fail := fun (why : SaveFailure) => Except.error (α := Unit) (SaveError.mk p why)
  match p.extension? with
  | none => (fail .noExtension, tree)
  | some extension =>
    match FileFormat.ofExtension? extension with
    | none => (fail (.unknownExtension extension), tree)
    | some format =>
      let encoded := format.encode? r
      match tree.write? p (encoded.getD []) with
      | none => (fail .unwritable, tree)
      | some tree =>
        (if encoded.isSome then .ok () else fail (format.refusal r.format), tree)

end Raster

end Orthomosaic
