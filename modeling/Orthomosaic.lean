import Orthomosaic.Binary64
import Orthomosaic.Bounds.Basic
import Orthomosaic.Bounds.Document
import Orthomosaic.Bounds.Position
import Orthomosaic.Bounds.Union
import Orthomosaic.Bucket.Basic
import Orthomosaic.Bucket.Directory
import Orthomosaic.Bucket.Index
import Orthomosaic.CommandLine.Arguments
import Orthomosaic.CommandLine.Program
import Orthomosaic.CommandLine.Report
import Orthomosaic.CommandLine.Request
import Orthomosaic.CommandLine.Run
import Orthomosaic.Decimal.Digits
import Orthomosaic.Decimal.Reader
import Orthomosaic.Decimal.Shortest
import Orthomosaic.Decimal.Text
import Orthomosaic.FileTree
import Orthomosaic.Geodesy.Ellipsoid
import Orthomosaic.Geodesy.Position
import Orthomosaic.Hemisphere
import Orthomosaic.Ini.Document
import Orthomosaic.Ini.Error
import Orthomosaic.Ini.Escape
import Orthomosaic.Ini.Reader
import Orthomosaic.Ini.Text
import Orthomosaic.Ini.Writer
import Orthomosaic.Json.Basic
import Orthomosaic.Json.Reader
import Orthomosaic.Json.Record
import Orthomosaic.Json.Writer
import Orthomosaic.Longitude
import Orthomosaic.Lookup.Area
import Orthomosaic.Lookup.Points
import Orthomosaic.Lookup.Roots
import Orthomosaic.Main
import Orthomosaic.Mosaic.Collage
import Orthomosaic.Mosaic.Error
import Orthomosaic.Mosaic.Grid
import Orthomosaic.Mosaic.Stitch
import Orthomosaic.Orthophoto
import Orthomosaic.Path
import Orthomosaic.Proofs.Binary64.Arithmetic
import Orthomosaic.Proofs.Binary64.Order
import Orthomosaic.Proofs.Binary64.Packing
import Orthomosaic.Proofs.Binary64.Rounding
import Orthomosaic.Proofs.Binary64.Whole
import Orthomosaic.Proofs.Bounds.Containment
import Orthomosaic.Proofs.Bounds.Edges
import Orthomosaic.Proofs.Bounds.Growth
import Orthomosaic.Proofs.Bounds.Hull
import Orthomosaic.Proofs.Bounds.Inset
import Orthomosaic.Proofs.Bounds.Narrowest
import Orthomosaic.Proofs.Bounds.Near
import Orthomosaic.Proofs.Bounds.Nearest
import Orthomosaic.Proofs.Bounds.Texture
import Orthomosaic.Proofs.Bounds.Union
import Orthomosaic.Proofs.Bucket.Canonical
import Orthomosaic.Proofs.Bucket.Cell
import Orthomosaic.Proofs.Bucket.Cylinder
import Orthomosaic.Proofs.Bucket.Degree
import Orthomosaic.Proofs.Bucket.ExactSteps
import Orthomosaic.Proofs.Bucket.Location
import Orthomosaic.Proofs.Bucket.Numbering
import Orthomosaic.Proofs.Bucket.Owner
import Orthomosaic.Proofs.Bucket.Place
import Orthomosaic.Proofs.Bucket.Rounded
import Orthomosaic.Proofs.Bucket.Sibling
import Orthomosaic.Proofs.FileTree
import Orthomosaic.Proofs.Ini.RoundTrip
import Orthomosaic.Proofs.Longitude
import Orthomosaic.Proofs.Lookup.OneBucket
import Orthomosaic.Proofs.Lookup.PointBuckets
import Orthomosaic.Proofs.Lookup.PointOrder
import Orthomosaic.Proofs.Lookup.RootOrder
import Orthomosaic.Proofs.Mosaic.BandEdge
import Orthomosaic.Proofs.Mosaic.CellBlock
import Orthomosaic.Proofs.Mosaic.CellRun
import Orthomosaic.Proofs.Mosaic.Collage
import Orthomosaic.Proofs.Mosaic.CollageOrder
import Orthomosaic.Proofs.Mosaic.Coverage
import Orthomosaic.Proofs.Mosaic.Crop
import Orthomosaic.Proofs.Mosaic.Resolve
import Orthomosaic.Proofs.Mosaic.RingCover
import Orthomosaic.Proofs.Mosaic.RowCover
import Orthomosaic.Proofs.Mosaic.Shape
import Orthomosaic.Proofs.Mosaic.Stitch
import Orthomosaic.Proofs.Mosaic.TexCoord
import Orthomosaic.Proofs.Mosaic.TooLarge
import Orthomosaic.Proofs.Mosaic.WholeCells
import Orthomosaic.Proofs.Raster.Blit
import Orthomosaic.Proofs.Raster.Conversion
import Orthomosaic.Proofs.Raster.Scale
import Orthomosaic.Proofs.Raster.Words
import Orthomosaic.Proofs.Scalar.Binary64
import Orthomosaic.Proofs.Scalar.Exact
import Orthomosaic.Proofs.Scalar.Sixteenths
import Orthomosaic.Proofs.Scenery
import Orthomosaic.Proofs.Settings.Locality
import Orthomosaic.Proofs.Settings.NormalForm
import Orthomosaic.Proofs.Settings.RoundTrip
import Orthomosaic.Proofs.Settings.Size
import Orthomosaic.Proofs.Settings.WholeSize
import Orthomosaic.Proofs.Text.Trimmed
import Orthomosaic.Proofs.Tile.Accounting
import Orthomosaic.Proofs.Tile.Naming
import Orthomosaic.Proofs.Tile.Remembered
import Orthomosaic.Proofs.Tile.Transparency
import Orthomosaic.Raster.Basic
import Orthomosaic.Raster.Blit
import Orthomosaic.Raster.Conversion
import Orthomosaic.Raster.Farbfeld
import Orthomosaic.Raster.FileFormat
import Orthomosaic.Raster.Format
import Orthomosaic.Raster.Netpbm
import Orthomosaic.Raster.Netpbm.Header
import Orthomosaic.Raster.Real
import Orthomosaic.Raster.Scale
import Orthomosaic.Raster.WordBlit
import Orthomosaic.Scalar.Basic
import Orthomosaic.Scalar.Binary64
import Orthomosaic.Scalar.Rational
import Orthomosaic.Scenery
import Orthomosaic.Settings.Basic
import Orthomosaic.Settings.File
import Orthomosaic.Settings.LogLevel
import Orthomosaic.Settings.Size
import Orthomosaic.Settings.Value
import Orthomosaic.Text.Blank
import Orthomosaic.Text.Encoding
import Orthomosaic.Text.Hex
import Orthomosaic.Text.Quoted
import Orthomosaic.Text.Split
import Orthomosaic.Text.Visible
import Orthomosaic.Tile.Cache
import Orthomosaic.Tile.Layout
import Orthomosaic.Tile.Statistics
import Orthomosaic.Word
