import Orthomosaic.Geodesy.Position

/-!
# The WGS84 ellipsoid

Geodetic positions and earth-centred cartesian ones, converted both ways. From geodetic to
cartesian the formula is direct; the way back solves a quartic equation in closed form.
-/

namespace Orthomosaic

/-- A point in metres from the centre of the earth: the first axis meets the equator at longitude 0,
the second at 90 degrees east, and the third goes through the north pole. -/
structure Cartesian where
  x : Float
  y : Float
  z : Float

instance : Add Cartesian := ⟨fun p q => ⟨p.x + q.x, p.y + q.y, p.z + q.z⟩⟩

instance : Sub Cartesian := ⟨fun p q => ⟨p.x - q.x, p.y - q.y, p.z - q.z⟩⟩

namespace Ellipsoid

/-- The radius of the equator in metres. -/
def equatorRadius : Float := 6378137

/-- How much shorter the axis is than the equator's diameter. -/
def flattening : Float := 1 / 298.257223563

/-- The square of the eccentricity of a meridian. -/
def eccentricitySquared : Float := flattening * (2 - flattening)

end Ellipsoid

open Ellipsoid

/-- The position in cartesian coordinates. -/
def Position.toCartesian (p : Position) : Cartesian :=
  let lambda := radiansOfDegrees p.lon
  let phi := radiansOfDegrees p.lat
  let h := p.elevation
  let sinPhi := phi.sin
  let cosPhi := phi.cos
  -- the radius of curvature across the meridian
  let n := equatorRadius / (1 - eccentricitySquared * sinPhi * sinPhi).sqrt
  { x := (h + n) * cosPhi * lambda.cos
    y := (h + n) * cosPhi * lambda.sin
    z := (h + n - eccentricitySquared * n) * sinPhi }

/-- The geodetic position of a cartesian point. Within five metres of the centre of the earth no
direction is told, and the answer is the point below longitude 0 and latitude 0. -/
def Cartesian.toPosition (c : Cartesian) : Position :=
  let a2 := equatorRadius * equatorRadius
  let e2 := eccentricitySquared
  let e4 := e2 * e2
  let rr := c.x * c.x + c.y * c.y
  if rr + c.z * c.z < 25 then .ofRadians 0 0 (-equatorRadius)
  else
    let rho := rr.sqrt
    let p := rr / a2
    let q := c.z * c.z * (1 - e2) / a2
    let r := (p + q - e4) / 6
    let s := e4 * p * q / (4 * r * r * r)
    -- near the centre rounding leaves this just below zero, where the root below has no value
    let s := if -2 ≤ s ∧ s ≤ 0 then 0 else s
    let t := (1 + s + (s * (2 + s)).sqrt).cbrt
    let u := r * (1 + t + 1 / t)
    let v := (u * u + e4 * q).sqrt
    let w := e2 * (u + v - q) / (2 * v)
    let k := (u + v + w * w).sqrt - w
    let d := k * rho / (k + e2)
    let lon := 2 * Float.atan2 c.y (c.x + rho)
    let reach := (d * d + c.z * c.z).sqrt
    let lat := 2 * Float.atan2 c.z (d + reach)
    .ofRadians lon lat ((k + e2 - 1) * reach / k)

end Orthomosaic
