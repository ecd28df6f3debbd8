import FiduciaRouting.Routing

/-! The region nearest to a pair of coordinates. The source computes with `f64`; the
functions here work over any type with the operations it uses, so that they run on
floats and can be read over exact numbers. -/

namespace FiduciaRouting

/-- The operations beside the arithmetic operators and the comparison. -/
class Floating (φ : Type) where
  toRadians : φ → φ
  sin : φ → φ
  cos : φ → φ
  sqrt : φ → φ
  atan2 : φ → φ → φ
  powi : φ → Nat → φ
  min : φ → φ → φ
  max : φ → φ → φ

/-- The smaller and the larger of two floats; a number wins over a NaN. -/
instance : Floating Float where
  toRadians x := x * (3.14159265358979323846264338327950288 / 180.0)
  sin := Float.sin
  cos := Float.cos
  sqrt := Float.sqrt
  atan2 := Float.atan2
  powi x n := (List.replicate n x).foldl (fun product factor => product * factor) 1.0
  min x y := if x.isNaN then y else if y < x then y else x
  max x y := if x.isNaN then y else if x < y then y else x

variable {φ : Type} [Add φ] [Sub φ] [Mul φ] [Div φ] [Neg φ] [OfScientific φ] [Floating φ]

open Floating in
def haversineKm (lat1 lon1 lat2 lon2 : φ) : φ :=
  let dLat := toRadians (lat2 - lat1)
  let dLon := toRadians (lon2 - lon1)
  let lat1 := toRadians lat1
  let lat2 := toRadians lat2
  let a := powi (sin (dLat / 2.0)) 2 + cos lat1 * cos lat2 * powi (sin (dLon / 2.0)) 2
  let c := 2.0 * atan2 (sqrt (min a 1.0)) (sqrt (max (1.0 - a) 0.0))
  6371.0 * c

namespace Region

def approximateCoordinates : Region → φ × φ
  | usCentral1 => (41.2619, -95.8608)
  | usEast1 => (38.13, -78.45)
  | euCentral => (50.4761, 12.3700)

def distanceKmTo (region : Region) (latitude longitude : φ) : φ :=
  let (regionLatitude, regionLongitude) := region.approximateCoordinates
  haversineKm latitude longitude regionLatitude regionLongitude

/-- The loop keeps the best region so far with its distance, and replaces it only
by a strictly nearer one. -/
def nearestTo [LT φ] [DecidableLT φ] (latitude longitude : φ) : Region :=
  let best := all.head (by decide)
  let kept := (all.drop 1).foldl (fun (kept : Region × φ) region =>
    let distance := region.distanceKmTo latitude longitude
    if distance < kept.2 then (region, distance) else kept) (best, best.distanceKmTo latitude longitude)
  kept.1

end Region

end FiduciaRouting
