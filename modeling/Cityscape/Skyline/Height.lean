/-
**Heights and contours.**

A list of key points is a step function, at `0` before the first of them.  The upper contour of
buildings is said here without merging or halving: it is as high everywhere as the highest building
there (`Cityscape.unionHeight`), and its key points are the edges of buildings where that changes.
This takes a pass over all buildings for each edge; `Cityscape.compose` finds the same key points by
halving.

* `Cityscape.stepHeight`, `Cityscape.Skyline.heightAt` — **the height at a coordinate**, of a list
  of key points and, by bisection, of a skyline;
* `Cityscape.contour` — **the contour edge by edge**.
-/

import Cityscape.Collector.Arrays

set_option relaxedAutoImplicit false
set_option autoImplicit false

namespace Cityscape

/-! ### Heights of key points -/

/-- The height of the last of the points that do not lie to the right of `x`, and `0` if all of
them do. -/
def stepHeight (points : List KeyPoint) (x : Int64) : Int64 :=
  (points.filter (·.x ≤ x)).getLast?.elim 0 (·.height)

/-- The first index from `lo` on, and before `hi`, at which `p` fails, and `hi` if there is none.
This is for a `p` that never holds again once it has failed. -/
def bisect (p : Nat → Bool) (lo hi : Nat) : Nat :=
  if lo < hi then
    let mid := lo + (hi - lo) / 2
    if p mid then bisect p (mid + 1) hi else bisect p lo mid
  else lo
termination_by hi - lo

/-- The height at `x`: that of the last key point not to the right of `x`, and `0` left of all of
them.  The coordinates must not decrease. -/
def Skyline.heightAt (s : Skyline) (x : Int64) : Int64 :=
  match bisect (fun i => s.points[i]?.any (·.x ≤ x)) 0 s.points.size with
  | 0 => 0
  | k + 1 => s.points[k]?.elim 0 (·.height)

/-! ### Heights of buildings -/

/-- The height of the highest building that stands on `x`, and `0` where none does. -/
def unionHeight (buildings : List Building) (x : Int64) : Int64 :=
  (buildings.filter (·.Covers x)).foldr (fun b height => max b.height height) 0

/-! ### The contour edge by edge -/

/-- Puts a coordinate in its place in an increasing list, unless it is there already. -/
def insertEdge (x : Int64) : List Int64 → List Int64
  | [] => [x]
  | y :: ys => if x < y then x :: y :: ys else if x = y then y :: ys else y :: insertEdge x ys

/-- The left and right edges of all buildings, from left to right and each only once. -/
def edges (buildings : List Building) : List Int64 :=
  buildings.foldr (fun b xs => insertEdge b.left (insertEdge b.right xs)) []

/-- The points that differ in height from the one kept last, where that is `height` at first. -/
def changesFrom (height : Int64) : List KeyPoint → List KeyPoint
  | [] => []
  | p :: ps => if p.height = height then changesFrom height ps else p :: changesFrom p.height ps

/-- The first point, and the points that differ in height from the one kept last. -/
def changes : List KeyPoint → List KeyPoint
  | [] => []
  | p :: ps => p :: changesFrom p.height ps

/-- **The contour edge by edge**: at every edge the height there, where it changes. -/
def contour (buildings : List Building) : List KeyPoint :=
  changes ((edges buildings).map fun x => ⟨x, unionHeight buildings x⟩)

end Cityscape
