/-
**Skylines, and other collectors over an array.**

A skyline is an array of key points, and the collector that takes every point and shows the last
one.  What it has to fulfil to describe a contour is a matter of its own (`Cityscape.firstFlaw`).
Three other collectors withhold something: one has a bound, one does not show what it took, one
brings its own append.  They mark out what a producer may count on.

* `Cityscape.Skyline.ofBuilding`, `Cityscape.Skyline.merge` — the contour of one building, and
  **the upper contour of two skylines**;
* `Cityscape.Collector.bounded`, `Cityscape.Collector.forgetful`, `Cityscape.Collector.reflected` —
  the other three.
-/

import Cityscape.Basic

set_option relaxedAutoImplicit false
set_option autoImplicit false

namespace Cityscape

/-! ### Skylines -/

/-- A sequence of key points, read from left to right. -/
structure Skyline where
  /-- The key points. -/
  points : Array KeyPoint
  deriving DecidableEq, Repr

namespace Skyline

/-- The skyline of no buildings. -/
def empty : Skyline := ⟨#[]⟩

/-- Whether there are no key points. -/
def isEmpty (s : Skyline) : Bool := s.points.isEmpty

/-- A skyline takes any point and never fails. -/
def collector : Collector Skyline Empty where
  last s := s.points.back?
  push p := modify fun s => ⟨s.points.push p⟩

/-- The skyline left by a computation that cannot fail. -/
def after (s : Skyline) (job : Attempt Skyline Empty Unit) : Skyline := (job.run.run s).2

/-- The contour of one building, which is not checked. -/
def ofBuilding (b : Building) : Skyline := empty.after (collector.project b)

/-- The upper contour of two skylines. -/
def merge (s t : Skyline) : Skyline :=
  empty.after (collector.merge s.points.toList t.points.toList)

end Skyline

/-! ### Collectors that withhold something -/

/-- The failure of a bounded collector that holds all it may. -/
inductive Full where
  | full
  deriving DecidableEq, Repr

namespace Collector

/-- An array that takes at most `bound` points. -/
def bounded (bound : Nat) : Collector (Array KeyPoint) Full where
  last points := points.back?
  push p := do
    if (← get).size < bound then modify (·.push p) else throw .full

/-- An array that shows no last point: every append is a push. -/
def forgetful : Collector (Array KeyPoint) Empty where
  last _ := none
  push p := modify (·.push p)

/-- An array whose append stores every point with its height negated; negation wraps at the least
height. -/
def reflected : Collector (Array KeyPoint) Empty where
  last points := points.back?
  push p := modify (·.push p)
  append x height := modify (·.push ⟨x, -height⟩)

end Collector

end Cityscape
