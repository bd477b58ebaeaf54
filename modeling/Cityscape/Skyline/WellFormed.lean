/-
**Well-formed skylines.**

The sequences of key points that describe a contour are the *well-formed* ones: coordinates
increase strictly, neighbours differ in height, no height is negative, and the last point is on the
ground.  Where a sequence fails, the first place of failure tells it (`Cityscape.firstFlaw`).
-/

import Cityscape.Collector.Arrays

set_option relaxedAutoImplicit false
set_option autoImplicit false

namespace Cityscape

/-! ### Flaws -/

/-- The point `p` cannot follow `prev`: it does not lie to the right, or it keeps the height. -/
def Clashes (prev p : KeyPoint) : Prop := p.x ≤ prev.x ∨ p.height = prev.height

instance (prev p : KeyPoint) : Decidable (Clashes prev p) :=
  inferInstanceAs (Decidable (_ ∨ _))

/-- The first flaw among the points that follow `prev`, which stands at `index`.  A last point off
the ground is a flaw at its own index. -/
def flawAfter (prev : KeyPoint) (index : Nat) : List KeyPoint → Option Nat
  | [] => if prev.height = 0 then none else some index
  | p :: ps =>
      if p.height < 0 ∨ Clashes prev p then some (index + 1) else flawAfter p (index + 1) ps

/-- The first index at which a list of key points is not well-formed, if there is one. -/
def firstFlaw : List KeyPoint → Option Nat
  | [] => none
  | p :: ps => if p.height < 0 then some 0 else flawAfter p 0 ps

/-! ### Checks -/

namespace Skyline

/-- Adopts a sequence of key points if it is well-formed. -/
def ofPoints (points : Array KeyPoint) : Except Refusal Skyline :=
  match firstFlaw points.toList with
  | some index => .error (.malformed index)
  | none => .ok ⟨points⟩

/-- Whether the skyline is well-formed. -/
def isWellFormed (s : Skyline) : Bool := (firstFlaw s.points.toList).isNone

end Skyline

end Cityscape
