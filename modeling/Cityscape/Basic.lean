/-
**Buildings, key points and collectors.**

The input of the library is a list of axis-aligned buildings standing on a common ground line at
height `0`, and its output are the key points at which their upper contour changes its height.
Coordinates and heights are 64-bit signed integers, and the library never does arithmetic on them:
everything is decided by comparing them.

Every producer of key points hands them to a *collector*: a store that can say which point it took
last and that can take one more.  The rule that keeps a contour short stands here, in one place: a
point is appended only if it changes the height (`Cityscape.appendChange`).  A collector may bring
an append of its own in its stead.

The upper contour of two contours is found by sweeping over both from left to right
(`Cityscape.Collector.sweep`).  Where both have a point at one coordinate, both are consumed and a
single point is appended there; that is what keeps the coordinates strictly increasing.

* `Cityscape.Building`, `Cityscape.KeyPoint`, `Cityscape.Refusal` — the data;
* `Cityscape.Attempt`, `Cityscape.Collector` — a computation on a store that it keeps also when it
  fails, and a store of key points;
* `Cityscape.Collector.project`, `Cityscape.Collector.merge` — one building, and **the upper contour
  of two lists**, appended to what is collected.
-/

set_option relaxedAutoImplicit false
set_option autoImplicit false

namespace Cityscape

/-! ### Buildings -/

/-- A building: it stands on the coordinates from `left` up to but not including `right`, and its
roof is at `height`. -/
structure Building where
  /-- The left edge; the building stands on it. -/
  left : Int64
  /-- The right edge, where the contour falls back to the ground. -/
  right : Int64
  /-- The height of the roof. -/
  height : Int64
  deriving DecidableEq, Repr

namespace Building

/-- A building is valid if it has positive width and positive height. -/
def IsValid (b : Building) : Prop := b.left < b.right ∧ 0 < b.height

instance (b : Building) : Decidable b.IsValid :=
  inferInstanceAs (Decidable (_ ∧ _))

/-- The building stands on the coordinate `x`. -/
def Covers (b : Building) (x : Int64) : Prop := b.left ≤ x ∧ x < b.right

instance (b : Building) (x : Int64) : Decidable (b.Covers x) :=
  inferInstanceAs (Decidable (_ ∧ _))

end Building

/-! ### Key points -/

/-- A key point: from `x` on, up to the next key point, the contour is at `height`. -/
structure KeyPoint where
  /-- Where the contour changes. -/
  x : Int64
  /-- The height from there on. -/
  height : Int64
  deriving DecidableEq, Repr

namespace KeyPoint

/-- The key point that an untouched slot of storage holds. -/
def origin : KeyPoint := ⟨0, 0⟩

end KeyPoint

/-! ### Causes of refusal -/

/-- Why a computation is refused: more buildings, or more key points, are requested than there is
room for; a building has no width or no height, or starts to the left of the one before it; a key
point cannot stand where it does in a skyline.  No partial skyline accompanies a refusal. -/
inductive Refusal where
  | overCapacity (requested capacity : Nat)
  | degenerate (index : Nat) (building : Building)
  | unsorted (index : Nat)
  | malformed (index : Nat)
  deriving DecidableEq, Repr

namespace Refusal

/-- The text that reports a cause; it shows every number that the cause carries. -/
def message : Refusal → String
  | .overCapacity requested capacity =>
      s!"scratch capacity exceeded: requested {requested}, capacity {capacity}"
  | .degenerate index ⟨left, right, height⟩ =>
      s!"building {index} is degenerate: left={left} right={right} height={height}"
  | .unsorted index => s!"building {index} is not sorted by ascending left edge"
  | .malformed index => s!"key point {index} violates skyline ordering"

end Refusal

/-- Passes a valid building and refuses any other, naming it by its place in the input. -/
def Building.check (b : Building) (index : Nat) : Except Refusal Unit :=
  if b.IsValid then .ok () else .error (.degenerate index b)

/-! ### Collectors -/

/-- A computation on a store of type `σ`: it may fail with an `ε`, and the store it leaves behind
is there in either case. -/
abbrev Attempt (σ ε α : Type) : Type := ExceptT ε (StateM σ) α

/-- **Appending only changes**: pushes `(x, height)` unless the point taken last has that height
already. -/
def appendChange {σ ε : Type} (last : σ → Option KeyPoint) (push : KeyPoint → Attempt σ ε Unit)
    (x height : Int64) : Attempt σ ε Unit := do
  if (last (← get)).any (·.height == height) then
    pure ()
  else
    push ⟨x, height⟩

/-- A store of key points, on states of type `σ` and with failures of type `ε`. -/
structure Collector (σ ε : Type) where
  /-- The point taken last, if the store has one to show. -/
  last : σ → Option KeyPoint
  /-- Takes a point, whatever its height. -/
  push : KeyPoint → Attempt σ ε Unit
  /-- Takes `(x, height)` if that changes the height. -/
  append : Int64 → Int64 → Attempt σ ε Unit := appendChange last push

namespace Collector

variable {σ ε : Type} (c : Collector σ ε)

/-- Appends the rise and the fall of one building, valid or not. -/
def project (b : Building) : Attempt σ ε Unit := do
  c.append b.left b.height
  c.append b.right 0

/-- Appends a list of points one by one, up to the first failure. -/
def appendAll (points : List KeyPoint) : Attempt σ ε Unit :=
  points.forM fun p => c.append p.x p.height

/-! ### The sweep over two contours -/

/-- The sweep over what is left of two lists, whose current heights are `h₁` and `h₂`; it stops at
the first failure of the collector.  Once one side is used up, the points left on the other are
appended as they are, which is the maximum again if the side used up has ended on the ground. -/
def sweep (h₁ h₂ : Int64) : List KeyPoint → List KeyPoint → Attempt σ ε Unit
  | p :: ps, q :: qs =>
      if p.x < q.x then do
        c.append p.x (max p.height h₂)
        sweep p.height h₂ ps (q :: qs)
      else if q.x < p.x then do
        c.append q.x (max h₁ q.height)
        sweep h₁ q.height (p :: ps) qs
      else do
        c.append p.x (max p.height q.height)
        sweep p.height q.height ps qs
  | ps, [] => c.appendAll ps
  | [], qs => c.appendAll qs
termination_by ps qs => ps.length + qs.length

/-- **The merge** of two lists of key points, appended to what is collected; before their first
points both are at the ground. -/
def merge (left right : List KeyPoint) : Attempt σ ε Unit := c.sweep 0 0 left right

end Collector

end Cityscape
