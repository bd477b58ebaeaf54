/-
**Drawing buildings and skylines.**

A building is drawn as a rectangle, a skyline as a closed path that follows the contour and returns
along the ground (`Cityscape.outline`).  Integers become coordinates of the drawing through a given
function, so that the shapes do not depend on how a drawing represents numbers.
-/

import Cityscape.Basic

set_option relaxedAutoImplicit false
set_option autoImplicit false

namespace Cityscape

variable {α : Type}

/-! ### Rectangles -/

/-- A rectangle, by two opposite corners. -/
structure Rect (α : Type) where
  /-- The first coordinate of the first corner. -/
  x₀ : α
  /-- The second coordinate of the first corner. -/
  y₀ : α
  /-- The first coordinate of the second corner. -/
  x₁ : α
  /-- The second coordinate of the second corner. -/
  y₁ : α
  deriving DecidableEq, Repr

/-- The rectangle of a building, from the ground to the roof. -/
def Building.rect (coord : Int64 → α) (ground : α) (b : Building) : Rect α :=
  ⟨coord b.left, ground, coord b.right, coord b.height⟩

/-! ### Paths -/

/-- One stroke of a path, which starts at a point; a straight line leads on to another one, or back
to the start. -/
inductive Stroke (α : Type) where
  | start (x y : α)
  | line (x y : α)
  | close
  deriving DecidableEq, Repr

/-- The strokes over points that follow a contour at `height`: at each of them along to its
coordinate, then up or down to its height. -/
def strokes (coord : Int64 → α) (height : Int64) : List KeyPoint → List (Stroke α)
  | [] => [.close]
  | p :: ps =>
      .line (coord p.x) (coord height) :: .line (coord p.x) (coord p.height) ::
        strokes coord p.height ps

/-- The outline of a list of key points: it starts on the ground below the first of them, and there
is none without key points. -/
def outline (coord : Int64 → α) (ground : α) : List KeyPoint → List (Stroke α)
  | [] => []
  | p :: ps => .start (coord p.x) ground :: strokes coord 0 (p :: ps)

end Cityscape
