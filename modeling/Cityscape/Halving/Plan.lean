/-
**Halving a computation.**

A list of buildings is halved until single buildings are left; a single building is projected, and
the skylines of two halves are merged.  Every call writes its skyline to a region, in the arena
that its halves do not write to, so nothing but the two arenas is needed.

* `Cityscape.plan` — **the plan**: every call with its region, a call before its two halves, without
  touching any storage;
* `Cityscape.compose` — **the recursion**: the skyline of a list of buildings, written to a region.
-/

import Cityscape.Storage

set_option relaxedAutoImplicit false
set_option autoImplicit false

namespace Cityscape

/-! ### The plan of a computation -/

/-- Where one call of a computation writes. -/
structure Placement where
  /-- The first building of the call. -/
  first : Nat
  /-- The last building of the call. -/
  last : Nat
  /-- The number of calls that it is nested in. -/
  depth : Nat
  /-- The region that it writes to. -/
  region : Region
  deriving DecidableEq, Repr

/-- The calls below and including the one for the buildings `first` to `last`; of an odd number of
buildings, the first half gets one more. -/
def planFrom (first last depth : Nat) (region : Region) : List Placement :=
  ⟨first, last, depth, region⟩ ::
    if first < last then
      let mid := first + (last - first) / 2
      let (left, right) := region.halves (mid - first + 1)
      planFrom first mid (depth + 1) left ++ planFrom (mid + 1) last (depth + 1) right
    else []
termination_by last - first

/-- The plan of a computation over `n` buildings. -/
def plan (n : Nat) : List Placement :=
  if n = 0 then [] else planFrom 0 (n - 1) 0 (.root n)

/-! ### Composing a skyline -/

/-- The first `len` points of a region; refused if they are not there. -/
def fetch (r : Region) (len : Nat) : Attempt Storage Refusal (Array KeyPoint) := do
  match (← get).read r len with
  | some points => pure points
  | none => throw (.overCapacity len r.capacity.toNat)

/-- Writes the skyline of a list of buildings to the region `out` and returns its length.  Of an
odd number of buildings, the first half gets one more. -/
def compose (out : Region) : List Building → Attempt Storage Refusal Nat
  | [] => pure 0
  | [b] => Storage.write out fun _ => do
      Writer.collector.project b
      return (← get).len
  | b :: c :: rest => do
      let buildings := b :: c :: rest
      let leftSize := (buildings.length - 1) / 2 + 1
      let (left, right) := out.halves leftSize
      let leftLen ← compose left (buildings.take leftSize)
      let rightLen ← compose right (buildings.drop leftSize)
      let leftPoints ← fetch left leftLen
      let rightPoints ← fetch right rightLen
      Storage.write out fun _ => do
        Writer.collector.merge leftPoints.toList rightPoints.toList
        return (← get).len
termination_by buildings => buildings.length
decreasing_by
  all_goals
    simp only [List.length_take, List.length_drop, List.length_cons]
    omega

end Cityscape
