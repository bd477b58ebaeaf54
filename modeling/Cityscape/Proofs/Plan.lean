/-
**Where the calls of a plan write.**

A plan is the list of a tree in which every inner call is followed by its two halves.  Told by the
number of buildings instead of the last one, a call for `n` buildings has a half for `leftSize n`
and one for the rest (`Cityscape.planFrom_of_two_le`), and everything about plans is shown by
induction along these halves (`Cityscape.planFrom_induction`).

In a region with room for its buildings, each call writes two slots further on for every building
that comes before its own (`Cityscape.Placement.Within`).

Main definitions:

* `Cityscape.Placement.count`, `Cityscape.Placement.slice` — how many buildings a call is for, and
  which ones;
* `Cityscape.Placement.Within` — the place of a call in the plan for some stretch of buildings.

Main results:

* `Cityscape.planFrom_induction` — **induction along the halves of a plan**;
* `Cityscape.within_of_mem_planFrom` — **where each call of a plan writes**.
-/

import Cityscape.Halving.Plan
import Cityscape.Proofs.Regions

set_option relaxedAutoImplicit false
set_option autoImplicit false

namespace Cityscape

/-! ### Induction along the halves -/

theorem planFrom_self (first depth : Nat) (r : Region) :
    planFrom first first depth r = [⟨first, first, depth, r⟩] := by
  rw [planFrom, if_neg (Nat.lt_irrefl first)]

/-- The middle one of `n` buildings is the last one of the first half. -/
theorem first_add_half {n : Nat} (h : 0 < n) (first : Nat) :
    first + (first + n - 1 - first) / 2 = first + leftSize n - 1 := by
  rw [leftSize]
  omega

/-- A call for two or more buildings is followed by its two halves. -/
theorem planFrom_of_two_le {n : Nat} (h : 2 ≤ n) (first depth : Nat) (r : Region) :
    planFrom first (first + n - 1) depth r =
      ⟨first, first + n - 1, depth, r⟩ ::
        (planFrom first (first + leftSize n - 1) (depth + 1) (r.halves (leftSize n)).1 ++
          planFrom (first + leftSize n) (first + leftSize n + (n - leftSize n) - 1) (depth + 1)
            (r.halves (leftSize n)).2) := by
  have hlt := leftSize_lt h
  have hmid := first_add_half (Nat.lt_of_lt_of_le Nat.zero_lt_two h) first
  have hsize : first + leftSize n - 1 - first + 1 = leftSize n := by
    rw [leftSize]
    omega
  have hnext : first + leftSize n - 1 + 1 = first + leftSize n := by
    rw [leftSize]
    omega
  have hlast : first + leftSize n + (n - leftSize n) - 1 = first + n - 1 := by omega
  rw [planFrom, if_pos (by omega)]
  simp only [hmid, hsize, hnext, hlast]

/-- **Induction along the halves of a plan**, for the calls for `n` buildings from `first` on. -/
theorem planFrom_induction {P : Nat → Nat → Nat → Region → List Placement → Prop}
    (single : ∀ first depth r, P first 1 depth r [⟨first, first, depth, r⟩])
    (halves : ∀ first n depth r ps qs, 2 ≤ n →
      P first (leftSize n) (depth + 1) (r.halves (leftSize n)).1 ps →
      P (first + leftSize n) (n - leftSize n) (depth + 1) (r.halves (leftSize n)).2 qs →
      P first n depth r (⟨first, first + n - 1, depth, r⟩ :: (ps ++ qs)))
    {n : Nat} (hn : 0 < n) (first depth : Nat) (r : Region) :
    P first n depth r (planFrom first (first + n - 1) depth r) := by
  induction n using Nat.strongRecOn generalizing first depth r with
  | _ n ih =>
      by_cases h : 2 ≤ n
      · have hlt := leftSize_lt h
        have hpos := leftSize_pos n
        rw [planFrom_of_two_le h]
        exact halves _ _ _ _ _ _ h (ih _ hlt hpos ..) (ih _ (by omega) (by omega) ..)
      · obtain rfl : n = 1 := by omega
        rw [Nat.add_sub_cancel, planFrom_self]
        exact single first depth r

/-! ### The place of a call -/

namespace Placement

/-- The number of buildings of a call. -/
def count (p : Placement) : Nat := p.last + 1 - p.first

/-- The buildings of a call. -/
def slice (p : Placement) (bs : List Building) : List Building := (bs.drop p.first).take p.count

theorem slice_sublist (p : Placement) (bs : List Building) : (p.slice bs).Sublist bs :=
  (List.take_sublist ..).trans (List.drop_sublist ..)

theorem length_slice_le (p : Placement) (bs : List Building) : (p.slice bs).length ≤ p.count := by
  rw [slice, List.length_take]
  exact Nat.min_le_left ..

/-- The first call of a plan is for all of its buildings. -/
theorem slice_mk {first n depth : Nat} (hn : 0 < n) (r : Region) (bs : List Building) :
    (⟨first, first + n - 1, depth, r⟩ : Placement).slice bs = (bs.drop first).take n := by
  have hcount : first + n - 1 + 1 - first = n := by omega
  rw [slice, count, hcount]

/-- The call is one of those for `n` buildings from `first` on, at `depth` or below, and writes two
slots behind the start of the region `r` for each building before its own. -/
structure Within (p : Placement) (first n depth : Nat) (r : Region) : Prop where
  /-- The buildings of the call are among them. -/
  first_le : first ≤ p.first
  /-- The call is for at least one building. -/
  ordered : p.first ≤ p.last
  /-- The buildings of the call are among them. -/
  last_lt : p.last < first + n
  /-- The call is not above the given depth. -/
  depth_le : depth ≤ p.depth
  /-- The first slot that it writes. -/
  offset_eq : p.region.offset.toNat = r.offset.toNat + 2 * (p.first - first)

/-- The share of a call lies in that of the stretch of buildings. -/
theorem Within.share {p : Placement} {first n depth : Nat} {r : Region}
    (h : p.Within first n depth r) : r.offset.toNat ≤ p.region.offset.toNat ∧
      p.region.offset.toNat + 2 * p.count ≤ r.offset.toNat + 2 * n := by
  obtain ⟨hfirst, hordered, hlast, -, hoffset⟩ := h
  rw [count]
  omega

end Placement

/-- **Where each call of a plan writes.** -/
theorem within_of_mem_planFrom {first n depth slots : Nat} {r : Region} (hr : r.HasRoom n slots)
    (hn : 0 < n) :
    ∀ p ∈ planFrom first (first + n - 1) depth r, p.Within first n depth r := by
  refine planFrom_induction (P := fun first n depth r ps =>
    r.HasRoom n slots → ∀ p ∈ ps, p.Within first n depth r) ?_ ?_ hn first depth r hr
  · intro first depth r _ p hp
    obtain rfl := List.mem_singleton.1 hp
    exact ⟨Nat.le_refl _, Nat.le_refl _, Nat.lt_add_one _, Nat.le_refl _, by simp⟩
  · intro first n depth r ps qs hn ihl ihr hr p hp
    have hlt := leftSize_lt hn
    have hright := hr.offset_right (Nat.le_of_lt hlt)
    rcases List.mem_cons.1 hp with rfl | hp
    · exact ⟨Nat.le_refl _, by simp only; omega, by simp only; omega, Nat.le_refl _, by simp⟩
    · rcases List.mem_append.1 hp with hp | hp
      · obtain ⟨hfirst, hordered, hlast, hdepth, hoffset⟩ := ihl (hr.left (Nat.le_of_lt hlt)) p hp
        rw [Region.halves_fst_offset] at hoffset
        exact ⟨hfirst, hordered, by omega, by omega, hoffset⟩
      · obtain ⟨hfirst, hordered, hlast, hdepth, hoffset⟩ := ihr (hr.right (Nat.le_of_lt hlt)) p hp
        exact ⟨by omega, hordered, by omega, by omega, by omega⟩

end Cityscape
