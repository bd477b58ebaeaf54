/-
**Regions with room for a computation.**

A region has room for `n` buildings if it has two slots for each of them and all of its slots are in
storage (`Cityscape.Region.HasRoom`).  Then no arithmetic on it saturates, and its halves have room
for the halves of the buildings.

Less is needed for the halves to fill the region.  Wherever they are cut off, the second half starts
where the first one stops, and it stops where the region does as long as the region goes on for long
enough (`Cityscape.Region.Stretches`).

Main definitions:

* `Cityscape.Region.HasRoom` — a region with room for so many buildings;
* `Cityscape.Region.Stretches` — a region that goes on for long enough, or up to the largest slot
  number;
* `Cityscape.leftSize` — how many buildings go to the first half.

Main results:

* `Cityscape.Region.HasRoom.left`, `Cityscape.Region.HasRoom.right` — **the halves of a region have
  room for the halves of a computation**;
* `Cityscape.Region.HasRoom.offset_right` — the second half starts two slots for each building
  behind the first;
* `Cityscape.Region.stop_halves_fst`, `Cityscape.Region.Stretches.stop_right` — where the halves
  stop, also if slot numbers are cut off.
-/

import Cityscape.Storage
import Mathlib.Algebra.Group.Nat.Defs

set_option relaxedAutoImplicit false
set_option autoImplicit false

namespace Cityscape

/-- How many of `n` buildings go to the first half; of an odd number it gets one more. -/
def leftSize (n : Nat) : Nat := (n - 1) / 2 + 1

theorem leftSize_lt {n : Nat} (h : 2 ≤ n) : leftSize n < n := by
  rw [leftSize]
  omega

theorem leftSize_pos (n : Nat) : 0 < leftSize n := Nat.succ_pos _

/-- Two slots for each of fewer than `2 ^ 63` buildings have a number. -/
theorem two_mul_lt_lastSlot {n : Nat} (h : n < 2 ^ 63) : 2 * n < lastSlot := by
  simp only [lastSlot, UInt64.size]
  omega

namespace Region

/-- The region has two slots for each of `n` buildings, and lies within the first `slots` slots, all
of which have a number. -/
structure HasRoom (r : Region) (n slots : Nat) : Prop where
  /-- There are two slots for each building. -/
  room : 2 * n ≤ r.capacity.toNat
  /-- The region lies within the first `slots` slots. -/
  inside : r.offset.toNat + r.capacity.toNat ≤ slots
  /-- The slot after the last one has a number. -/
  numbered : r.offset.toNat + r.capacity.toNat ≤ lastSlot

theorem halves_fst_offset (r : Region) (m : Nat) : (r.halves m).1.offset = r.offset := rfl

theorem halves_fst_capacity (r : Region) (m : Nat) : (r.halves m).1.capacity = slot (2 * m) := rfl

theorem halves_snd_offset (r : Region) (m : Nat) :
    (r.halves m).2.offset = slot (r.offset.toNat + (slot (2 * m)).toNat) := rfl

theorem halves_snd_capacity (r : Region) (m : Nat) :
    (r.halves m).2.capacity = slot (r.capacity.toNat - (slot (2 * m)).toNat) := rfl

namespace HasRoom

variable {r : Region} {n m slots : Nat}

theorem stop_eq (h : r.HasRoom n slots) : r.stop.toNat = r.offset.toNat + r.capacity.toNat := by
  rw [toNat_stop, Nat.min_eq_left h.numbered]

/-- Two slots for each of `m` buildings have numbers, if the region has room for them. -/
theorem toNat_slot_two_mul (h : r.HasRoom n slots) (hm : m ≤ n) :
    (slot (2 * m)).toNat = 2 * m := by
  have hroom := h.room
  have hnumbered := h.numbered
  exact toNat_slot_of_le (by omega)

theorem offset_right (h : r.HasRoom n slots) (hm : m ≤ n) :
    (r.halves m).2.offset.toNat = r.offset.toNat + 2 * m := by
  have hroom := h.room
  have hnumbered := h.numbered
  rw [halves_snd_offset, h.toNat_slot_two_mul hm]
  exact toNat_slot_of_le (by omega)

theorem capacity_right (h : r.HasRoom n slots) (hm : m ≤ n) :
    (r.halves m).2.capacity.toNat = r.capacity.toNat - 2 * m := by
  have hnumbered := h.numbered
  rw [halves_snd_capacity, h.toNat_slot_two_mul hm]
  exact toNat_slot_of_le (by omega)

/-- **The first half has room for the first buildings.** -/
theorem left (h : r.HasRoom n slots) (hm : m ≤ n) : (r.halves m).1.HasRoom m slots := by
  obtain ⟨hroom, hinside, hnumbered⟩ := h
  have hcap : (r.halves m).1.capacity.toNat = 2 * m := by
    rw [halves_fst_capacity, toNat_slot_of_le (by omega)]
  refine ⟨by omega, ?_, ?_⟩ <;> rw [halves_fst_offset, hcap] <;> omega

/-- **The second half has room for the other buildings.** -/
theorem right (h : r.HasRoom n slots) (hm : m ≤ n) : (r.halves m).2.HasRoom (n - m) slots := by
  have hoffset := h.offset_right hm
  have hcap := h.capacity_right hm
  obtain ⟨hroom, hinside, hnumbered⟩ := h
  exact ⟨by omega, by omega, by omega⟩

theorem left_take {bs : List Building} (h : r.HasRoom bs.length slots) (hm : m ≤ bs.length) :
    (r.halves m).1.HasRoom (bs.take m).length slots := by
  rw [List.length_take_of_le hm]
  exact h.left hm

theorem right_drop {bs : List Building} (h : r.HasRoom bs.length slots) (hm : m ≤ bs.length) :
    (r.halves m).2.HasRoom (bs.drop m).length slots := by
  rw [List.length_drop]
  exact h.right hm

/-- The region of a whole computation has room for it. -/
theorem root (h : 2 * n ≤ lastSlot) (hslots : 2 * n ≤ slots) : (Region.root n).HasRoom n slots := by
  have hcap : (Region.root n).capacity.toNat = 2 * n := toNat_slot_of_le h
  have hoffset : (Region.root n).offset.toNat = 0 := rfl
  exact ⟨by omega, by omega, by omega⟩

end HasRoom

/-! ### Regions that go on for long enough -/

/-- The region has two slots for each of `n` buildings, or all slots that have a number. -/
def Stretches (r : Region) (n : Nat) : Prop :=
  min (r.offset.toNat + 2 * n) lastSlot ≤ r.stop.toNat

theorem stretches_root (n : Nat) : (root n).Stretches n := by
  have hcap : (root n).capacity.toNat = min (2 * n) lastSlot := toNat_slot _
  have hoffset : (root n).offset.toNat = 0 := rfl
  rw [Stretches, toNat_stop, hcap, hoffset]
  omega

theorem toNat_stop_root_le (n : Nat) : (root n).stop.toNat ≤ (root n).capacity.toNat := by
  have hoffset : (root n).offset.toNat = 0 := rfl
  rw [toNat_stop, hoffset]
  omega

/-- The second half starts where the first one stops, also if that slot number is cut off. -/
theorem stop_halves_fst (r : Region) (m : Nat) : (r.halves m).1.stop = (r.halves m).2.offset := rfl

theorem toNat_stop_halves_fst (r : Region) (m : Nat) :
    (r.halves m).1.stop.toNat = min (r.offset.toNat + 2 * m) lastSlot := by
  have hoffset := toNat_le_lastSlot r.offset
  rw [toNat_stop, halves_fst_offset, halves_fst_capacity, toNat_slot]
  omega

namespace Stretches

variable {r : Region} {n m : Nat}

theorem of_two_mul_le (h : 2 * n ≤ r.capacity.toNat) : r.Stretches n := by
  rw [Stretches, toNat_stop]
  omega

theorem left (r : Region) (m : Nat) : (r.halves m).1.Stretches m :=
  Nat.le_of_eq (r.toNat_stop_halves_fst m).symm

theorem stop_left_le (h : r.Stretches n) (hm : m ≤ n) :
    (r.halves m).1.stop.toNat ≤ r.stop.toNat := by
  rw [toNat_stop_halves_fst]
  rw [Stretches] at h
  omega

/-- The second half stops where the whole region does. -/
theorem stop_right (h : r.Stretches n) (hm : m ≤ n) :
    (r.halves m).2.stop.toNat = r.stop.toNat := by
  rw [Stretches, toNat_stop] at h
  rw [toNat_stop, toNat_stop, halves_snd_offset, halves_snd_capacity, toNat_slot, toNat_slot,
    toNat_slot]
  have := toNat_le_lastSlot r.capacity
  omega

theorem right (h : r.Stretches n) (hm : m ≤ n) : (r.halves m).2.Stretches (n - m) := by
  have hoffset := r.toNat_stop_halves_fst m
  rw [stop_halves_fst] at hoffset
  have hstop := h.stop_right hm
  rw [Stretches] at h ⊢
  rw [hstop, hoffset]
  omega

end Stretches

end Region

end Cityscape
