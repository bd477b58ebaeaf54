/-
**The storage of a computation.**

The working storage of a computation is a pair of arenas, each a row of numbered slots, which grow
together and never shrink; whatever a computation leaves in them stays until it is overwritten.  A
region is a run of slots in one arena, given by its first slot and their number.  Both are 64-bit,
and all arithmetic on them *saturates*: a result too large for a slot number is replaced by the
largest slot number (`Cityscape.slot`), one too small by `0`.

A computation over `n` buildings needs at most `2 * n` slots, because a building contributes at
most two key points.  It hands its two halves the same stretch of the *other* arena, cut in two
(`Cityscape.Region.halves`), so that it can read both results while it writes its own.

A writer fills the slots of one region from the first on.  It is opened only on a region that lies
inside its arena, and it refuses a point when the region is full, so that no slot outside the
region is ever touched.  A writer is a collector, like a skyline.

* `Cityscape.Region`, `Cityscape.Region.halves` — a run of slots, and where the halves write;
* `Cityscape.Storage.grow`, `Cityscape.Storage.read` — growing both arenas, and reading the first
  points of a region;
* `Cityscape.Writer`, `Cityscape.Storage.write` — a writer, and **a computation on the writer of a
  region**;
* `Cityscape.toNat_slot` — **saturation cuts off at the largest slot number**.
-/

import Cityscape.Basic

set_option relaxedAutoImplicit false
set_option autoImplicit false

namespace Cityscape

/-! ### Slot numbers -/

/-- The largest slot number. -/
def lastSlot : Nat := UInt64.size - 1

/-- The slot number nearest to `n`. -/
def slot (n : Nat) : UInt64 := .ofNat (min n lastSlot)

theorem toNat_slot (n : Nat) : (slot n).toNat = min n lastSlot := by
  have h : min n lastSlot < UInt64.size := by
    simp only [lastSlot, UInt64.size]
    omega
  exact UInt64.toNat_ofNat_of_lt' h

theorem toNat_slot_of_le {n : Nat} (h : n ≤ lastSlot) : (slot n).toNat = n := by
  rw [toNat_slot, Nat.min_eq_left h]

theorem toNat_le_lastSlot (a : UInt64) : a.toNat ≤ lastSlot := by
  have := a.toNat_lt
  simp only [lastSlot, UInt64.size]
  omega

/-! ### Arenas -/

/-- The two arenas of a computation's storage: a whole computation writes to the first one, and its
halves to the second one. -/
inductive Arena where
  | one
  | two
  deriving DecidableEq, Repr

/-- The arena that is not this one. -/
def Arena.other : Arena → Arena
  | .one => .two
  | .two => .one

@[simp] theorem Arena.other_other (a : Arena) : a.other.other = a := by cases a <;> rfl

/-! ### Regions -/

/-- A run of slots in one arena. -/
structure Region where
  /-- The arena that holds the slots. -/
  arena : Arena
  /-- The first slot. -/
  offset : UInt64
  /-- The number of slots. -/
  capacity : UInt64
  deriving DecidableEq, Repr

namespace Region

/-- The region of a whole computation over `n` buildings: two slots for each of them. -/
def root (n : Nat) : Region := ⟨.one, 0, slot (2 * n)⟩

/-- The slot after the last one. -/
def stop (r : Region) : UInt64 := slot (r.offset.toNat + r.capacity.toNat)

/-- The same slots in the other arena. -/
def opposite (r : Region) : Region := { r with arena := r.arena.other }

/-- The two regions share a slot. -/
def Overlaps (r s : Region) : Prop :=
  r.arena = s.arena ∧ 0 < r.capacity ∧ 0 < s.capacity ∧ r.offset < s.stop ∧ s.offset < r.stop

instance (r s : Region) : Decidable (r.Overlaps s) :=
  inferInstanceAs (Decidable (_ ∧ _))

/-- The regions of the two halves of a computation that writes to `r`: both in the other arena, the
first half with two slots for each of its `leftSize` buildings, the second half with the slots that
follow. -/
def halves (r : Region) (leftSize : Nat) : Region × Region :=
  let leftSlots := slot (2 * leftSize)
  ({ r.opposite with capacity := leftSlots },
   { r.opposite with
      offset := slot (r.offset.toNat + leftSlots.toNat)
      capacity := slot (r.capacity.toNat - leftSlots.toNat) })

theorem toNat_stop (r : Region) : r.stop.toNat = min (r.offset.toNat + r.capacity.toNat) lastSlot :=
  toNat_slot _

theorem offset_le_stop (r : Region) : r.offset.toNat ≤ r.stop.toNat := by
  have := toNat_le_lastSlot r.offset
  rw [toNat_stop]
  omega

end Region

/-! ### Storage -/

/-- The first `len` points of a region, if they fall neither outside the region nor outside the
arena. -/
def Region.read (r : Region) (slots : Array KeyPoint) (len : Nat) : Option (Array KeyPoint) :=
  if len ≤ r.capacity.toNat ∧ r.offset.toNat + len ≤ slots.size then
    some (slots.extract r.offset.toNat (r.offset.toNat + len))
  else none

/-- The two arenas of key points. -/
structure Storage where
  /-- The slots of the first arena. -/
  one : Array KeyPoint
  /-- The slots of the second arena. -/
  two : Array KeyPoint
  deriving DecidableEq, Repr

namespace Storage

/-- Storage without slots. -/
def empty : Storage := ⟨#[], #[]⟩

/-- The slots of one of the arenas. -/
def arena (s : Storage) : Arena → Array KeyPoint
  | .one => s.one
  | .two => s.two

/-- The number of slots of each arena. -/
def slots (s : Storage) : Nat := s.one.size

/-- Brings an arena to `n` slots: it loses those beyond, or gains untouched ones at its end. -/
def resize (n : Nat) (slots : Array KeyPoint) : Array KeyPoint :=
  slots.take n ++ Array.replicate (n - slots.size) .origin

/-- Grows both arenas to at least `n` slots.  Only the first one is asked for its size, so this is
for arenas that are level. -/
def grow (n : Nat) (s : Storage) : Storage :=
  if s.slots < n then ⟨resize n s.one, resize n s.two⟩ else s

/-- Storage with `n` untouched slots in each arena. -/
def fresh (n : Nat) : Storage := empty.grow n

/-- The first `len` points of a region, if they fall neither outside the region nor outside its
arena. -/
def read (s : Storage) (r : Region) (len : Nat) : Option (Array KeyPoint) :=
  r.read (s.arena r.arena) len

/-- A text that names the storage and the number of its slots, and leaves out what they hold. -/
def describe (s : Storage) : String :=
  "ScratchBuffers \x7b slots: " ++ toString s.slots ++ ", .. \x7d"

end Storage

/-! ### Writers -/

/-- A sequence of key points under construction, in `capacity` slots of an arena from `offset`
on. -/
structure Writer where
  /-- All slots of the arena. -/
  slots : Array KeyPoint
  /-- The first slot to write. -/
  offset : Nat
  /-- The number of slots that may be written. -/
  capacity : Nat
  /-- The number of points stored so far. -/
  len : Nat
  /-- The points stored are in slots that may be written. -/
  len_le : len ≤ capacity
  /-- The slots that may be written are in the arena. -/
  fits : offset + capacity ≤ slots.size

namespace Writer

/-- The writer on a region, with nothing stored yet; refused if the region reaches beyond the
arena. -/
def openOn (slots : Array KeyPoint) (r : Region) : Except Refusal Writer :=
  if h : r.stop.toNat ≤ slots.size then
    .ok {
      slots
      offset := r.offset.toNat
      capacity := r.stop.toNat - r.offset.toNat
      len := 0
      len_le := Nat.zero_le _
      fits := by have := r.offset_le_stop; omega }
  else .error (.overCapacity r.stop.toNat slots.size)

/-- The point stored last. -/
def last (w : Writer) : Option KeyPoint :=
  match w.len with
  | 0 => none
  | n + 1 => w.slots[w.offset + n]?

/-- Stores a point in the next slot, if there is one. -/
def push (p : KeyPoint) (w : Writer) : Except Refusal Unit × Writer :=
  if h : w.len < w.capacity then
    have inArena : w.offset + w.len < w.slots.size := by have := w.fits; omega
    (.ok (), { w with
      slots := w.slots.set (w.offset + w.len) p inArena
      len := w.len + 1
      len_le := h
      fits := by rw [Array.size_set]; exact w.fits })
  else (.error (.overCapacity (w.len + 1) w.capacity), w)

/-- A writer takes points until its region is full. -/
def collector : Collector Writer Refusal where
  last := last
  push := push

/-- Runs a computation on the writer of a region and returns the arena as it leaves it. -/
def fill {α : Type} (slots : Array KeyPoint) (r : Region) (job : Attempt Writer Refusal α) :
    Except Refusal α × Array KeyPoint :=
  match openOn slots r with
  | .error e => (.error e, slots)
  | .ok w => let (result, w) := job.run.run w; (result, w.slots)

end Writer

/-- **Writes to a region**: runs a computation on the writer of the region.  The computation is
handed the other arena, which it may read; if the writer is refused, nothing changes. -/
def Storage.write {α : Type} (r : Region) (job : Array KeyPoint → Attempt Writer Refusal α) :
    Attempt Storage Refusal α := fun ⟨one, two⟩ =>
  match r.arena with
  | .one => let (result, one) := Writer.fill one r (job two); (result, ⟨one, two⟩)
  | .two => let (result, two) := Writer.fill two r (job one); (result, ⟨one, two⟩)

end Cityscape
