/-
**The bounds of reading and writing.**

A region may have any offset and any capacity, so its end may lie beyond the arena and even beyond
the largest slot number.  Writing and reading both have to notice, and they do it in different
ways.  A writer asks for the end of its region, which is cut off at the largest slot number, and is
refused if the arena is shorter; a reader asks for the end of the points that it is to read, which
must be a slot number, and need not reach the end of the region.  Arenas are never so long that the
cut off end would fit (`Cityscape.Writer.exists_openOn_iff`), and an end that is no slot number
would not fit either (`Cityscape.Region.readChecked_eq`), so both come down to comparing numbers
without any bound.

That the two agree on where points are is then a matter of what a writer stores.  It is not said by
the arena that it leaves, which is what a reader looks at, but by a record kept beside the writer,
into which a point is entered when a push has stored it (`Cityscape.Writer.recording`).  Keeping
the record changes nothing, and the record lists the points that the writer holds
(`Cityscape.Writer.Records`).

Main definitions:

* `Cityscape.checkedSum`, `Cityscape.Region.readChecked` — a sum that must be a slot number, and
  reading by slot numbers alone;
* `Cityscape.Writer.recording` — a writer with a record of the points that it has stored.

Main results:

* `Cityscape.Region.readChecked_eq`, `Cityscape.Region.read_eq_some_iff` — reading by slot numbers
  is reading, and **what a reader gets**;
* `Cityscape.Writer.exists_openOn_iff` — **which regions a writer is opened on**;
* `Cityscape.Writer.Holds.recording_afterAll` — a record of any requests is one of the points held;
* `Cityscape.Region.bounds_checks_are_exact` — **the bounds checks are exact**, and reading agrees
  with writing.
-/

import Cityscape.Proofs.Refinement

set_option relaxedAutoImplicit false
set_option autoImplicit false

namespace Cityscape

/-! ### Reading -/

/-- The sum of two slot numbers, if it is one.  A sum that is not wraps, and is then smaller than
either. -/
def checkedSum (a b : UInt64) : Option UInt64 := if a ≤ a + b then some (a + b) else none

theorem checkedSum_eq_some_iff {a b c : UInt64} :
    checkedSum a b = some c ↔ a.toNat + b.toNat = c.toNat := by
  have ha := a.toNat_lt
  have hb := b.toNat_lt
  have hc := c.toNat_lt
  rw [checkedSum, Option.ite_none_right_eq_some, Option.some.injEq, UInt64.le_iff_toNat_le,
    ← UInt64.toNat_inj, UInt64.toNat_add]
  omega

theorem checkedSum_eq_none_iff {a b : UInt64} :
    checkedSum a b = none ↔ lastSlot < a.toNat + b.toNat := by
  have ha := a.toNat_lt
  have hb := b.toNat_lt
  have hlast : lastSlot = 2 ^ 64 - 1 := rfl
  rw [checkedSum, ite_eq_right_iff, UInt64.le_iff_toNat_le, UInt64.toNat_add]
  simp only [reduceCtorEq, imp_false]
  omega

namespace Region

variable {r : Region} {slots : Array KeyPoint}

/-- The first `len` points of a region, read by slot numbers alone: the end of the points must be a
slot number, and must not lie beyond the arena. -/
def readChecked (r : Region) (slots : Array KeyPoint) (len : UInt64) : Option (Array KeyPoint) :=
  if r.capacity < len then none
  else (checkedSum r.offset len).bind fun stop =>
    if r.offset ≤ stop ∧ stop.toNat ≤ slots.size then
      some (slots.extract r.offset.toNat stop.toNat)
    else none

/-- **Reading by slot numbers is reading**, in any arena whose slots have numbers. -/
theorem readChecked_eq (hslots : slots.size < lastSlot) (len : UInt64) :
    r.readChecked slots len = r.read slots len.toNat := by
  rw [readChecked, read]
  by_cases hroom : r.capacity < len
  · rw [UInt64.lt_iff_toNat_lt] at hroom
    rw [if_pos (UInt64.lt_iff_toNat_lt.2 hroom), if_neg (by omega)]
  rw [if_neg hroom]
  rw [UInt64.lt_iff_toNat_lt, Nat.not_lt] at hroom
  cases hsum : checkedSum r.offset len with
  | none =>
      have hover := checkedSum_eq_none_iff.1 hsum
      rw [Option.bind_none, if_neg (by omega)]
  | some stop =>
      have hstop := checkedSum_eq_some_iff.1 hsum
      have hle : r.offset ≤ stop := by
        rw [UInt64.le_iff_toNat_le]
        omega
      rw [Option.bind_some, hstop]
      by_cases hfits : stop.toNat ≤ slots.size
      · rw [if_pos ⟨hle, hfits⟩, if_pos ⟨hroom, hfits⟩]
      · rw [if_neg fun h => hfits h.2, if_neg fun h => hfits h.2]

/-- **What a reader gets**: points from the slots of the region, one behind the other from the
first on, if the region and the arena have so many. -/
theorem read_eq_some_iff {len : Nat} {points : Array KeyPoint} :
    r.read slots len = some points ↔
      (len ≤ r.capacity.toNat ∧ r.offset.toNat + len ≤ slots.size) ∧ points.size = len ∧
        ∀ i, i < len → points[i]? = slots[r.offset.toNat + i]? := by
  rw [read, Option.ite_none_right_eq_some, Option.some.injEq]
  refine and_congr_right ?_
  rintro ⟨-, hfits⟩
  have hsize : (slots.extract r.offset.toNat (r.offset.toNat + len)).size = len := by
    rw [Array.size_extract]
    omega
  have hslot : ∀ i, i < len → (slots.extract r.offset.toNat (r.offset.toNat + len))[i]? =
      slots[r.offset.toNat + i]? := by
    intro i hi
    rw [Array.getElem?_extract, if_pos (by omega)]
  constructor
  · rintro rfl
    exact ⟨hsize, hslot⟩
  · rintro ⟨hpoints, hpoint⟩
    refine Array.ext_getElem? fun i => ?_
    by_cases hi : i < len
    · rw [hslot i hi, hpoint i hi]
    · rw [Array.getElem?_eq_none (by omega), Array.getElem?_eq_none (by omega)]

/-- A reader gets something exactly if the region and the arena have so many slots. -/
theorem exists_read_iff {len : Nat} : (∃ points, r.read slots len = some points) ↔
    len ≤ r.capacity.toNat ∧ r.offset.toNat + len ≤ slots.size := by
  constructor
  · rintro ⟨points, h⟩
    exact (read_eq_some_iff.1 h).1
  · intro h
    exact ⟨_, if_pos h⟩

end Region

/-! ### Opening a writer -/

namespace Writer

variable {r : Region} {slots : Array KeyPoint}

/-- **Which regions a writer is opened on**: those that lie inside the arena.  An end beyond the
largest slot number is cut off, but does not come to lie inside the arena by that. -/
theorem exists_openOn_iff (hslots : slots.size < lastSlot) :
    (∃ w, openOn slots r = .ok w) ↔ r.offset.toNat + r.capacity.toNat ≤ slots.size := by
  have hstop := r.toNat_stop
  constructor
  · rintro ⟨w, hopen⟩
    have hfits := (holds_of_openOn hopen).1
    omega
  · intro hfits
    have hstop_le : r.stop.toNat ≤ slots.size := by omega
    obtain ⟨w, hopen, -⟩ := openOn_holds hstop_le
    exact ⟨w, hopen⟩

/-- A writer on a region that reaches beyond the arena is refused, with the end of the region and
the size of the arena. -/
theorem openOn_eq_error (h : slots.size < r.stop.toNat) :
    openOn slots r = .error (.overCapacity r.stop.toNat slots.size) := dif_neg (Nat.not_le.2 h)

end Writer

/-! ### A record of what is stored -/

namespace Writer

/-- A writer with a record of the points that it has stored: a point is entered when a push of it
has succeeded. -/
def recording : Collector (Writer × List KeyPoint) Refusal where
  last s := s.1.last
  push p s :=
    let (result, w) := push p s.1
    (result, w, s.2 ++ match result with | .ok () => [p] | .error _ => [])

/-- A computation that keeps a record does what the other one does without, with the same result
and the same writer, and a record that lists the points held still does so afterwards. -/
def Records (x : Attempt (Writer × List KeyPoint) Refusal Unit)
    (y : Attempt Writer Refusal Unit) : Prop :=
  ∀ ⦃w : Writer⦄ ⦃base : Array KeyPoint⦄ ⦃offset capacity : Nat⦄ ⦃kept : List KeyPoint⦄,
    w.Holds base offset capacity kept → ∃ kept',
      x.run.run (w, kept) = ((y.run.run w).1, (y.run.run w).2, kept') ∧
        (y.run.run w).2.Holds base offset capacity kept'

theorem Records.pure : Records (pure ()) (pure ()) := fun _ _ _ _ _ h => ⟨_, rfl, h⟩

theorem Records.bind {x x' : Attempt (Writer × List KeyPoint) Refusal Unit}
    {y y' : Attempt Writer Refusal Unit} (h : Records x y) (h' : Records x' y') :
    Records (do x; x') (do y; y') := by
  intro w base offset capacity kept hw
  obtain ⟨kept₁, hx, hw₁⟩ := h hw
  rcases hy : y.run.run w with ⟨result, w₁⟩
  rw [hy] at hx hw₁
  cases result with
  | error e =>
      rw [Attempt.run_bind_of_error hy, Attempt.run_bind_of_error hx]
      exact ⟨kept₁, rfl, hw₁⟩
  | ok u =>
      rw [Attempt.run_bind_of_ok hy, Attempt.run_bind_of_ok hx]
      exact h' hw₁

theorem records_push (p : KeyPoint) : Records (recording.push p) (collector.push p) := by
  intro w base offset capacity kept hw
  refine ⟨_, rfl, ?_⟩
  change (push p w).2.Holds base offset capacity (kept ++ match (push p w).1 with
    | .ok () => [p]
    | .error _ => [])
  rcases Nat.lt_or_eq_of_le hw.fits.1 with hroom | hfull
  · obtain ⟨w', hpush, hw'⟩ := hw.push hroom p
    rwa [hpush]
  · rw [hw.push_full hfull p]
    rwa [List.append_nil]

theorem records_append (x height : Int64) :
    Records (recording.append x height) (collector.append x height) := by
  intro w base offset capacity kept hw
  by_cases hlast : w.last.any (·.height == height) = true
  · have hx : (recording.append x height).run.run (w, kept) = (.ok (), w, kept) :=
      Collector.run_append_of_any rfl hlast x
    have hy : (collector.append x height).run.run w = (.ok (), w) :=
      Collector.run_append_of_any rfl hlast x
    rw [hx, hy]
    exact ⟨kept, rfl, hw⟩
  · have hx : (recording.append x height).run.run (w, kept) =
        (recording.push ⟨x, height⟩).run.run (w, kept) :=
      Collector.run_append_of_not_any rfl hlast x
    have hy : (collector.append x height).run.run w = (collector.push ⟨x, height⟩).run.run w :=
      Collector.run_append_of_not_any rfl hlast x
    rw [hx, hy]
    exact records_push ⟨x, height⟩ hw

theorem records_appendAll (points : List KeyPoint) :
    Records (recording.appendAll points) (collector.appendAll points) := by
  induction points with
  | nil => exact .pure
  | cons p ps ih =>
      rw [Collector.appendAll_cons, Collector.appendAll_cons]
      exact (records_append p.x p.height).bind ih

/-- **Every request can be recorded.** -/
theorem records_request (q : Request) : Records (q.on recording) (q.on collector) := by
  rcases q.push_or_appends with ⟨p, rfl⟩ | ⟨-, hon⟩
  · exact records_push p
  · rw [hon, hon]
    exact records_appendAll q.points

/-- **A record of any requests is one of the points held**, and keeping it does not change what the
writer does. -/
theorem Holds.recording_afterAll {w : Writer} {base : Array KeyPoint} {offset capacity : Nat}
    {kept : List KeyPoint} (h : w.Holds base offset capacity kept) (requests : List Request) :
    ∃ kept', recording.afterAll (w, kept) requests = (collector.afterAll w requests, kept') ∧
      (collector.afterAll w requests).Holds base offset capacity kept' := by
  induction requests generalizing w kept with
  | nil => exact ⟨kept, rfl, h⟩
  | cons q requests ih =>
      obtain ⟨kept₁, hrun, hnext⟩ := records_request q h
      obtain ⟨kept₂, hrest, hlast⟩ := ih hnext
      refine ⟨kept₂, ?_, hlast⟩
      rw [Collector.afterAll_cons, hrun]
      exact hrest

/-- The points that a writer holds can be read from its region, up to any of them. -/
theorem Holds.read_eq {w : Writer} {base : Array KeyPoint} {r : Region} {capacity k : Nat}
    {kept : List KeyPoint} (h : w.Holds base r.offset.toNat capacity kept)
    (hcapacity : capacity ≤ r.capacity.toNat) (hk : k ≤ kept.length) :
    r.read w.slots k = some (kept.take k).toArray := by
  obtain ⟨hroom, hfits⟩ := h.fits
  rw [h.slots_eq, Region.read_eq_some_iff, size_overwrite]
  refine ⟨⟨by omega, by omega⟩, ?_, ?_⟩
  · rw [List.size_toArray, List.length_take_of_le hk]
  · intro i hi
    rw [List.getElem?_toArray, List.getElem?_take_of_lt hi,
      getElem?_overwrite_inside (by omega) (by omega)]

end Writer

/-! ### Reading and writing -/

/-- **The bounds checks are exact**, for any region and an arena of any size that an arena may
have.  A writer is opened exactly on the regions that end inside the arena, and otherwise nothing
is written, whatever was to be; something can be read exactly if the region and the arena have so
many slots, and it is what these slots hold.  No sum wraps on the way.  Once a writer has carried
out any requests, with success or without, all the points that it has stored can be read, up to any
of them. -/
theorem Region.bounds_checks_are_exact (r : Region) (slots : Array KeyPoint)
    (hslots : slots.size < 2 ^ 63) :
    ((∃ w, Writer.openOn slots r = .ok w) ↔ r.offset.toNat + r.capacity.toNat ≤ slots.size) ∧
      (slots.size < r.offset.toNat + r.capacity.toNat →
        Writer.openOn slots r = .error (.overCapacity r.stop.toNat slots.size) ∧
          ∀ {α : Type} (job : Attempt Writer Refusal α),
            Writer.fill slots r job = (.error (.overCapacity r.stop.toNat slots.size), slots)) ∧
      (∀ len : UInt64, r.readChecked slots len = r.read slots len.toNat ∧
        ((∃ points, r.read slots len.toNat = some points) ↔
          len.toNat ≤ r.capacity.toNat ∧ r.offset.toNat + len.toNat ≤ slots.size) ∧
        ∀ points, r.read slots len.toNat = some points →
          points.size = len.toNat ∧ ∀ i, i < len.toNat → points[i]? = slots[r.offset.toNat + i]?) ∧
      ∀ w, Writer.openOn slots r = .ok w → ∀ requests : List Request,
        let w' := Writer.collector.afterAll w requests
        ∃ stored, Writer.recording.afterAll (w, []) requests = (w', stored) ∧
          stored.length = w'.len ∧
          ∀ k, k ≤ stored.length → r.read w'.slots k = some (stored.take k).toArray := by
  have hnumbered := two_mul_lt_lastSlot hslots
  have hlast : slots.size < lastSlot := by omega
  refine ⟨Writer.exists_openOn_iff hlast, ?_, ?_, ?_⟩
  · intro hover
    have hstop := r.toNat_stop
    have hlt : slots.size < r.stop.toNat := by omega
    have hopen := Writer.openOn_eq_error hlt
    refine ⟨hopen, fun job => ?_⟩
    rw [Writer.fill, hopen]
  · intro len
    exact ⟨readChecked_eq hlast len, exists_read_iff,
      fun points hpoints => (read_eq_some_iff.1 hpoints).2⟩
  · intro w hopen requests w'
    obtain ⟨hstop, hw⟩ := Writer.holds_of_openOn hopen
    obtain ⟨stored, hrecord, hw'⟩ := hw.recording_afterAll requests
    refine ⟨stored, hrecord, hw'.len_eq.symm, fun k hk => hw'.read_eq ?_ hk⟩
    rw [room_eq_capacity hstop hlast]

theorem Region.bounds_checks_are_exact_past_last_number :
    let slots : Array KeyPoint := Array.replicate 5 .origin
    let r : Region := ⟨.two, 2, 2⟩
    let requests : List Request := [.append 0 3, .append 1 3, .push ⟨4, 3⟩, .push ⟨9, 9⟩]
    Writer.openOn slots ⟨.one, 18446744073709551614, 5⟩ =
        .error (.overCapacity 18446744073709551615 5) ∧
      ∃ w, Writer.openOn slots r = .ok w ∧
        r.read (Writer.collector.afterAll w requests).slots 1 = some #[⟨0, 3⟩] := by
  intro slots r requests
  have hslots : slots.size < 2 ^ 63 := by decide
  obtain ⟨-, hrefused, -⟩ := bounds_checks_are_exact ⟨.one, 18446744073709551614, 5⟩ slots hslots
  obtain ⟨-, -, -, hwritten⟩ := bounds_checks_are_exact r slots hslots
  let w : Writer := ⟨slots, 2, 2, 0, by decide, by decide⟩
  have hopen : Writer.openOn slots r = .ok w := dif_pos (by decide)
  obtain ⟨stored, hrecord, -, hread⟩ := hwritten w hopen requests
  have hstored : (Writer.recording.afterAll (w, []) requests).2 = [⟨0, 3⟩, ⟨4, 3⟩] := by
    decide +kernel
  rw [hrecord] at hstored
  subst hstored
  exact ⟨(hrefused (by decide)).1, w, hopen, hread 1 (by decide)⟩

end Cityscape
