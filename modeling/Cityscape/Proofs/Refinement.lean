/-
**A writer is a skyline cut short.**

A writer on a region and a skyline are both collectors; the one has room for so many points, the
other for all.  If both are given the same requests, the writer holds what the skyline holds, up to
the size of its region, and the first request that takes the skyline beyond that size is the first
one that the writer refuses (`Cityscape.Writer.refines_skyline`).

After a refusal the two are no longer in step.  The writer goes on comparing with the last point it
could store, so it may hold back a point that the skyline takes, or refuse one that the skyline
holds back; a merge stops in the middle on one side and runs to its end on the other.  None of it
is visible in storage: a writer that is full stays as it is, and the skyline only grows behind the
points that the writer has.  This is why the relation that is followed through the requests is
stated of the points alone, and not of the results.

Main definitions:

* `Cityscape.Writer.stored` — the points that a writer has stored.

Main results:

* `Cityscape.Writer.Holds.request` — what comes of a request to a writer;
* `Cityscape.Writer.Holds.request_of_take` — **one request to a writer and to a longer list**;
* `Cityscape.Writer.refines_skyline` — **a writer holds what a skyline holds**, as far as there is
  room.
-/

import Cityscape.Proofs.Regions
import Cityscape.Proofs.Merging
import Mathlib.Algebra.Group.Nat.Defs

set_option relaxedAutoImplicit false
set_option autoImplicit false

namespace Cityscape

/-- A region that lies inside an arena of numbered slots has room for as many points as it has
slots. -/
theorem Region.room_eq_capacity {r : Region} {n : Nat} (hstop : r.stop.toNat ≤ n)
    (hn : n < lastSlot) : r.room = r.capacity.toNat := by
  have h := r.toNat_stop
  rw [room]
  omega

namespace Writer

variable {w : Writer} {base : Array KeyPoint} {offset capacity : Nat} {kept : List KeyPoint}

/-- The points that the writer has stored, read from its arena. -/
def stored (w : Writer) : List KeyPoint := (w.slots.extract w.offset (w.offset + w.len)).toList

theorem Holds.stored_eq (h : w.Holds base offset capacity kept) : w.stored = kept := by
  obtain ⟨hlen, hfits⟩ := h.fits
  rw [stored, h.slots_eq, h.offset_eq, h.len_eq, extract_overwrite (by omega)]

/-- A writer is opened on the regions that lie inside the arena, and holds no points then. -/
theorem holds_of_openOn {r : Region} (h : openOn base r = .ok w) :
    r.stop.toNat ≤ base.size ∧ w.Holds base r.offset.toNat r.room [] := by
  by_cases hstop : r.stop.toNat ≤ base.size
  · obtain ⟨v, hopen, hv⟩ := openOn_holds hstop
    obtain rfl : v = w := Except.ok.inj (hopen.symm.trans h)
    exact ⟨hstop, hv⟩
  · rw [openOn, dif_neg hstop] at h
    nomatch h

/-! ### One request -/

/-- What comes of a request to a writer: its points are stored as far as there is room, and it
fails if there is no room for all of them. -/
theorem Holds.request (h : w.Holds base offset capacity kept) (q : Request) :
    ∃ w', (q.on collector).run.run w =
        ((accepted capacity (kept ++ q.added kept)).map fun _ => (), w') ∧
      w'.Holds base offset capacity ((kept ++ q.added kept).take capacity) := by
  rcases q.push_or_appends with ⟨p, rfl⟩ | ⟨hadded, hon⟩
  · have hlength : (kept ++ [p]).length = kept.length + 1 := List.length_append
    change ∃ w', Writer.push p w = ((accepted capacity (kept ++ [p])).map fun _ => (), w') ∧
      w'.Holds base offset capacity ((kept ++ [p]).take capacity)
    rcases Nat.lt_or_eq_of_le h.fits.1 with hlt | hfull
    · obtain ⟨w', hpush, hw'⟩ := h.push hlt p
      have hfits : (kept ++ [p]).length ≤ capacity := by omega
      refine ⟨w', ?_, ?_⟩
      · rw [hpush, accepted, if_pos hfits]
        rfl
      · rwa [List.take_of_length_le hfits]
    · have hover : ¬ (kept ++ [p]).length ≤ capacity := by omega
      refine ⟨w, ?_, ?_⟩
      · rw [h.push_full hfull, accepted, if_neg hover]
        rfl
      · rwa [List.take_left' hfull]
  · rw [hon, hadded]
    exact h.appendAll

/-- **One request to a writer and to a longer list.**  If the writer holds the points of a list as
far as there is room for them, it still does after the request.  The request succeeds if there is
room for the whole list afterwards, and it is refused if there was room before and is none any
more. -/
theorem Holds.request_of_take {all : List KeyPoint}
    (h : w.Holds base offset capacity (all.take capacity)) (q : Request) :
    ((q.on collector).run.run w).2.Holds base offset capacity
        ((all ++ q.added all).take capacity) ∧
      ((all ++ q.added all).length ≤ capacity → ((q.on collector).run.run w).1 = .ok ()) ∧
      (all.length ≤ capacity → capacity < (all ++ q.added all).length →
        ((q.on collector).run.run w).1 = .error (.overCapacity (capacity + 1) capacity)) := by
  obtain ⟨w', hrun, hw'⟩ := h.request q
  rw [hrun]
  rcases Nat.lt_or_ge capacity all.length with hover | hroom
  · -- The writer is full, and stays so.
    have hfull : (all.take capacity).length = capacity :=
      List.length_take_of_le (Nat.le_of_lt hover)
    have hlonger : all.length ≤ (all ++ q.added all).length := by
      rw [List.length_append]
      exact Nat.le_add_right ..
    rw [List.take_left' hfull] at hw'
    rw [List.take_append_of_le_length (Nat.le_of_lt hover)]
    exact ⟨hw', fun hle => by omega, fun hle => by omega⟩
  · -- Up to now the writer holds the whole list.
    rw [List.take_of_length_le hroom] at hw' ⊢
    refine ⟨hw', ?_, ?_⟩
    · intro hle
      rw [accepted, if_pos hle]
      rfl
    · intro _ hlt
      rw [accepted, if_neg (Nat.not_le.2 hlt)]
      rfl

/-! ### Sequences of requests -/

/-- A writer that holds the points of a skyline, as far as there is room for them, does so after any
requests to both. -/
theorem Holds.afterAll {sky : Skyline}
    (h : w.Holds base offset capacity (sky.points.toList.take capacity)) (requests : List Request) :
    (collector.afterAll w requests).Holds base offset capacity
      ((Skyline.collector.afterAll sky requests).points.toList.take capacity) := by
  induction requests generalizing w sky with
  | nil => exact h
  | cons q requests ih =>
      have hnext := (h.request_of_take q).1
      rw [← Skyline.toList_after_request] at hnext
      exact ih hnext

/-- **A writer refines a skyline.**  Take a writer that has just been opened on a region of an
arena, and an empty skyline, and let both carry out the same requests, whether the writer refuses
some of them or not.  Then the writer has stored the points of the skyline, as far as its region
has slots, and no other slot of the arena has changed.  A further request succeeds as long as the
skyline still fits into the region with it, and the first one that takes the skyline beyond the
region is refused, for one point more than the region has slots. -/
theorem refines_skyline (slots : Array KeyPoint) (r : Region) (w : Writer)
    (hslots : slots.size < 2 ^ 63) (hopen : openOn slots r = .ok w) (requests : List Request) :
    let capacity := r.capacity.toNat
    let sky := Skyline.collector.afterAll .empty requests
    let w' := collector.afterAll w requests
    w'.len = min capacity sky.points.size ∧
      w'.stored = sky.points.toList.take (min capacity sky.points.size) ∧
      (w'.slots.size = slots.size ∧
        ∀ j, j < r.offset.toNat ∨ r.offset.toNat + w'.len ≤ j → w'.slots[j]? = slots[j]?) ∧
      ∀ q : Request,
        let next := sky.after (q.on Skyline.collector)
        (next.points.size ≤ capacity → ((q.on collector).run.run w').1 = .ok ()) ∧
          (sky.points.size ≤ capacity → capacity < next.points.size →
            ((q.on collector).run.run w').1 = .error (.overCapacity (capacity + 1) capacity)) := by
  intro capacity sky w'
  obtain ⟨hstop, hstart⟩ := holds_of_openOn hopen
  have hnumbered := two_mul_lt_lastSlot hslots
  rw [Region.room_eq_capacity hstop (by omega)] at hstart
  have hempty : w.Holds slots r.offset.toNat capacity
      (Skyline.empty.points.toList.take capacity) := by
    rwa [Skyline.toList_empty, List.take_nil]
  have hw' : w'.Holds slots r.offset.toNat capacity (sky.points.toList.take capacity) :=
    hempty.afterAll requests
  have hlen : w'.len = min capacity sky.points.size := by
    rw [hw'.len_eq, List.length_take, Array.length_toList]
  refine ⟨hlen, ?_, ⟨?_, ?_⟩, ?_⟩
  · rw [hw'.stored_eq, List.take_eq_take_min, Array.length_toList]
  · rw [hw'.slots_eq, size_overwrite]
  · intro j hj
    rw [hw'.len_eq] at hj
    rw [hw'.slots_eq, getElem?_overwrite_outside hj]
  · intro q next
    obtain ⟨-, hok, herror⟩ := hw'.request_of_take q
    have hnext : next.points.toList = sky.points.toList ++ q.added sky.points.toList :=
      sky.toList_after_request q
    rw [← hnext, Array.length_toList] at hok herror
    rw [Array.length_toList] at herror
    exact ⟨hok, herror⟩

theorem refines_skyline_beyond_room :
    let slots : Array KeyPoint := Array.replicate 5 .origin
    let r : Region := ⟨.one, 1, 2⟩
    let q : Request := .merge [⟨2, 5⟩, ⟨4, 0⟩] [⟨3, 7⟩]
    ∃ w, openOn slots r = .ok w ∧
      ((q.on collector).run.run (collector.afterAll w [.append 0 3])).1 =
        .error (.overCapacity 3 2) ∧
      (collector.afterAll w [.append 0 3, q, .push ⟨9, 9⟩]).stored = [⟨0, 3⟩, ⟨2, 5⟩] := by
  intro slots r q
  have hstop : r.stop.toNat ≤ slots.size := by decide
  obtain ⟨w, hopen, -⟩ := openOn_holds hstop
  obtain ⟨-, -, -, hnext⟩ := refines_skyline slots r w (by decide) hopen [.append 0 3]
  obtain ⟨-, hstored, -⟩ :=
    refines_skyline slots r w (by decide) hopen [.append 0 3, q, .push ⟨9, 9⟩]
  refine ⟨w, hopen, (hnext q).2 ?_ ?_, hstored.trans ?_⟩ <;> decide +kernel

end Writer

end Cityscape
