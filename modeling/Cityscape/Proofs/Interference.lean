/-
**Overlap is interference.**

The overlap test compares first slots, ends and capacities.  What it is for is to say whether
writing to one region can be noticed when another one is read.  Both directions need care.  If the
regions have a slot in common, it may lie anywhere in either of them, so a writer has to be taken
as far as that slot, and then has to put something else into it than what happens to be there.  If
they have none, nothing that a writer can be asked to do must show, and this includes the requests
that it refuses; a region without slots overlaps nothing, even in the middle of another one.

What a writer does to storage is known from what a skyline holds after the same requests, whatever
they are (`Cityscape.Storage.afterRequests_eq_put`): a list of points stands at the start of its
region, and the list is no longer than the region.  So it is enough to know which slots of an arena
such a list takes, and which slots a reader looks at.

Main definitions:

* `Cityscape.Storage.afterRequests` — **the storage after requests to the writer of a region**.

Main results:

* `Cityscape.Writer.openOn_holds_afterAll` — a writer holds what a skyline holds, as far as there
  is room;
* `Cityscape.Storage.read_put_of_not_overlaps` — points in one region cannot be noticed in a region
  that does not overlap it;
* `Cityscape.Storage.exists_requests_slot_eq`, `Cityscape.Storage.exists_read_ne` — any slot of a
  region can be given any point, and a slot that differs can be noticed;
* `Cityscape.Region.overlaps_iff_interferes` — **regions overlap exactly if writing to one can be
  noticed when the other is read**.
-/

import Cityscape.Proofs.Bounds
import Cityscape.Proofs.Composing
import Cityscape.Proofs.Overlap

set_option relaxedAutoImplicit false
set_option autoImplicit false

namespace Cityscape

/-- A row of pushes adds its points to a skyline, whatever they are. -/
theorem Skyline.toList_afterAll_push (s : Skyline) (points : List KeyPoint) :
    (collector.afterAll s (points.map .push)).points.toList = s.points.toList ++ points := by
  induction points generalizing s with
  | nil => exact (List.append_nil _).symm
  | cons p ps ih =>
      have hpush : (((Request.push p).on collector).run.run s).2.points.toList =
          s.points.toList ++ [p] := toList_after_request s (.push p)
      rw [List.map_cons, Collector.afterAll_cons, ih, hpush, List.append_assoc,
        List.singleton_append]

/-- On a region that lies inside the arena a writer is opened, and it holds what a skyline holds,
as far as there is room, after the same requests to both. -/
theorem Writer.openOn_holds_afterAll {base : Array KeyPoint} {r : Region}
    (hr : r.stop.toNat ≤ base.size) :
    ∃ w, openOn base r = .ok w ∧ ∀ requests,
      (collector.afterAll w requests).Holds base r.offset.toNat r.room
      ((Skyline.collector.afterAll .empty requests).points.toList.take r.room) := by
  obtain ⟨w, hopen, hw⟩ := openOn_holds hr
  have hempty : w.Holds base r.offset.toNat r.room (Skyline.empty.points.toList.take r.room) := by
    rwa [Skyline.toList_empty, List.take_nil]
  exact ⟨w, hopen, hempty.afterAll⟩

namespace Storage

variable {s : Storage} {r A B : Region}

/-! ### Requests to a region -/

/-- **The storage after requests to a region**: a writer is opened on the region, and the requests
are made to it one after the other, whether it refuses some of them or not. -/
def afterRequests (s : Storage) (r : Region) (requests : List Request) : Storage :=
  ((Storage.write r fun _ => modify (Writer.collector.afterAll · requests)).run.run s).2

/-- **What requests to a region leave**: the points that a skyline would hold after them, as far as
there is room, stand at the start of the region. -/
theorem afterRequests_eq_put (hr : r.stop.toNat ≤ (s.arena r.arena).size)
    (requests : List Request) :
    s.afterRequests r requests =
      s.put r ((Skyline.collector.afterAll .empty requests).points.toList.take r.room) := by
  obtain ⟨w, hopen, hw⟩ := Writer.openOn_holds_afterAll hr
  have hfill : Writer.fill (s.arena r.arena) r (modify (Writer.collector.afterAll · requests)) =
      (.ok (), (Writer.collector.afterAll w requests).slots) := by
    rw [Writer.fill, hopen]
    rfl
  rw [afterRequests, run_write hfill, (hw requests).slots_eq]
  rfl

/-! ### Regions that do not overlap -/

/-- **What stands in one region cannot be noticed in another**, if the two do not overlap. -/
theorem read_put_of_not_overlaps {points : List KeyPoint} (hroom : points.length ≤ A.room)
    (h : ¬ A.Overlaps B) (k : Nat) : (s.put A points).read B k = s.read B k := by
  by_cases harena : A.arena = B.arena
  · by_cases hk : k ≤ B.capacity.toNat ∧ B.offset.toNat + k ≤ (s.arena B.arena).size
    · refine read_congr (size_arena_put ..) ?_
      intro j hj hj'
      rw [← harena, arena_put_self]
      refine getElem?_overwrite_outside ?_ _
      -- A slot that is written and read belongs to both regions.
      by_contra hwritten
      have hB := B.toNat_stop
      have hA := toNat_le_lastSlot A.stop
      rw [Region.room] at hroom
      exact h (Region.overlaps_iff_sharesSlot.2
        ⟨A.arena, j, ⟨rfl, by omega, by omega⟩, ⟨harena.symm, hj, by omega⟩⟩)
    · rw [read, read, Region.read, Region.read, size_arena_put, if_neg hk, if_neg hk]
  · rw [read, read, arena_put_of_ne harena]

/-! ### Regions that overlap -/

/-- **Any slot of a region can be given any point**: the point is pushed until it gets there. -/
theorem exists_requests_slot_eq {j : Nat} (hA : A.stop.toNat ≤ (s.arena A.arena).size)
    (hj : A.Has A.arena j) (p : KeyPoint) :
    ∃ requests, ((s.afterRequests A requests).arena A.arena)[j]? = some p := by
  obtain ⟨-, hfrom, hto⟩ := hj
  obtain ⟨i, rfl⟩ := Nat.exists_eq_add_of_le hfrom
  have hroom : (List.replicate (i + 1) p).length ≤ A.room := by
    rw [List.length_replicate, Region.room]
    omega
  have hlast : i < (List.replicate (i + 1) p).length := by
    rw [List.length_replicate]
    exact Nat.lt_add_one i
  have hfits : A.offset.toNat + (List.replicate (i + 1) p).length ≤ (s.arena A.arena).size := by
    rw [Region.room] at hroom
    omega
  refine ⟨(List.replicate (i + 1) p).map .push, ?_⟩
  rw [afterRequests_eq_put hA, Skyline.toList_afterAll_push, Skyline.toList_empty, List.nil_append,
    List.take_of_length_le hroom, arena_put_self, getElem?_overwrite_inside hfits hlast,
    List.getElem?_replicate, if_pos (Nat.lt_add_one i)]

/-- **A slot of a region that differs can be noticed** by reading the points up to it. -/
theorem exists_read_ne {t : Storage} {j : Nat} (hj : B.Has B.arena j)
    (hsize : j < (s.arena B.arena).size)
    (hne : (t.arena B.arena)[j]? ≠ (s.arena B.arena)[j]?) : ∃ k, t.read B k ≠ s.read B k := by
  obtain ⟨-, hfrom, hto⟩ := hj
  obtain ⟨i, rfl⟩ := Nat.exists_eq_add_of_le hfrom
  have hstop := B.toNat_stop
  refine ⟨i + 1, fun hsame => hne ?_⟩
  obtain ⟨points, hread⟩ : ∃ points, s.read B (i + 1) = some points :=
    Region.exists_read_iff.2 ⟨by omega, by omega⟩
  have hs := (Region.read_eq_some_iff.1 hread).2.2 i (Nat.lt_add_one i)
  have ht := (Region.read_eq_some_iff.1 (hsame.trans hread)).2.2 i (Nat.lt_add_one i)
  exact ht.symm.trans hs

/-- Some point is not the one in a slot. -/
theorem exists_ne_slot (slots : Array KeyPoint) (j : Nat) : ∃ p : KeyPoint, some p ≠ slots[j]? := by
  by_cases h : slots[j]? = some .origin
  · refine ⟨⟨0, 1⟩, ?_⟩
    rw [h]
    decide
  · exact ⟨.origin, Ne.symm h⟩

/-- **A slot in common can be written and then read**, whatever it holds. -/
theorem exists_requests_read_ne (hA : A.stop.toNat ≤ (s.arena A.arena).size) (h : A.Overlaps B) :
    ∃ requests k, (s.afterRequests A requests).read B k ≠ s.read B k := by
  obtain ⟨a, j, hAj, hBj⟩ := Region.overlaps_iff_sharesSlot.1 h
  obtain rfl : A.arena = a := hAj.1
  have harena : B.arena = A.arena := hBj.1
  obtain ⟨p, hp⟩ := exists_ne_slot (s.arena A.arena) j
  obtain ⟨requests, hslot⟩ := exists_requests_slot_eq hA hAj p
  refine ⟨requests, exists_read_ne (j := j) ?_ ?_ ?_⟩
  · rwa [harena]
  · rw [harena]
    exact Nat.lt_of_lt_of_le hAj.2.2 hA
  · rwa [harena, hslot]

end Storage

/-- **Regions overlap exactly if writing to one can be noticed when the other is read.**  The
overlap test is symmetric, and tells whether the two regions are in the same arena and have a slot
number in common.  In any storage that the one region lies in, this is so exactly if some requests
to the writer of that region change what comes of reading some number of points from the other
one. -/
theorem Region.overlaps_iff_interferes (A B : Region) :
    (A.Overlaps B ↔ B.Overlaps A) ∧
      (A.Overlaps B ↔ A.arena = B.arena ∧ ∃ j, (A.offset.toNat ≤ j ∧ j < A.stop.toNat) ∧
        B.offset.toNat ≤ j ∧ j < B.stop.toNat) ∧
      ∀ s : Storage, A.stop.toNat ≤ (s.arena A.arena).size →
        ((∃ requests k, (s.afterRequests A requests).read B k ≠ s.read B k) ↔ A.Overlaps B) := by
  have hshared : A.Overlaps B ↔ A.arena = B.arena ∧ ∃ j, (A.offset.toNat ≤ j ∧ j < A.stop.toNat) ∧
      B.offset.toNat ≤ j ∧ j < B.stop.toNat := by
    rw [overlaps_iff_sharesSlot]
    constructor
    · rintro ⟨a, j, ⟨hA, hj⟩, ⟨hB, hj'⟩⟩
      exact ⟨hA.trans hB.symm, j, hj, hj'⟩
    · rintro ⟨harena, j, hj, hj'⟩
      exact ⟨A.arena, j, ⟨rfl, hj⟩, ⟨harena.symm, hj'⟩⟩
  refine ⟨?_, hshared, ?_⟩
  · rw [overlaps_iff_sharesSlot, overlaps_iff_sharesSlot]
    exact ⟨fun ⟨a, j, hA, hB⟩ => ⟨a, j, hB, hA⟩, fun ⟨a, j, hB, hA⟩ => ⟨a, j, hA, hB⟩⟩
  · intro s hA
    constructor
    · rintro ⟨requests, k, hne⟩
      by_contra h
      refine hne ?_
      rw [Storage.afterRequests_eq_put hA]
      exact Storage.read_put_of_not_overlaps (List.length_take_le ..) h k
    · exact Storage.exists_requests_read_ne hA

theorem Region.overlaps_iff_interferes_inside :
    let s : Storage := .fresh 8
    let A : Region := ⟨.two, 1, 6⟩
    (∃ requests k, (s.afterRequests A requests).read ⟨.two, 6, 2⟩ k ≠ s.read ⟨.two, 6, 2⟩ k) ∧
      ∀ requests k, (s.afterRequests A requests).read ⟨.two, 4, 0⟩ k = s.read ⟨.two, 4, 0⟩ k := by
  intro s A
  have hA : A.stop.toNat ≤ (s.arena A.arena).size := by decide
  refine ⟨((overlaps_iff_interferes A ⟨.two, 6, 2⟩).2.2 s hA).2 (by decide), fun requests k => ?_⟩
  by_contra h
  have hoverlaps := ((overlaps_iff_interferes A ⟨.two, 4, 0⟩).2.2 s hA).1 ⟨requests, k, h⟩
  exact absurd hoverlaps (by decide)

end Cityscape
