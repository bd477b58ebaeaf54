/-
**A computation does not depend on what it finds in storage.**

The arenas of a session hold key points of earlier computations, and a computation clears none of
them.  Still none of them can show up in a result, because a computation reads only slots that it
has written before.

To prove it, the recursion of `Cityscape.compose` is done without storage (`Cityscape.pointsIn`):
the points of the two halves are handed over as they are, and all that remains of a region is how
many points go into it.  A composition arrives at exactly these points, or fails with exactly this
failure, whatever is in storage (`Cityscape.compose_run_eq`).  Nothing is assumed about the
buildings, and it does not matter whether there is room for all points: if slot numbers saturate or
a region is full, the composition fails in the same place on any storage.

The invariant of the induction is that a composition leaves all slots alone that come before its
region (`Cityscape.Storage.SameBefore`).  The second half's region starts where that of the first
half stops, so the result of the first half is still there when it is read.

Main definitions:

* `Cityscape.pointsIn` — **the recursion without storage**.

Main results:

* `Cityscape.compose_run_eq` — **a composition arrives at these points on any storage**;
* `Cityscape.eq_contour_of_pointsIn` — they are the contour of the buildings;
* `Cityscape.Session.result_compute` — the result of a computation without its storage;
* `Cityscape.Session.eq_contour_of_run`, `Cityscape.Session.eq_contour_of_build` — a session answers
  with nothing but the contour;
* `Cityscape.Session.result_after_history` — **a session answers as a new one does**, whatever it
  computed before.
-/

import Cityscape.Proofs.History

set_option relaxedAutoImplicit false
set_option autoImplicit false

namespace Cityscape

/-! ### Slots before a region -/

namespace Storage

variable {s t u : Storage} {n m : Nat}

/-- Both arenas have as many slots as before, and those before slot `n` hold what they held. -/
structure SameBefore (n : Nat) (s t : Storage) : Prop where
  /-- No slot is added or taken away. -/
  size_eq : ∀ a, (t.arena a).size = (s.arena a).size
  /-- The first `n` slots keep what they hold. -/
  slot_eq : ∀ a, ∀ j < n, (t.arena a)[j]? = (s.arena a)[j]?

namespace SameBefore

theorem refl (n : Nat) (s : Storage) : SameBefore n s s := ⟨fun _ => rfl, fun _ _ _ => rfl⟩

theorem trans (hst : SameBefore n s t) (htu : SameBefore m t u) (hnm : n ≤ m) :
    SameBefore n s u where
  size_eq a := (htu.size_eq a).trans (hst.size_eq a)
  slot_eq a j hj := (htu.slot_eq a j (Nat.lt_of_lt_of_le hj hnm)).trans (hst.slot_eq a j hj)

theorem put (s : Storage) (r : Region) (points : List KeyPoint) :
    SameBefore r.offset.toNat s (s.put r points) where
  size_eq a := size_arena_put s r points a
  slot_eq a _ hj := getElem?_put_outside (.inl hj) a

theorem hasSlots (h : SameBefore n s t) (hs : s.HasSlots m) : t.HasSlots m := by
  intro a
  rw [h.size_eq]
  exact hs a

end SameBefore

end Storage

/-! ### The recursion without storage -/

/-- **The recursion without storage**: the points that a composition in the region `out` arrives at,
or the failure that it meets. -/
def pointsIn (out : Region) : List Building → Except Refusal (List KeyPoint)
  | [] => .ok []
  | [b] => Writer.accepted out.room (changes [⟨b.left, b.height⟩, ⟨b.right, 0⟩])
  | b :: c :: rest => do
      let buildings := b :: c :: rest
      let m := leftSize buildings.length
      let left ← pointsIn (out.halves m).1 (buildings.take m)
      let right ← pointsIn (out.halves m).2 (buildings.drop m)
      Writer.accepted out.room (merged left right)
termination_by buildings => buildings.length
decreasing_by
  all_goals
    have := leftSize_lt (n := (b :: c :: rest).length) (by simp)
    have := leftSize_pos (b :: c :: rest).length
    simp only [List.length_take, List.length_drop]
    omega

theorem pointsIn_of_two_le {out : Region} {bs : List Building} (h : 2 ≤ bs.length) :
    pointsIn out bs = (do
      let left ← pointsIn (out.halves (leftSize bs.length)).1 (bs.take (leftSize bs.length))
      let right ← pointsIn (out.halves (leftSize bs.length)).2 (bs.drop (leftSize bs.length))
      Writer.accepted out.room (merged left right)) := by
  match bs, h with
  | b :: c :: rest, _ => rw [pointsIn]

/-! ### A composition on any storage -/

/-- What a computation in the region `out` makes of the storage `s` when it arrives at `result`:
the points fit into the region and can be read from it, and all slots before the region are left
alone. -/
structure ArrivesAt (out : Region) (result : Except Refusal (List KeyPoint)) (s t : Storage) :
    Prop where
  /-- Slots before the region keep what they hold. -/
  before : s.SameBefore out.offset.toNat t
  /-- The points go into the region. -/
  length_le : ∀ points, result = .ok points → points.length ≤ out.room
  /-- The points can be read from the region. -/
  read_eq : ∀ points, result = .ok points → t.read out points.length = some points.toArray

namespace ArrivesAt

variable {out : Region} {result : Except Refusal (List KeyPoint)} {s t u : Storage} {e : Refusal}

theorem of_error (h : s.SameBefore out.offset.toNat t) : ArrivesAt out (.error e) s t :=
  ⟨h, fun _ hok => absurd hok (by simp), fun _ hok => absurd hok (by simp)⟩

/-- What was done to the slots behind the start of the region beforehand does not matter. -/
theorem after (h : ArrivesAt out result t u) (hbefore : s.SameBefore out.offset.toNat t) :
    ArrivesAt out result s u :=
  ⟨hbefore.trans h.before (Nat.le_refl _), h.length_le, h.read_eq⟩

end ArrivesAt

/-- Reading no points from a region that stops in its arena succeeds. -/
theorem Storage.read_zero {out : Region} {s : Storage} (hs : s.HasSlots out.stop.toNat) :
    s.read out 0 = some #[] := by
  have hslots := hs out.arena
  have hstart := out.offset_le_stop
  have hin : 0 ≤ out.capacity.toNat ∧ out.offset.toNat + 0 ≤ (s.arena out.arena).size := by omega
  rw [Storage.read, Region.read, if_pos hin, Nat.add_zero,
    Array.extract_eq_empty_of_le (Nat.min_le_left ..)]

/-- Points that fit into a region can be read from it once they are put there. -/
theorem Storage.read_put_of_room {out : Region} {s : Storage} {points : List KeyPoint}
    (hs : s.HasSlots out.stop.toNat) (hroom : points.length ≤ out.room) :
    (s.put out points).read out points.length = some points.toArray := by
  have hslots := hs out.arena
  have hstart := out.offset_le_stop
  have hstop := out.toNat_stop
  rw [Region.room] at hroom
  exact Storage.read_put (by omega) (by omega)

/-- Writing a list of points arrives at its changes, if there is room for them. -/
theorem write_arrivesAt {out : Region} {s : Storage} (hs : s.HasSlots out.stop.toNat)
    (points : List KeyPoint) :
    ∃ t, (Storage.write out fun _ => do
        Writer.collector.appendAll points
        return (← get).len).run.run s =
          ((Writer.accepted out.room (changes points)).map List.length, t) ∧
      ArrivesAt out (Writer.accepted out.room (changes points)) s t := by
  refine ⟨_, Storage.write_appendAll (hs out.arena), Storage.SameBefore.put s out _, ?_, ?_⟩
  · intro kept hkept
    obtain ⟨hroom, rfl⟩ := Writer.accepted_eq_ok_iff.1 hkept
    exact hroom
  · intro kept hkept
    obtain ⟨hroom, rfl⟩ := Writer.accepted_eq_ok_iff.1 hkept
    rw [List.take_of_length_le hroom]
    exact Storage.read_put_of_room hs hroom

/-- The second half leaves the points of the first half where they are. -/
theorem Storage.SameBefore.read_left {out : Region} {m : Nat} {s t : Storage}
    {points : List KeyPoint}
    (h : s.SameBefore (out.halves m).2.offset.toNat t)
    (hroom : points.length ≤ (out.halves m).1.room) :
    t.read (out.halves m).1 points.length = s.read (out.halves m).1 points.length := by
  refine Storage.read_congr (h.size_eq _) ?_
  intro j hstart hj
  refine h.slot_eq _ j ?_
  rw [Region.room, Region.stop_halves_fst] at hroom
  omega

/-- Where the points of both halves can be read, fetching and merging them arrives at their merge,
if there is room for it. -/
theorem merge_arrivesAt {out left right : Region} {s : Storage} {ps qs : List KeyPoint}
    (hs : s.HasSlots out.stop.toNat) (hleft : s.read left ps.length = some ps.toArray)
    (hright : s.read right qs.length = some qs.toArray) :
    ∃ t, (do
        let leftPoints ← fetch left ps.length
        let rightPoints ← fetch right qs.length
        Storage.write out fun _ => do
          Writer.collector.merge leftPoints.toList rightPoints.toList
          return (← get).len : Attempt Storage Refusal Nat).run.run s =
            ((Writer.accepted out.room (merged ps qs)).map List.length, t) ∧
      ArrivesAt out (Writer.accepted out.room (merged ps qs)) s t := by
  obtain ⟨t, hrun, harr⟩ := write_arrivesAt hs (swept 0 0 ps qs)
  refine ⟨t, ?_, harr⟩
  rw [Attempt.run_bind_of_ok (fetch_run hleft), Attempt.run_bind_of_ok (fetch_run hright),
    Collector.merge_eq_appendAll]
  exact hrun

/-- **A composition arrives at the points of the recursion without storage**, or fails as it does,
whatever is in storage. -/
theorem compose_run_eq {out : Region} {bs : List Building} {s : Storage}
    (hout : out.Stretches bs.length) (hs : s.HasSlots out.stop.toNat) :
    ∃ t, (compose out bs).run.run s = ((pointsIn out bs).map List.length, t) ∧
      ArrivesAt out (pointsIn out bs) s t := by
  induction out, bs using halving_induction generalizing s with
  | nil out =>
      rw [compose, pointsIn]
      refine ⟨s, rfl, Storage.SameBefore.refl _ s, ?_, ?_⟩
      · intro points hpoints
        obtain rfl := Except.ok.inj hpoints
        exact Nat.zero_le _
      · intro points hpoints
        obtain rfl := Except.ok.inj hpoints
        exact Storage.read_zero hs
  | single out b =>
      rw [compose, pointsIn, Collector.project_eq_appendAll]
      exact write_arrivesAt hs _
  | halves out bs h ihl ihr =>
      have hm := Nat.le_of_lt (leftSize_lt h)
      rw [List.length_take_of_le hm] at ihl
      rw [List.length_drop] at ihr
      have hsl : s.HasSlots (out.halves (leftSize bs.length)).1.stop.toNat :=
        fun a => Nat.le_trans (hout.stop_left_le hm) (hs a)
      obtain ⟨t₁, hrun₁, harr₁⟩ := ihl (Region.Stretches.left out _) hsl
      have hs₁ := harr₁.before.hasSlots hs
      have hsr : t₁.HasSlots (out.halves (leftSize bs.length)).2.stop.toNat := by
        rw [hout.stop_right hm]
        exact hs₁
      obtain ⟨t₂, hrun₂, harr₂⟩ := ihr (hout.right hm) hsr
      have hs₂ := harr₂.before.hasSlots hs₁
      -- The regions of both halves start where the whole region does, or further on.
      have hstart : out.offset.toNat ≤ (out.halves (leftSize bs.length)).2.offset.toNat := by
        rw [← Region.stop_halves_fst]
        exact (out.halves (leftSize bs.length)).1.offset_le_stop
      have hbefore₂ := harr₁.before.trans harr₂.before hstart
      rw [compose_of_two_le h, pointsIn_of_two_le h]
      cases hleft : pointsIn (out.halves (leftSize bs.length)).1 (bs.take (leftSize bs.length)) with
      | error e =>
          rw [hleft] at hrun₁
          exact ⟨t₁, Attempt.run_bind_of_error hrun₁ _, .of_error harr₁.before⟩
      | ok left =>
          rw [hleft] at hrun₁ harr₁
          rw [Attempt.run_bind_of_ok hrun₁]
          cases hright : pointsIn (out.halves (leftSize bs.length)).2
              (bs.drop (leftSize bs.length)) with
          | error e =>
              rw [hright] at hrun₂
              exact ⟨t₂, Attempt.run_bind_of_error hrun₂ _, .of_error hbefore₂⟩
          | ok right =>
              rw [hright] at hrun₂ harr₂
              have hread := harr₁.read_eq left rfl
              rw [← harr₂.before.read_left (harr₁.length_le left rfl)] at hread
              obtain ⟨t, hrun, harr⟩ := merge_arrivesAt hs₂ hread (harr₂.read_eq right rfl)
              exact ⟨t, (Attempt.run_bind_of_ok hrun₂ _).trans hrun, harr.after hbefore₂⟩

/-! ### The points that a composition arrives at -/

theorem bind_eq_ok_iff {ε α β : Type} {x : Except ε α} {f : α → Except ε β} {b : β} :
    (x >>= f) = .ok b ↔ ∃ a, x = .ok a ∧ f a = .ok b := by
  cases x with
  | error e => simp [bind, Except.bind]
  | ok a => simp [bind, Except.bind]

/-- **If the recursion without storage arrives anywhere, it is at the contour.** -/
theorem eq_contour_of_pointsIn {out : Region} {bs : List Building} {points : List KeyPoint}
    (hbs : ∀ b ∈ bs, b.IsValid) (h : pointsIn out bs = .ok points) : points = contour bs := by
  induction out, bs using halving_induction generalizing points with
  | nil out =>
      rw [pointsIn] at h
      exact (Except.ok.inj h).symm
  | single out b =>
      rw [pointsIn, Writer.accepted_eq_ok_iff] at h
      rw [← h.2, changes_rise_fall (hbs b List.mem_cons_self)]
  | halves out bs htwo ihl ihr =>
      have hbl : ∀ b ∈ bs.take (leftSize bs.length), b.IsValid := by
        intro b hb
        exact hbs b (List.mem_of_mem_take hb)
      have hbr : ∀ b ∈ bs.drop (leftSize bs.length), b.IsValid := by
        intro b hb
        exact hbs b (List.mem_of_mem_drop hb)
      rw [pointsIn_of_two_le htwo] at h
      obtain ⟨left, hleft, h⟩ := bind_eq_ok_iff.1 h
      obtain ⟨right, hright, h⟩ := bind_eq_ok_iff.1 h
      obtain ⟨-, rfl⟩ := Writer.accepted_eq_ok_iff.1 h
      rw [ihl hbl hleft, ihr hbr hright, merged_contour hbl hbr, List.take_append_drop]

/-! ### Computations of a session -/

namespace Session

/-- **The result of a computation without its storage.** -/
theorem result_compute {st : Storage} (hst : st.Balanced) (a : Admission) (bs : List Building) :
    (compute a st bs).1 = (do
      a.check bs
      let points ← pointsIn (.root bs.length) bs
      return points.toArray) := by
  rw [compute]
  cases a.check bs with
  | error e => rfl
  | ok u =>
      cases bs with
      | nil =>
          rw [pointsIn]
          rfl
      | cons b bs =>
          have hgrown := hst.hasSlots_grow (Region.root (b :: bs).length).capacity.toNat
          have hslots : (st.grow (Region.root (b :: bs).length).capacity.toNat).HasSlots
              (Region.root (b :: bs).length).stop.toNat := by
            intro a
            exact Nat.le_trans (Region.toNat_stop_root_le _) (hgrown a)
          obtain ⟨t, hrun, harr⟩ := compose_run_eq (Region.stretches_root _) hslots
          simp only [List.isEmpty_cons, Bool.false_eq_true, if_false, hrun]
          cases hpoints : pointsIn (.root (b :: bs).length) (b :: bs) with
          | error e => rfl
          | ok points =>
              simp only [Except.map, harr.read_eq points hpoints]
              rfl

/-- **A session answers with the contour, if it answers**, also if there are too many buildings for
their slots to be numbered. -/
theorem eq_contour_of_run {s : Session} {bs : List Building} {points : Array KeyPoint}
    (hs : s.storage.Balanced) (h : (s.run bs).result = .ok points) :
    s.admission.check bs = .ok () ∧ points = (contour bs).toArray := by
  change (compute s.admission s.storage bs).1 = .ok points at h
  rw [result_compute hs] at h
  obtain ⟨⟨⟩, hcheck, h⟩ := bind_eq_ok_iff.1 h
  obtain ⟨reached, hreached, h⟩ := bind_eq_ok_iff.1 h
  have hvalid := (Admission.check_eq_ok_iff.1 hcheck).2.1
  rw [eq_contour_of_pointsIn hvalid hreached] at h
  exact ⟨hcheck, (Except.ok.inj h).symm⟩

theorem eq_contour_of_build {s : Session} {bs : List Building} {sky : Skyline}
    (hs : s.storage.Balanced) (h : (s.build bs).1 = .ok sky) :
    s.admission.check bs = .ok () ∧ sky = ⟨(contour bs).toArray⟩ := by
  cases hrun : (s.run bs).result with
  | error e =>
      rw [build, hrun] at h
      cases h
  | ok points =>
      rw [build, hrun] at h
      obtain ⟨hcheck, rfl⟩ := eq_contour_of_run hs hrun
      exact ⟨hcheck, (Except.ok.inj h).symm⟩

/-- **A session answers as a new one does**: whatever calls were made before, accepted or refused, a
computation has the result that it has in a new session on the same terms. -/
theorem result_after_history (a : Admission) (calls : List Call) (bs : List Building) :
    (((fresh a).afterAll calls).build bs).1 = ((fresh a).build bs).1 ∧
      (((fresh a).afterAll calls).run bs).result = ((fresh a).run bs).result := by
  have hresult : (((fresh a).afterAll calls).run bs).result = ((fresh a).run bs).result := by
    change (compute _ _ bs).1 = (compute _ _ bs).1
    rw [result_compute (balanced_afterAll (balanced_fresh a) calls), admission_afterAll,
      result_compute (balanced_fresh a)]
  refine ⟨?_, hresult⟩
  rw [build, build, hresult]

end Session

end Cityscape
