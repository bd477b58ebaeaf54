/-
**What a writer leaves in storage.**

A writer that is handed a list of points stores those of them that change the height, one behind the
other from the first slot of its region on, and fails at the first for which no slot is left
(`Cityscape.Writer.fill_appendAll`).  No other slot changes.  In terms of storage, this is putting a
list of points at the start of a region (`Cityscape.Storage.put`).

The state of a writer is followed by the list of points that it holds (`Cityscape.Writer.Holds`):
its arena is the one it was opened on, overwritten with that list.

Main definitions:

* `Cityscape.overwrite`, `Cityscape.Storage.put` — an arena, and storage, with a list of points put
  in place;
* `Cityscape.Writer.Holds` — the points that a writer holds;
* `Cityscape.Region.room`, `Cityscape.Writer.accepted` — how many points go into a region, and what
  comes of a list of points there.

Main results:

* `Cityscape.Attempt.run_bind_of_ok` — the rule by which computations on a store are followed;
* `Cityscape.getElem?_overwrite_inside`, `Cityscape.getElem?_overwrite_outside` — what is in the
  slots afterwards;
* `Cityscape.Storage.write_appendAll` — **writing a list of points puts its changes in place**, and
  succeeds if there is room for all of them.
-/

import Cityscape.Storage
import Cityscape.Proofs.Sweep

set_option relaxedAutoImplicit false
set_option autoImplicit false

namespace Cityscape

/-! ### Following a computation on a store -/

namespace Attempt

variable {σ ε α β : Type}

/-- A computation goes on with the result and the store of its first part. -/
theorem run_bind_of_ok {x : Attempt σ ε α} {s s' : σ} {a : α} (h : x.run.run s = (.ok a, s'))
    (f : α → Attempt σ ε β) : (x >>= f).run.run s = (f a).run.run s' := by
  change x s = (.ok a, s') at h
  simp only [bind, ExceptT.bind, ExceptT.run, ExceptT.mk, StateT.run, StateT.bind, h]
  rfl

/-- A computation ends with the failure of its first part. -/
theorem run_bind_of_error {x : Attempt σ ε α} {s s' : σ} {e : ε}
    (h : x.run.run s = (.error e, s')) (f : α → Attempt σ ε β) :
    (x >>= f).run.run s = (.error e, s') := by
  change x s = (.error e, s') at h
  simp only [bind, ExceptT.bind, ExceptT.run, ExceptT.mk, StateT.run, StateT.bind, h]
  rfl

end Attempt

namespace Collector

variable {σ ε : Type} {c : Collector σ ε} {s : σ} {height : Int64}

/-- A collector without an append of its own pushes no point that keeps the height. -/
theorem run_append_of_any (hc : c.append = appendChange c.last c.push)
    (h : (c.last s).any (·.height == height) = true) (x : Int64) :
    (c.append x height).run.run s = (.ok (), s) := by
  rw [hc]
  change ((if (c.last s).any (·.height == height) = true then pure () else c.push ⟨x, height⟩ :
    Attempt σ ε Unit).run.run s) = _
  rw [if_pos h]
  rfl

/-- A collector without an append of its own pushes every point that changes the height. -/
theorem run_append_of_not_any (hc : c.append = appendChange c.last c.push)
    (h : ¬ (c.last s).any (·.height == height) = true) (x : Int64) :
    (c.append x height).run.run s = (c.push ⟨x, height⟩).run.run s := by
  rw [hc]
  change ((if (c.last s).any (·.height == height) = true then pure () else c.push ⟨x, height⟩ :
    Attempt σ ε Unit).run.run s) = _
  rw [if_neg h]

end Collector

/-! ### Overwriting an arena -/

/-- An arena with a list of points stored from slot `offset` on. -/
def overwrite (slots : Array KeyPoint) (offset : Nat) : List KeyPoint → Array KeyPoint
  | [] => slots
  | p :: ps => overwrite (slots.setIfInBounds offset p) (offset + 1) ps

@[simp] theorem size_overwrite (slots : Array KeyPoint) (offset : Nat) (ps : List KeyPoint) :
    (overwrite slots offset ps).size = slots.size := by
  induction ps generalizing slots offset with
  | nil => rfl
  | cons p ps ih => rw [overwrite, ih, Array.size_setIfInBounds]

/-- The point stored last goes into the slot behind the others. -/
theorem overwrite_concat (slots : Array KeyPoint) (offset : Nat) (ps : List KeyPoint)
    (p : KeyPoint) : overwrite slots offset (ps ++ [p]) =
      (overwrite slots offset ps).setIfInBounds (offset + ps.length) p := by
  induction ps generalizing slots offset with
  | nil => rfl
  | cons q ps ih =>
      rw [List.cons_append, overwrite, ih, overwrite, List.length_cons, Nat.add_right_comm]
      rfl

theorem getElem?_overwrite_outside {offset j : Nat} {ps : List KeyPoint}
    (h : j < offset ∨ offset + ps.length ≤ j) (slots : Array KeyPoint) :
    (overwrite slots offset ps)[j]? = slots[j]? := by
  induction ps generalizing slots offset with
  | nil => rfl
  | cons p ps ih =>
      rw [List.length_cons] at h
      rw [overwrite, ih (by omega), Array.getElem?_setIfInBounds_ne (by omega)]

theorem getElem?_overwrite_inside {slots : Array KeyPoint} {offset i : Nat} {ps : List KeyPoint}
    (hfits : offset + ps.length ≤ slots.size) (hi : i < ps.length) :
    (overwrite slots offset ps)[offset + i]? = ps[i]? := by
  induction ps generalizing slots offset i with
  | nil => exact absurd hi (Nat.not_lt_zero i)
  | cons p ps ih =>
      rw [List.length_cons] at hfits hi
      rw [overwrite]
      cases i with
      | zero =>
          -- The points behind the first one are stored further on.
          have hfirst :
              (overwrite (slots.setIfInBounds offset p) (offset + 1) ps)[offset]? = some p := by
            rw [getElem?_overwrite_outside (.inl (Nat.lt_add_one offset)),
              Array.getElem?_setIfInBounds_self_of_lt (by omega)]
          exact hfirst
      | succ i =>
          have hsize : offset + 1 + ps.length ≤ (slots.setIfInBounds offset p).size := by
            rw [Array.size_setIfInBounds]
            omega
          rw [List.getElem?_cons_succ, ← ih hsize (Nat.lt_of_succ_lt_succ hi), Nat.add_assoc,
            Nat.add_comm 1 i]

/-- The points stored are there to be taken out again. -/
theorem extract_overwrite {slots : Array KeyPoint} {offset : Nat} {ps : List KeyPoint}
    (hfits : offset + ps.length ≤ slots.size) :
    (overwrite slots offset ps).extract offset (offset + ps.length) = ps.toArray := by
  refine Array.ext_getElem? fun i => ?_
  rw [Array.getElem?_extract, size_overwrite, Nat.min_eq_left hfits, Nat.add_sub_cancel_left]
  split
  next hi => rw [getElem?_overwrite_inside hfits hi, List.getElem?_toArray]
  next hi => rw [List.getElem?_toArray, List.getElem?_eq_none (Nat.not_lt.1 hi)]

/-! ### The points that a writer holds -/

/-- The number of points that go into a region: its slots, as far as these have a number. -/
def Region.room (r : Region) : Nat := r.stop.toNat - r.offset.toNat

namespace Writer

variable {w : Writer} {base : Array KeyPoint} {offset capacity : Nat} {kept : List KeyPoint}

/-- The writer holds the points `kept`, in slots from `offset` on of an arena that was `base`
before, and may hold up to `capacity` points. -/
structure Holds (w : Writer) (base : Array KeyPoint) (offset capacity : Nat)
    (kept : List KeyPoint) : Prop where
  /-- The arena is overwritten with the points. -/
  slots_eq : w.slots = overwrite base offset kept
  /-- The first slot of the writer. -/
  offset_eq : w.offset = offset
  /-- The number of slots of the writer. -/
  capacity_eq : w.capacity = capacity
  /-- The number of points. -/
  len_eq : w.len = kept.length

theorem Holds.fits (h : w.Holds base offset capacity kept) :
    kept.length ≤ capacity ∧ offset + capacity ≤ base.size := by
  have hlen := w.len_le
  have hfits := w.fits
  rw [h.len_eq, h.capacity_eq] at hlen
  rw [h.offset_eq, h.capacity_eq, h.slots_eq, size_overwrite] at hfits
  exact ⟨hlen, hfits⟩

/-- A writer that has just been opened holds no points. -/
theorem openOn_holds {r : Region} (hr : r.stop.toNat ≤ base.size) :
    ∃ w, openOn base r = .ok w ∧
      w.Holds base r.offset.toNat (r.stop.toNat - r.offset.toNat) [] := by
  refine ⟨_, dif_pos hr, ?_⟩
  exact ⟨rfl, rfl, rfl, rfl⟩

theorem Holds.last_eq (h : w.Holds base offset capacity kept) : w.last = kept.getLast? := by
  obtain ⟨hlen, hfits⟩ := h.fits
  rw [List.getLast?_eq_getElem?, last, h.len_eq]
  cases hk : kept.length with
  | zero => simp [List.length_eq_zero_iff.1 hk]
  | succ n =>
      rw [h.slots_eq, h.offset_eq]
      exact getElem?_overwrite_inside (by omega) (by omega)

theorem Holds.push (h : w.Holds base offset capacity kept) (hroom : kept.length < capacity)
    (p : KeyPoint) : ∃ w', (Writer.push p w) = (.ok (), w') ∧
      w'.Holds base offset capacity (kept ++ [p]) := by
  have hlt : w.len < w.capacity := by rw [h.len_eq, h.capacity_eq]; exact hroom
  refine ⟨_, dif_pos hlt, ?_, h.offset_eq, h.capacity_eq, ?_⟩
  · have hslot : w.offset + w.len < w.slots.size := by have := w.fits; omega
    have hset : w.slots.set (w.offset + w.len) p hslot =
        w.slots.setIfInBounds (w.offset + w.len) p := by
      rw [Array.setIfInBounds, dif_pos hslot]
    rw [overwrite_concat, ← h.slots_eq, ← h.offset_eq, ← h.len_eq]
    exact hset
  · rw [List.length_append, ← h.len_eq]
    rfl

/-- Without room, any point is refused, and the writer stays as it is. -/
theorem Holds.push_full (h : w.Holds base offset capacity kept) (hfull : kept.length = capacity)
    (p : KeyPoint) : Writer.push p w = (.error (.overCapacity (capacity + 1) capacity), w) := by
  have hlen : ¬ w.len < w.capacity := by
    rw [h.len_eq, h.capacity_eq, hfull]
    exact Nat.lt_irrefl capacity
  rw [Writer.push, dif_neg hlen, h.len_eq, h.capacity_eq, hfull]

/-- A point that keeps the height is not stored. -/
theorem Holds.append_same (h : w.Holds base offset capacity kept) {p : KeyPoint}
    (hp : kept.getLast?.any (·.height == p.height) = true) :
    (collector.append p.x p.height).run.run w = (.ok (), w) := by
  have hlast : (w.last.any (·.height == p.height)) = true := h.last_eq ▸ hp
  exact Collector.run_append_of_any rfl hlast p.x

/-- A point that changes the height is stored behind the others, if there is room. -/
theorem Holds.append_change (h : w.Holds base offset capacity kept) {p : KeyPoint}
    (hp : ¬ kept.getLast?.any (·.height == p.height) = true) (hroom : kept.length < capacity) :
    ∃ w', (collector.append p.x p.height).run.run w = (.ok (), w') ∧
      w'.Holds base offset capacity (kept ++ [p]) := by
  have hlast : ¬ (w.last.any (·.height == p.height)) = true := h.last_eq ▸ hp
  obtain ⟨w', hpush, hw'⟩ := h.push hroom p
  exact ⟨w', (Collector.run_append_of_not_any rfl hlast p.x).trans hpush, hw'⟩

/-- Without room, a point that changes the height is refused, and the writer stays as it is. -/
theorem Holds.append_full (h : w.Holds base offset capacity kept) {p : KeyPoint}
    (hp : ¬ kept.getLast?.any (·.height == p.height) = true) (hfull : kept.length = capacity) :
    (collector.append p.x p.height).run.run w =
      (.error (.overCapacity (capacity + 1) capacity), w) := by
  have hlast : ¬ (w.last.any (·.height == p.height)) = true := h.last_eq ▸ hp
  exact (Collector.run_append_of_not_any rfl hlast p.x).trans (h.push_full hfull p)

/-- What comes of a list of points where there is room for so many: the list itself, or the refusal
of the first point too many. -/
def accepted (room : Nat) (points : List KeyPoint) : Except Refusal (List KeyPoint) :=
  if points.length ≤ room then .ok points else .error (.overCapacity (room + 1) room)

theorem accepted_eq_ok_iff {room : Nat} {points kept : List KeyPoint} :
    accepted room points = .ok kept ↔ points.length ≤ room ∧ points = kept := by
  rw [accepted]
  split
  next h => simp [h]
  next h => simp [h]

/-- **A writer stores the changes among the points that it is handed**, as many as there is room
for, and fails at the first change for which there is none. -/
theorem Holds.appendAll {points : List KeyPoint} (h : w.Holds base offset capacity kept) :
    ∃ w', (collector.appendAll points).run.run w =
        ((accepted capacity (kept ++ changesAfter kept.getLast? points)).map fun _ => (), w') ∧
      w'.Holds base offset capacity
        ((kept ++ changesAfter kept.getLast? points).take capacity) := by
  have hfits := h.fits.1
  induction points generalizing w kept with
  | nil =>
      refine ⟨w, ?_, ?_⟩
      · rw [changesAfter_nil, List.append_nil, accepted, if_pos hfits]
        rfl
      · rwa [changesAfter_nil, List.append_nil, List.take_of_length_le hfits]
  | cons p ps ih =>
      rw [changesAfter_cons, Collector.appendAll_cons]
      by_cases hp : kept.getLast?.any (·.height == p.height) = true
      · rw [if_pos hp, Attempt.run_bind_of_ok (h.append_same hp)]
        exact ih h hfits
      · rw [if_neg hp]
        rcases Nat.lt_or_eq_of_le hfits with hlt | hfull
        · obtain ⟨w₁, hrun, hw₁⟩ := h.append_change hp hlt
          have hsplit : kept ++ p :: changesAfter (some p) ps =
              (kept ++ [p]) ++ changesAfter (kept ++ [p]).getLast? ps := by
            rw [List.getLast?_concat, List.append_assoc, List.singleton_append]
          rw [Attempt.run_bind_of_ok hrun, hsplit]
          exact ih hw₁ hw₁.fits.1
        · -- Nothing more is stored, and what is stored is what there is room for.
          have hover : ¬ (kept ++ p :: changesAfter (some p) ps).length ≤ capacity := by
            rw [List.length_append, List.length_cons, hfull]
            omega
          refine ⟨w, ?_, ?_⟩
          · rw [Attempt.run_bind_of_error (h.append_full hp hfull), accepted, if_neg hover]
            rfl
          · rwa [List.take_left' hfull]

/-- **Filling a region with a list of points stores its changes**, as far as there is room for them,
and returns their number. -/
theorem fill_appendAll {r : Region} {points : List KeyPoint} (hr : r.stop.toNat ≤ base.size) :
    fill base r (do collector.appendAll points; return (← get).len) =
      ((accepted r.room (changes points)).map List.length,
        overwrite base r.offset.toNat ((changes points).take r.room)) := by
  obtain ⟨w, hopen, hw⟩ := openOn_holds hr
  have hfilled : ∃ w', (collector.appendAll points).run.run w =
        ((accepted r.room (changes points)).map fun _ => (), w') ∧
      w'.Holds base r.offset.toNat r.room ((changes points).take r.room) := hw.appendAll
  obtain ⟨w', hrun, hw'⟩ := hfilled
  rw [fill, hopen]
  by_cases hroom : (changes points).length ≤ r.room
  · rw [accepted, if_pos hroom] at hrun ⊢
    have hjob : (do collector.appendAll points; return (← get).len :
        Attempt Writer Refusal Nat).run.run w = (.ok w'.len, w') :=
      Attempt.run_bind_of_ok hrun _
    simp only [hjob]
    rw [hw'.len_eq, hw'.slots_eq, List.take_of_length_le hroom]
    rfl
  · rw [accepted, if_neg hroom] at hrun ⊢
    have hjob : (do collector.appendAll points; return (← get).len :
        Attempt Writer Refusal Nat).run.run w = (.error (.overCapacity (r.room + 1) r.room), w') :=
      Attempt.run_bind_of_error hrun _
    simp only [hjob]
    rw [hw'.slots_eq]
    rfl

end Writer

/-! ### Putting points into storage -/

namespace Storage

/-- Storage with one of its arenas replaced. -/
def setArena (s : Storage) : Arena → Array KeyPoint → Storage
  | .one, slots => { s with one := slots }
  | .two, slots => { s with two := slots }

/-- Storage with a list of points put at the start of a region. -/
def put (s : Storage) (r : Region) (points : List KeyPoint) : Storage :=
  s.setArena r.arena (overwrite (s.arena r.arena) r.offset.toNat points)

theorem arena_setArena_self (s : Storage) (a : Arena) (slots : Array KeyPoint) :
    (s.setArena a slots).arena a = slots := by cases a <;> rfl

theorem arena_setArena_of_ne {a b : Arena} (h : a ≠ b) (s : Storage) (slots : Array KeyPoint) :
    (s.setArena a slots).arena b = s.arena b := by
  cases a <;> cases b <;> first | rfl | exact absurd rfl h

theorem arena_put_self (s : Storage) (r : Region) (points : List KeyPoint) :
    (s.put r points).arena r.arena = overwrite (s.arena r.arena) r.offset.toNat points :=
  arena_setArena_self ..

theorem arena_put_of_ne {r : Region} {a : Arena} (h : r.arena ≠ a) (s : Storage)
    (points : List KeyPoint) : (s.put r points).arena a = s.arena a :=
  arena_setArena_of_ne h ..

@[simp] theorem size_arena_put (s : Storage) (r : Region) (points : List KeyPoint) (a : Arena) :
    ((s.put r points).arena a).size = (s.arena a).size := by
  by_cases h : r.arena = a
  · subst h
    rw [arena_put_self, size_overwrite]
  · rw [arena_put_of_ne h]

/-- A computation on the writer of a region changes the arena of the region, and no other. -/
theorem run_write {α : Type} {s : Storage} {r : Region}
    {job : Array KeyPoint → Attempt Writer Refusal α} {result : Except Refusal α}
    {slots : Array KeyPoint}
    (h : Writer.fill (s.arena r.arena) r (job (s.arena r.arena.other)) = (result, slots)) :
    (Storage.write r job).run.run s = (result, s.setArena r.arena slots) := by
  rcases r with ⟨a, offset, capacity⟩
  rcases s with ⟨one, two⟩
  cases a with
  | one =>
      replace h : Writer.fill one ⟨.one, offset, capacity⟩ (job two) = (result, slots) := h
      change ((Writer.fill one ⟨.one, offset, capacity⟩ (job two)).1,
        (⟨(Writer.fill one ⟨.one, offset, capacity⟩ (job two)).2, two⟩ : Storage)) = _
      rw [h]
      rfl
  | two =>
      replace h : Writer.fill two ⟨.two, offset, capacity⟩ (job one) = (result, slots) := h
      change ((Writer.fill two ⟨.two, offset, capacity⟩ (job one)).1,
        (⟨one, (Writer.fill two ⟨.two, offset, capacity⟩ (job one)).2⟩ : Storage)) = _
      rw [h]
      rfl

/-- **Writing a list of points puts its changes in place**, as far as there is room for them, and
returns their number. -/
theorem write_appendAll {s : Storage} {r : Region} {points : List KeyPoint}
    (hr : r.stop.toNat ≤ (s.arena r.arena).size) :
    (Storage.write r fun _ => do
        Writer.collector.appendAll points
        return (← get).len).run.run s =
      ((Writer.accepted r.room (changes points)).map List.length,
        s.put r ((changes points).take r.room)) :=
  run_write (Writer.fill_appendAll hr)

end Storage

end Cityscape
