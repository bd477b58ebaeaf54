/-
**What storage remembers.**

A slot keeps its point until another one is stored in it, whatever happens to storage in between.
A writer whose region does not have the slot leaves it alone, and so does one whose region has it
but who does not get as far; growing adds slots behind it.  It is only lost when storage is
replaced as a whole.

The arenas alone do not tell when a point was stored, so a ledger is kept beside them
(`Cityscape.Storage.Ledger`), in which the sizes asked for and the points stored are entered, and
which begins anew with new storage.  What is entered for a writer is its own record
(`Cityscape.Writer.recording`), with the slots that the points have got.  Nothing is entered for a
region that is refused, for a point that is refused when the region is full, or for an append that
keeps the height; what remains is what a skyline would hold (`Cityscape.Storage.storedBy_of_le`).

As entries are only added at the end, the last entry of a slot is found in the part that has been
added, and in the old part if there is none (`Cityscape.Storage.lastStored_append`).  This is also
how a list of points overwrites an arena (`Cityscape.Storage.getElem?_overwrite`), and both are
carried through a history together (`Cityscape.Storage.Ledger.Tells`).

Main definitions:

* `Cityscape.Storage.Stored`, `Cityscape.Storage.lastStored` — an entry, and the last one of a slot;
* `Cityscape.Storage.storedBy` — **what requests to a region store**;
* `Cityscape.Storage.Step`, `Cityscape.Storage.after`, `Cityscape.Storage.afterAll` — what can be
  done to storage, and storage after a history;
* `Cityscape.Storage.Ledger` — the sizes asked for and the points stored since storage was replaced.

Main results:

* `Cityscape.Storage.storedBy_of_le`, `Cityscape.Storage.storedBy_of_lt` — what requests store,
  told by a skyline;
* `Cityscape.Storage.getElem?_arena_afterRequests` — requests to a region change the slots that
  they store points in, and no others;
* `Cityscape.Storage.Ledger.Tells.after` — a step keeps the ledger in agreement with storage;
* `Cityscape.Storage.slots_hold_last_stored` — **every slot holds the point that was last stored in
  it**, after any history.
-/

import Cityscape.Proofs.Balance
import Cityscape.Proofs.Interference

set_option relaxedAutoImplicit false
set_option autoImplicit false

namespace Cityscape.Storage

variable {s : Storage} {r : Region} {a : Arena}

/-! ### Entries -/

/-- A point stored in a slot of an arena. -/
structure Stored where
  /-- The arena of the slot. -/
  arena : Arena
  /-- The number of the slot. -/
  slot : Nat
  /-- The point. -/
  point : KeyPoint

/-- The point that was last stored in a slot, if there is one. -/
def lastStored (entries : List Stored) (a : Arena) (j : Nat) : Option KeyPoint :=
  (entries.reverse.find? fun e => e.arena = a ∧ e.slot = j).map Stored.point

theorem lastStored_singleton (e : Stored) (a : Arena) (j : Nat) :
    lastStored [e] a j = if e.arena = a ∧ e.slot = j then some e.point else none := by
  rw [lastStored, List.reverse_singleton, List.find?_singleton]
  simp only [decide_eq_true_eq]
  split <;> rfl

/-- **The last entry of a slot is among those added last**, or is the one before if they are about
other slots. -/
theorem lastStored_append (entries added : List Stored) (a : Arena) (j : Nat) :
    lastStored (entries ++ added) a j = (lastStored added a j).or (lastStored entries a j) := by
  rw [lastStored, List.reverse_append, List.find?_append, Option.map_or]
  rfl

theorem lastStored_of_ne {entries : List Stored} (h : ∀ e ∈ entries, e.arena ≠ a) (j : Nat) :
    lastStored entries a j = none := by
  rw [lastStored, Option.map_eq_none_iff, List.find?_eq_none]
  intro e he
  rw [decide_eq_true_eq]
  exact fun hslot => h e (List.mem_reverse.1 he) hslot.1

/-! ### Points in a row -/

/-- The entries for points that are stored one behind the other, from slot `offset` of an arena
on. -/
def placed (a : Arena) (offset : Nat) : List KeyPoint → List Stored
  | [] => []
  | p :: ps => ⟨a, offset, p⟩ :: placed a (offset + 1) ps

theorem arena_of_mem_placed {offset : Nat} {ps : List KeyPoint} {e : Stored}
    (h : e ∈ placed a offset ps) : e.arena = a := by
  induction ps generalizing offset with
  | nil => nomatch h
  | cons p ps ih =>
      rcases List.mem_cons.1 h with rfl | hmem
      · rfl
      · exact ih hmem

/-- **An arena that is overwritten with a list of points** holds them where the entries say, and is
as before elsewhere. -/
theorem getElem?_overwrite {slots : Array KeyPoint} {offset : Nat} {ps : List KeyPoint}
    (hslot : ∀ i, i < ps.length → offset + i < slots.size) (a : Arena) (j : Nat) :
    (overwrite slots offset ps)[j]? = (lastStored (placed a offset ps) a j).or slots[j]? := by
  induction ps generalizing slots offset with
  | nil => rfl
  | cons p ps ih =>
      have hfirst : (slots.setIfInBounds offset p)[j]? =
          (lastStored [⟨a, offset, p⟩] a j).or slots[j]? := by
        rw [lastStored_singleton]
        by_cases hj : offset = j
        · subst hj
          have hlt : offset < slots.size := hslot 0 (Nat.zero_lt_succ _)
          rw [if_pos ⟨rfl, rfl⟩, Array.getElem?_setIfInBounds_self_of_lt hlt, Option.some_or]
        · rw [if_neg fun h => hj h.2, Array.getElem?_setIfInBounds_ne hj, Option.none_or]
      have hrest : ∀ i, i < ps.length → offset + 1 + i < (slots.setIfInBounds offset p).size := by
        intro i hi
        rw [Array.size_setIfInBounds, Nat.add_assoc, Nat.add_comm 1 i]
        exact hslot (i + 1) (Nat.succ_lt_succ hi)
      rw [overwrite, ih hrest, hfirst, ← Option.or_assoc, ← lastStored_append]
      rfl

/-! ### Requests to a region -/

/-- **What requests to a region store**: the points of which the writer of the region keeps a
record, each in the slot behind the one before.  Nothing is stored if the writer is refused. -/
def storedBy (s : Storage) (r : Region) (requests : List Request) : List Stored :=
  match Writer.openOn (s.arena r.arena) r with
  | .error _ => []
  | .ok w => placed r.arena r.offset.toNat (Writer.recording.afterAll (w, []) requests).2

/-- **What requests to a region inside the arena store**: the points that a skyline would hold
after them, as far as there is room. -/
theorem storedBy_of_le (hr : r.stop.toNat ≤ (s.arena r.arena).size) (requests : List Request) :
    s.storedBy r requests = placed r.arena r.offset.toNat
      ((Skyline.collector.afterAll .empty requests).points.toList.take r.room) := by
  obtain ⟨w, hopen, hw⟩ := Writer.openOn_holds_afterAll hr
  obtain ⟨points, hrecord, hpoints⟩ := (Writer.holds_of_openOn hopen).2.recording_afterAll requests
  rw [storedBy, hopen, ← (hw requests).stored_eq, hpoints.stored_eq]
  exact congrArg (fun record => placed r.arena r.offset.toNat record.2) hrecord

/-- Requests to a region that reaches beyond the arena store nothing. -/
theorem storedBy_of_lt (hr : (s.arena r.arena).size < r.stop.toNat) (requests : List Request) :
    s.storedBy r requests = [] := by
  rw [storedBy, Writer.openOn_eq_error hr]

/-- What requests to a region store is put at the start of the region, and there are slots for all
of it. -/
theorem exists_afterRequests_eq_put (s : Storage) (r : Region) (requests : List Request) :
    ∃ points, s.storedBy r requests = placed r.arena r.offset.toNat points ∧
      s.afterRequests r requests = s.put r points ∧
      ∀ i, i < points.length → r.offset.toNat + i < (s.arena r.arena).size := by
  rcases Nat.lt_or_ge (s.arena r.arena).size r.stop.toNat with hbeyond | hinside
  · refine ⟨[], storedBy_of_lt hbeyond requests, ?_, fun i hi => absurd hi (Nat.not_lt_zero i)⟩
    have hfill : Writer.fill (s.arena r.arena) r (modify (Writer.collector.afterAll · requests)) =
        (.error (.overCapacity r.stop.toNat (s.arena r.arena).size), s.arena r.arena) := by
      rw [Writer.fill, Writer.openOn_eq_error hbeyond]
    rw [afterRequests, run_write hfill]
    rfl
  · refine ⟨_, storedBy_of_le hinside requests, afterRequests_eq_put hinside requests, ?_⟩
    intro i hi
    rw [List.length_take, Region.room] at hi
    omega

theorem size_arena_afterRequests (s : Storage) (r : Region) (requests : List Request) (a : Arena) :
    ((s.afterRequests r requests).arena a).size = (s.arena a).size := by
  obtain ⟨points, -, hput, -⟩ := exists_afterRequests_eq_put s r requests
  rw [hput, size_arena_put]

/-- Requests to a region do not change the arena that the region is not in. -/
theorem arena_afterRequests_of_ne (h : r.arena ≠ a) (s : Storage) (requests : List Request) :
    (s.afterRequests r requests).arena a = s.arena a := by
  obtain ⟨points, -, hput, -⟩ := exists_afterRequests_eq_put s r requests
  rw [hput, arena_put_of_ne h]

/-- **Requests to a region change the slots that they store points in**, and no others. -/
theorem getElem?_arena_afterRequests (s : Storage) (r : Region) (requests : List Request)
    (a : Arena) (j : Nat) : ((s.afterRequests r requests).arena a)[j]? =
      (lastStored (s.storedBy r requests) a j).or (s.arena a)[j]? := by
  obtain ⟨points, hstored, hput, hslot⟩ := exists_afterRequests_eq_put s r requests
  rw [hstored, hput]
  by_cases h : r.arena = a
  · subst h
    rw [arena_put_self, getElem?_overwrite hslot]
  · have hnone : lastStored (placed r.arena r.offset.toNat points) a j = none :=
      lastStored_of_ne (fun e he => arena_of_mem_placed he ▸ h) j
    rw [hnone, Option.none_or, arena_put_of_ne h]

/-! ### Histories -/

/-- Padding does not show when untouched slots stand for those that are not there. -/
theorem getD_getElem?_padTo (n : Nat) (slots : Array KeyPoint) (j : Nat) :
    (padTo n slots)[j]?.getD .origin = slots[j]?.getD .origin := by
  rw [padTo, Array.getElem?_append]
  split
  next => rfl
  next hnew =>
      rw [Array.getElem?_eq_none (Nat.not_lt.1 hnew), Array.getElem?_replicate]
      split <;> rfl

/-- What can be done to storage: to replace it by new storage with `n` slots in each arena, to grow
it to at least `n` slots, or to open a writer on a region and make requests to it, which may well
depend on what storage holds. -/
inductive Step where
  | renew (n : Nat)
  | grow (n : Nat)
  | write (r : Region) (requests : List Request)

/-- **Storage after a step.** -/
def after (s : Storage) : Step → Storage
  | .renew n => fresh n
  | .grow n => s.grow n
  | .write r requests => s.afterRequests r requests

/-- **Storage after a history.** -/
def afterAll (s : Storage) (steps : List Step) : Storage := steps.foldl after s

/-- The sizes that storage has been asked for and the points that have been stored in it, each in
the order of time, since it was last replaced. -/
structure Ledger where
  /-- The numbers of slots asked for. -/
  asked : List Nat := []
  /-- The points stored, with their slots. -/
  stored : List Stored := []

namespace Ledger

/-- The ledger after a step that is done to storage `s`. -/
def after (l : Ledger) (s : Storage) : Step → Ledger
  | .renew n => { asked := [n] }
  | .grow n => { l with asked := l.asked ++ [n] }
  | .write r requests => { l with stored := l.stored ++ s.storedBy r requests }

/-- The ledger after a history that begins with storage `s`. -/
def afterAll (l : Ledger) (s : Storage) : List Step → Ledger
  | [] => l
  | step :: steps => (l.after s step).afterAll (s.after step) steps

/-- The largest of the sizes asked for. -/
def slots (l : Ledger) : Nat := l.asked.foldl max 0

/-- The point that was last stored in a slot, and the untouched one if there is none. -/
def content (l : Ledger) (a : Arena) (j : Nat) : KeyPoint := (lastStored l.stored a j).getD .origin

variable {l : Ledger}

/-- The ledger tells how many slots each arena has, and what is in them. -/
structure Tells (l : Ledger) (s : Storage) : Prop where
  /-- Each arena has as many slots as the largest size asked for. -/
  size_eq (a : Arena) : (s.arena a).size = l.slots
  /-- The slots hold what was last stored in them. -/
  content_eq (a : Arena) (j : Nat) : (s.arena a)[j]?.getD .origin = l.content a j

theorem Tells.balanced (h : l.Tells s) : s.Balanced :=
  (h.size_eq .one).trans (h.size_eq .two).symm

theorem Tells.slots_eq (h : l.Tells s) : s.slots = l.slots := h.size_eq .one

theorem tells_empty : Tells {} .empty where
  size_eq a := by cases a <;> rfl
  content_eq a j := by cases a <;> rfl

/-- Growing storage and entering the size asked for go together. -/
theorem Tells.grow (h : l.Tells s) (n : Nat) :
    Tells { l with asked := l.asked ++ [n] } (s.grow n) where
  size_eq a := by
    rw [h.balanced.arena_grow, size_padTo, h.size_eq, slots, slots, List.foldl_concat]
  content_eq a j := by
    rw [h.balanced.arena_grow, getD_getElem?_padTo]
    exact h.content_eq a j

/-- Requests to a region and entering what they store go together. -/
theorem Tells.write (h : l.Tells s) (r : Region) (requests : List Request) :
    Tells { l with stored := l.stored ++ s.storedBy r requests } (s.afterRequests r requests) where
  size_eq a := (size_arena_afterRequests s r requests a).trans (h.size_eq a)
  content_eq a j := by
    have hbefore := h.content_eq a j
    rw [content] at hbefore ⊢
    rw [getElem?_arena_afterRequests, lastStored_append, Option.getD_or, Option.getD_or, hbefore]

/-- **A step keeps the ledger in agreement with storage.** -/
theorem Tells.after (h : l.Tells s) (step : Step) : (l.after s step).Tells (s.after step) := by
  cases step with
  | renew n => exact tells_empty.grow n
  | grow n => exact h.grow n
  | write r requests => exact h.write r requests

theorem Tells.afterAll (h : l.Tells s) (steps : List Step) :
    (l.afterAll s steps).Tells (s.afterAll steps) := by
  induction steps generalizing s l with
  | nil => exact h
  | cons step steps ih => exact ih (h.after step)

end Ledger

/-- **Every slot holds the point that was last stored in it**, after any history that begins with
storage without slots, and an untouched slot holds the origin.  Both arenas have as many slots as
the largest size asked for since storage was last replaced.  Growing further changes no slot that
is there, whatever the size asked for.  Further requests to a region of the one arena change
nothing in the other one; what they store is what a skyline would hold after them, as far as the
region has room, and nothing if the region reaches beyond the arena. -/
theorem slots_hold_last_stored (steps : List Step) :
    let s := empty.afterAll steps
    let l := Ledger.afterAll {} .empty steps
    (∀ a, (s.arena a).size = s.slots) ∧
      s.slots = l.slots ∧
      (∀ a j, j < s.slots → (s.arena a)[j]? = some (l.content a j)) ∧
      (∀ n a j, j < s.slots → ((s.after (.grow n)).arena a)[j]? = (s.arena a)[j]?) ∧
      ∀ r requests, (∀ a, r.arena ≠ a → (s.after (.write r requests)).arena a = s.arena a) ∧
        s.storedBy r requests =
          if r.stop.toNat ≤ s.slots then
            placed r.arena r.offset.toNat
              ((Skyline.collector.afterAll .empty requests).points.toList.take r.room)
          else [] := by
  intro s l
  have htells : l.Tells s := Ledger.tells_empty.afterAll steps
  have hsize : ∀ a, (s.arena a).size = s.slots := htells.balanced.size_arena
  refine ⟨hsize, htells.slots_eq, ?_, ?_, ?_⟩
  · intro a j hj
    have hslot : j < (s.arena a).size := (hsize a).symm ▸ hj
    have hcontent := htells.content_eq a j
    rw [Array.getElem?_eq_getElem hslot, Option.getD_some] at hcontent
    rw [Array.getElem?_eq_getElem hslot, hcontent]
  · intro n a j hj
    have hslot : j < (s.arena a).size := (hsize a).symm ▸ hj
    rw [after, htells.balanced.arena_grow, getElem?_padTo (by omega), if_pos hslot]
  · intro r requests
    refine ⟨fun a hr => arena_afterRequests_of_ne hr s requests, ?_⟩
    rw [← hsize r.arena]
    split
    next hinside => exact storedBy_of_le hinside requests
    next hbeyond => exact storedBy_of_lt (Nat.not_le.1 hbeyond) requests

/-- Two writers on regions with a slot in common, and storage that grows in between: the slot holds
what the second one stores.  The first one is given a point that keeps the height and a point too
many; a third writer is refused, and what was stored before storage was replaced is lost. -/
theorem slots_hold_last_stored_mixed :
    let steps : List Step := [.grow 9, .write ⟨.two, 0, 9⟩ [.push ⟨7, 7⟩], .renew 3,
      .write ⟨.one, 0, 2⟩ [.append 0 3, .append 1 3, .push ⟨4, 3⟩, .push ⟨9, 9⟩],
      .write ⟨.two, 2, 2⟩ [.push ⟨1, 1⟩], .grow 5, .write ⟨.one, 1, 3⟩ [.push ⟨6, 6⟩], .grow 2]
    let s := empty.afterAll steps
    s.slots = 5 ∧ (s.arena .one)[0]? = some ⟨0, 3⟩ ∧ (s.arena .one)[1]? = some ⟨6, 6⟩ ∧
      (s.arena .one)[2]? = some .origin ∧ (s.arena .two)[0]? = some .origin := by
  intro steps s
  obtain ⟨-, hslots, hslot, -, -⟩ := slots_hold_last_stored steps
  have hfive : s.slots = 5 := hslots.trans (by decide +kernel)
  have hcontent : ∀ a j, j < 5 → (s.arena a)[j]? =
      some ((Ledger.afterAll {} .empty steps).content a j) :=
    fun a j hj => hslot a j (hfive.symm ▸ hj)
  refine ⟨hfive, ?_, ?_, ?_, ?_⟩
  · rw [hcontent .one 0 (by decide)]
    decide +kernel
  · rw [hcontent .one 1 (by decide)]
    decide +kernel
  · rw [hcontent .one 2 (by decide)]
    decide +kernel
  · rw [hcontent .two 0 (by decide)]
    decide +kernel

end Cityscape.Storage
