/-
**The two arenas stay level.**

Both arenas of a session's storage always have the same number of slots.  Only growing changes that
number, and it grows both; a composition keeps it, whatever its input is, whether it succeeds or
fails, and in whatever region it works.

To see this, a computation is followed through a quantity of its store that it keeps
(`Cityscape.Attempt.Keeps`).  A writer keeps the size of its arena, since it only ever stores a
point in a slot that is there.

Main definitions:

* `Cityscape.Attempt.Keeps` — a computation keeps a quantity of its store, also when it fails;
* `Cityscape.Storage.padTo` — an arena with untouched slots added;
* `Cityscape.Storage.Balanced` — both arenas have the same number of slots.

Main results:

* `Cityscape.keeps_compose` — **a composition never changes the number of slots**;
* `Cityscape.Storage.Balanced.arena_grow` — growing pads both of two level arenas.
-/

import Cityscape.Proofs.Composing

set_option relaxedAutoImplicit false
set_option autoImplicit false

namespace Cityscape

/-! ### Quantities that a computation keeps -/

namespace Attempt

variable {σ ε α β γ : Type} {f : σ → γ}

/-- The computation leaves the quantity `f` of its store as it was, whether it succeeds or fails. -/
def Keeps (f : σ → γ) (x : Attempt σ ε α) : Prop := ∀ s, f (x.run.run s).2 = f s

theorem Keeps.pure (a : α) : Keeps f (pure a : Attempt σ ε α) := fun _ => rfl

theorem Keeps.throw (e : ε) : Keeps f (throw e : Attempt σ ε α) := fun _ => rfl

theorem Keeps.get : Keeps f (get : Attempt σ ε σ) := fun _ => rfl

theorem Keeps.bind {x : Attempt σ ε α} {g : α → Attempt σ ε β} (hx : Keeps f x)
    (hg : ∀ a, Keeps f (g a)) : Keeps f (x >>= g) := by
  intro s
  have hs := hx s
  rcases hrun : x.run.run s with ⟨result, t⟩
  rw [hrun] at hs
  cases result with
  | error e =>
      rw [run_bind_of_error hrun]
      exact hs
  | ok a =>
      rw [run_bind_of_ok hrun, hg a t]
      exact hs

end Attempt

open Attempt

/-! ### Writers -/

namespace Writer

theorem keeps_push (p : KeyPoint) :
    Keeps (fun w : Writer => w.slots.size) (push p : Attempt Writer Refusal Unit) := by
  intro w
  change (push p w).2.slots.size = w.slots.size
  unfold push
  split
  next hlt =>
      have hslot : w.offset + w.len < w.slots.size := by
        have := w.fits
        omega
      exact Array.size_set hslot
  next => rfl

theorem keeps_append (x height : Int64) :
    Keeps (fun w : Writer => w.slots.size) (collector.append x height) := by
  refine Keeps.get.bind fun w => ?_
  split
  next => exact Keeps.pure ()
  next => exact keeps_push _

theorem keeps_appendAll (points : List KeyPoint) :
    Keeps (fun w : Writer => w.slots.size) (collector.appendAll points) := by
  induction points with
  | nil => exact Keeps.pure ()
  | cons p ps ih =>
      rw [Collector.appendAll_cons]
      exact (keeps_append p.x p.height).bind fun _ => ih

/-- Appending points and telling how many are stored keeps the size of the arena. -/
theorem keeps_appendAll_len (points : List KeyPoint) :
    Keeps (fun w : Writer => w.slots.size) (do
      collector.appendAll points
      return (← get).len) :=
  (keeps_appendAll points).bind fun _ => Keeps.get.bind fun _ => Keeps.pure _

theorem size_fill {α : Type} {job : Attempt Writer Refusal α}
    (hjob : Keeps (fun w : Writer => w.slots.size) job) (slots : Array KeyPoint) (r : Region) :
    (fill slots r job).2.size = slots.size := by
  unfold fill openOn
  split
  next e h => rfl
  next w h =>
      have hw : w.slots = slots := by
        split at h
        next => exact (Except.ok.inj h) ▸ rfl
        next => nomatch h
      exact (hjob w).trans (congrArg Array.size hw)

end Writer

/-! ### Storage -/

namespace Storage

theorem keeps_write {α : Type} {r : Region} {job : Array KeyPoint → Attempt Writer Refusal α}
    (hjob : ∀ slots, Keeps (fun w : Writer => w.slots.size) (job slots)) (a : Arena) :
    Keeps (fun s : Storage => (s.arena a).size) (Storage.write r job) := by
  intro s
  have hsize := Writer.size_fill (hjob (s.arena r.arena.other)) (s.arena r.arena) r
  rcases hfill : Writer.fill (s.arena r.arena) r (job (s.arena r.arena.other)) with
    ⟨result, slots⟩
  rw [hfill] at hsize
  rw [run_write hfill]
  change ((s.setArena r.arena slots).arena a).size = (s.arena a).size
  by_cases ha : r.arena = a
  · subst ha
    rw [arena_setArena_self]
    exact hsize
  · rw [arena_setArena_of_ne ha]

end Storage

theorem keeps_fetch (r : Region) (len : Nat) (a : Arena) :
    Keeps (fun s : Storage => (s.arena a).size) (fetch r len) := by
  refine Keeps.get.bind fun s => ?_
  split
  next => exact Keeps.pure _
  next => exact Keeps.throw _

/-- **A composition never changes the number of slots** of an arena, whatever its input. -/
theorem keeps_compose (out : Region) (bs : List Building) (a : Arena) :
    Keeps (fun s : Storage => (s.arena a).size) (compose out bs) := by
  induction out, bs using halving_induction with
  | nil out =>
      rw [compose]
      exact Keeps.pure 0
  | single out b =>
      rw [compose, Collector.project_eq_appendAll]
      exact Storage.keeps_write (fun _ => Writer.keeps_appendAll_len _) a
  | halves out bs h ihl ihr =>
      rw [compose_of_two_le h]
      refine ihl.bind fun _ => ihr.bind fun _ => (keeps_fetch _ _ a).bind fun ps =>
        (keeps_fetch _ _ a).bind fun qs => Storage.keeps_write (fun _ => ?_) a
      rw [Collector.merge_eq_appendAll]
      exact Writer.keeps_appendAll_len _

/-! ### Growing level arenas -/

namespace Storage

/-- An arena with untouched slots added at its end until there are `n`. -/
def padTo (n : Nat) (slots : Array KeyPoint) : Array KeyPoint :=
  slots ++ Array.replicate (n - slots.size) .origin

theorem size_padTo (n : Nat) (slots : Array KeyPoint) :
    (padTo n slots).size = max slots.size n := by
  rw [padTo, Array.size_append, Array.size_replicate]
  omega

/-- Padding keeps the slots that are there, and the new ones are untouched. -/
theorem getElem?_padTo {n j : Nat} {slots : Array KeyPoint} (hj : j < max slots.size n) :
    (padTo n slots)[j]? = if j < slots.size then slots[j]? else some .origin := by
  rw [padTo, Array.getElem?_append]
  split
  next => rfl
  next hge => rw [Array.getElem?_replicate, if_pos (by omega)]

/-- An arena that has no more slots already loses none. -/
theorem resize_eq_padTo {n : Nat} {slots : Array KeyPoint} (h : slots.size ≤ n) :
    resize n slots = padTo n slots := by
  rw [resize, padTo, Array.take_eq_extract, Array.extract_eq_self_of_le h]

/-- Both arenas have the same number of slots. -/
def Balanced (s : Storage) : Prop := s.one.size = s.two.size

namespace Balanced

variable {s t : Storage}

theorem empty : Storage.empty.Balanced := rfl

theorem size_arena (h : s.Balanced) (a : Arena) : (s.arena a).size = s.slots := by
  cases a with
  | one => rfl
  | two => exact Eq.symm h

theorem of_size_eq (h : s.Balanced) (hsize : ∀ a, (t.arena a).size = (s.arena a).size) :
    t.Balanced :=
  (hsize .one).trans (h.trans (hsize .two).symm)

/-- **Growing pads both of two level arenas.** -/
theorem arena_grow (h : s.Balanced) (n : Nat) (a : Arena) :
    (s.grow n).arena a = padTo n (s.arena a) := by
  have hsize := h.size_arena a
  rw [Storage.grow]
  split
  next hlt =>
      rw [← resize_eq_padTo (by omega)]
      cases a <;> rfl
  next hge =>
      -- Only the first arena is asked for its size, but the second one has no fewer slots.
      have hnone : n - (s.arena a).size = 0 := by omega
      rw [padTo, hnone, Array.replicate_zero, Array.append_empty]

theorem grow (h : s.Balanced) (n : Nat) : (s.grow n).Balanced := by
  have hsize : ∀ a, ((s.grow n).arena a).size = max s.slots n := by
    intro a
    rw [h.arena_grow, size_padTo, h.size_arena]
  exact (hsize .one).trans (hsize .two).symm

theorem hasSlots_grow (h : s.Balanced) (n : Nat) : (s.grow n).HasSlots n := by
  intro a
  rw [h.arena_grow, size_padTo]
  exact Nat.le_max_right ..

end Balanced

end Storage

end Cityscape
