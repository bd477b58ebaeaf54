/-
**How far storage grows.**

A session grows its storage before it composes a skyline, and it looks at the first arena alone to
see whether that is needed.  As the arenas are level, growing one means growing the other, and the
number of slots is always that of the largest computation so far: two for each of its buildings.

What one call does to the number of slots is said once, for all kinds of calls
(`Cityscape.Session.size_arena_after`): it is the larger of the number before and the number that
the call's own buildings need.  A refused input and an input that is only checked count for nothing
here, and an empty one needs no slots.  Slot numbers are cut off at the largest one, which commutes
with taking the larger of two, so the step and the history can be followed without any bound on the
inputs.

Main definitions:

* `Cityscape.Session.Call.input`, `Cityscape.Session.Call.accepted?` — what a call is about, and the
  buildings that it composes a skyline of;
* `Cityscape.Session.accepted`, `Cityscape.Session.largest` — **the inputs accepted in a history**,
  and the largest number of buildings in one of them.

Main results:

* `Cityscape.Session.after_eq_self` — refused and empty inputs leave a session as it is;
* `Cityscape.Session.size_arena_after`, `Cityscape.Session.size_arena_afterAll` — the number of
  slots after a call, and after a history;
* `Cityscape.Session.slots_are_twice_largest` — **both arenas have two slots for each building of
  the largest input accepted so far**.
-/

import Cityscape.Proofs.History

set_option relaxedAutoImplicit false
set_option autoImplicit false

namespace Cityscape.Session

/-! ### Inputs of a history -/

/-- The buildings that a call is about. -/
def Call.input : Call → List Building
  | .build bs | .run bs | .check bs => bs

/-- The buildings that a call composes a skyline of: those of an input that is admitted, unless it
is only checked. -/
def Call.accepted? (a : Admission) : Call → Option (List Building)
  | .build bs | .run bs =>
      match a.check bs with
      | .ok () => some bs
      | .error _ => none
  | .check _ => none

/-- **The inputs that are accepted** in a history, on the terms `a`. -/
def accepted (a : Admission) (calls : List Call) : List (List Building) :=
  calls.filterMap (Call.accepted? a)

/-- The largest number of buildings in one of the inputs, and `0` if there are none. -/
def largest (inputs : List (List Building)) : Nat := (inputs.map List.length).max?.getD 0

@[simp] theorem largest_nil : largest [] = 0 := rfl

theorem largest_cons (bs : List Building) (inputs : List (List Building)) :
    largest (bs :: inputs) = max bs.length (largest inputs) := by
  rw [largest, List.map_cons, List.max?_cons, Option.getD_some, largest]
  cases (inputs.map List.length).max? with
  | none => exact (Nat.max_zero _).symm
  | some n => rfl

theorem largest_append (inputs more : List (List Building)) :
    largest (inputs ++ more) = max (largest inputs) (largest more) := by
  induction inputs with
  | nil => exact (Nat.zero_max _).symm
  | cons bs inputs ih => rw [List.cons_append, largest_cons, largest_cons, ih, Nat.max_assoc]

theorem largest_le {inputs : List (List Building)} {n : Nat} (h : ∀ bs ∈ inputs, bs.length ≤ n) :
    largest inputs ≤ n := by
  induction inputs with
  | nil => exact Nat.zero_le n
  | cons bs inputs ih =>
      obtain ⟨hbs, hinputs⟩ := List.forall_mem_cons.1 h
      rw [largest_cons]
      exact Nat.max_le.2 ⟨hbs, ih hinputs⟩

/-- Only inputs that are admitted are accepted. -/
theorem check_of_mem_accepted {a : Admission} {calls : List Call} {bs : List Building}
    (h : bs ∈ accepted a calls) : a.check bs = .ok () ∧ ∃ c ∈ calls, c.input = bs := by
  obtain ⟨c, hc, hbs⟩ := List.mem_filterMap.1 h
  cases c with
  | build cs | run cs =>
      rw [Call.accepted?] at hbs
      split at hbs
      next hcheck =>
        obtain rfl := Option.some.inj hbs
        exact ⟨hcheck, _, hc, rfl⟩
      next => nomatch hbs
  | check cs => nomatch hbs

/-! ### The slots after one call -/

variable {a : Admission} {s : Session} {st : Storage} {bs : List Building}

/-- **What a call can do**: either its buildings are accepted, and their computation leaves its
storage, or the session stays as it is. -/
theorem after_cases (s : Session) (c : Call) :
    (c.accepted? s.admission = some c.input ∧ s.admission.check c.input = .ok () ∧
        s.after c = { s with storage := (compute s.admission s.storage c.input).2.1 }) ∨
      (c.accepted? s.admission = none ∧ s.after c = s) := by
  cases c with
  | build bs | run bs =>
      rw [Call.accepted?]
      cases hcheck : s.admission.check bs with
      | ok u => exact .inl ⟨rfl, hcheck, rfl⟩
      | error e => exact .inr ⟨rfl, (run_of_error hcheck).2⟩
  | check bs => exact .inr ⟨rfl, rfl⟩

/-- **A refused or empty input leaves the session as it is.** -/
theorem after_eq_self {c : Call} (h : s.admission.check c.input ≠ .ok () ∨ c.input = []) :
    s.after c = s := by
  rcases after_cases s c with ⟨-, hcheck, hafter⟩ | ⟨-, hafter⟩
  · have hinput : c.input = [] := h.resolve_left (not_not_intro hcheck)
    rw [hinput] at hcheck hafter
    rw [hafter, compute_nil hcheck]
  · exact hafter

/-- An admitted input leaves no fewer slots than there were, and enough for its buildings. -/
theorem size_arena_compute (hst : st.Balanced) (h : a.check bs = .ok ()) (x : Arena) :
    ((compute a st bs).2.1.arena x).size = max (st.arena x).size (slot (2 * bs.length)).toNat := by
  cases bs with
  | nil =>
      rw [compute_nil h]
      exact (Nat.max_zero _).symm
  | cons b bs =>
      have hkeeps := keeps_compose (.root (b :: bs).length) (b :: bs) x
      rw [storage_compute_of_ok h (List.cons_ne_nil b bs)]
      refine (hkeeps _).trans ?_
      dsimp only
      rw [hst.arena_grow, Storage.size_padTo]
      rfl

/-- **The slots after a call**: no fewer than before, and enough for the buildings that are
accepted. -/
theorem size_arena_after (hs : s.storage.Balanced) (c : Call) (x : Arena) :
    ((s.after c).storage.arena x).size =
      max (s.storage.arena x).size (slot (2 * largest (accepted s.admission [c]))).toNat := by
  rcases after_cases s c with ⟨haccepted, hcheck, hafter⟩ | ⟨haccepted, hafter⟩
  · have hone : accepted s.admission [c] = [c.input] := by simp [accepted, haccepted]
    rw [hafter, hone, largest_cons, largest_nil, Nat.max_zero]
    exact size_arena_compute hs hcheck x
  · have hnone : accepted s.admission [c] = [] := by simp [accepted, haccepted]
    rw [hafter, hnone]
    exact (Nat.max_zero _).symm

/-! ### The slots after a history -/

/-- Cutting off slot numbers commutes with taking the larger of two. -/
theorem toNat_slot_max (m n : Nat) :
    (slot (max m n)).toNat = max (slot m).toNat (slot n).toNat := by
  simp only [toNat_slot]
  omega

/-- **The slots after a history.** -/
theorem size_arena_afterAll (hs : s.storage.Balanced) (calls : List Call) (x : Arena) :
    ((s.afterAll calls).storage.arena x).size =
      max (s.storage.arena x).size (slot (2 * largest (accepted s.admission calls))).toNat := by
  induction calls generalizing s with
  | nil => exact (Nat.max_zero _).symm
  | cons c calls ih =>
      have hcalls : accepted s.admission (c :: calls) =
          accepted s.admission [c] ++ accepted s.admission calls :=
        List.filterMap_append (l := [c])
      change (((s.after c).afterAll calls).storage.arena x).size = _
      rw [ih (balanced_after hs c), size_arena_after hs, admission_after, hcalls, largest_append,
        Nat.max_assoc, ← toNat_slot_max, Nat.mul_max_mul_left]

/-- **Both arenas have two slots for each building of the largest input accepted so far.**  So
their number never decreases, refused and empty inputs leave it alone with the whole session, and a
limit on the number of buildings is a limit on the number of slots. -/
theorem slots_are_twice_largest (a : Admission) (calls : List Call)
    (hlen : ∀ c ∈ calls, c.input.length < 2 ^ 63) :
    let s := (fresh a).afterAll calls
    (∀ x, (s.storage.arena x).size = 2 * largest (accepted a calls)) ∧
      (∀ more x, (s.storage.arena x).size ≤ ((s.afterAll more).storage.arena x).size) ∧
      (∀ c, a.check c.input ≠ .ok () ∨ c.input = [] → s.after c = s) ∧
      ∀ max, a.limit = .atMost max → ∀ x, (s.storage.arena x).size ≤ 2 * max := by
  intro s
  have hs : s.storage.Balanced := balanced_afterAll (balanced_fresh a) calls
  have hsize : ∀ x, (s.storage.arena x).size = 2 * largest (accepted a calls) := by
    intro x
    have hfew : 2 * largest (accepted a calls) ≤ lastSlot := by
      refine Nat.le_of_lt (two_mul_lt_lastSlot (Nat.lt_of_le_pred (by decide) (largest_le ?_)))
      intro bs hbs
      obtain ⟨-, c, hc, rfl⟩ := check_of_mem_accepted hbs
      exact Nat.le_pred_of_lt (hlen c hc)
    have hempty : ((fresh a).storage.arena x).size = 0 := by cases x <;> rfl
    rw [size_arena_afterAll (balanced_fresh a), hempty, Nat.zero_max]
    exact toNat_slot_of_le hfew
  refine ⟨hsize, ?_, ?_, ?_⟩
  · intro more x
    rw [size_arena_afterAll hs]
    exact Nat.le_max_left _ _
  · intro c hc
    refine after_eq_self ?_
    rwa [admission_afterAll]
  · intro max hmax x
    rw [hsize]
    refine Nat.mul_le_mul_left 2 (largest_le ?_)
    intro bs hbs
    have hadmits := (Admission.check_eq_ok_iff.1 (check_of_mem_accepted hbs).1).1
    rwa [hmax] at hadmits

theorem slots_are_twice_largest_mixed :
    let calls : List Call := [.build [⟨0, 4, 3⟩, ⟨2, 6, 5⟩], .run [⟨5, 6, 1⟩, ⟨1, 2, 1⟩, ⟨2, 3, 1⟩],
      .check [⟨0, 1, 1⟩, ⟨1, 2, 1⟩, ⟨2, 3, 1⟩], .run [], .build [⟨1, 2, 7⟩]]
    let s := (fresh {}).afterAll calls
    (∀ c ∈ calls, c.input.length < 2 ^ 63) ∧ s.storage.one.size = 4 ∧ s.storage.two.size = 4 := by
  intro calls s
  have hlen : ∀ c ∈ calls, c.input.length < 2 ^ 63 := by
    simp [calls, Call.input]
  have hlargest : largest (accepted {} calls) = 2 := by decide +kernel
  have hsize := (slots_are_twice_largest {} calls hlen).1
  rw [hlargest] at hsize
  exact ⟨hlen, hsize .one, hsize .two⟩

end Cityscape.Session
