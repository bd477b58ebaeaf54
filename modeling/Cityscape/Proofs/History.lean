/-
**What a session computes, whatever it computed before.**

A session keeps its storage from one computation to the next, so what a computation finds there is
left over from all earlier ones.  None of it matters: an admitted input is answered with the contour
of the buildings, and any other input is refused for the fault that the check finds and leaves the
session untouched.

The one thing that a computation relies on is that the two arenas are level.  This holds for a new
session and is kept by every call (`Cityscape.Session.balanced_after`), whatever its input is.  The
results are stated for fewer than `2 ^ 63` buildings, which is more than any list in memory has and
the most that can have two numbered slots each.

A computation has more ways out than its trace has events for them.  If composing failed, or if its
result could not be read back, no event would tell of it.  That no session ever gets there makes the
trace complete: the events can be told from the result alone (`Cityscape.Session.account`).

Main definitions:

* `Cityscape.Session.fresh` — a session that has computed nothing yet;
* `Cityscape.Session.Call`, `Cityscape.Session.after`, `Cityscape.Session.afterAll` — what can be
  asked of a session, and the session afterwards;
* `Cityscape.Session.account` — the events that tell a result.

Main results:

* `Cityscape.Session.balanced_afterAll` — the arenas are level after every history;
* `Cityscape.Session.compute_of_ok` — **all that an admitted input leads to**;
* `Cityscape.Session.fresh_gives_contour` — **a new session answers with the contour**;
* `Cityscape.Session.refused_iff_check_fails` — **refusals are those of the check, and change
  nothing**;
* `Cityscape.Session.build_describes_union` — **the skyline is well-formed and has the height of the
  buildings at every coordinate**;
* `Cityscape.Session.trace_accounts_for_result` — **every computation is accounted for in its
  trace**.
-/

import Cityscape.Proofs.Admission
import Cityscape.Proofs.Balance
import Cityscape.Proofs.StepFunction
import Mathlib.Algebra.Group.Nat.Defs

set_option relaxedAutoImplicit false
set_option autoImplicit false

namespace Cityscape

namespace Session

/-! ### One computation -/

variable {a : Admission} {s : Session} {st : Storage} {bs : List Building} {e : Refusal}

/-- A refusal leaves the storage as it was. -/
theorem compute_of_error (h : a.check bs = .error e) (st : Storage) :
    compute a st bs = (.error e, st, [rejected e]) := by
  rw [compute, h]

/-- **All that an admitted input leads to**: the contour of the buildings, the storage that
composing it leaves, and, if there are buildings, the event of a finished skyline. -/
theorem compute_of_ok (hst : st.Balanced) (hlen : bs.length < 2 ^ 63) (h : a.check bs = .ok ()) :
    compute a st bs =
      (.ok (contour bs).toArray, composed (.root bs.length) bs (st.grow (2 * bs.length)),
        if bs.isEmpty then [] else [finished (contour bs).length]) := by
  have hslots : 2 * bs.length ≤ lastSlot := Nat.le_of_lt (two_mul_lt_lastSlot hlen)
  have hcap : (Region.root bs.length).capacity.toNat = 2 * bs.length := toNat_slot_of_le hslots
  have hout : (Region.root bs.length).HasRoom bs.length (2 * bs.length) := .root hslots Nat.le.refl
  have hgrown := hst.hasSlots_grow (2 * bs.length)
  have hvalid := (Admission.check_eq_ok_iff.1 h).2.1
  rw [compute, h]
  cases bs with
  | nil =>
      rw [composed]
      rfl
  | cons b bs =>
      simp only [List.isEmpty_cons, Bool.false_eq_true, if_false, hcap,
        compose_run hvalid hout hgrown, read_composed hout hgrown]

theorem compute_nil (h : a.check [] = .ok ()) (st : Storage) :
    compute a st [] = (.ok #[], st, []) := by
  rw [compute, h]
  rfl

/-- The storage of an admitted input is what composing it leaves, also where composing fails or its
result can not be read. -/
theorem storage_compute_of_ok (h : a.check bs = .ok ()) (hne : bs ≠ []) (st : Storage) :
    (compute a st bs).2.1 = ((compose (.root bs.length) bs).run.run
      (st.grow (Region.root bs.length).capacity.toNat)).2 := by
  have hempty : bs.isEmpty = false := List.isEmpty_eq_false_iff.2 hne
  rw [compute, h]
  rcases hrun : (compose (.root bs.length) bs).run.run
    (st.grow (Region.root bs.length).capacity.toNat) with ⟨result, t⟩
  simp only [hempty, Bool.false_eq_true, if_false, hrun]
  cases result with
  | error e => rfl
  | ok len => dsimp only; split <;> rfl

/-- Whatever the input is, level arenas stay level. -/
theorem balanced_compute (hst : st.Balanced) (a : Admission) (bs : List Building) :
    (compute a st bs).2.1.Balanced := by
  cases hcheck : a.check bs with
  | error e =>
      rw [compute_of_error hcheck]
      exact hst
  | ok u =>
      cases bs with
      | nil =>
          rw [compute_nil hcheck]
          exact hst
      | cons b bs =>
          rw [storage_compute_of_ok hcheck (List.cons_ne_nil b bs)]
          exact (hst.grow _).of_size_eq fun arena => keeps_compose _ _ arena _

/-! ### Histories -/

/-- A session that has computed nothing yet. -/
def fresh (a : Admission) : Session := { admission := a }

/-- What can be asked of a session: the skyline of some buildings, the same with the result left in
storage, or whether some buildings are admitted. -/
inductive Call where
  | build (bs : List Building)
  | run (bs : List Building)
  | check (bs : List Building)

/-- The session after a call. -/
def after (s : Session) : Call → Session
  | .build bs => (s.build bs).2
  | .run bs => (s.run bs).session
  | .check _ => s

/-- The session after a sequence of calls. -/
def afterAll (s : Session) (calls : List Call) : Session := calls.foldl after s

@[simp] theorem admission_after (s : Session) (c : Call) : (s.after c).admission = s.admission := by
  cases c <;> rfl

@[simp] theorem admission_afterAll (s : Session) (calls : List Call) :
    (s.afterAll calls).admission = s.admission := by
  induction calls generalizing s with
  | nil => rfl
  | cons c calls ih => exact (ih (s.after c)).trans (admission_after s c)

theorem balanced_after (h : s.storage.Balanced) (c : Call) : (s.after c).storage.Balanced := by
  cases c with
  | build bs => exact balanced_compute h s.admission bs
  | run bs => exact balanced_compute h s.admission bs
  | check bs => exact h

theorem balanced_afterAll (h : s.storage.Balanced) (calls : List Call) :
    (s.afterAll calls).storage.Balanced := by
  induction calls generalizing s with
  | nil => exact h
  | cons c calls ih => exact ih (balanced_after h c)

theorem balanced_fresh (a : Admission) : (fresh a).storage.Balanced := Storage.Balanced.empty

/-! ### Results -/

theorem result_of_ok (hs : s.storage.Balanced) (hlen : bs.length < 2 ^ 63)
    (h : s.admission.check bs = .ok ()) : (s.run bs).result = .ok (contour bs).toArray := by
  simp only [run, compute_of_ok hs hlen h]

theorem storage_of_ok (hs : s.storage.Balanced) (hlen : bs.length < 2 ^ 63)
    (h : s.admission.check bs = .ok ()) :
    (s.run bs).session.storage =
      composed (.root bs.length) bs (s.storage.grow (2 * bs.length)) := by
  simp only [run, compute_of_ok hs hlen h]

theorem build_of_ok (hs : s.storage.Balanced) (hlen : bs.length < 2 ^ 63)
    (h : s.admission.check bs = .ok ()) : (s.build bs).1 = .ok ⟨(contour bs).toArray⟩ := by
  rw [build, result_of_ok hs hlen h]
  rfl

theorem run_of_error (h : s.admission.check bs = .error e) :
    (s.run bs).result = .error e ∧ (s.run bs).session = s := by
  constructor <;> simp only [run, compute_of_error h]

/-- An error comes from the check, and the check is the only place that it can come from. -/
theorem result_eq_error_iff (hs : s.storage.Balanced) (hlen : bs.length < 2 ^ 63) :
    (s.run bs).result = .error e ↔ s.admission.check bs = .error e := by
  cases hcheck : s.admission.check bs with
  | ok u => simp only [result_of_ok hs hlen hcheck, reduceCtorEq]
  | error f => rw [(run_of_error hcheck).1, Except.error.injEq, Except.error.injEq]

/-- A skyline is refused exactly if its computation is. -/
theorem build_eq_error_iff : (s.build bs).1 = .error e ↔ (s.run bs).result = .error e := by
  rw [build]
  cases (s.run bs).result <;> simp [Except.map]

/-- **A new session answers an admitted list of buildings with its contour**, edge by edge. -/
theorem fresh_gives_contour (a : Admission) (bs : List Building) (hlen : bs.length < 2 ^ 63)
    (h : a.check bs = .ok ()) :
    ((fresh a).build bs).1 = .ok ⟨(contour bs).toArray⟩ ∧
      ((fresh a).run bs).result = .ok (contour bs).toArray :=
  ⟨build_of_ok (balanced_fresh a) hlen h, result_of_ok (balanced_fresh a) hlen h⟩

theorem fresh_gives_contour_of_overlap :
    ((fresh {}).build [⟨0, 4, 3⟩, ⟨2, 6, 5⟩, ⟨6, 7, 5⟩]).1 =
        .ok ⟨#[⟨0, 3⟩, ⟨2, 5⟩, ⟨7, 0⟩]⟩ ∧
      ((fresh {}).run [⟨0, 4, 3⟩, ⟨2, 6, 5⟩, ⟨6, 7, 5⟩]).result =
        .ok #[⟨0, 3⟩, ⟨2, 5⟩, ⟨7, 0⟩] := by
  have hcontour : contour [⟨0, 4, 3⟩, ⟨2, 6, 5⟩, ⟨6, 7, 5⟩] = [⟨0, 3⟩, ⟨2, 5⟩, ⟨7, 0⟩] := by decide
  have h := fresh_gives_contour {} [⟨0, 4, 3⟩, ⟨2, 6, 5⟩, ⟨6, 7, 5⟩] (by decide) rfl
  rwa [hcontour] at h

/-- **Refusals are those of the check, and change nothing**: after any history, a computation fails
exactly if the check does and for the same cause, and it then leaves the whole session as it was. -/
theorem refused_iff_check_fails (a : Admission) (calls : List Call) (bs : List Building)
    (hlen : bs.length < 2 ^ 63) (e : Refusal) :
    let s := (fresh a).afterAll calls
    ((s.build bs).1 = .error e ↔ s.admission.check bs = .error e) ∧
      ((s.run bs).result = .error e ↔ s.admission.check bs = .error e) ∧
      ((s.build bs).1 = .error e → (s.build bs).2 = s) ∧
      ((s.run bs).result = .error e → (s.run bs).session = s) := by
  intro s
  have hbal : s.storage.Balanced := balanced_afterAll (balanced_fresh a) calls
  have hresult : (s.run bs).result = .error e ↔ s.admission.check bs = .error e :=
    result_eq_error_iff hbal hlen
  have hsame : (s.run bs).result = .error e → (s.run bs).session = s := by
    intro herror
    exact (run_of_error (hresult.1 herror)).2
  refine ⟨build_eq_error_iff.trans hresult, hresult, ?_, hsame⟩
  intro herror
  exact hsame (build_eq_error_iff.1 herror)

theorem refused_iff_check_fails_flat :
    let s := (fresh {}).afterAll [.build [⟨0, 4, 3⟩], .check [], .run [⟨1, 2, 0⟩]]
    (s.run [⟨0, 5, 2⟩, ⟨3, 3, 1⟩]).result = .error (.degenerate 1 ⟨3, 3, 1⟩) ∧
      (s.run [⟨0, 5, 2⟩, ⟨3, 3, 1⟩]).session = s := by
  intro s
  obtain ⟨-, hrun, -, hsame⟩ := refused_iff_check_fails {}
    [.build [⟨0, 4, 3⟩], .check [], .run [⟨1, 2, 0⟩]] [⟨0, 5, 2⟩, ⟨3, 3, 1⟩] (by decide)
    (.degenerate 1 ⟨3, 3, 1⟩)
  have hresult := hrun.2 (by rw [admission_afterAll]; rfl)
  exact ⟨hresult, hsame hresult⟩

/-- **The skyline of an admitted list of buildings**, after any history: it is well-formed, it
starts above the ground, and at every coordinate it has the height of the buildings. -/
theorem build_describes_union (a : Admission) (calls : List Call) (bs : List Building)
    (hlen : bs.length < 2 ^ 63) (h : a.check bs = .ok ()) :
    ∃ sky, (((fresh a).afterAll calls).build bs).1 = .ok sky ∧ sky.isWellFormed = true ∧
      (∀ p ∈ sky.points[0]?, 0 < p.height) ∧ ∀ x, sky.heightAt x = unionHeight bs x := by
  have hbal := balanced_afterAll (balanced_fresh a) calls
  have hcheck : ((fresh a).afterAll calls).admission.check bs = .ok () := by
    rw [admission_afterAll]
    exact h
  have hcontour := isContour_contour (Admission.check_eq_ok_iff.1 h).2.1
  refine ⟨⟨(contour bs).toArray⟩, build_of_ok hbal hlen hcheck, ?_, ?_, fun x => ?_⟩
  · exact Skyline.isWellFormed_iff.2 hcontour.toWellFormed
  · intro p hp
    rw [List.getElem?_toArray, ← List.head?_eq_getElem?] at hp
    exact hcontour.starts p hp
  · have hasc : (contour bs).Pairwise (·.x ≤ ·.x) := hcontour.ascending.imp Int64.le_of_lt
    rw [Skyline.heightAt_eq_heightFrom hasc, heightFrom_contour]

theorem build_describes_union_unsorted :
    ∃ sky, (((fresh { ordered := false }).afterAll [.run [⟨0, 9, 1⟩]]).build
        [⟨5, 9, 2⟩, ⟨1, 7, 4⟩]).1 = .ok sky ∧ sky.isWellFormed = true ∧
      (∀ p ∈ sky.points[0]?, 0 < p.height) ∧
      ∀ x, sky.heightAt x = unionHeight [⟨5, 9, 2⟩, ⟨1, 7, 4⟩] x :=
  build_describes_union { ordered := false } [.run [⟨0, 9, 1⟩]] [⟨5, 9, 2⟩, ⟨1, 7, 4⟩] (by decide)
    rfl

/-! ### Traces -/

/-- The events that tell the result of a computation over `n` buildings: its refusal, or the length
of its skyline.  The empty skyline of no buildings is passed over. -/
def account (n : Nat) : Except Refusal (Array KeyPoint) → List Trace.Entry
  | .error e => [rejected e]
  | .ok points => if n = 0 then [] else [finished points.size]

/-- **The events of a computation on level arenas tell its result.** -/
theorem events_compute (hst : st.Balanced) (hlen : bs.length < 2 ^ 63) :
    (compute a st bs).2.2 = account bs.length (compute a st bs).1 := by
  cases hcheck : a.check bs with
  | error e => rw [compute_of_error hcheck, account]
  | ok u =>
      rw [compute_of_ok hst hlen hcheck, account, List.size_toArray]
      simp only [List.isEmpty_iff, List.length_eq_zero_iff]

/-- **Every computation is accounted for in its trace**, after any history.  The trace is one span
that tells the number of buildings, its entry and its exit, and in between there is a single event:
the text of the refusal if the computation is refused, or the length of its result if it is not.
Only for no buildings, which are never refused, there is none. -/
theorem trace_accounts_for_result (a : Admission) (calls : List Call) (bs : List Building)
    (hlen : bs.length < 2 ^ 63) :
    let outcome := ((fresh a).afterAll calls).run bs
    ∃ events, outcome.trace =
        [.span .debug "skyline_build" [("buildings", .count bs.length)], .enter] ++ events ++
          [.exit] ∧
      (∀ e, outcome.result = .error e →
        events =
          [.event .debug [("err", .text e.message), ("message", .text "rejected building set")]]) ∧
      (∀ points, outcome.result = .ok points → bs ≠ [] →
        events =
          [.event .trace [("message", .text "skyline built"), ("points", .count points.size)]]) ∧
      (bs = [] → events = [] ∧ outcome.result = .ok #[]) := by
  intro outcome
  have hevents : outcome.trace =
      Trace.within .debug "skyline_build" [("buildings", .count bs.length)]
        (account bs.length outcome.result) := by
    change Trace.within _ _ _ (compute _ _ bs).2.2 = _
    rw [events_compute (balanced_afterAll (balanced_fresh a) calls) hlen]
    rfl
  refine ⟨account bs.length outcome.result, hevents, ?_, ?_, ?_⟩
  · intro e herror
    rw [herror]
    rfl
  · intro points hok hne
    rw [hok, account, if_neg (mt List.length_eq_zero_iff.1 hne)]
    rfl
  · rintro rfl
    have hok : outcome.result = .ok #[] := by
      change (compute _ _ []).1 = .ok #[]
      rw [compute_nil (Admission.check_nil _)]
    rw [hok]
    exact ⟨rfl, rfl⟩

/-- A session that has refused one input and met another one tells of a refusal by its text, and of
a skyline by its length. -/
theorem trace_accounts_for_result_of_both :
    let s := (fresh {}).afterAll [.run [⟨1, 2, 0⟩], .build [⟨0, 4, 3⟩]]
    (s.run [⟨0, 5, 2⟩, ⟨3, 3, 1⟩]).trace =
        [.span .debug "skyline_build" [("buildings", .count 2)], .enter,
          .event .debug [("err", .text "building 1 is degenerate: left=3 right=3 height=1"),
            ("message", .text "rejected building set")], .exit] ∧
      (s.run [⟨0, 4, 3⟩, ⟨2, 6, 5⟩, ⟨6, 7, 5⟩]).trace =
        [.span .debug "skyline_build" [("buildings", .count 3)], .enter,
          .event .trace [("message", .text "skyline built"), ("points", .count 3)], .exit] := by
  intro s
  obtain ⟨events₁, htrace₁, herror, -, -⟩ := trace_accounts_for_result {}
    [.run [⟨1, 2, 0⟩], .build [⟨0, 4, 3⟩]] [⟨0, 5, 2⟩, ⟨3, 3, 1⟩] (by decide)
  obtain ⟨events₂, htrace₂, -, hok, -⟩ := trace_accounts_for_result {}
    [.run [⟨1, 2, 0⟩], .build [⟨0, 4, 3⟩]] [⟨0, 4, 3⟩, ⟨2, 6, 5⟩, ⟨6, 7, 5⟩] (by decide)
  have hbalanced := balanced_afterAll (balanced_fresh {}) [.run [⟨1, 2, 0⟩], .build [⟨0, 4, 3⟩]]
  have hrefused : (s.run [⟨0, 5, 2⟩, ⟨3, 3, 1⟩]).result = .error (.degenerate 1 ⟨3, 3, 1⟩) :=
    (run_of_error (by rw [admission_afterAll]; rfl)).1
  have hbuilt : (s.run [⟨0, 4, 3⟩, ⟨2, 6, 5⟩, ⟨6, 7, 5⟩]).result =
      .ok (contour [⟨0, 4, 3⟩, ⟨2, 6, 5⟩, ⟨6, 7, 5⟩]).toArray :=
    result_of_ok hbalanced (by decide) (by rw [admission_afterAll]; rfl)
  have hlength : (contour [⟨0, 4, 3⟩, ⟨2, 6, 5⟩, ⟨6, 7, 5⟩]).toArray.size = 3 := by decide
  rw [herror _ hrefused] at htrace₁
  rw [hok _ hbuilt (by decide), hlength] at htrace₂
  exact ⟨htrace₁, htrace₂⟩

end Session

end Cityscape
