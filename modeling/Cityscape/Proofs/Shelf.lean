/-
**Many skylines at once.**

A program keeps several skylines, copies them, merges them into each other, appends to some and
starts others afresh.  All of them together are a shelf (`Cityscape.Shelf`), which has a place for
every number, and what is done with one of them is a step (`Cityscape.Shelf.Step`).

There are many kinds of steps, but only three sources of skylines: a copy of one that is there, one
that has been checked or built and is well-formed, and one that a request has been carried out on.
So a property of skylines that well-formed ones have is kept by a step if the one request that it
consists of, if any, keeps it (`Cityscape.Shelf.forall_after`).

That neighbouring points differ in height is such a property, and it owes nothing to what the points
are: buildings may have no width, and lists may be out of order or repeat their heights.  Apart from
a push, every request hands its points to the skyline one by one through the same append, which
looks at the last point kept and at no other; so the points added are changes also at the seam.

Main definitions:

* `Cityscape.Shelf`, `Cityscape.Shelf.Step` — any number of skylines, and what can be done with
  them;
* `Cityscape.Shelf.after`, `Cityscape.Shelf.afterAll` — **the shelf after a step**, and after a
  history;
* `Cityscape.Shelf.Step.request?` — the request that a step consists of;
* `Cityscape.Skyline.Repeats`, `Cityscape.Shelf.Step.Pushes` — two neighbouring points have the same
  height, and a point is taken whatever its height.

Main results:

* `Cityscape.Session.isWellFormed_of_build` — a session answers with well-formed skylines only;
* `Cityscape.Shelf.forall_after` — **what a step keeps**;
* `Cityscape.Shelf.not_repeats_after`, `Cityscape.Shelf.no_repetition_without_push` — **without a
  push no height is repeated**, by a step and in a history.
-/

import Cityscape.Proofs.Describing

set_option relaxedAutoImplicit false
set_option autoImplicit false

namespace Cityscape

/-! ### Skylines that are well-formed from the start -/

theorem Skyline.isWellFormed_empty : Skyline.empty.isWellFormed = true := rfl

theorem Skyline.isWellFormed_of_ofPoints {points : Array KeyPoint} {sky : Skyline}
    (h : ofPoints points = .ok sky) : sky.isWellFormed = true := by
  obtain ⟨hpoints, rfl⟩ := ofPoints_eq_ok_iff.1 h
  exact isWellFormed_iff.2 hpoints

/-- **A session answers with well-formed skylines only**, after any history and to any input. -/
theorem Session.isWellFormed_of_build {a : Admission} {calls : List Call} {bs : List Building}
    {sky : Skyline} (h : (((fresh a).afterAll calls).build bs).1 = .ok sky) :
    sky.isWellFormed = true := by
  obtain ⟨hcheck, rfl⟩ := eq_contour_of_build (balanced_afterAll (balanced_fresh a) calls) h
  have hvalid := (Admission.check_eq_ok_iff.1 hcheck).2.1
  exact Skyline.isWellFormed_iff.2 (isContour_contour hvalid).toWellFormed

/-! ### Shelves -/

/-- Any number of skylines, each in a place of its own. -/
def Shelf : Type := Nat → Skyline

namespace Shelf

/-- The shelf on which all skylines are empty. -/
def empty : Shelf := fun _ => .empty

/-- Puts a skyline in place `i`. -/
def put (s : Shelf) (i : Nat) (sky : Skyline) : Shelf := fun j => if j = i then sky else s j

/-- Puts a skyline in place `i`, unless it has been refused. -/
def putOk (s : Shelf) (i : Nat) : Except Refusal Skyline → Shelf
  | .ok sky => s.put i sky
  | .error _ => s

/-- What can be done with the skylines of a shelf.  The first number of a step is the place that it
changes; `merge` and `clone` take what they merge or copy from the other places.  A list of points
may not be accepted, and a session that has seen some calls may refuse the buildings; then nothing
is changed. -/
inductive Step where
  | new (i : Nat)
  | ofBuilding (i : Nat) (b : Building)
  | ofPoints (i : Nat) (points : Array KeyPoint)
  | build (i : Nat) (a : Admission) (calls : List Session.Call) (bs : List Building)
  | merge (i j k : Nat)
  | request (i : Nat) (q : Request)
  | clone (i j : Nat)
  | clear (i : Nat)

/-- **The shelf after a step.** -/
def after (s : Shelf) : Step → Shelf
  | .new i => s.put i .empty
  | .ofBuilding i b => s.put i (.ofBuilding b)
  | .ofPoints i points => s.putOk i (Skyline.ofPoints points)
  | .build i a calls bs => s.putOk i (((Session.fresh a).afterAll calls).build bs).1
  | .merge i j k => s.put i ((s j).merge (s k))
  | .request i q => s.put i ((s i).after (q.on Skyline.collector))
  | .clone i j => s.put i (s j)
  | .clear i => s.put i .empty

/-- **The shelf after a history.** -/
def afterAll (s : Shelf) (steps : List Step) : Shelf := steps.foldl after s

/-- The request that a step consists of, and the skyline that it is made to.  The skyline of a
building and the merge of two skylines come of requests to the empty skyline. -/
def Step.request? (s : Shelf) : Step → Option (Skyline × Request)
  | .ofBuilding _ b => some (.empty, .project b)
  | .merge _ j k => some (.empty, .merge (s j).points.toList (s k).points.toList)
  | .request i q => some (s i, q)
  | _ => none

/-! ### What a step keeps -/

variable {P : Skyline → Prop} {s : Shelf}

theorem forall_put (h : ∀ j, P (s j)) (i : Nat) {sky : Skyline} (hsky : P sky) :
    ∀ j, P (s.put i sky j) := by
  intro j
  by_cases hj : j = i
  · rwa [put, if_pos hj]
  · rw [put, if_neg hj]
    exact h j

theorem forall_putOk (h : ∀ j, P (s j)) (i : Nat) {result : Except Refusal Skyline}
    (hresult : ∀ sky, result = .ok sky → P sky) : ∀ j, P (s.putOk i result j) := by
  cases result with
  | error e => exact h
  | ok sky => exact forall_put h i (hresult sky rfl)

/-- **What a step keeps**: a property that all well-formed skylines have, and that is kept by the
request that the step consists of. -/
theorem forall_after (hwf : ∀ sky : Skyline, sky.isWellFormed = true → P sky) (h : ∀ i, P (s i))
    (step : Step) (hrequest : ∀ sky q, step.request? s = some (sky, q) → P sky →
      P (sky.after (q.on Skyline.collector))) : ∀ i, P (s.after step i) := by
  have hempty : P .empty := hwf .empty Skyline.isWellFormed_empty
  cases step with
  | new i => exact forall_put h i hempty
  | ofBuilding i b => exact forall_put h i (hrequest .empty (.project b) rfl hempty)
  | ofPoints i points =>
      exact forall_putOk h i fun sky hsky => hwf sky (Skyline.isWellFormed_of_ofPoints hsky)
  | build i a calls bs =>
      exact forall_putOk h i fun sky hsky => hwf sky (Session.isWellFormed_of_build hsky)
  | merge i j k => exact forall_put h i (hrequest .empty (.merge _ _) rfl hempty)
  | request i q => exact forall_put h i (hrequest (s i) q rfl (h i))
  | clone i j => exact forall_put h i (h j)
  | clear i => exact forall_put h i hempty

end Shelf

/-! ### Repeated heights -/

namespace Skyline

/-- Two neighbouring points have the same height. -/
def Repeats (sky : Skyline) : Prop :=
  ∃ k p q, sky.points[k]? = some p ∧ sky.points[k + 1]? = some q ∧ p.height = q.height

theorem not_repeats_iff {sky : Skyline} :
    ¬ sky.Repeats ↔ (sky.points.toList.map (·.height)).IsChain (· ≠ ·) := by
  rw [List.isChain_map, List.isChain_iff_getElem]
  constructor
  · intro h k hk heq
    rw [Array.length_toList] at hk
    exact h ⟨k, _, _, Array.getElem?_eq_getElem (by omega), Array.getElem?_eq_getElem hk, heq⟩
  · rintro h ⟨k, p, q, hp, hq, heq⟩
    obtain ⟨_, rfl⟩ := Array.getElem?_eq_some_iff.1 hp
    obtain ⟨hk, rfl⟩ := Array.getElem?_eq_some_iff.1 hq
    exact h k hk heq

/-- A skyline that has been checked repeats no height. -/
theorem not_repeats_of_isWellFormed {sky : Skyline} (h : sky.isWellFormed = true) : ¬ sky.Repeats :=
  not_repeats_iff.2 (isWellFormed_iff.1 h).differing

end Skyline

/-! ### Requests that are no pushes -/

namespace Request

/-- The request is to take a point whatever its height. -/
def Pushes : Request → Prop
  | push _ => True
  | append _ _ | project _ | merge _ _ => False

instance : (q : Request) → Decidable q.Pushes
  | push _ => inferInstanceAs (Decidable True)
  | append _ _ | project _ | merge _ _ => inferInstanceAs (Decidable False)

/-- **A request repeats no height, unless it is a push.**  Its points may be anything. -/
theorem not_repeats_after {sky : Skyline} {q : Request} (hq : ¬ q.Pushes) (h : ¬ sky.Repeats) :
    ¬ (sky.after (q.on Skyline.collector)).Repeats := by
  rw [Skyline.not_repeats_iff] at h ⊢
  rw [Skyline.toList_after_request]
  rcases q.push_or_appends with ⟨p, rfl⟩ | ⟨hadded, -⟩
  · exact absurd trivial hq
  · rw [hadded, append_changesAfter h]
    exact differing_changes (sky.points.toList ++ q.points)

end Request

/-! ### Histories without a push -/

namespace Shelf

/-- The step is to push a point onto a skyline. -/
def Step.Pushes : Step → Prop
  | .request _ q => q.Pushes
  | .new _ | .ofBuilding .. | .ofPoints .. | .build .. | .merge .. | .clone .. | .clear _ => False

instance : (step : Step) → Decidable step.Pushes
  | .request _ q => inferInstanceAs (Decidable q.Pushes)
  | .new _ | .ofBuilding .. | .ofPoints .. | .build .. | .merge .. | .clone .. | .clear _ =>
      inferInstanceAs (Decidable False)

/-- A step that is no push consists of a request that is none, if of any. -/
theorem Step.not_pushes_request? {s : Shelf} {step : Step} {sky : Skyline} {q : Request}
    (hq : step.request? s = some (sky, q)) (h : ¬ step.Pushes) : ¬ q.Pushes := by
  cases step with
  | ofBuilding | merge =>
      obtain ⟨-, rfl⟩ := Prod.mk.inj (Option.some.inj hq)
      exact id
  | request i q =>
      obtain ⟨-, rfl⟩ := Prod.mk.inj (Option.some.inj hq)
      exact h
  | new | ofPoints | build | clone | clear => nomatch hq

variable {s : Shelf}

/-- **A step repeats no height, unless it is a push**, and this in no place. -/
theorem not_repeats_after (h : ∀ i, ¬ (s i).Repeats) {step : Step} (hstep : ¬ step.Pushes)
    (i : Nat) :
    ¬ (s.after step i).Repeats := by
  refine forall_after (P := fun sky => ¬ sky.Repeats)
    (fun _ => Skyline.not_repeats_of_isWellFormed) h step ?_ i
  intro sky q hq
  exact Request.not_repeats_after (Step.not_pushes_request? hq hstep)

/-- **A history without a push repeats no height**, in no place. -/
theorem not_repeats_afterAll (h : ∀ i, ¬ (s i).Repeats) {steps : List Step}
    (hsteps : ∀ step ∈ steps, ¬ step.Pushes) (i : Nat) : ¬ (s.afterAll steps i).Repeats := by
  induction steps generalizing s with
  | nil => exact h i
  | cons step steps ih =>
      obtain ⟨hstep, hsteps⟩ := List.forall_mem_cons.1 hsteps
      exact ih (not_repeats_after h hstep) hsteps

/-- **No skyline repeats a height without a push.**  In the history, which may be about any number
of skylines, these are made of buildings valid or not, of lists that are accepted, and by sessions;
they are copied, merged and cleared at will, and extended by points, buildings and merges of lists
of any kind.  In none of them do two neighbouring points ever have the same height. -/
theorem no_repetition_without_push (steps : List Step) (h : ∀ step ∈ steps, ¬ step.Pushes)
    (i : Nat) :
    ¬ (empty.afterAll steps i).Repeats := by
  have hempty : ∀ i, ¬ (empty i).Repeats := fun _ =>
    Skyline.not_repeats_of_isWellFormed Skyline.isWellFormed_empty
  exact not_repeats_afterAll hempty h i

theorem no_repetition_without_push_out_of_order :
    let steps : List Step := [.ofBuilding 0 ⟨4, 1, 0⟩, .ofBuilding 1 ⟨6, 6, -2⟩,
      .request 0 (.merge [⟨5, 0⟩, ⟨5, 2⟩, ⟨3, 2⟩] [⟨9, 2⟩, ⟨7, 1⟩]), .clone 2 0, .merge 2 0 1,
      .request 0 (.append 8 1), .request 2 (.project ⟨0, 0, 1⟩)]
    (∀ step ∈ steps, ¬ step.Pushes) ∧
      (empty.afterAll steps 0).points = #[⟨4, 0⟩, ⟨5, 2⟩, ⟨7, 1⟩] ∧
      ¬ (empty.afterAll steps 0).Repeats ∧ ¬ (empty.afterAll steps 2).Repeats := by
  intro steps
  have hsteps : ∀ step ∈ steps, ¬ step.Pushes := by decide
  exact ⟨hsteps, by decide +kernel, no_repetition_without_push steps hsteps 0,
    no_repetition_without_push steps hsteps 2⟩

/-- A push does make a skyline repeat a height. -/
example : (empty.afterAll [.request 0 (.append 1 5), .request 0 (.push ⟨2, 5⟩)] 0).Repeats :=
  ⟨0, ⟨1, 5⟩, ⟨2, 5⟩, by decide +kernel, by decide +kernel, rfl⟩

end Shelf

end Cityscape
