/-
**Skylines under construction.**

A skyline that is built up from left to right is not well-formed before its last point is on the
ground.  What it is all the time is tidy (`Cityscape.Tidy`): coordinates increase, neighbours
differ in height, and no height is negative.

Tidiness does not depend on the points appended being tidy.  Points that are appended are compared
with the last one kept, and those that keep its height are left out; so neighbours differ wherever
the two lists meet, and the rise or the fall of a building may be missing there.  It is enough that
the points appended have increasing coordinates behind the last one kept, and no negative heights
(`Cityscape.Tidy.append_changes`).  A merge of tidy lists has such points even if neither list ends
on the ground, so that all skylines that are made and extended in this way stay tidy together
(`Cityscape.Shelf.tidy_afterAll`).

Main definitions:

* `Cityscape.Tidy` — a list that would be well-formed if it ended on the ground;
* `Cityscape.EndsBefore`, `Cityscape.Request.Continues` — a list ends to the left of a coordinate,
  and a request only adds points to the right of a list;
* `Cityscape.Shelf.Allows`, `Cityscape.Shelf.AllowsAll` — steps, and histories, in which skylines
  are continued to the right only.

Main results:

* `Cityscape.Tidy.append_changes` — **appending to a tidy list**;
* `Cityscape.wellFormed_iff_tidy` — what a tidy list lacks to be well-formed;
* `Cityscape.Shelf.tidy_after`, `Cityscape.Shelf.tidy_afterAll` — what one step, and a history,
  keep;
* `Cityscape.Shelf.tidy_in_every_place` — **every skyline is tidy**, and well-formed if it is empty
  or ends on the ground.
-/

import Cityscape.Proofs.Shelf

set_option relaxedAutoImplicit false
set_option autoImplicit false

namespace Cityscape

/-! ### Tidy lists -/

/-- Coordinates increase, neighbours differ in height, and no height is negative. -/
structure Tidy (points : List KeyPoint) : Prop where
  /-- Coordinates increase. -/
  ascending : Ascending points
  /-- Neighbours differ in height. -/
  differing : (points.map (·.height)).IsChain (· ≠ ·)
  /-- No height is negative. -/
  nonneg : ∀ p ∈ points, 0 ≤ p.height

theorem tidy_iff {points : List KeyPoint} :
    Tidy points ↔ points.Pairwise (·.x < ·.x) ∧ (points.map (·.height)).IsChain (· ≠ ·) ∧
      ∀ p ∈ points, 0 ≤ p.height :=
  ⟨fun h => ⟨h.ascending, h.differing, h.nonneg⟩, fun h => ⟨h.1, h.2.1, h.2.2⟩⟩

instance (points : List KeyPoint) : Decidable (Tidy points) := decidable_of_iff' _ tidy_iff

/-- A list is well-formed if it is tidy and ends on the ground. -/
theorem wellFormed_iff_tidy {ps : List KeyPoint} :
    WellFormed ps ↔ Tidy ps ∧ endHeight 0 ps = 0 := by
  constructor
  · intro h
    exact ⟨⟨h.ascending, h.differing, h.nonneg⟩, h.grounded⟩
  · rintro ⟨h, hend⟩
    exact ⟨h.ascending, h.differing, h.nonneg, hend⟩

/-- The list is empty or its last point lies to the left of `x`. -/
def EndsBefore (points : List KeyPoint) (x : Int64) : Prop := ∀ p ∈ points.getLast?, p.x < x

instance (points : List KeyPoint) (x : Int64) : Decidable (EndsBefore points x) :=
  inferInstanceAs (Decidable (∀ p ∈ points.getLast?, p.x < x))

theorem endsBefore_nil (x : Int64) : EndsBefore [] x := by simp [EndsBefore]

/-- All of an ascending list lies to the left of where its last point does. -/
theorem EndsBefore.forall_lt {ps : List KeyPoint} {x : Int64} (h : EndsBefore ps x)
    (hps : Ascending ps) : ∀ p ∈ ps, p.x < x := by
  rcases List.eq_nil_or_concat ps with rfl | ⟨init, last, rfl⟩
  · simp
  · rw [List.concat_eq_append] at *
    have hlast : last.x < x := h last List.getLast?_concat
    intro p hp
    rcases List.mem_append.1 hp with hp | hp
    · exact Int64.lt_trans ((List.pairwise_append.1 hps).2.2 p hp last (by simp)) hlast
    · rwa [List.mem_singleton.1 hp]

/-- **Appending to a tidy list keeps it tidy**, if the points appended lie to the right of it and
of each other and are not below the ground. -/
theorem Tidy.append_changes {ps qs : List KeyPoint} (hps : Tidy ps) (hqs : Ascending qs)
    (hnonneg : ∀ q ∈ qs, 0 ≤ q.height) (hright : ∀ q ∈ qs, EndsBefore ps q.x) :
    Tidy (ps ++ changesAfter ps.getLast? qs) := by
  rw [append_changesAfter hps.differing]
  refine ⟨ascending_changes ?_, differing_changes (ps ++ qs), ?_⟩
  · refine List.pairwise_append.2 ⟨hps.ascending, hqs, ?_⟩
    intro p hp q hq
    exact (hright q hq).forall_lt hps.ascending p hp
  · intro p hp
    rcases List.mem_append.1 ((changes_sublist (ps ++ qs)).subset hp) with hp | hp
    · exact hps.nonneg p hp
    · exact hnonneg p hp

/-! ### Requests that continue a list -/

/-- The request continues the list `kept` to the right: it is a point that is not below the ground,
a valid building, or two tidy lists, all of it to the right of where the list ends. -/
def Request.Continues (kept : List KeyPoint) : Request → Prop
  | .push _ => False
  | .append x height => 0 ≤ height ∧ EndsBefore kept x
  | .project b => b.IsValid ∧ EndsBefore kept b.left
  | .merge left right => Tidy left ∧ Tidy right ∧ ∀ p ∈ left ++ right, EndsBefore kept p.x

instance (kept : List KeyPoint) : (q : Request) → Decidable (q.Continues kept)
  | .push _ => inferInstanceAs (Decidable False)
  | .append _ _ => inferInstanceAs (Decidable (_ ∧ _))
  | .project _ => inferInstanceAs (Decidable (_ ∧ _))
  | .merge _ _ => inferInstanceAs (Decidable (_ ∧ _ ∧ _))

namespace Request

/-- The points of such a request ascend behind the list, and none of them is below the ground. -/
theorem Continues.points {kept : List KeyPoint} {q : Request} (h : q.Continues kept) :
    Ascending q.points ∧ (∀ p ∈ q.points, 0 ≤ p.height) ∧ ∀ p ∈ q.points, EndsBefore kept p.x := by
  cases q with
  | push p => exact h.elim
  | append x height =>
      obtain ⟨hheight, hx⟩ := h
      simp [Request.points, ascending_cons, hheight, hx]
  | project b =>
      obtain ⟨⟨hwidth, hheight⟩, hx⟩ := h
      have hright : EndsBefore kept b.right := fun p hp => Int64.lt_trans (hx p hp) hwidth
      simp [Request.points, ascending_cons, hwidth, Int64.le_of_lt hheight, hx, hright]
  | merge left right =>
      obtain ⟨hleft, hright, hx⟩ := h
      obtain ⟨hxl, hxr⟩ := List.forall_mem_append.1 hx
      refine ⟨ascending_swept hleft.ascending hright.ascending,
        nonneg_swept hleft.nonneg hright.nonneg, ?_⟩
      intro r hr p hp
      exact forall_swept_lt (fun q hq => hxl q hq p hp) (fun q hq => hxr q hq p hp) r hr

/-- **A request that continues a tidy skyline leaves it tidy.** -/
theorem Continues.tidy_after {sky : Skyline} {q : Request} (hq : q.Continues sky.points.toList)
    (h : Tidy sky.points.toList) : Tidy (sky.after (q.on Skyline.collector)).points.toList := by
  obtain ⟨hasc, hnonneg, hright⟩ := hq.points
  rw [Skyline.toList_after_request]
  rcases q.push_or_appends with ⟨p, rfl⟩ | ⟨hadded, -⟩
  · exact hq.elim
  · rw [hadded]
    exact h.append_changes hasc hnonneg hright

end Request

/-! ### Histories of skylines -/

/-- A skyline that has been checked is tidy. -/
theorem Skyline.tidy_of_isWellFormed {sky : Skyline} (h : sky.isWellFormed = true) :
    Tidy sky.points.toList := (wellFormed_iff_tidy.1 (isWellFormed_iff.1 h)).1

/-- **A tidy skyline is well-formed exactly if it is empty or ends on the ground.** -/
theorem Skyline.isWellFormed_iff_of_tidy {sky : Skyline} (h : Tidy sky.points.toList) :
    sky.isWellFormed = true ↔
      sky.isEmpty = true ∨ ∃ p, sky.points.back? = some p ∧ p.height = 0 := by
  rw [isWellFormed_iff, wellFormed_iff_tidy, and_iff_right h, endHeight_toList_eq_zero_iff, isEmpty,
    Array.isEmpty_iff]

namespace Shelf

/-- The step takes valid buildings only, and continues a skyline to the right if it extends it. -/
def Allows (s : Shelf) : Step → Prop
  | .ofBuilding _ b => b.IsValid
  | .request i q => q.Continues (s i).points.toList
  | _ => True

instance (s : Shelf) : (step : Step) → Decidable (s.Allows step)
  | .ofBuilding _ _ => inferInstanceAs (Decidable (Building.IsValid _))
  | .request _ _ => inferInstanceAs (Decidable (Request.Continues _ _))
  | .new _ | .ofPoints .. | .build .. | .merge .. | .clone .. | .clear _ =>
      inferInstanceAs (Decidable True)

/-- All steps of a history are allowed, each on the shelf that the steps before it leave. -/
def AllowsAll : Shelf → List Step → Prop
  | _, [] => True
  | s, step :: steps => s.Allows step ∧ (s.after step).AllowsAll steps

instance decidableAllowsAll : (s : Shelf) → (steps : List Step) → Decidable (s.AllowsAll steps)
  | _, [] => inferInstanceAs (Decidable True)
  | s, step :: steps =>
      have := decidableAllowsAll (s.after step) steps
      inferInstanceAs (Decidable (_ ∧ _))

variable {s : Shelf}

/-- **A step that is allowed leaves all skylines tidy.** -/
theorem tidy_after (h : ∀ i, Tidy (s i).points.toList) {step : Step} (hstep : s.Allows step)
    (i : Nat) :
    Tidy (s.after step i).points.toList := by
  refine forall_after (P := fun sky => Tidy sky.points.toList)
    (fun _ => Skyline.tidy_of_isWellFormed) h step ?_ i
  intro sky q hq
  have hcontinues : q.Continues sky.points.toList := by
    cases step with
    | ofBuilding i b =>
        obtain ⟨rfl, rfl⟩ := Prod.mk.inj (Option.some.inj hq)
        exact ⟨hstep, endsBefore_nil b.left⟩
    | merge i j k =>
        obtain ⟨rfl, rfl⟩ := Prod.mk.inj (Option.some.inj hq)
        exact ⟨h j, h k, fun p _ => endsBefore_nil p.x⟩
    | request i q =>
        obtain ⟨rfl, rfl⟩ := Prod.mk.inj (Option.some.inj hq)
        exact hstep
    | new | ofPoints | build | clone | clear => nomatch hq
  exact hcontinues.tidy_after

/-- **A history of allowed steps leaves all skylines tidy.** -/
theorem tidy_afterAll (h : ∀ i, Tidy (s i).points.toList) {steps : List Step}
    (hsteps : s.AllowsAll steps) (i : Nat) : Tidy (s.afterAll steps i).points.toList := by
  induction steps generalizing s with
  | nil => exact h i
  | cons step steps ih => exact ih (tidy_after h hsteps.1) hsteps.2

/-- **Every skyline of a history is tidy**, and it is well-formed exactly if it is empty or ends on
the ground.  In the history, which may be about any number of skylines, finished ones and
unfinished ones are made, copied, merged and cleared at will; where a skyline is extended, it is
extended to the right. -/
theorem tidy_in_every_place (steps : List Step) (h : empty.AllowsAll steps) (i : Nat) :
    let sky := empty.afterAll steps i
    Tidy sky.points.toList ∧
      (sky.isWellFormed = true ↔
        sky.isEmpty = true ∨ ∃ p, sky.points.back? = some p ∧ p.height = 0) := by
  intro sky
  have hempty : ∀ i, Tidy (empty i).points.toList := fun _ =>
    Skyline.tidy_of_isWellFormed Skyline.isWellFormed_empty
  have htidy : Tidy sky.points.toList := tidy_afterAll hempty h i
  exact ⟨htidy, Skyline.isWellFormed_iff_of_tidy htidy⟩

theorem tidy_in_every_place_swallowed_rise :
    let steps : List Step := [.ofBuilding 0 ⟨0, 4, 3⟩, .request 0 (.append 6 2), .clone 1 0,
      .request 1 (.project ⟨7, 9, 2⟩), .request 0 (.merge [⟨8, 5⟩] [⟨8, 1⟩, ⟨9, 4⟩]), .merge 2 1 0]
    empty.AllowsAll steps ∧ Tidy (empty.afterAll steps 2).points.toList ∧
      (empty.afterAll steps 1).isWellFormed = true := by
  intro steps
  have hallowed : empty.AllowsAll steps := by decide +kernel
  have hlast : (empty.afterAll steps 1).points.back? = some ⟨9, 0⟩ := by decide +kernel
  exact ⟨hallowed, (tidy_in_every_place steps hallowed 2).1,
    (tidy_in_every_place steps hallowed 1).2.2 (.inr ⟨⟨9, 0⟩, hlast, rfl⟩)⟩

end Shelf

end Cityscape
