/-
**Extending a skyline to the right.**

A building, or the merge of two lists, can be appended to a skyline in place.  The same can be had
at greater cost: by making a skyline of the addition alone and then merging the two.  If all of the
addition lies to the right of the skyline, the two ways lead to the same points.

They do not leave out the same points at the same time.  The addition alone has nothing before it,
so a first point on the ground stays in it; behind a skyline, which ends on the ground, such a
point is left out when it is appended on the one way and in the merge on the other.  The proof does
not follow the points.  Leaving out points in two rounds is leaving them out in one
(`Cityscape.changesAfter_changes`), and a sweep over a list that ends before another one starts
passes first the one on and then the other (`Cityscape.swept_of_forall_lt`).

Main results:

* `Cityscape.merged_changes_of_forall_lt` — **merging with what lies to the right is appending it**;
* `Cityscape.Skyline.after_appendAll_eq_merge` — the same for skylines, and any points to the right;
* `Cityscape.Skyline.extending_is_merging` — **lists and buildings appended in place** give the
  merge of the skyline with the addition.
-/

import Cityscape.Proofs.Tidy

set_option relaxedAutoImplicit false
set_option autoImplicit false

namespace Cityscape

/-! ### Leaving out points in two rounds -/

theorem changesFrom_changes (height : Int64) (ps : List KeyPoint) :
    changesFrom height (changes ps) = changesFrom height ps := by
  cases ps with
  | nil => rfl
  | cons p ps =>
      have hrest : changesFrom p.height (changesFrom p.height ps) = changesFrom p.height ps :=
        changesFrom_eq_self (changing_changesFrom p.height ps)
      rw [changes, changesFrom, changesFrom]
      split
      next heq => rw [← heq, hrest]
      next => rw [hrest]

/-- **Leaving out points in two rounds is leaving them out in one**, whatever the list stands
behind. -/
theorem changesAfter_changes (last : Option KeyPoint) (ps : List KeyPoint) :
    changesAfter last (changes ps) = changesAfter last ps := by
  cases last with
  | none => exact changes_eq_self (differing_changes ps)
  | some p => exact changesFrom_changes p.height ps

/-! ### Merging with what lies to the right -/

/-- A sweep passes on a list that ends before the other one starts, and then the other one. -/
theorem swept_of_forall_lt {h₁ : Int64} {ps qs : List KeyPoint} (hnonneg : ∀ p ∈ ps, 0 ≤ p.height)
    (h : ∀ p ∈ ps, ∀ q ∈ qs, p.x < q.x) : swept h₁ 0 ps qs = ps ++ qs := by
  induction ps generalizing h₁ with
  | nil => rw [swept_nil_left, List.nil_append]
  | cons p ps ih =>
      obtain ⟨hp, hps⟩ := List.forall_mem_cons.1 hnonneg
      cases qs with
      | nil => rw [swept_nil_right, List.append_nil]
      | cons q qs =>
          -- Nothing of `qs` has been passed on yet, and so it counts with the ground.
          obtain ⟨hpq, hpsq⟩ := List.forall_mem_cons.1 h
          rw [swept, if_pos (hpq q List.mem_cons_self), max_zero hp, ih hps hpsq, List.cons_append]

/-- **Merging with what lies to the right is appending it.** -/
theorem merged_changes_of_forall_lt {ps qs : List KeyPoint} (hps : Tidy ps)
    (h : ∀ p ∈ ps, ∀ q ∈ qs, p.x < q.x) :
    merged ps (changes qs) = ps ++ changesAfter ps.getLast? qs := by
  have hright : ∀ p ∈ ps, ∀ q ∈ changes qs, p.x < q.x := by
    intro p hp q hq
    exact h p hp q ((changes_sublist qs).subset hq)
  rw [merged, swept_of_forall_lt hps.nonneg hright, ← append_changesAfter hps.differing,
    changesAfter_changes]

namespace Skyline

/-- **Appending points to the right of a tidy skyline is merging it** with the skyline of these
points. -/
theorem after_appendAll_eq_merge {s : Skyline} {ps : List KeyPoint} (hs : Tidy s.points.toList)
    (h : ∀ p ∈ ps, EndsBefore s.points.toList p.x) :
    s.after (collector.appendAll ps) = s.merge (empty.after (collector.appendAll ps)) := by
  have hright : ∀ p ∈ s.points.toList, ∀ q ∈ ps, p.x < q.x := by
    intro p hp q hq
    exact (h q hq).forall_lt hs.ascending p hp
  refine eq_of_toList_eq ?_
  rw [toList_after_appendAll, toList_merge, toList_after_appendAll_empty,
    merged_changes_of_forall_lt hs hright]

/-- A request that continues a tidy skyline does to it what merging with the result of the request
alone does. -/
theorem after_eq_merge_of_continues {s : Skyline} {q : Request} (hs : Tidy s.points.toList)
    (hq : q.Continues s.points.toList) :
    s.after (q.on collector) = s.merge (empty.after (q.on collector)) := by
  rcases q.push_or_appends with ⟨p, rfl⟩ | ⟨-, hon⟩
  · exact hq.elim
  · rw [hon]
    exact after_appendAll_eq_merge hs hq.points.2.2

/-- The skyline of a valid building is well-formed. -/
theorem isWellFormed_ofBuilding {b : Building} (h : b.IsValid) :
    (ofBuilding b).isWellFormed = true := by
  rw [isWellFormed_iff, toList_ofBuilding h]
  exact (isContour_contour (List.forall_mem_singleton.2 h)).toWellFormed

/-- **Lists and buildings appended in place** behind a well-formed skyline, all of them to its
right, give the merge of the skyline with what the addition alone gives, point by point, and this
is well-formed. -/
theorem extending_is_merging (s : Skyline) (hs : s.isWellFormed = true) :
    (∀ left right, firstFlaw left = none → firstFlaw right = none →
      (∀ p ∈ left ++ right, EndsBefore s.points.toList p.x) →
        s.after (collector.merge left right) = s.merge (empty.after (collector.merge left right)) ∧
          (s.after (collector.merge left right)).isWellFormed = true) ∧
      ∀ b : Building, b.IsValid → EndsBefore s.points.toList b.left →
        s.after (collector.project b) = s.merge (ofBuilding b) ∧
          (s.after (collector.project b)).isWellFormed = true := by
  have htidy := tidy_of_isWellFormed hs
  constructor
  · intro left right hleft hright hlater
    rw [firstFlaw_eq_none_iff] at hleft hright
    have hcontinues : (Request.merge left right).Continues s.points.toList :=
      ⟨(wellFormed_iff_tidy.1 hleft).1, (wellFormed_iff_tidy.1 hright).1, hlater⟩
    have hmerge : s.after (collector.merge left right) =
        s.merge (empty.after (collector.merge left right)) :=
      after_eq_merge_of_continues htidy hcontinues
    refine ⟨hmerge, ?_⟩
    rw [hmerge]
    exact isWellFormed_merge hs (isWellFormed_after_merge_empty hleft hright)
  · intro b hb hlater
    have hcontinues : (Request.project b).Continues s.points.toList := ⟨hb, hlater⟩
    have hmerge : s.after (collector.project b) = s.merge (ofBuilding b) :=
      after_eq_merge_of_continues htidy hcontinues
    refine ⟨hmerge, ?_⟩
    rw [hmerge]
    exact isWellFormed_merge hs (isWellFormed_ofBuilding hb)

/-- Both lists start on the ground, and at the same coordinate, right behind the skyline. -/
theorem extending_is_merging_at_seam :
    let s : Skyline := ⟨#[⟨-3, 0⟩, ⟨1, 4⟩, ⟨6, 0⟩]⟩
    let left : List KeyPoint := [⟨7, 0⟩, ⟨9, 2⟩, ⟨12, 0⟩]
    let right : List KeyPoint := [⟨7, 0⟩, ⟨8, 1⟩, ⟨9, 0⟩]
    s.after (collector.merge left right) = s.merge (empty.after (collector.merge left right)) ∧
      s.after (collector.project ⟨8, 9, 1⟩) = s.merge (ofBuilding ⟨8, 9, 1⟩) := by
  intro s left right
  obtain ⟨hmerge, hproject⟩ := extending_is_merging s (by decide)
  exact ⟨(hmerge left right (by decide) (by decide) (by decide)).1,
    (hproject ⟨8, 9, 1⟩ (by decide) (by decide)).1⟩

end Skyline

end Cityscape
