/-
**Well-formed lists and contours.**

The check `Cityscape.firstFlaw` finds no flaw exactly in the well-formed lists, and well-formedness
splits into four conditions (`Cityscape.WellFormed`).  A *contour* is a well-formed list that starts
above the ground (`Cityscape.IsContour`): it has no point that does not change the height, and so
it is determined by its heights.

Any list is made to change at every point by leaving out the points that keep the height
(`Cityscape.changes`), and that leaves the heights of the list as they are.

Main definitions:

* `Cityscape.WellFormed`, `Cityscape.IsContour` — the two kinds of lists;
* `Cityscape.changesAfter` — the changes among points that are appended behind a given last point.

Main results:

* `Cityscape.firstFlaw_eq_none_iff` — **the check accepts exactly the well-formed lists**;
* `Cityscape.heightFrom_changes` — leaving out what keeps the height keeps all heights;
* `Cityscape.append_changesAfter` — changes appended behind a list are those of the list in one
  piece;
* `Cityscape.IsContour.ext` — **a contour is determined by its heights**.
-/

import Cityscape.Skyline.WellFormed
import Cityscape.Proofs.StepFunction

set_option relaxedAutoImplicit false
set_option autoImplicit false

namespace Cityscape

/-! ### Changes of height -/

/-- The changes among points that are appended behind the point `last`, if there is one. -/
def changesAfter : Option KeyPoint → List KeyPoint → List KeyPoint
  | none, ps => changes ps
  | some p, ps => changesFrom p.height ps

@[simp] theorem changesAfter_nil (last : Option KeyPoint) : changesAfter last [] = [] := by
  cases last <;> rfl

/-- A point is left out exactly when it keeps the height of the point before it. -/
theorem changesAfter_cons (last : Option KeyPoint) (p : KeyPoint) (ps : List KeyPoint) :
    changesAfter last (p :: ps) =
      if last.any (·.height == p.height) then changesAfter last ps
      else p :: changesAfter (some p) ps := by
  cases last with
  | none => rfl
  | some q =>
      have hq : ((some q).any (·.height == p.height) = true) ↔ p.height = q.height := by
        rw [Option.any_some, beq_iff_eq, eq_comm]
      simp only [changesAfter, changesFrom, hq]

theorem changesFrom_sublist (height : Int64) (ps : List KeyPoint) :
    (changesFrom height ps).Sublist ps := by
  induction ps generalizing height with
  | nil => exact List.Sublist.slnil
  | cons p ps ih =>
      rw [changesFrom]
      split
      · exact (ih height).cons p
      · exact (ih p.height).cons_cons p

theorem changes_sublist (ps : List KeyPoint) : (changes ps).Sublist ps := by
  cases ps with
  | nil => exact List.Sublist.slnil
  | cons p ps => exact (changesFrom_sublist p.height ps).cons_cons p

theorem head?_changes (ps : List KeyPoint) : (changes ps).head? = ps.head? := by
  cases ps <;> rfl

theorem changing_changesFrom (height : Int64) (ps : List KeyPoint) :
    Changing height (changesFrom height ps) := by
  induction ps generalizing height with
  | nil => exact changing_nil height
  | cons p ps ih =>
      rw [changesFrom]
      split
      next => exact ih height
      next h => exact changing_cons.2 ⟨h, ih p.height⟩

/-- Points are left out of the second part of a list as they are behind the last height of the
first. -/
theorem changesFrom_append (height : Int64) (ps qs : List KeyPoint) :
    changesFrom height (ps ++ qs) =
      changesFrom height ps ++ changesFrom (endHeight height ps) qs := by
  induction ps generalizing height with
  | nil => rfl
  | cons p ps ih =>
      rw [List.cons_append, changesFrom, changesFrom, endHeight_cons]
      split
      next heq => rw [ih, heq]
      next => rw [ih, List.cons_append]

/-- Nothing is left out where every point changes the height. -/
theorem changesFrom_eq_self {height : Int64} {ps : List KeyPoint} (h : Changing height ps) :
    changesFrom height ps = ps := by
  induction ps generalizing height with
  | nil => rfl
  | cons p ps ih =>
      obtain ⟨hne, hps⟩ := changing_cons.1 h
      rw [changesFrom, if_neg hne, ih hps]

/-- Nothing is left out where neighbours differ in height. -/
theorem changes_eq_self {ps : List KeyPoint} (h : (ps.map (·.height)).IsChain (· ≠ ·)) :
    changes ps = ps := by
  cases ps with
  | nil => rfl
  | cons p ps => rw [changes, changesFrom_eq_self h]

/-- The changes of a list in two parts are those of the first part, and those of the second part
behind it. -/
theorem changes_append (ps qs : List KeyPoint) :
    changes (ps ++ qs) = changes ps ++ changesAfter ps.getLast? qs := by
  rcases List.eq_nil_or_concat ps with rfl | ⟨init, last, rfl⟩
  · rfl
  · rw [List.concat_eq_append, List.getLast?_concat]
    cases init with
    | nil => rfl
    | cons p init =>
        rw [List.cons_append, List.cons_append, changes, changes, changesFrom_append,
          endHeight_concat, List.cons_append, changesAfter]

/-- **Changes behind a list** in which neighbours differ are the changes of the whole. -/
theorem append_changesAfter {ps : List KeyPoint} (h : (ps.map (·.height)).IsChain (· ≠ ·))
    (qs : List KeyPoint) : ps ++ changesAfter ps.getLast? qs = changes (ps ++ qs) := by
  rw [changes_append, changes_eq_self h]

/-- A point that is left out has the height of the point kept before it, so the last height
stays. -/
theorem endHeight_changesFrom (height : Int64) (ps : List KeyPoint) :
    endHeight height (changesFrom height ps) = endHeight height ps := by
  induction ps generalizing height with
  | nil => rfl
  | cons p ps ih =>
      rw [changesFrom, endHeight_cons]
      split
      next heq => rw [ih, heq]
      next => rw [endHeight_cons, ih]

theorem endHeight_changes (height : Int64) (ps : List KeyPoint) :
    endHeight height (changes ps) = endHeight height ps := by
  cases ps with
  | nil => rfl
  | cons p ps => rw [changes, endHeight_cons, endHeight_cons, endHeight_changesFrom]

/-- Neighbours among the changes of a list differ in height. -/
theorem differing_changes (ps : List KeyPoint) :
    ((changes ps).map (·.height)).IsChain (· ≠ ·) := by
  cases ps with
  | nil => exact .nil
  | cons p ps => exact changing_changesFrom p.height ps

theorem heightFrom_changesFrom {height : Int64} {ps : List KeyPoint} (h : Ascending ps)
    (x : Int64) : heightFrom height (changesFrom height ps) x = heightFrom height ps x := by
  induction ps generalizing height with
  | nil => rfl
  | cons p ps ih =>
      obtain ⟨hp, hps⟩ := ascending_cons.1 h
      by_cases hx : p.x ≤ x
      · rw [heightFrom_cons_of_le hx, changesFrom]
        split
        next heq => rw [ih hps, heq]
        next => rw [heightFrom_cons_of_le hx, ih hps]
      · -- The point and all behind it lie to the right of `x`, kept or not.
        have hx : x < p.x := Int64.not_le.1 hx
        have hall : ∀ q ∈ p :: ps, x < q.x := by
          intro q hq
          rcases List.mem_cons.1 hq with rfl | hq
          · exact hx
          · exact Int64.lt_trans hx (hp q hq)
        rw [heightFrom_of_forall_lt hall, heightFrom_of_forall_lt]
        exact fun q hq => hall q ((changesFrom_sublist height (p :: ps)).subset hq)

/-- **Leaving out the points that keep the height keeps all heights.** -/
theorem heightFrom_changes {height : Int64} {ps : List KeyPoint} (h : Ascending ps) (x : Int64) :
    heightFrom height (changes ps) x = heightFrom height ps x := by
  cases ps with
  | nil => rfl
  | cons p ps => rw [changes, heightFrom, heightFrom, heightFrom_changesFrom (ascending_cons.1 h).2]

theorem ascending_changes {ps : List KeyPoint} (h : Ascending ps) : Ascending (changes ps) :=
  List.Pairwise.sublist (changes_sublist ps) h

/-! ### Well-formed lists -/

/-- The lists that pass as skylines: coordinates increase, neighbours differ in height, no height is
negative, and the last point is on the ground. -/
structure WellFormed (points : List KeyPoint) : Prop where
  /-- Coordinates increase. -/
  ascending : Ascending points
  /-- Neighbours differ in height. -/
  differing : (points.map (·.height)).IsChain (· ≠ ·)
  /-- No height is negative. -/
  nonneg : ∀ p ∈ points, 0 ≤ p.height
  /-- The last point is on the ground. -/
  grounded : endHeight 0 points = 0

/-- An array ends on the ground if it is empty or its last point is on the ground. -/
theorem endHeight_toList_eq_zero_iff {points : Array KeyPoint} :
    endHeight 0 points.toList = 0 ↔ points = #[] ∨ ∃ p, points.back? = some p ∧ p.height = 0 := by
  rw [endHeight_eq_getLast?, Array.getLast?_toList]
  cases hback : points.back? with
  | none => simpa using Array.back?_eq_none_iff.1 hback
  | some p =>
      have hne : points ≠ #[] := by
        rintro rfl
        nomatch hback
      simp [hne]

theorem wellFormed_toList_iff {points : Array KeyPoint} :
    WellFormed points.toList ↔
      points.toList.Pairwise (·.x < ·.x) ∧ (points.toList.map (·.height)).IsChain (· ≠ ·) ∧
        (∀ p ∈ points.toList, 0 ≤ p.height) ∧
        (points = #[] ∨ ∃ p, points.back? = some p ∧ p.height = 0) := by
  rw [← endHeight_toList_eq_zero_iff]
  constructor
  · intro h
    exact ⟨h.ascending, h.differing, h.nonneg, h.grounded⟩
  · rintro ⟨hasc, hdiff, hnonneg, hground⟩
    exact ⟨hasc, hdiff, hnonneg, hground⟩

/-- The changes of an ascending list are well-formed if the list ends on the ground and is never
below it. -/
theorem WellFormed.of_changes {ps : List KeyPoint} (hasc : Ascending ps)
    (hnonneg : ∀ p ∈ ps, 0 ≤ p.height) (hend : endHeight 0 ps = 0) : WellFormed (changes ps) where
  ascending := ascending_changes hasc
  differing := differing_changes ps
  nonneg p hp := hnonneg p ((changes_sublist ps).subset hp)
  grounded := by rw [endHeight_changes, hend]

theorem ascending_cons_cons {p q : KeyPoint} {ps : List KeyPoint} :
    Ascending (p :: q :: ps) ↔ p.x < q.x ∧ Ascending (q :: ps) := by
  rw [ascending_cons]
  constructor
  · rintro ⟨hp, hq⟩
    exact ⟨hp q List.mem_cons_self, hq⟩
  · rintro ⟨hpq, hq⟩
    refine ⟨fun r hr => ?_, hq⟩
    rcases List.mem_cons.1 hr with rfl | hr
    · exact hpq
    · exact Int64.lt_trans hpq ((ascending_cons.1 hq).1 r hr)

/-- There is no flaw behind a point exactly when what follows it is well-formed there. -/
theorem flawAfter_eq_none_iff {prev : KeyPoint} {index : Nat} {ps : List KeyPoint} :
    flawAfter prev index ps = none ↔
      Ascending (prev :: ps) ∧ Changing prev.height ps ∧ (∀ p ∈ ps, 0 ≤ p.height) ∧
        endHeight prev.height ps = 0 := by
  induction ps generalizing prev index with
  | nil => simp [flawAfter, ascending_cons]
  | cons p ps ih =>
      have hflaw : ¬ (p.height < 0 ∨ Clashes prev p) ↔
          0 ≤ p.height ∧ prev.x < p.x ∧ p.height ≠ prev.height := by
        simp only [Clashes, not_or, Int64.not_lt, Int64.not_le, ne_eq]
      rw [flawAfter, ascending_cons_cons, changing_cons, endHeight_cons, List.forall_mem_cons]
      split
      next h =>
        have hn := mt hflaw.2 (not_not_intro h)
        simp only [reduceCtorEq, false_iff]
        rintro ⟨⟨hx, -⟩, ⟨hne, -⟩, ⟨hpos, -⟩, -⟩
        exact hn ⟨hpos, hx, hne⟩
      next h =>
        obtain ⟨hpos, hx, hne⟩ := hflaw.1 h
        rw [ih]
        constructor
        · rintro ⟨h₁, h₂, h₃, h₄⟩
          exact ⟨⟨hx, h₁⟩, ⟨hne, h₂⟩, ⟨hpos, h₃⟩, h₄⟩
        · rintro ⟨⟨-, h₁⟩, ⟨-, h₂⟩, ⟨-, h₃⟩, h₄⟩
          exact ⟨h₁, h₂, h₃, h₄⟩

/-- **The check finds no flaw exactly in the well-formed lists.** -/
theorem firstFlaw_eq_none_iff {ps : List KeyPoint} : firstFlaw ps = none ↔ WellFormed ps := by
  cases ps with
  | nil => exact ⟨fun _ => ⟨ascending_nil, .nil, by simp, rfl⟩, fun _ => rfl⟩
  | cons p ps =>
      rw [firstFlaw]
      split
      next h =>
        simp only [reduceCtorEq, false_iff]
        exact fun hw => absurd (hw.nonneg p List.mem_cons_self) (Int64.not_le.2 h)
      next h =>
        rw [flawAfter_eq_none_iff]
        constructor
        · rintro ⟨h₁, h₂, h₃, h₄⟩
          exact ⟨h₁, h₂, List.forall_mem_cons.2 ⟨Int64.not_lt.1 h, h₃⟩, h₄⟩
        · rintro ⟨h₁, h₂, h₃, h₄⟩
          exact ⟨h₁, h₂, (List.forall_mem_cons.1 h₃).2, h₄⟩

theorem Skyline.ofPoints_eq_ok_iff {points : Array KeyPoint} {sky : Skyline} :
    ofPoints points = .ok sky ↔ WellFormed points.toList ∧ sky = ⟨points⟩ := by
  rw [ofPoints, ← firstFlaw_eq_none_iff]
  cases firstFlaw points.toList with
  | none => simp [eq_comm]
  | some index => simp

theorem Skyline.isWellFormed_iff {s : Skyline} :
    s.isWellFormed = true ↔ WellFormed s.points.toList := by
  rw [Skyline.isWellFormed, Option.isNone_iff_eq_none, firstFlaw_eq_none_iff]

/-! ### Contours -/

/-- A contour: a well-formed list that starts above the ground. -/
structure IsContour (points : List KeyPoint) : Prop extends WellFormed points where
  /-- The first point is above the ground. -/
  starts : ∀ p ∈ points.head?, 0 < p.height

namespace IsContour

/-- Every point of a contour changes the height, the first one that of the ground. -/
theorem changing {ps : List KeyPoint} (h : IsContour ps) : Changing 0 ps := by
  cases ps with
  | nil => exact changing_nil 0
  | cons p ps => exact changing_cons.2 ⟨(Int64.ne_of_lt (h.starts p rfl)).symm, h.differing⟩

/-- A contour that has a point has a second one, since it has to come back to the ground. -/
theorem two_le_length {ps : List KeyPoint} (h : IsContour ps) (hne : ps ≠ []) : 2 ≤ ps.length := by
  rcases ps with _ | ⟨p, _ | ⟨q, ps⟩⟩
  · exact absurd rfl hne
  · have hground : p.height = 0 := h.grounded
    exact absurd hground (Int64.ne_of_lt (h.starts p rfl)).symm
  · exact Nat.le_add_left 2 ps.length

/-- **A contour is determined by its heights.** -/
theorem ext {ps qs : List KeyPoint} (hp : IsContour ps) (hq : IsContour qs)
    (h : ∀ x, heightFrom 0 ps x = heightFrom 0 qs x) : ps = qs :=
  eq_of_heightFrom_eq hp.ascending hp.changing hq.ascending hq.changing h

end IsContour

end Cityscape
