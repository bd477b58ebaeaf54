/-
**The laws of merging.**

A well-formed list may start with a point on the ground.  Such a point does not count for the
height, so a well-formed list is not determined by its heights alone, but it is determined by its
heights together with the coordinate where it starts (`Cityscape.WellFormed.ext`).  The reason is
that the list may as well be read from a height below the ground: then its first point changes the
height in any case.

Both parts are known of a merge.  It has the larger of the two heights everywhere, and it starts
where the first of the two lists does (`Cityscape.start_merged`).  So the laws of merging are the
laws of the larger height and of the earlier start: on well-formed skylines, merging is an
idempotent monoid, point by point.

A skyline that is nowhere above another one should be absorbed when the two are merged.  Here the
first point on the ground matters again.  It may stand to the left of everything in the other
skyline, and then the merge starts there too, although no height has changed.  So a skyline absorbs
another one exactly if it is nowhere below it and does not start to the right of it.

Main definitions:

* `Cityscape.start`, `Cityscape.dropGround` — where a list starts, and a list without a first point
  on the ground.

Main results:

* `Cityscape.WellFormed.ext` — **a well-formed list is determined by its start and its heights**;
* `Cityscape.Skyline.merge_idempotent_monoid` — **merging well-formed skylines is an idempotent
  monoid operation**;
* `Cityscape.heightFrom_eq_iff` — ascending lists have the same heights if and only if they have
  the same changes;
* `Cityscape.Skyline.heightAt_eq_iff` — **skylines have the same heights exactly if they are the
  same but for a first point on the ground**;
* `Cityscape.Skyline.merge_eq_right_iff` — **which skylines are absorbed in a merge**.
-/

import Cityscape.Proofs.Merging

set_option relaxedAutoImplicit false
set_option autoImplicit false

namespace Cityscape

/-! ### Where a list starts -/

/-- The coordinate of the first point. -/
def start (ps : List KeyPoint) : Option Int64 := ps.head?.map (·.x)

@[simp] theorem start_nil : start [] = none := rfl

@[simp] theorem start_cons (p : KeyPoint) (ps : List KeyPoint) : start (p :: ps) = some p.x := rfl

theorem start_changes (ps : List KeyPoint) : start (changes ps) = start ps := by
  rw [start, head?_changes, start]

theorem start_swept (h₁ h₂ : Int64) (ps qs : List KeyPoint) :
    start (swept h₁ h₂ ps qs) = Option.merge min (start ps) (start qs) := by
  cases ps with
  | nil => simp
  | cons p ps =>
      cases qs with
      | nil => simp
      | cons q qs =>
          rw [swept]
          split_ifs <;> simp only [start_cons, Option.merge_some_some, min_eq_ite] <;> grind

/-- **A merge starts where the first of the two lists does.** -/
theorem start_merged (ps qs : List KeyPoint) :
    start (merged ps qs) = Option.merge min (start ps) (start qs) := by
  rw [merged, start_changes, start_swept]

/-! ### What determines a well-formed list -/

/-- Lists that start together and are at the same height above the ground are so also above any
other height. -/
theorem heightFrom_eq_of_start_eq {ps qs : List KeyPoint} (hstart : start ps = start qs)
    (h : ∀ x, heightFrom 0 ps x = heightFrom 0 qs x) (height x : Int64) :
    heightFrom height ps x = heightFrom height qs x := by
  cases ps with
  | nil =>
      cases qs with
      | nil => rfl
      | cons q qs => nomatch hstart
  | cons p ps =>
      cases qs with
      | nil => nomatch hstart
      | cons q qs =>
          have hpq : p.x = q.x := Option.some.inj hstart
          have hall := h x
          rw [heightFrom, heightFrom, ← hpq] at hall ⊢
          split at hall
          next hx => rw [if_pos hx, if_pos hx, hall]
          next hx => rw [if_neg hx, if_neg hx]

namespace WellFormed

variable {ps qs rs : List KeyPoint}

/-- Read from below the ground, every point of a well-formed list changes the height. -/
theorem changing_of_neg (h : WellFormed ps) {height : Int64} (hneg : height < 0) :
    Changing height ps := by
  cases ps with
  | nil => exact changing_nil height
  | cons p ps =>
      have hp := h.nonneg p List.mem_cons_self
      exact changing_cons.2 ⟨(Int64.ne_of_lt (Int64.lt_of_lt_of_le hneg hp)).symm, h.differing⟩

/-- **A well-formed list is determined by its start and its heights.** -/
theorem ext (hp : WellFormed ps) (hq : WellFormed qs) (hstart : start ps = start qs)
    (h : ∀ x, heightFrom 0 ps x = heightFrom 0 qs x) : ps = qs := by
  have hneg : (-1 : Int64) < 0 := by decide
  exact eq_of_heightFrom_eq hp.ascending (hp.changing_of_neg hneg) hq.ascending
    (hq.changing_of_neg hneg) (heightFrom_eq_of_start_eq hstart h (-1))

/-! ### The laws on lists -/

theorem merged_assoc (hp : WellFormed ps) (hq : WellFormed qs) (hr : WellFormed rs) :
    Cityscape.merged (Cityscape.merged ps qs) rs =
      Cityscape.merged ps (Cityscape.merged qs rs) := by
  refine ext ((hp.merged hq).merged hr) (hp.merged (hq.merged hr)) ?_ ?_
  · simp only [start_merged]
    exact Std.Associative.assoc _ _ _
  · intro x
    rw [heightFrom_merged (hp.merged hq) hr, heightFrom_merged hp hq,
      heightFrom_merged hp (hq.merged hr), heightFrom_merged hq hr]
    grind

theorem merged_self (hp : WellFormed ps) : Cityscape.merged ps ps = ps := by
  refine ext (hp.merged hp) hp ?_ ?_
  · rw [start_merged]
    exact Std.IdempotentOp.idempotent _
  · intro x
    rw [heightFrom_merged hp hp]
    grind

theorem merged_nil (hp : WellFormed ps) : Cityscape.merged ps [] = ps := by
  rw [Cityscape.merged, swept_nil_right, changes_eq_self hp.differing]

theorem nil_merged (hp : WellFormed ps) : Cityscape.merged [] ps = ps := by
  rw [Cityscape.merged, swept_nil_left, changes_eq_self hp.differing]

end WellFormed

/-! ### The laws on skylines -/

namespace Skyline

/-- **Merging well-formed skylines is an idempotent monoid operation**, point by point, also where
they start with a point on the ground: it stays among the well-formed skylines, it is associative
and idempotent, and the empty skyline is neutral on either side. -/
theorem merge_idempotent_monoid (s t u : Skyline) (hs : s.isWellFormed = true)
    (ht : t.isWellFormed = true) (hu : u.isWellFormed = true) :
    (s.merge t).isWellFormed = true ∧ (s.merge t).merge u = s.merge (t.merge u) ∧ s.merge s = s ∧
      s.merge empty = s ∧ empty.merge s = s := by
  rw [isWellFormed_iff] at hs ht hu
  refine ⟨?_, ?_, ?_, ?_, ?_⟩
  · rw [isWellFormed_iff, toList_merge]
    exact hs.merged ht
  · refine eq_of_toList_eq ?_
    simp only [toList_merge]
    exact hs.merged_assoc ht hu
  · refine eq_of_toList_eq ?_
    rw [toList_merge, hs.merged_self]
  · refine eq_of_toList_eq ?_
    rw [toList_merge, toList_empty, hs.merged_nil]
  · refine eq_of_toList_eq ?_
    rw [toList_merge, toList_empty, hs.nil_merged]

theorem merge_idempotent_monoid_of_ground :
    let s : Skyline := ⟨#[⟨-3, 0⟩, ⟨1, 4⟩, ⟨6, 0⟩]⟩
    let t : Skyline := ⟨#[⟨1, 2⟩, ⟨4, 7⟩, ⟨6, 4⟩, ⟨8, 0⟩]⟩
    let u : Skyline := ⟨#[⟨-5, 0⟩, ⟨-3, 1⟩, ⟨4, 0⟩]⟩
    (s.merge t).merge u = s.merge (t.merge u) ∧ s.merge s = s ∧ s.merge empty = s := by
  intro s t u
  obtain ⟨-, hassoc, hself, hempty, -⟩ :=
    merge_idempotent_monoid s t u (by decide) (by decide) (by decide)
  exact ⟨hassoc, hself, hempty⟩

end Skyline

/-! ### Lists with the same heights -/

/-- **Ascending lists have the same heights exactly if they have the same changes.** -/
theorem heightFrom_eq_iff {ps qs : List KeyPoint} {height : Int64} (hp : Ascending ps)
    (hq : Ascending qs) :
    (∀ x, heightFrom height ps x = heightFrom height qs x) ↔
      changesFrom height ps = changesFrom height qs := by
  constructor
  · intro h
    have hpc : Ascending (changesFrom height ps) := hp.sublist (changesFrom_sublist height ps)
    have hqc : Ascending (changesFrom height qs) := hq.sublist (changesFrom_sublist height qs)
    refine eq_of_heightFrom_eq hpc (changing_changesFrom height ps) hqc
      (changing_changesFrom height qs) ?_
    intro x
    rw [heightFrom_changesFrom hp, heightFrom_changesFrom hq, h]
  · intro h x
    rw [← heightFrom_changesFrom hp, h, heightFrom_changesFrom hq]

/-- The list without its first point, if that is on the ground. -/
def dropGround : List KeyPoint → List KeyPoint
  | [] => []
  | p :: ps => if p.height = 0 then ps else p :: ps

namespace WellFormed

variable {ps qs : List KeyPoint}

/-- In a well-formed list all points but a first one on the ground are changes from the ground
on. -/
theorem changesFrom_zero (h : WellFormed ps) : changesFrom 0 ps = dropGround ps := by
  cases ps with
  | nil => rfl
  | cons p ps =>
      -- Behind the first point nothing is left out, so it is only the first point that matters.
      have hrest : changesFrom p.height ps = ps := changesFrom_eq_self h.differing
      rw [changesFrom, dropGround]
      split
      next hground => rw [← hground, hrest]
      next => rw [hrest]

/-- **Well-formed lists are equal exactly if their starts and their heights are.** -/
theorem eq_iff (hp : WellFormed ps) (hq : WellFormed qs) :
    ps = qs ↔ start ps = start qs ∧ ∀ x, heightFrom 0 ps x = heightFrom 0 qs x := by
  constructor
  · rintro rfl
    exact ⟨rfl, fun x => rfl⟩
  · rintro ⟨hstart, hheight⟩
    exact ext hp hq hstart hheight

end WellFormed

namespace Skyline

/-- **Skylines have the same heights exactly if they are the same but for a first point on the
ground**, which one of them may have, or both at different coordinates. -/
theorem heightAt_eq_iff (s t : Skyline) (hs : s.isWellFormed = true) (ht : t.isWellFormed = true) :
    (∀ x, s.heightAt x = t.heightAt x) ↔
      dropGround s.points.toList = dropGround t.points.toList := by
  rw [isWellFormed_iff] at hs ht
  rw [← hs.changesFrom_zero, ← ht.changesFrom_zero, ← heightFrom_eq_iff hs.ascending ht.ascending]
  simp only [heightAt_of_wellFormed hs, heightAt_of_wellFormed ht]

theorem heightAt_eq_iff_at_least_coordinate :
    let s : Skyline := ⟨#[⟨Int64.minValue, 0⟩, ⟨1, 4⟩, ⟨6, 0⟩]⟩
    let t : Skyline := ⟨#[⟨-3, 0⟩, ⟨1, 4⟩, ⟨6, 0⟩]⟩
    let u : Skyline := ⟨#[⟨Int64.minValue, 4⟩, ⟨6, 0⟩]⟩
    (∀ x, s.heightAt x = t.heightAt x) ∧ ¬ ∀ x, s.heightAt x = u.heightAt x := by
  intro s t u
  constructor
  · exact (heightAt_eq_iff s t (by decide) (by decide)).2 (by decide)
  · exact mt (heightAt_eq_iff s u (by decide) (by decide)).1 (by decide)

end Skyline

/-! ### Absorption -/

/-- The earlier of two starts is the second one if that does not come later. -/
theorem merge_min_eq_right_iff {a b : Option Int64} :
    Option.merge min a b = b ↔ ∀ x ∈ a, ∃ y ∈ b, y ≤ x := by
  cases a with
  | none => simp
  | some x =>
      cases b with
      | none => simp
      | some y =>
          simp only [Option.merge_some_some, Option.mem_some_iff, Option.some.injEq, forall_eq',
            exists_eq_left', min_eq_ite]
          grind

namespace WellFormed

variable {ps qs : List KeyPoint}

theorem heightFrom_nonneg (h : WellFormed ps) (x : Int64) : 0 ≤ heightFrom 0 ps x :=
  Cityscape.heightFrom_nonneg (Int64.le_refl 0) h.nonneg x

/-- **A well-formed list is absorbed in a merge** exactly if the other list does not start later
and is nowhere below it. -/
theorem merged_eq_right_iff (hp : WellFormed ps) (hq : WellFormed qs) :
    Cityscape.merged ps qs = qs ↔
      (∀ x ∈ start ps, ∃ y ∈ start qs, y ≤ x) ∧ ∀ x, heightFrom 0 ps x ≤ heightFrom 0 qs x := by
  rw [(hp.merged hq).eq_iff hq, start_merged, merge_min_eq_right_iff]
  simp only [heightFrom_merged hp hq, max_eq_right_iff]

end WellFormed

namespace Skyline

/-- **Which skylines are absorbed in a merge**: the empty one, and those that do not start to the
left of the other skyline and are nowhere above it. -/
theorem merge_eq_right_iff (s t : Skyline) (hs : s.isWellFormed = true)
    (ht : t.isWellFormed = true) :
    s.merge t = t ↔
      s.isEmpty = true ∨
        (∃ q ∈ t.points[0]?, ∀ p ∈ s.points[0]?, q.x ≤ p.x) ∧ ∀ x, s.heightAt x ≤ t.heightAt x := by
  rw [isWellFormed_iff] at hs ht
  have hmerge : s.merge t = t ↔ merged s.points.toList t.points.toList = t.points.toList := by
    rw [← toList_merge]
    exact ⟨fun h => by rw [h], eq_of_toList_eq⟩
  rw [hmerge, hs.merged_eq_right_iff ht]
  simp only [heightAt_of_wellFormed hs, heightAt_of_wellFormed ht]
  rcases s with ⟨⟨ps⟩⟩
  rcases t with ⟨⟨qs⟩⟩
  cases ps with
  | nil =>
      -- The empty skyline starts nowhere, and it is nowhere above the ground.
      have hnonneg : ∀ x, 0 ≤ heightFrom 0 qs x := ht.heightFrom_nonneg
      simpa [isEmpty] using hnonneg
  | cons p ps => cases qs <;> simp [isEmpty]

/-- The lower block starts on the ground, and the higher one must reach as far to the left. -/
theorem merge_eq_right_iff_of_ground :
    let s : Skyline := ⟨#[⟨-3, 0⟩, ⟨1, 4⟩, ⟨6, 0⟩]⟩
    let t : Skyline := ⟨#[⟨1, 4⟩, ⟨2, 7⟩, ⟨6, 0⟩]⟩
    let u : Skyline := ⟨#[⟨-3, 0⟩, ⟨1, 4⟩, ⟨2, 7⟩, ⟨6, 0⟩]⟩
    s.merge t ≠ t ∧ s.merge u = u := by
  intro s t u
  constructor
  · rw [ne_eq, merge_eq_right_iff s t (by decide) (by decide)]
    rintro (hempty | ⟨hstart, -⟩)
    · exact absurd hempty (by decide)
    · exact absurd hstart (by decide)
  · refine (merge_eq_right_iff s u (by decide) (by decide)).2 (.inr ⟨by decide, ?_⟩)
    intro x
    rw [heightAt_eq_heightFrom (by decide), heightAt_eq_heightFrom (by decide)]
    simp only [s, u, heightFrom]
    split_ifs <;> grind

end Skyline

end Cityscape
