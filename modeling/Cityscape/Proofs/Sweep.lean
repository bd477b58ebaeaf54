/-
**What a sweep appends.**

Which points a sweep appends does not depend on the collector: they are read off the two lists alone
(`Cityscape.swept`), and the sweep hands them to the collector one by one
(`Cityscape.Collector.sweep_eq_appendAll`).  Neither what is collected already nor a point that is
not kept makes a difference, and a failure of the collector only cuts the row of appends short.
Everything about the heights of a merge is therefore said about `Cityscape.swept`, and everything
about storage about `Cityscape.Collector.appendAll`.

The two sides of a merge are treated alike.  In each step both lists are asked whether their first
point lies to the right of the other one, and if it does not, the point is consumed
(`Cityscape.swept_cons_cons`).  Neither question depends on the answer to the other, and at a common
coordinate both points are consumed.

Main definitions:

* `Cityscape.swept` — the points that a sweep appends;
* `Cityscape.merged` — those of them that change the height.

Main results:

* `Cityscape.Collector.merge_eq_appendAll` — **a merge appends these points, whatever the
  collector**;
* `Cityscape.heightFrom_swept` — they are at the larger of the two heights everywhere;
* `Cityscape.WellFormed.merged`, `Cityscape.IsContour.merged`, `Cityscape.heightFrom_merged` — **the
  merge of two well-formed lists, or contours, is one again, at the larger of the two heights**;
* `Cityscape.swept_swap` — **the sweep is the same from both sides**, also of lists that are not
  sorted;
* `Cityscape.Collector.merge_symmetric` — **a merge is a row of appends, the same from both sides**.
-/

import Cityscape.Proofs.WellFormed

set_option relaxedAutoImplicit false
set_option autoImplicit false

namespace Cityscape

/-! ### The points of a sweep -/

/-- The points that a sweep appends, where the two lists are at heights `h₁` and `h₂` before their
first points. -/
def swept (h₁ h₂ : Int64) : List KeyPoint → List KeyPoint → List KeyPoint
  | p :: ps, q :: qs =>
      if p.x < q.x then ⟨p.x, max p.height h₂⟩ :: swept p.height h₂ ps (q :: qs)
      else if q.x < p.x then ⟨q.x, max h₁ q.height⟩ :: swept h₁ q.height (p :: ps) qs
      else ⟨p.x, max p.height q.height⟩ :: swept p.height q.height ps qs
  | ps, [] => ps
  | [], qs => qs
termination_by ps qs => ps.length + qs.length

/-- The merge of two lists: the points of the sweep that change the height. -/
def merged (ps qs : List KeyPoint) : List KeyPoint := changes (swept 0 0 ps qs)

@[simp] theorem swept_nil_right (h₁ h₂ : Int64) (ps : List KeyPoint) : swept h₁ h₂ ps [] = ps := by
  cases ps <;> simp [swept]

@[simp] theorem swept_nil_left (h₁ h₂ : Int64) (qs : List KeyPoint) : swept h₁ h₂ [] qs = qs := by
  cases qs <;> simp [swept]

namespace Collector

variable {σ ε : Type} (c : Collector σ ε)

theorem appendAll_nil : c.appendAll [] = pure () := rfl

theorem appendAll_cons (p : KeyPoint) (ps : List KeyPoint) :
    c.appendAll (p :: ps) = (do c.append p.x p.height; c.appendAll ps) := List.forM_cons

/-- The rise and the fall of a building are two appends. -/
theorem project_eq_appendAll (b : Building) :
    c.project b = c.appendAll [⟨b.left, b.height⟩, ⟨b.right, 0⟩] := by
  rw [appendAll_cons, appendAll_cons, appendAll_nil, bind_pure_unit, project]

/-- A sweep hands its points to the collector one by one. -/
theorem sweep_eq_appendAll (h₁ h₂ : Int64) (ps qs : List KeyPoint) :
    c.sweep h₁ h₂ ps qs = c.appendAll (swept h₁ h₂ ps qs) := by
  fun_induction swept h₁ h₂ ps qs with
  | case1 h₁ h₂ p ps q qs hlt ih => rw [sweep, if_pos hlt, ih, appendAll_cons]
  | case2 h₁ h₂ p ps q qs hlt hgt ih => rw [sweep, if_neg hlt, if_pos hgt, ih, appendAll_cons]
  | case3 h₁ h₂ p ps q qs hlt hgt ih => rw [sweep, if_neg hlt, if_neg hgt, ih, appendAll_cons]
  | case4 => rw [sweep]
  | case5 => rw [sweep]; assumption

/-- **A merge appends the points of the sweep, whatever the collector.** -/
theorem merge_eq_appendAll (ps qs : List KeyPoint) :
    c.merge ps qs = c.appendAll (swept 0 0 ps qs) := c.sweep_eq_appendAll 0 0 ps qs

end Collector

/-! ### Coordinates and heights of a sweep -/

/-- What lies to the left of both lists lies to the left of the sweep. -/
theorem forall_swept_lt {x h₁ h₂ : Int64} {ps qs : List KeyPoint} (hp : ∀ p ∈ ps, x < p.x)
    (hq : ∀ q ∈ qs, x < q.x) : ∀ r ∈ swept h₁ h₂ ps qs, x < r.x := by
  fun_induction swept h₁ h₂ ps qs with
  | case1 h₁ h₂ p ps q qs hlt ih =>
      rw [List.forall_mem_cons] at hp
      exact List.forall_mem_cons.2 ⟨hp.1, ih hp.2 hq⟩
  | case2 h₁ h₂ p ps q qs hlt hgt ih =>
      rw [List.forall_mem_cons] at hq
      exact List.forall_mem_cons.2 ⟨hq.1, ih hp hq.2⟩
  | case3 h₁ h₂ p ps q qs hlt hgt ih =>
      rw [List.forall_mem_cons] at hp hq
      exact List.forall_mem_cons.2 ⟨hp.1, ih hp.2 hq.2⟩
  | case4 => exact hp
  | case5 => exact hq

theorem ascending_swept {h₁ h₂ : Int64} {ps qs : List KeyPoint} (hp : Ascending ps)
    (hq : Ascending qs) : Ascending (swept h₁ h₂ ps qs) := by
  fun_induction swept h₁ h₂ ps qs with
  | case1 h₁ h₂ p ps q qs hlt ih =>
      obtain ⟨hpx, hps⟩ := ascending_cons.1 hp
      refine ascending_cons.2 ⟨forall_swept_lt hpx ?_, ih hps hq⟩
      exact List.forall_mem_cons.2
        ⟨hlt, fun r hr => Int64.lt_trans hlt ((ascending_cons.1 hq).1 r hr)⟩
  | case2 h₁ h₂ p ps q qs hlt hgt ih =>
      obtain ⟨hqx, hqs⟩ := ascending_cons.1 hq
      refine ascending_cons.2 ⟨forall_swept_lt ?_ hqx, ih hp hqs⟩
      exact List.forall_mem_cons.2
        ⟨hgt, fun r hr => Int64.lt_trans hgt ((ascending_cons.1 hp).1 r hr)⟩
  | case3 h₁ h₂ p ps q qs hlt hgt ih =>
      obtain ⟨hpx, hps⟩ := ascending_cons.1 hp
      obtain ⟨hqx, hqs⟩ := ascending_cons.1 hq
      have hx : p.x = q.x := Int64.le_antisymm (Int64.not_lt.1 hgt) (Int64.not_lt.1 hlt)
      exact ascending_cons.2 ⟨forall_swept_lt hpx (hx ▸ hqx), ih hps hqs⟩
  | case4 => exact hp
  | case5 => exact hq

theorem nonneg_swept {h₁ h₂ : Int64} {ps qs : List KeyPoint} (hp : ∀ p ∈ ps, 0 ≤ p.height)
    (hq : ∀ q ∈ qs, 0 ≤ q.height) : ∀ r ∈ swept h₁ h₂ ps qs, 0 ≤ r.height := by
  fun_induction swept h₁ h₂ ps qs with
  | case1 h₁ h₂ p ps q qs hlt ih =>
      rw [List.forall_mem_cons] at hp
      exact List.forall_mem_cons.2 ⟨Int64.le_trans hp.1 (left_le_max ..), ih hp.2 hq⟩
  | case2 h₁ h₂ p ps q qs hlt hgt ih =>
      rw [List.forall_mem_cons] at hq
      exact List.forall_mem_cons.2 ⟨Int64.le_trans hq.1 (right_le_max ..), ih hp hq.2⟩
  | case3 h₁ h₂ p ps q qs hlt hgt ih =>
      rw [List.forall_mem_cons] at hp hq
      exact List.forall_mem_cons.2 ⟨Int64.le_trans hp.1 (left_le_max ..), ih hp.2 hq.2⟩
  | case4 => exact hp
  | case5 => exact hq

/-- **A sweep is at the larger of the two heights everywhere**, provided that both lists are never
below the ground and end on it.  The latter is needed for the points that are left on one list when
the other is used up: they are appended as they are. -/
theorem heightFrom_swept {h₁ h₂ : Int64} {ps qs : List KeyPoint} (hh₁ : 0 ≤ h₁) (hh₂ : 0 ≤ h₂)
    (hp : ∀ p ∈ ps, 0 ≤ p.height) (hq : ∀ q ∈ qs, 0 ≤ q.height) (hpe : endHeight h₁ ps = 0)
    (hqe : endHeight h₂ qs = 0) (x : Int64) :
    heightFrom (max h₁ h₂) (swept h₁ h₂ ps qs) x =
      max (heightFrom h₁ ps x) (heightFrom h₂ qs x) := by
  fun_induction swept h₁ h₂ ps qs with
  | case1 h₁ h₂ p ps q qs hlt ih =>
      rw [List.forall_mem_cons] at hp
      by_cases hx : p.x ≤ x
      · rw [heightFrom_cons_of_le (p := ⟨p.x, max p.height h₂⟩) hx, heightFrom_cons_of_le hx]
        exact ih hp.1 hh₂ hp.2 hq hpe hqe
      · have hx : x < p.x := Int64.not_le.1 hx
        rw [heightFrom_cons_of_lt (p := ⟨p.x, max p.height h₂⟩) hx, heightFrom_cons_of_lt hx,
          heightFrom_cons_of_lt (Int64.lt_trans hx hlt)]
  | case2 h₁ h₂ p ps q qs hlt hgt ih =>
      rw [List.forall_mem_cons] at hq
      by_cases hx : q.x ≤ x
      · rw [heightFrom_cons_of_le (p := ⟨q.x, max h₁ q.height⟩) hx, heightFrom_cons_of_le hx]
        exact ih hh₁ hq.1 hp hq.2 hpe hqe
      · have hx : x < q.x := Int64.not_le.1 hx
        rw [heightFrom_cons_of_lt (p := ⟨q.x, max h₁ q.height⟩) hx, heightFrom_cons_of_lt hx,
          heightFrom_cons_of_lt (Int64.lt_trans hx hgt)]
  | case3 h₁ h₂ p ps q qs hlt hgt ih =>
      rw [List.forall_mem_cons] at hp hq
      have hpq : p.x = q.x := Int64.le_antisymm (Int64.not_lt.1 hgt) (Int64.not_lt.1 hlt)
      by_cases hx : p.x ≤ x
      · rw [heightFrom_cons_of_le (p := ⟨p.x, max p.height q.height⟩) hx,
          heightFrom_cons_of_le hx, heightFrom_cons_of_le (hpq ▸ hx)]
        exact ih hp.1 hq.1 hp.2 hq.2 hpe hqe
      · have hx : x < p.x := Int64.not_le.1 hx
        rw [heightFrom_cons_of_lt (p := ⟨p.x, max p.height q.height⟩) hx,
          heightFrom_cons_of_lt hx, heightFrom_cons_of_lt (hpq ▸ hx)]
  | case4 h₁ h₂ ps =>
      -- The second list has come down to the ground, so the first one decides by itself.
      obtain rfl : h₂ = 0 := hqe
      rw [max_zero hh₁, heightFrom_nil, max_zero (heightFrom_nonneg hh₁ hp x)]
  | case5 h₁ h₂ qs =>
      obtain rfl : h₁ = 0 := hpe
      rw [zero_max hh₂, heightFrom_nil, zero_max (heightFrom_nonneg hh₂ hq x)]

/-- A sweep over lists that start above the ground starts above the ground. -/
theorem swept_starts {ps qs : List KeyPoint} (hp : ∀ p ∈ ps.head?, 0 < p.height)
    (hq : ∀ q ∈ qs.head?, 0 < q.height) : ∀ r ∈ (swept 0 0 ps qs).head?, 0 < r.height := by
  cases ps with
  | nil => rw [swept_nil_left]; exact hq
  | cons p ps =>
      cases qs with
      | nil => rw [swept_nil_right]; exact hp
      | cons q qs =>
          have hp : 0 < p.height := hp p rfl
          have hq : 0 < q.height := hq q rfl
          rw [swept]
          split_ifs <;> simp only [List.head?_cons, Option.mem_some_iff, forall_eq'] <;> grind

/-! ### The merge of two lists -/

theorem heightFrom_merged {ps qs : List KeyPoint} (hp : WellFormed ps) (hq : WellFormed qs)
    (x : Int64) : heightFrom 0 (merged ps qs) x = max (heightFrom 0 ps x) (heightFrom 0 qs x) := by
  rw [merged, heightFrom_changes (ascending_swept hp.ascending hq.ascending)]
  exact heightFrom_swept (Int64.le_refl 0) (Int64.le_refl 0) hp.nonneg hq.nonneg hp.grounded
    hq.grounded x

theorem endHeight_swept {ps qs : List KeyPoint} (hp : WellFormed ps) (hq : WellFormed qs) :
    endHeight 0 (swept 0 0 ps qs) = 0 := by
  have h := heightFrom_swept (Int64.le_refl 0) (Int64.le_refl 0) hp.nonneg hq.nonneg hp.grounded
    hq.grounded Int64.maxValue
  rw [heightFrom_maxValue, heightFrom_maxValue, heightFrom_maxValue, hp.grounded, hq.grounded] at h
  exact h

/-- **The merge of two well-formed lists is well-formed.** -/
theorem WellFormed.merged {ps qs : List KeyPoint} (hp : WellFormed ps) (hq : WellFormed qs) :
    WellFormed (merged ps qs) :=
  .of_changes (ascending_swept hp.ascending hq.ascending) (nonneg_swept hp.nonneg hq.nonneg)
    (endHeight_swept hp hq)

/-- **The merge of two contours is a contour.** -/
theorem IsContour.merged {ps qs : List KeyPoint} (hp : IsContour ps) (hq : IsContour qs) :
    IsContour (merged ps qs) where
  toWellFormed := hp.toWellFormed.merged hq.toWellFormed
  starts := by
    rw [Cityscape.merged, head?_changes]
    exact swept_starts hp.starts hq.starts

/-! ### The points of a sweep from both sides -/

/-- **One step of the sweep.**  A list whose first point does not lie to the right of the other's
gives up this point and takes on its height; then the larger height is appended at the coordinate
of the points given up. -/
theorem swept_cons_cons (h₁ h₂ : Int64) (p q : KeyPoint) (ps qs : List KeyPoint) :
    swept h₁ h₂ (p :: ps) (q :: qs) =
      (let g₁ := if p.x ≤ q.x then p.height else h₁
      let g₂ := if q.x ≤ p.x then q.height else h₂
      ⟨if q.x ≤ p.x then q.x else p.x, max g₁ g₂⟩ ::
        swept g₁ g₂ (if p.x ≤ q.x then ps else p :: ps) (if q.x ≤ p.x then qs else q :: qs)) := by
  rw [swept]
  rcases Int64.lt_or_le p.x q.x with hlt | hle
  · simp [hlt, Int64.le_of_lt hlt, Int64.not_le.2 hlt]
  · rcases Int64.lt_or_eq_of_le hle with hlt | heq
    · simp [hlt, hle, Int64.not_le.2 hlt, Int64.not_lt.2 hle]
    · simp [heq]

/-- **The sweep is the same from both sides**, whatever the lists: the two questions of a step
change places. -/
theorem swept_swap (h₁ h₂ : Int64) (ps qs : List KeyPoint) :
    swept h₁ h₂ ps qs = swept h₂ h₁ qs ps := by
  induction hn : ps.length + qs.length using Nat.strongRecOn generalizing h₁ h₂ ps qs with
  | _ n ih =>
      cases ps with
      | nil => rw [swept_nil_left, swept_nil_right]
      | cons p ps =>
          cases qs with
          | nil => rw [swept_nil_left, swept_nil_right]
          | cons q qs =>
              have hx : (if q.x ≤ p.x then q.x else p.x) = if p.x ≤ q.x then p.x else q.x := by
                grind
              -- At least one of the lists gives up a point.
              have hshorter : (if p.x ≤ q.x then ps else p :: ps).length +
                  (if q.x ≤ p.x then qs else q :: qs).length < n := by
                rw [← hn]
                rcases Int64.le_total p.x q.x with hle | hle <;> grind
              rw [swept_cons_cons, swept_cons_cons]
              dsimp only
              rw [hx, max_swap, ih _ hshorter _ _ _ _ rfl]

/-- Every point of the first list has a place of its own in the sweep. -/
theorem length_le_length_swept (h₁ h₂ : Int64) (ps qs : List KeyPoint) :
    ps.length ≤ (swept h₁ h₂ ps qs).length := by
  fun_induction swept h₁ h₂ ps qs with
  | case1 h₁ h₂ p ps q qs hlt ih => simpa using ih
  | case2 h₁ h₂ p ps q qs hlt hgt ih => exact Nat.le_succ_of_le ih
  | case3 h₁ h₂ p ps q qs hlt hgt ih => simpa using ih
  | case4 h₁ h₂ ps => exact Nat.le_refl _
  | case5 h₁ h₂ qs => exact Nat.zero_le _

theorem max_length_le_length_swept (h₁ h₂ : Int64) (ps qs : List KeyPoint) :
    max ps.length qs.length ≤ (swept h₁ h₂ ps qs).length := by
  refine Nat.max_le.2 ⟨length_le_length_swept h₁ h₂ ps qs, ?_⟩
  rw [swept_swap]
  exact length_le_length_swept h₂ h₁ qs ps

/-- Every point of the sweep consumes a point of one of the lists. -/
theorem length_swept_le (h₁ h₂ : Int64) (ps qs : List KeyPoint) :
    (swept h₁ h₂ ps qs).length ≤ ps.length + qs.length := by
  fun_induction swept h₁ h₂ ps qs <;> simp only [List.length_cons, List.length_nil] at * <;> omega

/-! ### Merges into any collector -/

/-- **A merge is a row of appends, the same from both sides.**  The appends depend on the two lists
alone.  There are at least as many as the longer list has points and at most as many as both have
together.  On every collector, from every store, merging the lists in either order is making these
appends up to the first failure, with the same result and the same store. -/
theorem Collector.merge_symmetric (left right : List KeyPoint) :
    ∃ appends : List KeyPoint,
      max left.length right.length ≤ appends.length ∧
      appends.length ≤ left.length + right.length ∧
      ∀ (σ ε : Type) (c : Collector σ ε) (s : σ),
        (c.merge left right).run.run s = (c.appendAll appends).run.run s ∧
        (c.merge right left).run.run s = (c.appendAll appends).run.run s := by
  refine ⟨swept 0 0 left right, max_length_le_length_swept .., length_swept_le .., ?_⟩
  intro σ ε c s
  constructor
  · rw [merge_eq_appendAll]
  · rw [merge_eq_appendAll, swept_swap]

/-- What becomes of the appends is up to the collector.  One that shows no last point keeps all of
them, one that brings its own append turns them upside down, and a bounded one keeps the changes of
height for which it has room. -/
example :
    let left : List KeyPoint := [⟨0, 5⟩, ⟨4, 0⟩]
    let right : List KeyPoint := [⟨4, 5⟩, ⟨8, 0⟩]
    ((Collector.forgetful.merge left right).run.run #[]).2 = #[⟨0, 5⟩, ⟨4, 5⟩, ⟨8, 0⟩] ∧
      ((Collector.reflected.merge right left).run.run #[]).2 = #[⟨0, -5⟩, ⟨4, -5⟩, ⟨8, 0⟩] ∧
      (((Collector.bounded 2).merge left right).run.run #[]).2 = #[⟨0, 5⟩, ⟨8, 0⟩] ∧
      (((Collector.bounded 1).merge right left).run.run #[]).1 = .error .full := by
  decide +kernel

end Cityscape
