/-
**Lists that describe buildings.**

A list of key points describes buildings if it has their height at every coordinate
(`Cityscape.Describes`).  Many lists do, because a list may repeat a height, and may have several
points at one coordinate of which only the last one counts.  The contour is part of all of them, so
it is the shortest one, and the only one of its length.

The other way round, a list of key points tells where buildings of this contour could stand: under
each point above the ground one block that reaches to the next point (`Cityscape.blocks`).  If the
list is a contour, its blocks are valid buildings sorted by their left edges, and the list
describes them.  Hence the lists that sessions answer with are exactly those that pass as skylines
and do not start on the ground.

Main definitions:

* `Cityscape.Describes` — a list has the height of some buildings everywhere;
* `Cityscape.blocks` — **the blocks under a list of key points**.

Main results:

* `Cityscape.Describes.contour_sublist` — **the contour is part of every list that describes the
  buildings**;
* `Cityscape.contour_blocks` — **a contour is that of its blocks**;
* `Cityscape.Session.answer_is_shortest` — a session answers with the shortest list;
* `Cityscape.Session.accepted_points_are_answers` — **sessions answer with the lists that pass as
  skylines** and start above the ground, and with no others.
-/

import Cityscape.Proofs.Canonicity
import Cityscape.Proofs.Independence

set_option relaxedAutoImplicit false
set_option autoImplicit false

namespace Cityscape

/-! ### Lists that describe given buildings -/

/-- The list has the height of the buildings at every coordinate.  Its coordinates do not decrease,
but they may repeat. -/
structure Describes (ps : List KeyPoint) (bs : List Building) : Prop where
  /-- Coordinates do not decrease. -/
  ordered : ps.Pairwise (·.x ≤ ·.x)
  /-- The heights are those of the buildings. -/
  height_eq : ∀ x, stepHeight ps x = unionHeight bs x

theorem IsContour.describes {ps : List KeyPoint} {bs : List Building} (hp : IsContour ps)
    (h : ∀ x, heightFrom 0 ps x = unionHeight bs x) : Describes ps bs := by
  have hordered : ps.Pairwise (·.x ≤ ·.x) := hp.ascending.imp Int64.le_of_lt
  refine ⟨hordered, ?_⟩
  intro x
  rw [stepHeight_eq_heightFrom hordered, h]

/-- The contour describes its buildings. -/
theorem describes_contour {bs : List Building} (h : ∀ b ∈ bs, b.IsValid) :
    Describes (contour bs) bs := (isContour_contour h).describes (heightFrom_contour bs)

/-- **The contour is part of every list that describes the buildings.** -/
theorem Describes.contour_sublist {ps : List KeyPoint} {bs : List Building} (hp : Describes ps bs)
    (h : ∀ b ∈ bs, b.IsValid) : (contour bs).Sublist ps := by
  have hcontour := isContour_contour h
  refine sublist_of_heightFrom_eq hcontour.ascending hcontour.changing hp.ordered ?_
  intro x
  rw [heightFrom_contour, ← hp.height_eq, stepHeight_eq_heightFrom hp.ordered]

/-! ### Buildings that a given list describes -/

/-- **The blocks under a list of key points**: from each point above the ground to the next point
one building of its height. -/
def blocks : List KeyPoint → List Building
  | p :: q :: ps =>
      if 0 < p.height then ⟨p.x, q.x, p.height⟩ :: blocks (q :: ps) else blocks (q :: ps)
  | _ => []

/-- Every block starts at a point of the list. -/
theorem map_left_blocks_sublist (ps : List KeyPoint) :
    ((blocks ps).map (·.left)).Sublist (ps.map (·.x)) := by
  fun_induction blocks ps with
  | case1 p q ps hp ih => exact ih.cons_cons p.x
  | case2 p q ps hp ih => exact ih.cons p.x
  | case3 => exact List.nil_sublist _

theorem pairwise_blocks {ps : List KeyPoint} (h : Ascending ps) :
    (blocks ps).Pairwise (·.left ≤ ·.left) := by
  have hxs : (ps.map (·.x)).Pairwise (· < ·) := List.pairwise_map.2 h
  have hlefts := List.pairwise_map.1 (hxs.sublist (map_left_blocks_sublist ps))
  exact hlefts.imp Int64.le_of_lt

theorem isValid_of_mem_blocks {ps : List KeyPoint} (h : Ascending ps) :
    ∀ b ∈ blocks ps, b.IsValid := by
  fun_induction blocks ps with
  | case1 p q ps hp ih =>
      obtain ⟨hpq, hq⟩ := ascending_cons_cons.1 h
      exact List.forall_mem_cons.2 ⟨⟨hpq, hp⟩, ih hq⟩
  | case2 p q ps hp ih => exact ih (ascending_cons_cons.1 h).2
  | case3 => simp

/-- **The list describes its blocks**, if it is never below the ground and ends on it. -/
theorem unionHeight_blocks {p : KeyPoint} {ps : List KeyPoint} (hasc : Ascending (p :: ps))
    (hnonneg : ∀ q ∈ p :: ps, 0 ≤ q.height) (hend : endHeight p.height ps = 0) (x : Int64) :
    unionHeight (blocks (p :: ps)) x = heightFrom 0 (p :: ps) x := by
  induction ps generalizing p with
  | nil =>
      rw [endHeight_nil] at hend
      simp [blocks, heightFrom, hend]
  | cons q ps ih =>
      obtain ⟨hpq, hq⟩ := ascending_cons_cons.1 hasc
      obtain ⟨hp, hnonneg⟩ := List.forall_mem_cons.1 hnonneg
      have htail := ih hq hnonneg hend
      by_cases hx : q.x ≤ x
      · -- The first block has ended, and the first point does not count any more.
        have hpx : p.x ≤ x := Int64.le_trans (Int64.le_of_lt hpq) hx
        rw [heightFrom_cons_of_le hx] at htail
        rw [heightFrom_cons_of_le hpx, heightFrom_cons_of_le hx, blocks]
        split
        next => rw [unionHeight_cons, if_neg fun hcovers => Int64.not_lt.2 hx hcovers.2, htail]
        next => exact htail
      · have hx : x < q.x := Int64.not_le.1 hx
        rw [heightFrom_cons_of_lt hx] at htail
        rw [heightFrom, heightFrom_cons_of_lt hx, blocks]
        split
        next =>
          rw [unionHeight_cons, htail, max_zero hp]
          simp [Building.Covers, hx]
        next hpos =>
          have hground : p.height = 0 := Int64.le_antisymm (Int64.not_lt.1 hpos) hp
          simp [htail, hground]

/-- **A contour is that of its blocks.** -/
theorem contour_blocks {ps : List KeyPoint} (h : IsContour ps) : contour (blocks ps) = ps := by
  symm
  refine h.eq_contour (isValid_of_mem_blocks h.ascending) ?_
  intro x
  cases ps with
  | nil => rfl
  | cons p ps => exact (unionHeight_blocks h.ascending h.nonneg h.grounded x).symm

/-! ### Lists that pass as skylines -/

/-- A contour is a list that passes as a skyline and does not start on the ground. -/
theorem isContour_iff_ofPoints {points : Array KeyPoint} :
    IsContour points.toList ↔
      Skyline.ofPoints points = .ok ⟨points⟩ ∧ ∀ p ∈ points[0]?, p.height ≠ 0 := by
  rw [Skyline.ofPoints_eq_ok_iff, ← Array.getElem?_toList, ← List.head?_eq_getElem?]
  constructor
  · intro h
    refine ⟨⟨h.toWellFormed, rfl⟩, ?_⟩
    intro p hp
    exact (Int64.ne_of_lt (h.starts p hp)).symm
  · rintro ⟨⟨h, -⟩, hstart⟩
    refine ⟨h, ?_⟩
    intro p hp
    have hnonneg := h.nonneg p (List.mem_of_mem_head? hp)
    exact Int64.lt_of_le_of_ne hnonneg (hstart p hp).symm

/-! ### Answers of sessions -/

namespace Session

/-- **A session answers with the shortest list**: after any history, an admitted list of buildings
is answered, the answer describes the buildings, and every list that describes them is at least as
long.  Where it is just as long, it is the answer. -/
theorem answer_is_shortest (a : Admission) (calls : List Call) (bs : List Building)
    (h : a.check bs = .ok ()) :
    (bs.length < 2 ^ 63 → ∃ sky, (((fresh a).afterAll calls).build bs).1 = .ok sky) ∧
      ∀ sky, (((fresh a).afterAll calls).build bs).1 = .ok sky →
        Describes sky.points.toList bs ∧
          ∀ ps, Describes ps bs → sky.points.size ≤ ps.length ∧
            (ps.length = sky.points.size → ps = sky.points.toList) := by
  have hvalid := (Admission.check_eq_ok_iff.1 h).2.1
  constructor
  · intro hlen
    exact ⟨_, answers_contour hlen h calls⟩
  · intro sky hsky
    obtain ⟨-, rfl⟩ := eq_contour_of_build (balanced_afterAll (balanced_fresh a) calls) hsky
    refine ⟨describes_contour hvalid, ?_⟩
    intro ps hps
    have hsub := hps.contour_sublist hvalid
    refine ⟨hsub.length_le, ?_⟩
    intro hlen
    exact (hsub.eq_of_length hlen.symm).symm

theorem answer_is_shortest_touching :
    let bs : List Building := [⟨Int64.minValue, 2, 3⟩, ⟨2, 5, 3⟩]
    let ps : List KeyPoint := [⟨Int64.minValue, 3⟩, ⟨2, 3⟩, ⟨5, 9⟩, ⟨5, 0⟩]
    ∃ sky, (((fresh {}).afterAll [.run [⟨0, 9, 1⟩]]).build bs).1 = .ok sky ∧
      sky.points.size ≤ ps.length := by
  intro bs ps
  obtain ⟨hanswered, hshortest⟩ := answer_is_shortest {} [.run [⟨0, 9, 1⟩]] bs rfl
  obtain ⟨sky, hsky⟩ := hanswered (by decide)
  have hordered : ps.Pairwise (·.x ≤ ·.x) := by decide
  have hdescribes : Describes ps bs := by
    refine ⟨hordered, ?_⟩
    intro x
    have hleast := Int64.minValue_le x
    rw [stepHeight_eq_heightFrom hordered]
    simp only [ps, bs, heightFrom, unionHeight_cons, unionHeight_nil, Building.Covers]
    split_ifs <;> grind
  exact ⟨sky, hsky, ((hshortest sky hsky).2 ps hdescribes).1⟩

/-- **The lists that sessions answer with** are those that pass as skylines and do not start on the
ground.  Any such list is the answer to its blocks, which are admitted, in the given order, wherever
the limit allows so many; and any answer is such a list. -/
theorem accepted_points_are_answers :
    (∀ (a : Admission) (points : Array KeyPoint) (sky : Skyline),
      Skyline.ofPoints points = .ok sky → (∀ p ∈ points[0]?, p.height ≠ 0) →
      a.limit.Admits (blocks points.toList).length → (blocks points.toList).length < 2 ^ 63 →
        a.check (blocks points.toList) = .ok () ∧
          Answers a (blocks points.toList) sky ∧ sky.points = points) ∧
      ∀ (a : Admission) (calls : List Call) (bs : List Building) (sky : Skyline),
        (((fresh a).afterAll calls).build bs).1 = .ok sky →
          Skyline.ofPoints sky.points = .ok sky ∧ ∀ p ∈ sky.points[0]?, p.height ≠ 0 := by
  constructor
  · intro a points sky hpoints hstart hlimit hlen
    obtain ⟨-, rfl⟩ := Skyline.ofPoints_eq_ok_iff.1 hpoints
    have hcontour := isContour_iff_ofPoints.2 ⟨hpoints, hstart⟩
    have hcheck : a.check (blocks points.toList) = .ok () := by
      refine Admission.check_eq_ok_iff.2 ⟨hlimit, isValid_of_mem_blocks hcontour.ascending, ?_⟩
      intro _
      exact pairwise_blocks hcontour.ascending
    have hanswers := answers_contour hlen hcheck
    rw [contour_blocks hcontour] at hanswers
    exact ⟨hcheck, hanswers, rfl⟩
  · intro a calls bs sky hsky
    obtain ⟨hcheck, rfl⟩ := eq_contour_of_build (balanced_afterAll (balanced_fresh a) calls) hsky
    exact isContour_iff_ofPoints.1 (isContour_contour (Admission.check_eq_ok_iff.1 hcheck).2.1)

theorem accepted_points_are_answers_with_gap :
    let points : Array KeyPoint := #[⟨-4, 3⟩, ⟨0, 0⟩, ⟨2, 5⟩, ⟨3, 1⟩, ⟨7, 0⟩]
    Answers {} [⟨-4, 0, 3⟩, ⟨2, 3, 5⟩, ⟨3, 7, 1⟩] ⟨points⟩ ∧
      Skyline.ofPoints points = .ok ⟨points⟩ ∧ ∀ p ∈ points[0]?, p.height ≠ 0 := by
  intro points
  obtain ⟨-, hanswers, -⟩ :=
    accepted_points_are_answers.1 {} points ⟨points⟩ rfl (by decide) (by decide) (by decide)
  exact ⟨hanswers, accepted_points_are_answers.2 {} [.run [⟨0, 9, 1⟩]] _ _ (hanswers _)⟩

end Session

end Cityscape
