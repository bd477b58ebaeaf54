/-
**The coordinates of a merge.**

Nothing but increasing coordinates is asked of two lists here.  Their heights may be negative, they
may repeat, and the lists need not end on the ground; so a merge need not be at the larger of the
two heights, since what is left of one list when the other is used up is appended as it is.

Still a merge appends exactly one point for each coordinate at which one of the lists has a point,
from left to right (`Cityscape.map_x_swept`): a step takes the leftmost point that is left, and
with it the point of the other list at the same coordinate, if there is one.  It follows where the
merge starts and ends.  The last point is that of the list which reaches further to the right,
because the other list has been used up before; and where both end at one coordinate it is the
higher one, because both are used up in one step (`Cityscape.getLast?_swept`).

Main definitions:

* `Cityscape.coordinates` — **the coordinates of a list of points**, sorted and each only once;
* `Cityscape.KeyPoint.later` — which of two last points is the last one of a merge.

Main results:

* `Cityscape.map_x_swept` — **a sweep has one point for each coordinate** of the two lists;
* `Cityscape.getLast?_swept` — the last point of a sweep;
* `Cityscape.Collector.merge_visits_coordinates` — what this means for merges into any collector,
  and into an empty skyline.
-/

import Cityscape.Proofs.Merging
import Mathlib.Data.List.Sort

set_option relaxedAutoImplicit false
set_option autoImplicit false

namespace Cityscape

/-! ### The coordinates of a list -/

/-- **The coordinates of a list of points**, from left to right and each only once. -/
def coordinates (ps : List KeyPoint) : List Int64 := ps.foldr (fun p xs => insertEdge p.x xs) []

theorem coordinates_cons (p : KeyPoint) (ps : List KeyPoint) :
    coordinates (p :: ps) = insertEdge p.x (coordinates ps) := rfl

theorem mem_coordinates {x : Int64} {ps : List KeyPoint} :
    x ∈ coordinates ps ↔ x ∈ ps.map (·.x) := by
  induction ps with
  | nil => exact Iff.rfl
  | cons p ps ih => rw [coordinates_cons, mem_insertEdge, ih, List.map_cons, List.mem_cons]

theorem pairwise_coordinates (ps : List KeyPoint) : (coordinates ps).Pairwise (· < ·) := by
  induction ps with
  | nil => exact List.Pairwise.nil
  | cons p ps ih => exact pairwise_insertEdge ih

/-- The first coordinate is the least one. -/
theorem head?_coordinates (ps : List KeyPoint) :
    (coordinates ps).head? = (ps.map (·.x)).min? := by
  have hsorted := pairwise_coordinates ps
  cases hxs : coordinates ps with
  | nil =>
      cases ps with
      | nil => rfl
      | cons p ps =>
          have hp : p.x ∈ coordinates (p :: ps) := mem_coordinates.2 List.mem_cons_self
          rw [hxs] at hp
          exact absurd hp List.not_mem_nil
  | cons x xs =>
      rw [hxs] at hsorted
      symm
      refine List.min?_eq_some_iff.2 ⟨mem_coordinates.1 (hxs ▸ List.mem_cons_self), ?_⟩
      intro y hy
      rw [← mem_coordinates, hxs] at hy
      rcases List.mem_cons.1 hy with rfl | hy
      · exact Int64.le_refl y
      · exact Int64.le_of_lt ((List.pairwise_cons.1 hsorted).1 y hy)

/-! ### The coordinates of a sweep -/

/-- A sweep has points where the two lists have them, and nowhere else. -/
theorem mem_map_x_swept {x h₁ h₂ : Int64} {ps qs : List KeyPoint} :
    x ∈ (swept h₁ h₂ ps qs).map (·.x) ↔ x ∈ ps.map (·.x) ∨ x ∈ qs.map (·.x) := by
  fun_induction swept h₁ h₂ ps qs with
  | case1 h₁ h₂ p ps q qs hlt ih =>
      rw [List.map_cons, List.mem_cons, ih, List.map_cons (l := ps), List.mem_cons, or_assoc]
  | case2 h₁ h₂ p ps q qs hlt hgt ih =>
      rw [List.map_cons, List.mem_cons, ih, List.map_cons (l := qs), List.mem_cons, or_left_comm]
  | case3 h₁ h₂ p ps q qs hlt hgt ih =>
      -- At a common coordinate the one point stands for a point of either list.
      have hx : p.x = q.x := Int64.le_antisymm (Int64.not_lt.1 hgt) (Int64.not_lt.1 hlt)
      rw [List.map_cons, List.mem_cons, ih, List.map_cons (l := ps), List.mem_cons, List.map_cons,
        List.mem_cons, ← hx, or_or_distrib_left]
  | case4 => simp
  | case5 => simp

/-- **A sweep has one point for each coordinate** of two ascending lists, from left to right. -/
theorem map_x_swept {h₁ h₂ : Int64} {ps qs : List KeyPoint} (hp : Ascending ps)
    (hq : Ascending qs) :
    (swept h₁ h₂ ps qs).map (·.x) = coordinates (ps ++ qs) := by
  refine List.Pairwise.eq_of_mem_iff (List.pairwise_map.2 (ascending_swept hp hq))
    (pairwise_coordinates (ps ++ qs)) ?_
  intro x
  rw [mem_map_x_swept, mem_coordinates, List.map_append, List.mem_append]

/-! ### The last point of a sweep -/

/-- The point further to the right; of two points at one coordinate, a point there at the larger
height. -/
def KeyPoint.later (p q : KeyPoint) : KeyPoint :=
  if q.x < p.x then p else if p.x < q.x then q else ⟨p.x, max p.height q.height⟩

theorem KeyPoint.later_of_lt {p q : KeyPoint} (h : q.x < p.x) : p.later q = p := if_pos h

theorem KeyPoint.later_of_gt {p q : KeyPoint} (h : p.x < q.x) : p.later q = q := by
  rw [later, if_neg (Int64.not_lt.2 (Int64.le_of_lt h)), if_pos h]

theorem KeyPoint.later_of_eq {p q : KeyPoint} (h : p.x = q.x) :
    p.later q = ⟨p.x, max p.height q.height⟩ := by
  rw [later, h, if_neg Int64.lt_irrefl, if_neg Int64.lt_irrefl]

/-- The last point of an ascending list does not lie to the left of the first one. -/
theorem lt_of_mem_getLast?_cons {x : Int64} {p last : KeyPoint} {ps : List KeyPoint}
    (h : Ascending (p :: ps)) (hx : x < p.x) (hlast : last ∈ (p :: ps).getLast?) : x < last.x := by
  rcases List.mem_cons.1 (List.mem_of_mem_getLast? hlast) with rfl | hmem
  · exact hx
  · exact Int64.lt_trans hx ((ascending_cons.1 h).1 last hmem)

/-- **The last point of a sweep** is the last point of the list that reaches further to the right,
and where both end at one coordinate, the higher one. -/
theorem getLast?_swept {h₁ h₂ : Int64} {ps qs : List KeyPoint} (hp : Ascending ps)
    (hq : Ascending qs) :
    (swept h₁ h₂ ps qs).getLast? = Option.merge KeyPoint.later ps.getLast? qs.getLast? := by
  fun_induction swept h₁ h₂ ps qs with
  | case1 h₁ h₂ p ps q qs hlt ih =>
      obtain ⟨b, hb⟩ : ∃ b, (q :: qs).getLast? = some b := ⟨_, List.getLast?_cons⟩
      have hpb : p.x < b.x := lt_of_mem_getLast?_cons hq hlt hb
      rw [List.getLast?_cons, ih (ascending_cons.1 hp).2 hq, hb, List.getLast?_cons (l := ps)]
      cases ps.getLast? with
      | none => exact congrArg some (KeyPoint.later_of_gt hpb).symm
      | some a => rfl
  | case2 h₁ h₂ p ps q qs hlt hgt ih =>
      obtain ⟨a, ha⟩ : ∃ a, (p :: ps).getLast? = some a := ⟨_, List.getLast?_cons⟩
      have hqa : q.x < a.x := lt_of_mem_getLast?_cons hp hgt ha
      rw [List.getLast?_cons, ih hp (ascending_cons.1 hq).2, ha, List.getLast?_cons (l := qs)]
      cases qs.getLast? with
      | none => exact congrArg some (KeyPoint.later_of_lt hqa).symm
      | some b => rfl
  | case3 h₁ h₂ p ps q qs hlt hgt ih =>
      have hx : p.x = q.x := Int64.le_antisymm (Int64.not_lt.1 hgt) (Int64.not_lt.1 hlt)
      obtain ⟨hpx, hps⟩ := ascending_cons.1 hp
      obtain ⟨hqx, hqs⟩ := ascending_cons.1 hq
      rw [List.getLast?_cons, ih hps hqs, List.getLast?_cons (l := ps),
        List.getLast?_cons (l := qs)]
      -- The common coordinate is the last one exactly if both lists end there.
      cases ha : ps.getLast? with
      | none =>
          cases hb : qs.getLast? with
          | none => exact congrArg some (KeyPoint.later_of_eq hx).symm
          | some b =>
              have hpb : p.x < b.x := hx ▸ hqx b (List.mem_of_mem_getLast? hb)
              exact congrArg some (KeyPoint.later_of_gt hpb).symm
      | some a =>
          cases hb : qs.getLast? with
          | none =>
              have hqa : q.x < a.x := hx ▸ hpx a (List.mem_of_mem_getLast? ha)
              exact congrArg some (KeyPoint.later_of_lt hqa).symm
          | some b => rfl
  | case4 => simp
  | case5 => simp

/-! ### The last height that is kept -/

theorem map_height_getLast?_cons (p : KeyPoint) (ps : List KeyPoint) :
    (p :: ps).getLast?.map (·.height) = some (endHeight p.height ps) := by
  rw [List.getLast?_cons, endHeight_eq_getLast?]
  cases ps.getLast? <;> rfl

/-- The changes of a list end at its last height. -/
theorem map_height_getLast?_changes (ps : List KeyPoint) :
    (changes ps).getLast?.map (·.height) = ps.getLast?.map (·.height) := by
  cases ps with
  | nil => rfl
  | cons p ps =>
      rw [changes, map_height_getLast?_cons, map_height_getLast?_cons, endHeight_changesFrom]

/-! ### Merges into any collector -/

/-- **A merge appends exactly one point for each coordinate** of two ascending lists, whatever
their heights, from left to right and whatever the collector.  Merged into an empty skyline, the
points kept have increasing coordinates and differ from their neighbours in height; the first one
stands at the least coordinate, and the last one is at the height of the later of the two last
points. -/
theorem Collector.merge_visits_coordinates (left right : List KeyPoint)
    (hl : left.Pairwise (·.x < ·.x)) (hr : right.Pairwise (·.x < ·.x)) :
    (∃ appends : List KeyPoint, appends.map (·.x) = coordinates (left ++ right) ∧
      ∀ (σ ε : Type) (c : Collector σ ε), c.merge left right = c.appendAll appends) ∧
      let points := (Skyline.empty.after (Skyline.collector.merge left right)).points
      points.toList.Pairwise (·.x < ·.x) ∧ (points.toList.map (·.height)).IsChain (· ≠ ·) ∧
        points[0]?.map (·.x) = ((left ++ right).map (·.x)).min? ∧
        points.back?.map (·.height) =
          (Option.merge KeyPoint.later left.getLast? right.getLast?).map (·.height) := by
  have hxs : (swept 0 0 left right).map (·.x) = coordinates (left ++ right) := map_x_swept hl hr
  refine ⟨⟨swept 0 0 left right, hxs, ?_⟩, ?_⟩
  · intro σ ε c
    exact c.merge_eq_appendAll left right
  · intro points
    have hpoints : points.toList = changes (swept 0 0 left right) :=
      Skyline.toList_after_merge_empty left right
    rw [← Array.getElem?_toList, ← Array.getLast?_toList, ← List.head?_eq_getElem?, hpoints]
    refine ⟨ascending_changes (ascending_swept hl hr), differing_changes _, ?_, ?_⟩
    · rw [head?_changes, ← List.head?_map, hxs, head?_coordinates]
    · rw [map_height_getLast?_changes, getLast?_swept hl hr]

/-- Neither list ends on the ground, and one is below it throughout. -/
theorem Collector.merge_visits_coordinates_off_ground :
    let left : List KeyPoint := [⟨-5, 3⟩, ⟨2, 3⟩, ⟨4, 7⟩]
    let right : List KeyPoint := [⟨2, -1⟩, ⟨4, -2⟩, ⟨9, -2⟩]
    (∃ appends : List KeyPoint, appends.map (·.x) = [-5, 2, 4, 9] ∧
      ∀ (σ ε : Type) (c : Collector σ ε), c.merge left right = c.appendAll appends) ∧
      (Skyline.empty.after (Skyline.collector.merge left right)).points.back?.map (·.height) =
        some (-2) := by
  intro left right
  obtain ⟨happends, -, -, -, hlast⟩ := merge_visits_coordinates left right (by decide) (by decide)
  exact ⟨happends, hlast⟩

end Cityscape
