/-
**The contour of a list of buildings.**

The contour edge by edge is at the height of the buildings everywhere, not only at the edges,
because that height is constant between two neighbouring edges.  For valid buildings it is a contour
in the sense of `Cityscape.IsContour`, and therefore the only one at these heights.

Merging is then a statement about heights alone: the height of two lists of buildings together is
the larger of their heights, so the merge of their contours is the contour of all of them.

Main results:

* `Cityscape.heightFrom_contour`, `Cityscape.isContour_contour` — **the contour is the list at the
  heights of the buildings**;
* `Cityscape.contour_singleton`, `Cityscape.merged_contour` — the contour of one building, and **the
  contour of two lists of buildings together**;
* `Cityscape.two_le_length_contour`, `Cityscape.length_contour_le` — it has at least two points,
  and at most two for each building.
-/

import Cityscape.Proofs.Sweep

set_option relaxedAutoImplicit false
set_option autoImplicit false

namespace Cityscape

/-! ### The height of buildings -/

@[simp] theorem unionHeight_nil (x : Int64) : unionHeight [] x = 0 := rfl

theorem unionHeight_cons (b : Building) (bs : List Building) (x : Int64) :
    unionHeight (b :: bs) x =
      if b.Covers x then max b.height (unionHeight bs x) else unionHeight bs x := by
  by_cases hb : b.Covers x
  · rw [unionHeight, List.filter_cons_of_pos (by simpa using hb), if_pos hb]
    rfl
  · rw [unionHeight, List.filter_cons_of_neg (by simpa using hb), if_neg hb]
    rfl

theorem unionHeight_nonneg (bs : List Building) (x : Int64) : 0 ≤ unionHeight bs x := by
  induction bs with
  | nil => exact Int64.le_refl 0
  | cons b bs ih =>
      rw [unionHeight_cons]
      split
      next => exact Int64.le_trans ih (right_le_max ..)
      next => exact ih

theorem unionHeight_append (bs cs : List Building) (x : Int64) :
    unionHeight (bs ++ cs) x = max (unionHeight bs x) (unionHeight cs x) := by
  induction bs with
  | nil => rw [List.nil_append, unionHeight_nil, zero_max (unionHeight_nonneg cs x)]
  | cons b bs ih =>
      rw [List.cons_append, unionHeight_cons, unionHeight_cons, ih]
      split <;> grind

theorem le_unionHeight {b : Building} {bs : List Building} {x : Int64} (hb : b ∈ bs)
    (hx : b.Covers x) : b.height ≤ unionHeight bs x := by
  induction bs with
  | nil => exact absurd hb List.not_mem_nil
  | cons c bs ih =>
      rw [unionHeight_cons]
      rcases List.mem_cons.1 hb with rfl | hb
      · rw [if_pos hx]
        exact left_le_max ..
      · split
        next => exact Int64.le_trans (ih hb) (right_le_max ..)
        next => exact ih hb

/-- What is not below the ground and not below any building there is not below the height. -/
theorem unionHeight_le {bs : List Building} {x height : Int64} (hground : 0 ≤ height)
    (h : ∀ b ∈ bs, b.Covers x → b.height ≤ height) : unionHeight bs x ≤ height := by
  induction bs with
  | nil => exact hground
  | cons b bs ih =>
      rw [List.forall_mem_cons] at h
      have htail := ih h.2
      rw [unionHeight_cons]
      split
      next hb =>
        have hhead := h.1 hb
        grind
      next => exact htail

/-- The height depends only on which buildings stand on the coordinate. -/
theorem unionHeight_congr {bs : List Building} {x y : Int64}
    (h : ∀ b ∈ bs, b.Covers x ↔ b.Covers y) : unionHeight bs x = unionHeight bs y := by
  have hfilter : bs.filter (·.Covers x) = bs.filter (·.Covers y) :=
    List.filter_congr fun b hb => decide_eq_decide.2 (h b hb)
  rw [unionHeight, unionHeight, hfilter]

theorem unionHeight_eq_zero {bs : List Building} {x : Int64} (h : ∀ b ∈ bs, ¬ b.Covers x) :
    unionHeight bs x = 0 := by
  have hfilter : bs.filter (·.Covers x) = [] :=
    List.filter_eq_nil_iff.2 fun b hb => by simpa using h b hb
  rw [unionHeight, hfilter, List.foldr_nil]

/-- No building stands on the largest coordinate. -/
theorem unionHeight_maxValue (bs : List Building) : unionHeight bs Int64.maxValue = 0 :=
  unionHeight_eq_zero fun _ _ hb => Int64.not_maxValue_lt hb.2

/-! ### Edges -/

theorem mem_insertEdge {x y : Int64} {xs : List Int64} :
    y ∈ insertEdge x xs ↔ y = x ∨ y ∈ xs := by
  induction xs with
  | nil => simp [insertEdge]
  | cons z zs ih =>
      rw [insertEdge]
      split_ifs with hlt heq
      · exact List.mem_cons
      · subst heq
        simp
      · rw [List.mem_cons, List.mem_cons, ih, or_left_comm]

theorem pairwise_insertEdge {x : Int64} {xs : List Int64} (h : xs.Pairwise (· < ·)) :
    (insertEdge x xs).Pairwise (· < ·) := by
  induction xs with
  | nil => exact List.pairwise_singleton _ _
  | cons z zs ih =>
      obtain ⟨hz, hzs⟩ := List.pairwise_cons.1 h
      rw [insertEdge]
      split_ifs with hlt heq
      · refine List.pairwise_cons.2 ⟨fun y hy => ?_, h⟩
        rcases List.mem_cons.1 hy with rfl | hy
        · exact hlt
        · exact Int64.lt_trans hlt (hz y hy)
      · exact h
      · refine List.pairwise_cons.2 ⟨fun y hy => ?_, ih hzs⟩
        rcases mem_insertEdge.1 hy with rfl | hy
        · grind
        · exact hz y hy

theorem length_insertEdge_le (x : Int64) (xs : List Int64) :
    (insertEdge x xs).length ≤ xs.length + 1 := by
  induction xs with
  | nil => exact Nat.le_refl _
  | cons z zs ih =>
      rw [insertEdge]
      split_ifs <;> simp only [List.length_cons] <;> omega

theorem edges_cons (b : Building) (bs : List Building) :
    edges (b :: bs) = insertEdge b.left (insertEdge b.right (edges bs)) := rfl

theorem mem_edges {x : Int64} {bs : List Building} :
    x ∈ edges bs ↔ ∃ b ∈ bs, x = b.left ∨ x = b.right := by
  induction bs with
  | nil => simp [edges]
  | cons b bs ih =>
      rw [edges_cons, mem_insertEdge, mem_insertEdge, ih, List.exists_mem_cons_iff, or_assoc]

theorem pairwise_edges (bs : List Building) : (edges bs).Pairwise (· < ·) := by
  induction bs with
  | nil => exact List.Pairwise.nil
  | cons b bs ih => exact pairwise_insertEdge (pairwise_insertEdge ih)

theorem length_edges_le (bs : List Building) : (edges bs).length ≤ 2 * bs.length := by
  induction bs with
  | nil => exact Nat.le_refl _
  | cons b bs ih =>
      have h₁ := length_insertEdge_le b.left (insertEdge b.right (edges bs))
      have h₂ := length_insertEdge_le b.right (edges bs)
      rw [edges_cons, List.length_cons]
      omega

/-- **Between two neighbouring edges the height does not change.** -/
theorem unionHeight_eq_of_no_edge {bs : List Building} {x y : Int64} (hxy : x ≤ y)
    (h : ∀ e ∈ edges bs, e ≤ x ∨ y < e) : unionHeight bs x = unionHeight bs y := by
  -- Each building has both edges on the same side of `x` and `y`, so it stands on both or neither.
  refine unionHeight_congr fun b hb => ?_
  have hl := h b.left (mem_edges.2 ⟨b, hb, .inl rfl⟩)
  have hr := h b.right (mem_edges.2 ⟨b, hb, .inr rfl⟩)
  simp only [Building.Covers]
  constructor <;> rintro ⟨h₁, h₂⟩ <;> constructor <;> grind

/-! ### The contour -/

/-- The points of a function at increasing coordinates, between which it is constant, are at the
height of the function from the coordinate `a` on, which comes before all of them. -/
theorem heightFrom_map {f : Int64 → Int64} {a : Int64} {xs : List Int64}
    (hxs : xs.Pairwise (· < ·)) (ha : ∀ e ∈ xs, a < e)
    (hconst : ∀ x y, a ≤ x → x ≤ y → (∀ e ∈ xs, e ≤ x ∨ y < e) → f x = f y) {x : Int64}
    (hx : a ≤ x) : heightFrom (f a) (xs.map fun e => ⟨e, f e⟩) x = f x := by
  induction xs generalizing a with
  | nil => exact hconst a x (Int64.le_refl a) hx (by simp)
  | cons e es ih =>
      obtain ⟨he, hes⟩ := List.pairwise_cons.1 hxs
      have hae : a < e := ha e List.mem_cons_self
      rw [List.map_cons]
      by_cases hex : e ≤ x
      · rw [heightFrom_cons_of_le (p := ⟨e, f e⟩) hex]
        refine ih hes he (fun y z hey hyz hall => ?_) hex
        refine hconst y z (by grind) hyz (List.forall_mem_cons.2 ⟨.inl hey, hall⟩)
      · have hlt : x < e := Int64.not_le.1 hex
        rw [heightFrom_cons_of_lt (p := ⟨e, f e⟩) hlt]
        refine hconst a x (Int64.le_refl a) hx fun e' he' => .inr ?_
        rcases List.mem_cons.1 he' with rfl | he'
        · exact hlt
        · exact Int64.lt_trans hlt (he e' he')

/-- The points from which the contour is picked: every edge with its height. -/
theorem heightFrom_edges (bs : List Building) (x : Int64) :
    heightFrom 0 ((edges bs).map fun e => ⟨e, unionHeight bs e⟩) x = unionHeight bs x := by
  have hconst : ∀ x y, x ≤ y → (∀ e ∈ edges bs, e ≤ x ∨ y < e) →
      unionHeight bs x = unionHeight bs y := fun x y => unionHeight_eq_of_no_edge
  have hcovers : ∀ b ∈ bs, b.Covers x → b.left ∈ edges bs ∧ b.left ≤ x :=
    fun b hb hbx => ⟨mem_edges.2 ⟨b, hb, .inl rfl⟩, hbx.1⟩
  have hedges := pairwise_edges bs
  cases hes : edges bs with
  | nil =>
      rw [hes] at hcovers
      rw [unionHeight_eq_zero fun b hb hbx => absurd (hcovers b hb hbx).1 List.not_mem_nil]
      rfl
  | cons e es =>
      rw [hes] at hconst hcovers hedges
      obtain ⟨he, hes⟩ := List.pairwise_cons.1 hedges
      rw [List.map_cons]
      by_cases hex : e ≤ x
      · rw [heightFrom_cons_of_le (p := ⟨e, unionHeight bs e⟩) hex]
        refine heightFrom_map (f := unionHeight bs) hes he (fun y z hey hyz hall => ?_) hex
        exact hconst y z hyz (List.forall_mem_cons.2 ⟨.inl hey, hall⟩)
      · -- To the left of all edges no building stands.
        have hlt : x < e := Int64.not_le.1 hex
        rw [heightFrom_cons_of_lt (p := ⟨e, unionHeight bs e⟩) hlt, unionHeight_eq_zero]
        intro b hb hbx
        obtain ⟨hmem, hle⟩ := hcovers b hb hbx
        rcases List.mem_cons.1 hmem with heq | hmem
        · exact hex (heq ▸ hle)
        · exact hex (Int64.le_of_lt (Int64.lt_of_lt_of_le (he _ hmem) hle))

theorem ascending_edges (bs : List Building) :
    Ascending ((edges bs).map fun e => ⟨e, unionHeight bs e⟩) :=
  List.pairwise_map.2 (pairwise_edges bs)

/-- **The contour is at the height of the buildings everywhere.** -/
theorem heightFrom_contour (bs : List Building) (x : Int64) :
    heightFrom 0 (contour bs) x = unionHeight bs x := by
  rw [contour, heightFrom_changes (ascending_edges bs), heightFrom_edges]

/-- At the first edge a valid building starts. -/
theorem unionHeight_first_edge_pos {bs : List Building} (h : ∀ b ∈ bs, b.IsValid) {e : Int64}
    (he : e ∈ (edges bs).head?) : 0 < unionHeight bs e := by
  obtain ⟨es, hes⟩ := List.head?_eq_some_iff.1 he
  have hedges := pairwise_edges bs
  rw [hes] at hedges
  obtain ⟨b, hb, hbe⟩ := mem_edges.1 (hes ▸ List.mem_cons_self : e ∈ edges bs)
  obtain ⟨hwidth, hheight⟩ := h b hb
  have hle : e ≤ b.left := by
    have hleft : b.left ∈ e :: es := hes ▸ mem_edges.2 ⟨b, hb, .inl rfl⟩
    rcases List.mem_cons.1 hleft with heq | hleft
    · exact heq ▸ Int64.le_refl _
    · exact Int64.le_of_lt ((List.pairwise_cons.1 hedges).1 _ hleft)
  have heq : e = b.left := by grind
  have hcovers : b.Covers e := ⟨heq ▸ Int64.le_refl _, heq ▸ hwidth⟩
  exact Int64.lt_of_lt_of_le hheight (le_unionHeight hb hcovers)

/-- **The contour of valid buildings is a contour.** -/
theorem isContour_contour {bs : List Building} (h : ∀ b ∈ bs, b.IsValid) :
    IsContour (contour bs) where
  toWellFormed := by
    refine .of_changes (ascending_edges bs) ?_ ?_
    · intro p hp
      obtain ⟨e, -, rfl⟩ := List.mem_map.1 hp
      exact unionHeight_nonneg bs e
    · rw [← heightFrom_maxValue, heightFrom_edges, unionHeight_maxValue]
  starts := by
    intro p hp
    rw [contour, head?_changes, List.head?_map] at hp
    obtain ⟨e, he, rfl⟩ := Option.map_eq_some_iff.1 hp
    exact unionHeight_first_edge_pos h he

/-- Where there are buildings, there are edges, and the first of them is a point of the contour. -/
theorem contour_ne_nil {bs : List Building} (hne : bs ≠ []) : contour bs ≠ [] := by
  obtain ⟨b, bs, rfl⟩ := List.exists_cons_of_ne_nil hne
  have hedge : b.left ∈ edges (b :: bs) := mem_edges.2 ⟨b, List.mem_cons_self, .inl rfl⟩
  obtain ⟨e, es, hes⟩ := List.exists_cons_of_ne_nil (List.ne_nil_of_mem hedge)
  rw [contour, hes, List.map_cons, changes]
  exact List.cons_ne_nil _ _

/-- A contour at the heights of the buildings is their contour. -/
theorem IsContour.eq_contour {ps : List KeyPoint} {bs : List Building} (hp : IsContour ps)
    (h : ∀ b ∈ bs, b.IsValid) (hx : ∀ x, heightFrom 0 ps x = unionHeight bs x) :
    ps = contour bs :=
  hp.ext (isContour_contour h) fun x => by rw [hx, heightFrom_contour]

/-- The contour of one building is its rise and its fall. -/
theorem contour_singleton {b : Building} (h : b.IsValid) :
    contour [b] = [⟨b.left, b.height⟩, ⟨b.right, 0⟩] := by
  obtain ⟨hwidth, hheight⟩ := h
  -- It is enough that the two points form a contour at the height of the building.
  symm
  refine IsContour.eq_contour ⟨⟨?_, ?_, ?_, rfl⟩, ?_⟩ (by simpa using ⟨hwidth, hheight⟩) ?_
  · simpa [ascending_cons] using hwidth
  · simpa using (Int64.ne_of_lt hheight).symm
  · simpa using Int64.le_of_lt hheight
  · simpa using hheight
  · intro x
    simp only [heightFrom, unionHeight_cons, unionHeight_nil, Building.Covers]
    split_ifs <;> grind

/-- The rise and the fall of a valid building both change the height. -/
theorem changes_rise_fall {b : Building} (h : b.IsValid) :
    changes [⟨b.left, b.height⟩, ⟨b.right, 0⟩] = contour [b] := by
  rw [contour_singleton h, changes, changesFrom, if_neg (Int64.ne_of_lt h.2)]
  rfl

/-- **Merging the contours of two lists of buildings gives the contour of all of them.** -/
theorem merged_contour {bs cs : List Building} (hb : ∀ b ∈ bs, b.IsValid)
    (hc : ∀ c ∈ cs, c.IsValid) : merged (contour bs) (contour cs) = contour (bs ++ cs) := by
  have hbc := isContour_contour hb
  have hcc := isContour_contour hc
  refine (hbc.merged hcc).eq_contour (List.forall_mem_append.2 ⟨hb, hc⟩) fun x => ?_
  rw [heightFrom_merged hbc.toWellFormed hcc.toWellFormed, heightFrom_contour, heightFrom_contour,
    unionHeight_append]

/-! ### The number of points -/

/-- The contour of valid buildings has a rise and a fall. -/
theorem two_le_length_contour {bs : List Building} (hne : bs ≠ []) (h : ∀ b ∈ bs, b.IsValid) :
    2 ≤ (contour bs).length := (isContour_contour h).two_le_length (contour_ne_nil hne)

/-- **A contour has at most two points for each building.** -/
theorem length_contour_le (bs : List Building) : (contour bs).length ≤ 2 * bs.length := by
  have h := (changes_sublist ((edges bs).map fun e => ⟨e, unionHeight bs e⟩)).length_le
  rw [List.length_map] at h
  exact Nat.le_trans h (length_edges_le bs)

end Cityscape
