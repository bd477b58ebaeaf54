/-
**Merging in any order and shape.**

Instead of halving a list of buildings, their skylines can be merged two by two in any order: one
by one into a growing skyline, pairwise in rounds, or part by part where the parts were computed
apart.  Each of these ways is a binary tree with buildings at its leaves, and perhaps with empty
skylines among them.  All trees with the same buildings give the same skyline, point by point,
which is the one that a session gives for these buildings.

The proof does not look at the shape: by `Cityscape.merged_contour`, a merge of two contours is the
contour of all buildings of both, so every tree ends with the contour of its leaves
(`Cityscape.MergeTree.toList_skyline`), and the contour does not depend on their order.

* `Cityscape.MergeTree`, `Cityscape.MergeTree.skyline` — a tree of merges, and **the skyline that
  it evaluates to**;
* `Cityscape.Session.answers_merge_tree` — **a session gives the skyline of every tree** with the
  same buildings.
-/

import Cityscape.Proofs.Canonicity

set_option relaxedAutoImplicit false
set_option autoImplicit false

namespace Cityscape

/-- A way to merge the skylines of some buildings: the empty skyline, that of one building, or the
merge of two. -/
inductive MergeTree where
  | empty
  | single (b : Building)
  | merge (left right : MergeTree)

namespace MergeTree

/-- The buildings at the leaves, from left to right. -/
def buildings : MergeTree → List Building
  | empty => []
  | single b => [b]
  | merge left right => left.buildings ++ right.buildings

/-- **The skyline that the tree evaluates to.** -/
def skyline : MergeTree → Skyline
  | empty => .empty
  | single b => .ofBuilding b
  | merge left right => left.skyline.merge right.skyline

/-- **A tree evaluates to the contour of its leaves.** -/
theorem toList_skyline (t : MergeTree) (h : ∀ b ∈ t.buildings, b.IsValid) :
    t.skyline.points.toList = contour t.buildings := by
  induction t with
  | empty => rfl
  | single b => exact Skyline.toList_ofBuilding (h b List.mem_cons_self)
  | merge left right ihl ihr =>
      obtain ⟨hl, hr⟩ := List.forall_mem_append.1 h
      rw [skyline, Skyline.toList_merge, ihl hl, ihr hr, merged_contour hl hr, buildings]

/-! ### One building after the other -/

/-- The tree that merges buildings one by one into what a first tree evaluates to. -/
def chain (t : MergeTree) (bs : List Building) : MergeTree :=
  bs.foldl (fun t b => t.merge (.single b)) t

theorem buildings_chain (t : MergeTree) (bs : List Building) :
    (t.chain bs).buildings = t.buildings ++ bs := by
  induction bs generalizing t with
  | nil => exact (List.append_nil _).symm
  | cons b bs ih =>
      rw [chain, List.foldl_cons, ← chain, ih, buildings, buildings, List.append_assoc,
        List.singleton_append]

/-- A chain evaluates to what merging one building after the other gives. -/
theorem skyline_chain (t : MergeTree) (bs : List Building) :
    (t.chain bs).skyline = bs.foldl (fun sky b => sky.merge (.ofBuilding b)) t.skyline := by
  induction bs generalizing t with
  | nil => rfl
  | cons b bs ih =>
      rw [chain, List.foldl_cons, ← chain, ih, List.foldl_cons]
      rfl

end MergeTree

/-! ### Trees and sessions -/

namespace Session

variable {a : Admission} {bs : List Building}

theorem answers_tree {tree : MergeTree} (hvalid : ∀ b ∈ bs, b.IsValid)
    (hanswers : Answers a bs ⟨(contour bs).toArray⟩) (htree : tree.buildings.Perm bs) :
    Answers a bs tree.skyline := by
  have hleaves : ∀ b ∈ tree.buildings, b.IsValid := by
    intro b hb
    exact hvalid b (htree.mem_iff.1 hb)
  have hcontour := tree.toList_skyline hleaves
  rw [contour_perm hleaves htree] at hcontour
  rwa [Skyline.eq_mk_of_toList_eq hcontour]

/-- **A session gives the skyline of every tree of merges** over the buildings of a list: it does
not matter in which order and shape their skylines are merged.  Two such trees are the chain that
merges one building after the other into the empty skyline, and the merge of what sessions give for
two parts of the list. -/
theorem answers_merge_tree (a : Admission) (bs : List Building) (hvalid : ∀ b ∈ bs, b.IsValid)
    (hlen : bs.length < 2 ^ 63) (hordered : a.ordered = false) (hlimit : a.limit.Admits bs.length) :
    (∀ tree : MergeTree, tree.buildings.Perm bs → Answers a bs tree.skyline) ∧
      Answers a bs (bs.foldl (fun sky b => sky.merge (.ofBuilding b)) .empty) ∧
      ∀ cs ds, (cs ++ ds).Perm bs → ∃ sky₁ sky₂, Answers a cs sky₁ ∧ Answers a ds sky₂ ∧
        Answers a bs (sky₁.merge sky₂) := by
  -- Without a required order, all lists of these buildings and all parts of them are admitted.
  have hanswers : ∀ cs : List Building, (∀ c ∈ cs, c.IsValid) → cs.length ≤ bs.length →
      Answers a cs ⟨(contour cs).toArray⟩ := by
    intro cs hcs hle
    refine answers_contour (Nat.lt_of_le_of_lt hle hlen) ?_
    exact Admission.check_eq_ok_iff.2 ⟨hlimit.mono hle, hcs, by simp [hordered]⟩
  have hall := hanswers bs hvalid (Nat.le_refl _)
  refine ⟨fun tree htree => answers_tree hvalid hall htree, ?_, ?_⟩
  · have hchain : (MergeTree.empty.chain bs).buildings.Perm bs := by
      rw [MergeTree.buildings_chain]
      exact .refl bs
    have htree := answers_tree hvalid hall hchain
    rwa [MergeTree.skyline_chain] at htree
  · intro cs ds hperm
    have hparts : ∀ b ∈ cs ++ ds, b.IsValid := by
      intro b hb
      exact hvalid b (hperm.mem_iff.1 hb)
    obtain ⟨hcs, hds⟩ := List.forall_mem_append.1 hparts
    have hlength := hperm.length_eq
    rw [List.length_append] at hlength
    refine ⟨_, _, hanswers cs hcs (by omega), hanswers ds hds (by omega), ?_⟩
    have hmerge : (Skyline.merge ⟨(contour cs).toArray⟩ ⟨(contour ds).toArray⟩).points.toList =
        contour bs := by
      rw [Skyline.toList_merge, merged_contour hcs hds, contour_perm hparts hperm]
    rwa [Skyline.eq_mk_of_toList_eq hmerge]

theorem answers_merge_tree_of_three :
    let bs : List Building := [⟨5, 9, 2⟩, ⟨1, 7, 4⟩, ⟨1, 7, 4⟩]
    let tree : MergeTree := .merge (.single ⟨1, 7, 4⟩)
      (.merge .empty (.merge (.single ⟨5, 9, 2⟩) (.single ⟨1, 7, 4⟩)))
    Answers { ordered := false } bs tree.skyline := by
  intro bs tree
  exact (answers_merge_tree { ordered := false } bs (by decide) (by decide) rfl (by decide)).1 tree
    (by decide)

end Session

end Cityscape
