/-
**The tree behind a plan.**

A plan is a list, but its calls form a tree: every call for two or more buildings has two halves,
and the plan goes through the tree from the root, a call before its halves and the first half
before the second.  Here the tree is made a type of its own (`Cityscape.CallTree`), in which every
inner call has exactly two halves, and the rule by which ranges are halved is a relation between
trees and ranges (`Cityscape.CallTree.Spans`).  What is known of such trees is then known of plans:
the leaves are the buildings one by one and in order, and there is one inner call less than there
are leaves.

The regions of a plan are computed from call to call by arithmetic that saturates.  For up to
`2 ^ 63` buildings it never does, and then the region of a call follows from its range and its
depth alone: it is the share of its buildings (`Cityscape.Region.IsShare`).  The halves of a share
are the shares of the halves of its buildings, and so, by induction along the halves, every call of
a plan has its share.

Main definitions:

* `Cityscape.CallTree`, `Cityscape.CallTree.preorder`, `Cityscape.CallTree.leaves` — trees of
  calls, and the two ways to list them;
* `Cityscape.CallTree.Spans` — **the tree of the calls for a range of buildings**;
* `Cityscape.Region.IsShare` — the region is the one for a range of buildings at a depth.

Main results:

* `Cityscape.CallTree.length_preorder`, `Cityscape.CallTree.Spans.map_first_leaves` — the number of
  calls, and the leaves of a tree;
* `Cityscape.isShare_of_mem_planFrom` — **every call of a plan writes to its share**;
* `Cityscape.plan_is_preorder` — **the plan is the preorder of the tree for all buildings**.
-/

import Cityscape.Proofs.Plan
import Mathlib.Algebra.Group.Nat.Defs
import Mathlib.Data.List.Range

set_option relaxedAutoImplicit false
set_option autoImplicit false

namespace Cityscape

/-! ### Trees of calls -/

/-- A full binary tree of calls: a call without halves, or a call with the trees of its two halves.
-/
inductive CallTree where
  | leaf (p : Placement)
  | node (p : Placement) (left right : CallTree)

namespace CallTree

/-- The calls of a tree, each before its halves. -/
def preorder : CallTree → List Placement
  | leaf p => [p]
  | node p left right => p :: (left.preorder ++ right.preorder)

/-- The calls without halves, from left to right. -/
def leaves : CallTree → List Placement
  | leaf p => [p]
  | node _ left right => left.leaves ++ right.leaves

/-- A full binary tree has one inner call less than leaves. -/
theorem length_preorder (t : CallTree) : t.preorder.length + 1 = 2 * t.leaves.length := by
  induction t with
  | leaf p => rfl
  | node p left right ihl ihr =>
      simp only [preorder, leaves, List.length_cons, List.length_append]
      omega

/-- **The tree of the calls for the buildings `first` to `last`**, of which the first is at
`depth`.  A call for one building is a leaf; a call for more is followed by the trees for the
buildings up to the middle one and for those behind it, one level deeper. -/
inductive Spans : CallTree → Nat → Nat → Nat → Prop
  | leaf (i depth : Nat) (r : Region) : Spans (.leaf ⟨i, i, depth, r⟩) i i depth
  | node {first last depth : Nat} {left right : CallTree} (r : Region) (h : first < last)
      (hleft : Spans left first (first + (last - first) / 2) (depth + 1))
      (hright : Spans right (first + (last - first) / 2 + 1) last (depth + 1)) :
      Spans (.node ⟨first, last, depth, r⟩ left right) first last depth

namespace Spans

variable {t : CallTree} {first last depth : Nat}

/-- The calls for one building are the leaves. -/
theorem filter_preorder (h : t.Spans first last depth) :
    t.preorder.filter (fun p => p.first = p.last) = t.leaves := by
  induction h with
  | leaf i depth r => simp [preorder, leaves]
  | node r hlt hleft hright ihl ihr =>
      rw [preorder, List.filter_cons_of_neg (by simpa using Nat.ne_of_lt hlt), List.filter_append,
        ihl, ihr, leaves]

/-- **The leaves are the buildings, one by one and in order.** -/
theorem map_first_leaves (h : t.Spans first last depth) :
    t.leaves.map (·.first) = List.range' first (last + 1 - first) := by
  induction h with
  | leaf i depth r => simp [leaves]
  | @node first last depth left right r hlt hleft hright ihl ihr =>
      have hsplit : last + 1 - first = (first + (last - first) / 2 + 1 - first) +
          (last + 1 - (first + (last - first) / 2 + 1)) := by omega
      have hnext : first + (last - first) / 2 + 1 =
          first + (first + (last - first) / 2 + 1 - first) := by omega
      rw [leaves, List.map_append, ihl, ihr, hsplit, ← List.range'_append_1, ← hnext]

/-- There is one call for each building, and one less for several of them. -/
theorem length_preorder (h : t.Spans first last depth) :
    t.preorder.length + 1 = 2 * (last + 1 - first) := by
  have hleaves := congrArg List.length h.map_first_leaves
  rw [List.length_map, List.length_range'] at hleaves
  rw [t.length_preorder, hleaves]

end Spans

end CallTree

/-- **The calls of a plan form a tree.** -/
theorem exists_spans_planFrom {n : Nat} (hn : 0 < n) (first depth : Nat) (r : Region) :
    ∃ t : CallTree, planFrom first (first + n - 1) depth r = t.preorder ∧
      t.Spans first (first + n - 1) depth := by
  refine planFrom_induction (P := fun first n depth r ps =>
    ∃ t : CallTree, ps = t.preorder ∧ t.Spans first (first + n - 1) depth) ?_ ?_ hn first depth r
  · intro first depth r
    exact ⟨.leaf ⟨first, first, depth, r⟩, rfl, .leaf first depth r⟩
  · rintro first n depth r _ _ hn ⟨left, rfl, hleft⟩ ⟨right, rfl, hright⟩
    have hlt := leftSize_lt hn
    have hpos := leftSize_pos n
    have hmid := first_add_half (Nat.lt_of_lt_of_le Nat.zero_lt_two hn) first
    have hnext : first + leftSize n - 1 + 1 = first + leftSize n := by omega
    have hlast : first + leftSize n + (n - leftSize n) - 1 = first + n - 1 := by omega
    rw [← hmid] at hleft
    rw [hlast, ← hnext, ← hmid] at hright
    exact ⟨.node ⟨first, first + n - 1, depth, r⟩ left right, rfl, .node r (by omega) hleft hright⟩

/-! ### The regions of a plan -/

/-- The arena of the calls at a depth: the first one at even depths, the second one at odd
depths. -/
def Arena.atDepth (depth : Nat) : Arena := if depth % 2 = 0 then .one else .two

theorem Arena.atDepth_succ (depth : Nat) : atDepth (depth + 1) = (atDepth depth).other := by
  rcases Nat.mod_two_eq_zero_or_one depth with h | h
  · have hsucc : (depth + 1) % 2 = 1 := by omega
    simp [atDepth, h, hsucc, other]
  · have hsucc : (depth + 1) % 2 = 0 := by omega
    simp [atDepth, h, hsucc, other]

namespace Region

/-- The region is the share of `n` buildings at a depth, of which `first` is the first one: two
slots for each of them, behind two slots for each building before them, in the arena of the
depth. -/
structure IsShare (r : Region) (first n depth : Nat) : Prop where
  /-- The first slot. -/
  offset_eq : r.offset.toNat = 2 * first
  /-- The number of slots. -/
  capacity_eq : r.capacity.toNat = 2 * n
  /-- The arena. -/
  arena_eq : r.arena = .atDepth depth

namespace IsShare

variable {r : Region} {first n m depth : Nat}

/-- The region of a whole computation is the share of all buildings. -/
theorem root (h : 2 * n ≤ lastSlot) : (Region.root n).IsShare 0 n 0 :=
  ⟨rfl, toNat_slot_of_le h, rfl⟩

/-- If all its slots have a number, the share has room for its buildings. -/
theorem hasRoom (h : r.IsShare first n depth) (hslots : 2 * (first + n) ≤ lastSlot) :
    r.HasRoom n (2 * (first + n)) := by
  obtain ⟨hoffset, hcapacity, -⟩ := h
  exact ⟨by omega, by omega, by omega⟩

theorem toNat_stop (h : r.IsShare first n depth) (hslots : 2 * (first + n) ≤ lastSlot) :
    r.stop.toNat = 2 * (first + n) := by
  rw [(h.hasRoom hslots).stop_eq, h.offset_eq, h.capacity_eq, Nat.mul_add]

theorem opposite_arena (h : r.IsShare first n depth) : r.arena.other = .atDepth (depth + 1) := by
  rw [h.arena_eq, Arena.atDepth_succ]

/-- **The first half of a share is the share of the first buildings**, one level deeper. -/
theorem left (h : r.IsShare first n depth) (hslots : 2 * (first + n) ≤ lastSlot) (hm : m ≤ n) :
    (r.halves m).1.IsShare first m (depth + 1) where
  offset_eq := by rw [halves_fst_offset, h.offset_eq]
  capacity_eq := by rw [halves_fst_capacity, (h.hasRoom hslots).toNat_slot_two_mul hm]
  arena_eq := h.opposite_arena

/-- **The second half of a share is the share of the other buildings**, one level deeper. -/
theorem right (h : r.IsShare first n depth) (hslots : 2 * (first + n) ≤ lastSlot) (hm : m ≤ n) :
    (r.halves m).2.IsShare (first + m) (n - m) (depth + 1) where
  offset_eq := by rw [(h.hasRoom hslots).offset_right hm, h.offset_eq, Nat.mul_add]
  capacity_eq := by rw [(h.hasRoom hslots).capacity_right hm, h.capacity_eq, Nat.mul_sub]
  arena_eq := h.opposite_arena

end IsShare

end Region

/-- **Every call of a plan writes to its share**, if the first call does and all slots have a
number. -/
theorem isShare_of_mem_planFrom {first n depth : Nat} {r : Region} (hn : 0 < n)
    (h : r.IsShare first n depth) (hslots : 2 * (first + n) ≤ lastSlot) :
    ∀ p ∈ planFrom first (first + n - 1) depth r, p.region.IsShare p.first p.count p.depth := by
  refine planFrom_induction (P := fun first n depth r ps =>
    r.IsShare first n depth → 2 * (first + n) ≤ lastSlot →
      ∀ p ∈ ps, p.region.IsShare p.first p.count p.depth) ?_ ?_ hn first depth r h hslots
  · intro first depth r h _ p hp
    obtain rfl := List.mem_singleton.1 hp
    have hcount : first + 1 - first = 1 := Nat.add_sub_cancel_left first 1
    rwa [Placement.count, hcount]
  · intro first n depth r ps qs hn ihl ihr h hslots
    have hle := Nat.le_of_lt (leftSize_lt hn)
    have hcount : first + n - 1 + 1 - first = n := by omega
    have hleft := ihl (h.left hslots hle) (by omega)
    have hright := ihr (h.right hslots hle) (by omega)
    refine List.forall_mem_cons.2 ⟨?_, List.forall_mem_append.2 ⟨hleft, hright⟩⟩
    rwa [Placement.count, hcount]

/-! ### The plan for all buildings -/

theorem plan_of_pos {n : Nat} (h : 0 < n) : plan n = planFrom 0 (0 + n - 1) 0 (.root n) := by
  rw [plan, if_neg (Nat.ne_of_gt h), Nat.zero_add]

/-- The calls of a whole plan form a tree. -/
theorem exists_spans_plan {n : Nat} (hpos : 0 < n) :
    ∃ t : CallTree, plan n = t.preorder ∧ t.Spans 0 (n - 1) 0 := by
  have h := exists_spans_planFrom hpos 0 0 (.root n)
  rwa [← plan_of_pos hpos, Nat.zero_add] at h

/-- Every call of a whole plan writes to its share, without saturation. -/
theorem isShare_of_mem_plan {n : Nat} (hpos : 0 < n) (hn : n < 2 ^ 63) :
    ∀ p ∈ plan n, p.region.IsShare p.first p.count p.depth := by
  have hslots := Nat.le_of_lt (two_mul_lt_lastSlot hn)
  rw [plan_of_pos hpos]
  exact isShare_of_mem_planFrom hpos (.root hslots) (by omega)

/-- **The plan is the preorder of the tree for all buildings.**  The tree halves the buildings `0`
to `n - 1` until single ones are left.  So the plan has `2 * n - 1` calls; those for one building
are for `0` up to `n - 1`, in this order and each once; and the region of every call follows from
its range and its depth, without saturation, and lies within the first `2 * n` slots. -/
theorem plan_is_preorder (n : Nat) (hpos : 1 ≤ n) (hn : n < 2 ^ 63) :
    ∃ t : CallTree, plan n = t.preorder ∧ t.Spans 0 (n - 1) 0 ∧ (plan n).length = 2 * n - 1 ∧
      ((plan n).filter fun p => p.first = p.last).map (·.first) = List.range n ∧
      ∀ p ∈ plan n, p.first ≤ p.last ∧ p.region.offset.toNat = 2 * p.first ∧
        p.region.capacity.toNat = 2 * (p.last - p.first + 1) ∧
        p.region.arena = (if p.depth % 2 = 0 then .one else .two) ∧
        p.region.stop.toNat = 2 * (p.last + 1) ∧ p.region.stop.toNat ≤ 2 * n := by
  have hslots : 2 * n ≤ lastSlot := by
    simp only [lastSlot, UInt64.size]
    omega
  obtain ⟨t, ht, hspans⟩ := exists_spans_planFrom hpos 0 0 (.root n)
  rw [← plan_of_pos hpos] at ht
  rw [Nat.zero_add] at hspans
  have hall : n - 1 + 1 - 0 = n := by omega
  refine ⟨t, ht, hspans, ?_, ?_, ?_⟩
  · have hlength := hspans.length_preorder
    rw [ht]
    omega
  · rw [ht, hspans.filter_preorder, hspans.map_first_leaves, hall, List.range_eq_range']
  · intro p hp
    rw [plan_of_pos hpos] at hp
    have hshare := isShare_of_mem_planFrom hpos (.root hslots) (by omega) p hp
    obtain ⟨-, hordered, hlast, -, -⟩ :=
      within_of_mem_planFrom (.root hslots (Nat.le_refl _)) hpos p hp
    have hcount : p.count = p.last - p.first + 1 := by
      rw [Placement.count]
      omega
    rw [hcount] at hshare
    have hstop := hshare.toNat_stop (by omega)
    have hend : p.first + (p.last - p.first + 1) = p.last + 1 := by omega
    rw [hend] at hstop
    exact ⟨hordered, hshare.offset_eq, hshare.capacity_eq, hshare.arena_eq, hstop, by omega⟩

theorem plan_is_preorder_largest :
    ∃ t : CallTree, plan (2 ^ 63 - 1) = t.preorder ∧ t.Spans 0 (2 ^ 63 - 2) 0 ∧
      (plan (2 ^ 63 - 1)).length = 2 ^ 64 - 3 := by
  obtain ⟨t, ht, hspans, hlength, -⟩ := plan_is_preorder (2 ^ 63 - 1) (by decide) (by decide)
  exact ⟨t, ht, hspans, hlength.trans (by decide)⟩

end Cityscape
