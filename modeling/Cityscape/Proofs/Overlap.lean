/-
**Which calls of a plan share slots.**

Calls of a plan do write to the same slots: a call and the halves of its halves are in the same
arena and at the same place.  This module says exactly when that happens, and so which results are
safe while a computation goes on.

Two facts come together.  The region of a call is the share of its buildings, so slot `j` of an
arena belongs to a call exactly if that arena is the one of the call's depth and building `j / 2`
is one of the call's (`Cityscape.Region.IsShare.has_iff`); hence two calls overlap exactly if their
depths have the same parity and they have a building in common.  And calls that have a building in
common are one above the other in the tree of the plan (`Cityscape.CallTree.Spans.above_of_meets`),
where each level changes the arena.

Main definitions:

* `Cityscape.Region.Has`, `Cityscape.Region.SharesSlot` — the slots of a region, and having one in
  common;
* `Cityscape.Placement.Serves`, `Cityscape.Placement.Meets`, `Cityscape.Placement.Contains` — the
  buildings of a call, and the ways in which two calls may have buildings in common;
* `Cityscape.CallTree.HalfOf`, `Cityscape.CallTree.Above` — a call and its halves, and a call and
  all that are nested in it.

Main results:

* `Cityscape.Region.overlaps_iff_sharesSlot` — **regions overlap exactly if they share a slot**;
* `Cityscape.CallTree.Spans.above_of_meets` — **calls with a common building are nested**;
* `Cityscape.overlaps_iff_parity_and_meets` — **which calls of a plan overlap**.
-/

import Cityscape.Proofs.CallTree
import Mathlib.Logic.Relation

set_option relaxedAutoImplicit false
set_option autoImplicit false

namespace Cityscape

/-! ### The slots of a region -/

namespace Region

/-- Slot `j` of the arena `a` belongs to the region. -/
def Has (r : Region) (a : Arena) (j : Nat) : Prop :=
  r.arena = a ∧ r.offset.toNat ≤ j ∧ j < r.stop.toNat

/-- Some slot belongs to both regions. -/
def SharesSlot (r s : Region) : Prop := ∃ a j, r.Has a j ∧ s.Has a j

/-- **Regions overlap exactly if they share a slot.**  An empty region shares none, also where the
other region reaches around it. -/
theorem overlaps_iff_sharesSlot {r s : Region} : r.Overlaps s ↔ r.SharesSlot s := by
  have hr := r.toNat_stop
  have hs := s.toNat_stop
  have hrlast := toNat_le_lastSlot r.stop
  have hslast := toNat_le_lastSlot s.stop
  simp only [Overlaps, UInt64.lt_iff_toNat_lt, UInt64.toNat_zero]
  constructor
  · rintro ⟨harena, hrpos, hspos, hrs, hsr⟩
    exact ⟨r.arena, max r.offset.toNat s.offset.toNat, ⟨rfl, by omega, by omega⟩,
      ⟨harena.symm, by omega, by omega⟩⟩
  · rintro ⟨a, j, ⟨hra, hrj, hrj'⟩, ⟨hsa, hsj, hsj'⟩⟩
    exact ⟨hra.trans hsa.symm, by omega, by omega, by omega, by omega⟩

end Region

theorem Arena.atDepth_eq_iff {d e : Nat} : atDepth d = atDepth e ↔ d % 2 = e % 2 := by
  rw [atDepth, atDepth]
  split_ifs <;> simp only [true_iff, false_iff] <;> omega

namespace Region.IsShare

variable {r s : Region} {first₁ n₁ depth₁ first₂ n₂ depth₂ : Nat}

/-- **The slots of a share** are two for each of its buildings, in the arena of its depth. -/
theorem has_iff (h : r.IsShare first₁ n₁ depth₁) (hslots : 2 * (first₁ + n₁) ≤ lastSlot) {a : Arena}
    {j : Nat} : r.Has a j ↔ .atDepth depth₁ = a ∧ first₁ ≤ j / 2 ∧ j / 2 < first₁ + n₁ := by
  rw [Has, h.arena_eq, h.offset_eq, h.toNat_stop hslots]
  refine and_congr_right fun _ => ?_
  omega

/-- Shares have a slot in common exactly if they are in the same arena and have a building in
common. -/
theorem sharesSlot_iff (hr : r.IsShare first₁ n₁ depth₁) (hs : s.IsShare first₂ n₂ depth₂)
    (hrslots : 2 * (first₁ + n₁) ≤ lastSlot) (hsslots : 2 * (first₂ + n₂) ≤ lastSlot) :
    r.SharesSlot s ↔ depth₁ % 2 = depth₂ % 2 ∧
      ∃ i, (first₁ ≤ i ∧ i < first₁ + n₁) ∧ first₂ ≤ i ∧ i < first₂ + n₂ := by
  simp only [SharesSlot, hr.has_iff hrslots, hs.has_iff hsslots, ← Arena.atDepth_eq_iff]
  constructor
  · rintro ⟨a, j, ⟨hra, hrj⟩, ⟨hsa, hsj⟩⟩
    exact ⟨hra.trans hsa.symm, j / 2, hrj, hsj⟩
  · rintro ⟨harena, i, hri, hsi⟩
    have hhalf : 2 * i / 2 = i := Nat.mul_div_cancel_left i Nat.zero_lt_two
    refine ⟨.atDepth depth₁, 2 * i, ?_, ?_⟩
    · rw [hhalf]
      exact ⟨rfl, hri⟩
    · rw [hhalf]
      exact ⟨harena.symm, hsi⟩

end Region.IsShare

/-! ### The buildings of a call -/

namespace Placement

/-- Building `i` is one of the call's. -/
def Serves (p : Placement) (i : Nat) : Prop := p.first ≤ i ∧ i ≤ p.last

/-- The two calls have a building in common. -/
def Meets (p q : Placement) : Prop := ∃ i, p.Serves i ∧ q.Serves i

/-- All buildings of `q` are buildings of `p`. -/
def Contains (p q : Placement) : Prop := ∀ i, q.Serves i → p.Serves i

theorem Meets.symm {p q : Placement} (h : p.Meets q) : q.Meets p := by
  obtain ⟨i, hp, hq⟩ := h
  exact ⟨i, hq, hp⟩

theorem Contains.of_le {p q : Placement} (hfirst : p.first ≤ q.first) (hlast : q.last ≤ p.last) :
    p.Contains q := by
  rintro i ⟨hi, hi'⟩
  exact ⟨Nat.le_trans hfirst hi, Nat.le_trans hi' hlast⟩

theorem Contains.trans {p q r : Placement} (hpq : p.Contains q) (hqr : q.Contains r) :
    p.Contains r := fun i hi => hpq i (hqr i hi)

end Placement

/-! ### Calls above calls -/

namespace CallTree

/-- The call for all buildings of a tree. -/
def top : CallTree → Placement
  | leaf p => p
  | node p _ _ => p

/-- `q` is one of the two halves of `p`, at the top of the tree or further down in it. -/
inductive HalfOf : CallTree → Placement → Placement → Prop
  | first (p : Placement) (left right : CallTree) : HalfOf (.node p left right) p left.top
  | second (p : Placement) (left right : CallTree) : HalfOf (.node p left right) p right.top
  | inLeft {left : CallTree} {p q : Placement} (r : Placement) (right : CallTree)
      (h : HalfOf left p q) : HalfOf (.node r left right) p q
  | inRight {right : CallTree} {p q : Placement} (r : Placement) (left : CallTree)
      (h : HalfOf right p q) : HalfOf (.node r left right) p q

/-- `q` is nested in `p`: it is a half of `p`, or a half of a half of it, and so on. -/
def Above (t : CallTree) : Placement → Placement → Prop := Relation.TransGen t.HalfOf

theorem Above.inLeft {left : CallTree} {p q : Placement} (h : left.Above p q) (r : Placement)
    (right : CallTree) : (node r left right).Above p q :=
  Relation.TransGen.mono (fun _ _ => HalfOf.inLeft r right) p q h

theorem Above.inRight {right : CallTree} {p q : Placement} (h : right.Above p q) (r : Placement)
    (left : CallTree) : (node r left right).Above p q :=
  Relation.TransGen.mono (fun _ _ => HalfOf.inRight r left) p q h

/-- All other calls of a tree are nested in the topmost one. -/
theorem eq_or_above_of_mem {t : CallTree} {q : Placement} (hq : q ∈ t.preorder) :
    q = t.top ∨ t.Above t.top q := by
  induction t with
  | leaf p => exact .inl (List.mem_singleton.1 hq)
  | node p left right ihl ihr =>
      rcases List.mem_cons.1 hq with rfl | hq
      · exact .inl rfl
      · right
        rcases List.mem_append.1 hq with hq | hq
        · have hfirst : (node p left right).HalfOf p left.top := .first p left right
          rcases ihl hq with rfl | habove
          · exact .single hfirst
          · exact .head hfirst (habove.inLeft p right)
        · have hsecond : (node p left right).HalfOf p right.top := .second p left right
          rcases ihr hq with rfl | habove
          · exact .single hsecond
          · exact .head hsecond (habove.inRight p left)

namespace Spans

variable {t : CallTree} {first last depth : Nat} {p q : Placement}

/-- The topmost call is for all buildings of the range. -/
theorem top_eq (h : t.Spans first last depth) :
    t.top.first = first ∧ t.top.last = last ∧ t.top.depth = depth := by
  cases h with
  | leaf i depth r => exact ⟨rfl, rfl, rfl⟩
  | node r hlt hleft hright => exact ⟨rfl, rfl, rfl⟩

/-- A half has only buildings of its whole, and is one level deeper. -/
theorem contains_half (h : t.Spans first last depth) (hpq : t.HalfOf p q) :
    p.Contains q ∧ q.depth = p.depth + 1 := by
  induction h with
  | leaf i depth r => cases hpq
  | @node first last depth left right r hlt hleft hright ihl ihr =>
      cases hpq with
      | first =>
          obtain ⟨hfirst, hlast, hdepth⟩ := hleft.top_eq
          have hle : left.top.last ≤ last := by omega
          exact ⟨.of_le (Nat.le_of_eq hfirst.symm) hle, hdepth⟩
      | second =>
          obtain ⟨hfirst, hlast, hdepth⟩ := hright.top_eq
          have hle : first ≤ right.top.first := by omega
          exact ⟨.of_le hle (Nat.le_of_eq hlast), hdepth⟩
      | inLeft _ _ hpq => exact ihl hpq
      | inRight _ _ hpq => exact ihr hpq

/-- A nested call has only buildings of the calls that it is nested in, and is deeper than they. -/
theorem contains_of_above (h : t.Spans first last depth) (hpq : t.Above p q) :
    p.Contains q ∧ p.depth < q.depth := by
  induction hpq with
  | single hpq =>
      obtain ⟨hcontains, hdepth⟩ := h.contains_half hpq
      exact ⟨hcontains, by omega⟩
  | tail _ hqr ih =>
      obtain ⟨hcontains, hdepth⟩ := h.contains_half hqr
      exact ⟨ih.1.trans hcontains, by omega⟩

/-- No call is for buildings outside the range of the tree. -/
theorem serves_of_mem (h : t.Spans first last depth) (hq : q ∈ t.preorder) {i : Nat}
    (hi : q.Serves i) : first ≤ i ∧ i ≤ last := by
  obtain ⟨hfirst, hlast, -⟩ := h.top_eq
  have htop : t.top.Serves i := by
    rcases eq_or_above_of_mem hq with rfl | habove
    · exact hi
    · exact (h.contains_of_above habove).1 i hi
  rwa [Placement.Serves, hfirst, hlast] at htop

/-- Calls in different halves of a tree have no building in common. -/
theorem not_meets_of_halves {left right : CallTree} {mid : Nat} (hleft : left.Spans first mid depth)
    (hright : right.Spans (mid + 1) last depth) (hp : p ∈ left.preorder) (hq : q ∈ right.preorder) :
    ¬ p.Meets q := by
  rintro ⟨i, hpi, hqi⟩
  have hil := (hleft.serves_of_mem hp hpi).2
  have hir := (hright.serves_of_mem hq hqi).1
  omega

/-- **Calls with a common building are nested**, one in the other. -/
theorem above_of_meets (h : t.Spans first last depth) (hp : p ∈ t.preorder) (hq : q ∈ t.preorder)
    (hpq : p.Meets q) : p = q ∨ t.Above p q ∨ t.Above q p := by
  induction h with
  | leaf i depth r =>
      left
      rw [List.mem_singleton.1 hp, List.mem_singleton.1 hq]
  | @node first last depth left right r hlt hleft hright ihl ihr =>
      rcases List.mem_cons.1 hp with rfl | hp'
      · rcases eq_or_above_of_mem hq with rfl | habove
        · exact .inl rfl
        · exact .inr (.inl habove)
      rcases List.mem_cons.1 hq with rfl | hq'
      · rcases eq_or_above_of_mem hp with rfl | habove
        · exact .inl rfl
        · exact .inr (.inr habove)
      -- Both calls are below the topmost one; in different halves they have no common building.
      rcases List.mem_append.1 hp' with hp' | hp' <;> rcases List.mem_append.1 hq' with hq' | hq'
      · rcases ihl hp' hq' with heq | habove | habove
        · exact .inl heq
        · exact .inr (.inl (habove.inLeft _ _))
        · exact .inr (.inr (habove.inLeft _ _))
      · exact absurd hpq (not_meets_of_halves hleft hright hp' hq')
      · exact absurd hpq.symm (not_meets_of_halves hleft hright hq' hp')
      · rcases ihr hp' hq' with heq | habove | habove
        · exact .inl heq
        · exact .inr (.inl (habove.inRight _ _))
        · exact .inr (.inr (habove.inRight _ _))

theorem ordered_of_mem (h : t.Spans first last depth) (hq : q ∈ t.preorder) : q.first ≤ q.last := by
  induction h with
  | leaf i depth r => rw [List.mem_singleton.1 hq]
  | node r hlt hleft hright ihl ihr =>
      rcases List.mem_cons.1 hq with rfl | hq
      · exact Nat.le_of_lt hlt
      · rcases List.mem_append.1 hq with hq | hq
        · exact ihl hq
        · exact ihr hq

theorem depth_le_of_mem (h : t.Spans first last depth) (hq : q ∈ t.preorder) : depth ≤ q.depth := by
  obtain ⟨-, -, hdepth⟩ := h.top_eq
  rcases eq_or_above_of_mem hq with rfl | habove
  · exact Nat.le_of_eq hdepth.symm
  · exact hdepth ▸ Nat.le_of_lt (h.contains_of_above habove).2

/-- A tree lists no call twice. -/
theorem nodup_preorder (h : t.Spans first last depth) : t.preorder.Nodup := by
  induction h with
  | leaf i depth r => exact List.pairwise_singleton _ _
  | @node first last depth left right r hlt hleft hright ihl ihr =>
      refine List.nodup_cons.2 ⟨?_, List.nodup_append.2 ⟨ihl, ihr, ?_⟩⟩
      · -- The calls below the topmost one are deeper.
        intro hmem
        have hdeeper : depth + 1 ≤ depth := by
          rcases List.mem_append.1 hmem with hmem | hmem
          · exact hleft.depth_le_of_mem hmem
          · exact hright.depth_le_of_mem hmem
        exact Nat.not_succ_le_self depth hdeeper
      · rintro p hp q hq rfl
        have hself : p.Meets p := by
          have hordered := hleft.ordered_of_mem hp
          exact ⟨p.first, ⟨Nat.le_refl _, hordered⟩, ⟨Nat.le_refl _, hordered⟩⟩
        exact not_meets_of_halves hleft hright hp hq hself

end Spans

end CallTree

/-! ### Overlaps in a plan -/

/-- The regions of two calls overlap exactly if the depths of the calls have the same parity and the
calls have a building in common. -/
theorem overlaps_iff_of_isShare {p q : Placement} (hp : p.region.IsShare p.first p.count p.depth)
    (hq : q.region.IsShare q.first q.count q.depth) (hpslots : 2 * (p.first + p.count) ≤ lastSlot)
    (hqslots : 2 * (q.first + q.count) ≤ lastSlot) :
    p.region.Overlaps q.region ↔ p.depth % 2 = q.depth % 2 ∧ p.Meets q := by
  have hserves : ∀ (r : Placement) (i : Nat),
      (r.first ≤ i ∧ i < r.first + r.count) ↔ r.Serves i := by
    intro r i
    rw [Placement.count, Placement.Serves]
    omega
  rw [Region.overlaps_iff_sharesSlot, hp.sharesSlot_iff hq hpslots hqslots]
  simp only [hserves, Placement.Meets]

/-- **Which calls of a plan overlap**: those whose depths have the same parity and which have a
building in common.  Of two such calls one is for all buildings of the other, and there is at least
one level between them.  Hence calls at the same depth share no slot, neither do a call and its
halves, nor two calls of which neither is nested in the other. -/
theorem overlaps_iff_parity_and_meets (n : Nat) (hpos : 1 ≤ n) (hn : n < 2 ^ 63) :
    ∃ t : CallTree, plan n = t.preorder ∧ t.Spans 0 (n - 1) 0 ∧ (plan n).Nodup ∧
      ∀ p ∈ plan n, ∀ q ∈ plan n, p ≠ q →
        (p.region.Overlaps q.region ↔ p.depth % 2 = q.depth % 2 ∧ p.Meets q) ∧
        (p.region.Overlaps q.region → (p.Contains q ∨ q.Contains p) ∧
          (p.depth + 2 ≤ q.depth ∨ q.depth + 2 ≤ p.depth)) ∧
        (p.depth = q.depth → ¬ p.region.SharesSlot q.region) ∧
        (t.HalfOf p q ∨ t.HalfOf q p → ¬ p.region.SharesSlot q.region) ∧
        (¬ t.Above p q → ¬ t.Above q p → ¬ p.region.SharesSlot q.region) := by
  have hslots := two_mul_lt_lastSlot hn
  have hshare := isShare_of_mem_plan hpos hn
  obtain ⟨t, ht, hspans⟩ := exists_spans_plan hpos
  have hnumbered : ∀ p ∈ plan n, 2 * (p.first + p.count) ≤ lastSlot := by
    intro p hp
    rw [ht] at hp
    have hordered := hspans.ordered_of_mem hp
    have hlast := (hspans.serves_of_mem hp ⟨hordered, Nat.le_refl _⟩).2
    rw [Placement.count]
    omega
  refine ⟨t, ht, hspans, ht ▸ hspans.nodup_preorder, ?_⟩
  intro p hp q hq hne
  have hoverlaps := overlaps_iff_of_isShare (hshare p hp) (hshare q hq) (hnumbered p hp)
    (hnumbered q hq)
  have hnested : p.Meets q → t.Above p q ∨ t.Above q p := by
    intro hmeets
    exact (hspans.above_of_meets (ht ▸ hp) (ht ▸ hq) hmeets).resolve_left hne
  have hdeeper : p.Meets q → p.depth < q.depth ∨ q.depth < p.depth := by
    intro hmeets
    exact (hnested hmeets).imp (fun h => (hspans.contains_of_above h).2)
      fun h => (hspans.contains_of_above h).2
  -- To share a slot is to overlap, so all that follows is about depths and buildings.
  rw [← Region.overlaps_iff_sharesSlot, hoverlaps]
  refine ⟨Iff.rfl, ?_, ?_, ?_, ?_⟩
  · rintro ⟨hparity, hmeets⟩
    have hcontains := (hnested hmeets).imp (fun h => (hspans.contains_of_above h).1)
      fun h => (hspans.contains_of_above h).1
    have hdepth := hdeeper hmeets
    exact ⟨hcontains, by omega⟩
  · rintro hdepth ⟨-, hmeets⟩
    have hne := hdeeper hmeets
    omega
  · rintro hhalf ⟨hparity, -⟩
    have hdepth : q.depth = p.depth + 1 ∨ p.depth = q.depth + 1 :=
      hhalf.imp (fun h => (hspans.contains_half h).2) fun h => (hspans.contains_half h).2
    omega
  · rintro hpq hqp ⟨-, hmeets⟩
    exact (hnested hmeets).elim hpq hqp

theorem overlaps_iff_parity_and_meets_of_three :
    let p : Placement := ⟨0, 2, 0, ⟨.one, 0, 6⟩⟩
    let q : Placement := ⟨0, 0, 2, ⟨.one, 0, 2⟩⟩
    p ∈ plan 3 ∧ q ∈ plan 3 ∧ p.region.Overlaps q.region ∧ (p.Contains q ∨ q.Contains p) := by
  intro p q
  have hp : p ∈ plan 3 := by decide +kernel
  have hq : q ∈ plan 3 := by decide +kernel
  obtain ⟨t, -, -, -, hplan⟩ := overlaps_iff_parity_and_meets 3 (by decide) (by decide)
  obtain ⟨hiff, hnested, -⟩ := hplan p hp q hq (by decide)
  have hmeets : p.Meets q := ⟨0, ⟨Nat.le_refl 0, Nat.zero_le 2⟩, ⟨Nat.le_refl 0, Nat.le_refl 0⟩⟩
  have hoverlap : p.region.Overlaps q.region := hiff.2 ⟨by decide, hmeets⟩
  exact ⟨hp, hq, hoverlap, (hnested hoverlap).1⟩

end Cityscape
