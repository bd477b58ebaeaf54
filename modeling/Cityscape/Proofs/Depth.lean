/-
**How deep a plan goes.**

A call for `n` buildings has halves for `n / 2` of them, rounded up and rounded down, so `k` levels
further down the calls are for `n / 2 ^ k` buildings.  Rounding happens at every level, up on some
and down on others, but the errors do not add up: to halve and round down again and again is to
divide once and round down, likewise for rounding up, and a call whose path to the root mixes the
two lies in between.  There are never more than two sizes of calls at one depth, which differ by
one building.

The sizes do not bound the depth by themselves, since a single building is the `2 ^ k`-th part of
`n` buildings, rounded up, for every `k` that is large enough.  That halving stops in time is a
second invariant: the larger half is the one that goes deepest, and its logarithm, rounded up, is
smaller by exactly one (`Cityscape.clog_leftSize`).

Main definitions:

* `Cityscape.Placement.IsPart` — a call some levels below one for so many buildings.

Main results:

* `Cityscape.isPart_of_mem_planFrom` — **the size and the depth of every call of a plan**;
* `Cityscape.exists_mem_planFrom_depth` — the first halves of first halves go deepest;
* `Cityscape.plan_is_balanced` — **a plan is balanced**: at most two sizes at each depth, and single
  buildings at two depths at most.
-/

import Cityscape.Proofs.CallTree
import Mathlib.Algebra.Order.Floor.Div
import Mathlib.Algebra.Order.Ring.Nat
import Mathlib.Data.Nat.Log
import Mathlib.GroupTheory.GroupAction.Ring
import Mathlib.Order.Bounds.Basic

set_option relaxedAutoImplicit false
set_option autoImplicit false

namespace Cityscape

/-! ### Rounding halves -/

/-- The first half is the larger one, by at most one building. -/
theorem leftSize_eq {n : Nat} (h : 0 < n) : leftSize n = (n + 1) / 2 := by
  rw [leftSize]
  omega

/-- One level further down, at least half of the buildings means at least half of their part. -/
theorem div_two_pow_succ_le {n m : Nat} (h : n / 2 ≤ m) (k : Nat) :
    n / 2 ^ (k + 1) ≤ m / 2 ^ k := by
  rw [Nat.pow_succ', ← Nat.div_div_eq_div_mul]
  exact Nat.div_le_div_right h

/-- One level further down, at most half of the buildings, rounded up, means at most half of their
part, rounded up. -/
theorem ceilDiv_two_pow_le {n m : Nat} (h : m ≤ (n + 1) / 2) (k : Nat) :
    m ⌈/⌉ 2 ^ k ≤ n ⌈/⌉ 2 ^ (k + 1) := by
  have hn : n ≤ 2 ^ (k + 1) * (n ⌈/⌉ 2 ^ (k + 1)) := le_smul_ceilDiv (Nat.two_pow_pos _)
  rw [ceilDiv_le_iff_le_mul (Nat.two_pow_pos k)]
  rw [Nat.pow_succ', Nat.mul_assoc] at hn
  rw [Nat.pow_succ']
  omega

/-- Rounding up gives at most one more than rounding down. -/
theorem ceilDiv_le_div_add_one (n : Nat) {d : Nat} (h : 0 < d) : n ⌈/⌉ d ≤ n / d + 1 := by
  rw [ceilDiv_le_iff_le_mul h]
  exact Nat.le_of_lt (Nat.lt_mul_div_succ n h)

/-- **The larger half goes exactly one level less deep.** -/
theorem clog_leftSize {n : Nat} (h : 2 ≤ n) : Nat.clog 2 n = Nat.clog 2 (leftSize n) + 1 := by
  rw [Nat.clog_of_two_le Nat.one_lt_two h, leftSize_eq (Nat.lt_of_lt_of_le Nat.zero_lt_two h)]
  rfl

/-! ### The calls of a plan -/

namespace Placement

/-- The call is `k` levels below one for `n` buildings, so that it is for their `2 ^ k`-th part,
rounded down or up, and no deeper than it takes to get to single buildings. -/
structure IsPart (p : Placement) (n k : Nat) : Prop where
  /-- There is at least one building. -/
  ordered : p.first ≤ p.last
  /-- The part is not smaller than rounding down makes it. -/
  floor_le : n / 2 ^ k ≤ p.count
  /-- The part is not larger than rounding up makes it. -/
  le_ceil : p.count ≤ n ⌈/⌉ 2 ^ k
  /-- The call is not too deep. -/
  level_le : k ≤ Nat.clog 2 n

namespace IsPart

variable {p : Placement} {n m k : Nat}

/-- A call is its own part. -/
theorem self (hn : 0 < n) (first depth : Nat) (r : Region) :
    (⟨first, first + n - 1, depth, r⟩ : Placement).IsPart n 0 := by
  have hcount : (⟨first, first + n - 1, depth, r⟩ : Placement).count = n := by
    simp only [count]
    omega
  refine ⟨by simp only; omega, ?_, ?_, Nat.zero_le _⟩
  · rw [hcount, Nat.pow_zero, Nat.div_one]
  · rw [hcount, Nat.pow_zero, ceilDiv_one]

/-- **A part of a half is a part of the whole**, one level further down, whichever half it is. -/
theorem of_half (hn : 2 ≤ n) (hle : n / 2 ≤ m) (hm : m ≤ leftSize n) (h : p.IsPart m k) :
    p.IsPart n (k + 1) where
  ordered := h.ordered
  floor_le := Nat.le_trans (div_two_pow_succ_le hle k) h.floor_le
  le_ceil := by
    rw [leftSize_eq (by omega)] at hm
    exact Nat.le_trans h.le_ceil (ceilDiv_two_pow_le hm k)
  level_le := by
    rw [clog_leftSize hn]
    exact Nat.succ_le_succ (Nat.le_trans h.level_le (Nat.clog_mono_right 2 hm))

/-- There are at most two sizes of parts. -/
theorem count_eq (h : p.IsPart n k) : p.count = n / 2 ^ k ∨ p.count = n ⌈/⌉ 2 ^ k := by
  have hceil := ceilDiv_le_div_add_one n (Nat.two_pow_pos k)
  have hle := h.floor_le
  have hge := h.le_ceil
  omega

/-- **Single buildings are at two levels at most.** -/
theorem level_eq (h : p.IsPart n k) (hn : 0 < n) (hp : p.first = p.last) :
    k = Nat.log 2 n ∨ k = Nat.clog 2 n := by
  have hcount : p.count = 1 := by
    rw [count, hp]
    exact Nat.add_sub_cancel_left ..
  have hlog : Nat.log 2 n ≤ k := by
    have hfloor : n / 2 ^ k < 2 := Nat.lt_succ_of_le (hcount ▸ h.floor_le)
    have hlt : n < 2 ^ (k + 1) := by
      rw [Nat.pow_succ']
      exact (Nat.div_lt_iff_lt_mul (Nat.two_pow_pos k)).1 hfloor
    exact Nat.lt_succ_iff.1 (Nat.log_lt_of_lt_pow (Nat.ne_of_gt hn) hlt)
  have hclog : Nat.clog 2 n ≤ Nat.log 2 n + 1 :=
    Nat.clog_le_of_le_pow (Nat.le_of_lt (Nat.lt_pow_succ_log_self Nat.one_lt_two n))
  have hlevel := h.level_le
  omega

end IsPart

end Placement

/-- **The size and the depth of every call of a plan.** -/
theorem isPart_of_mem_planFrom {n : Nat} (hn : 0 < n) (first depth : Nat) (r : Region) :
    ∀ p ∈ planFrom first (first + n - 1) depth r, ∃ k, p.depth = depth + k ∧ p.IsPart n k := by
  refine planFrom_induction (P := fun _ n depth _ ps =>
    ∀ p ∈ ps, ∃ k, p.depth = depth + k ∧ p.IsPart n k) ?_ ?_ hn first depth r
  · intro first depth r p hp
    obtain rfl := List.mem_singleton.1 hp
    exact ⟨0, rfl, .self Nat.one_pos first depth r⟩
  · intro first n depth r ps qs hn ihl ihr
    have hsize := leftSize_eq (n := n) (by omega)
    have hdeeper : ∀ {m : Nat} {qs : List Placement}, n / 2 ≤ m → m ≤ leftSize n →
        (∀ p ∈ qs, ∃ k, p.depth = depth + 1 + k ∧ p.IsPart m k) →
        ∀ p ∈ qs, ∃ k, p.depth = depth + k ∧ p.IsPart n k := by
      intro m qs hle hm ih p hp
      obtain ⟨k, hdepth, hpart⟩ := ih p hp
      exact ⟨k + 1, by omega, hpart.of_half hn hle hm⟩
    refine List.forall_mem_cons.2 ⟨?_, List.forall_mem_append.2 ⟨?_, ?_⟩⟩
    · exact ⟨0, rfl, .self (by omega) first depth r⟩
    · exact hdeeper (by omega) (Nat.le_refl _) ihl
    · exact hdeeper (by omega) (by omega) ihr

/-- **Some call goes as deep as it takes to get to single buildings**: the first half of the first
half, and so on. -/
theorem exists_mem_planFrom_depth {n : Nat} (hn : 0 < n) (first depth : Nat) (r : Region) :
    ∃ p ∈ planFrom first (first + n - 1) depth r, p.depth = depth + Nat.clog 2 n := by
  refine planFrom_induction (P := fun _ n depth _ ps =>
    ∃ p ∈ ps, p.depth = depth + Nat.clog 2 n) ?_ ?_ hn first depth r
  · intro first depth r
    exact ⟨_, List.mem_singleton_self _, by rw [Nat.clog_one_right, Nat.add_zero]⟩
  · intro first n depth r ps qs hn ihl _
    obtain ⟨p, hp, hdepth⟩ := ihl
    refine ⟨p, List.mem_cons_of_mem _ (List.mem_append_left _ hp), ?_⟩
    rw [hdepth, clog_leftSize hn]
    omega

/-! ### The whole plan -/

/-- **A plan is balanced.**  A call at depth `d` of a plan for `n` buildings is for `n / 2 ^ d` of
them, rounded down or up; the calls for single buildings are at the depths that are the binary
logarithm of `n`, rounded down or up; and the greatest depth is the logarithm rounded up. -/
theorem plan_is_balanced (n : Nat) (hpos : 1 ≤ n) :
    (∀ p ∈ plan n, p.first ≤ p.last ∧
        (p.count = n / 2 ^ p.depth ∨ p.count = n ⌈/⌉ 2 ^ p.depth) ∧
        (p.first = p.last → p.depth = Nat.log 2 n ∨ p.depth = Nat.clog 2 n)) ∧
      IsGreatest {d | ∃ p ∈ plan n, p.depth = d} (Nat.clog 2 n) := by
  have hplan := plan_of_pos hpos
  have hpart : ∀ p ∈ plan n, p.IsPart n p.depth := by
    intro p hp
    rw [hplan] at hp
    obtain ⟨k, hdepth, hpart⟩ := isPart_of_mem_planFrom hpos 0 0 (.root n) p hp
    rw [Nat.zero_add] at hdepth
    rwa [hdepth]
  refine ⟨?_, ?_, ?_⟩
  · intro p hp
    have h := hpart p hp
    exact ⟨h.ordered, h.count_eq, h.level_eq hpos⟩
  · obtain ⟨p, hp, hdepth⟩ := exists_mem_planFrom_depth hpos 0 0 (.root n)
    rw [Nat.zero_add] at hdepth
    exact ⟨p, hplan ▸ hp, hdepth⟩
  · rintro d ⟨p, hp, rfl⟩
    exact (hpart p hp).level_le

theorem plan_is_balanced_of_eleven :
    let p : Placement := ⟨2, 2, 3, ⟨.two, 4, 2⟩⟩
    p ∈ plan 11 ∧ (p.depth = Nat.log 2 11 ∨ p.depth = Nat.clog 2 11) ∧
      IsGreatest {d | ∃ q ∈ plan 11, q.depth = d} (Nat.clog 2 11) := by
  intro p
  have hp : p ∈ plan 11 := by decide +kernel
  obtain ⟨hcalls, hdepth⟩ := plan_is_balanced 11 (by decide)
  exact ⟨hp, (hcalls p hp).2.2 rfl, hdepth⟩

end Cityscape
