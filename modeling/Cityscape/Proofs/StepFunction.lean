/-
**Lists of key points as step functions.**

`Cityscape.stepHeight` reads a list of key points as a step function by looking at the whole list.
Here the same function is found by recursion (`Cityscape.heightFrom`), from any height to the left
of the first point, so that it can be followed through a list point by point.

The list is not lost in the function.  Where the height changes a list needs a point, so a list
whose coordinates increase and whose heights change at every point is part of every list with the
same heights (`Cityscape.sublist_of_heightFrom_eq`), and two such lists are equal.  This is what
makes two ways to compute a contour comparable, since it is enough that they agree on heights.

Main definitions:

* `Cityscape.Ascending`, `Cityscape.Changing` — coordinates increase, and every point changes the
  height;
* `Cityscape.heightFrom`, `Cityscape.endHeight` — the height at a coordinate, and the height to the
  right of all points, from a given height on.

Main results:

* `Cityscape.stepHeight_eq_heightFrom` — the two readings of a list agree;
* `Cityscape.sublist_of_heightFrom_eq`, `Cityscape.eq_of_heightFrom_eq` — **a changing list is part
  of every list with its heights**, and is determined by them;
* `Cityscape.Skyline.heightAt_eq_heightFrom` — the search by halving finds the height.
-/

import Cityscape.Skyline.Height
import Mathlib.Data.List.Chain

set_option relaxedAutoImplicit false
set_option autoImplicit false

namespace Cityscape

/-! ### The larger of two heights, the smaller of two coordinates -/

/-- The larger height by cases, in which form it is decided by comparisons. -/
@[grind =] theorem max_eq_ite (a b : Int64) : max a b = if a ≤ b then b else a := rfl

theorem min_eq_ite (a b : Int64) : min a b = if a ≤ b then a else b := rfl

theorem left_le_max (a b : Int64) : a ≤ max a b := by
  rw [max_eq_ite]
  split
  next h => exact h
  next => exact Int64.le_refl a

theorem right_le_max (a b : Int64) : b ≤ max a b := by
  rw [max_eq_ite]
  split
  next => exact Int64.le_refl b
  next h => exact Int64.le_of_lt (Int64.not_le.1 h)

theorem max_swap (a b : Int64) : max a b = max b a := by
  rw [max_eq_ite, max_eq_ite]
  grind

theorem max_eq_right_iff {a b : Int64} : max a b = b ↔ a ≤ b := by
  rw [max_eq_ite]
  grind

theorem max_zero {a : Int64} (h : 0 ≤ a) : max a 0 = a := by
  rw [max_eq_ite]
  split
  next h' => exact Int64.le_antisymm h h'
  next => rfl

theorem zero_max {a : Int64} (h : 0 ≤ a) : max 0 a = a := by
  rw [max_eq_ite, if_pos h]

/-! ### Coordinates that increase, heights that change -/

/-- The coordinates increase strictly. -/
def Ascending (points : List KeyPoint) : Prop := points.Pairwise (·.x < ·.x)

/-- Every point has another height than the point before it, and the first another than
`height`. -/
def Changing (height : Int64) (points : List KeyPoint) : Prop :=
  (height :: points.map (·.height)).IsChain (· ≠ ·)

@[simp] theorem ascending_nil : Ascending [] := List.Pairwise.nil

theorem ascending_cons {p : KeyPoint} {ps : List KeyPoint} :
    Ascending (p :: ps) ↔ (∀ q ∈ ps, p.x < q.x) ∧ Ascending ps := List.pairwise_cons

@[simp] theorem changing_nil (height : Int64) : Changing height [] := List.IsChain.singleton _

theorem changing_cons {height : Int64} {p : KeyPoint} {ps : List KeyPoint} :
    Changing height (p :: ps) ↔ p.height ≠ height ∧ Changing p.height ps := by
  rw [Changing, List.map_cons, List.isChain_cons_cons, ne_comm, Changing]

/-! ### Heights of a list -/

/-- The height at a coordinate, where it is `height` to the left of all points.  The coordinates
must not decrease. -/
def heightFrom (height : Int64) : List KeyPoint → Int64 → Int64
  | [], _ => height
  | p :: ps, x => if p.x ≤ x then heightFrom p.height ps x else height

/-- The height to the right of all points. -/
def endHeight (height : Int64) : List KeyPoint → Int64
  | [] => height
  | p :: ps => endHeight p.height ps

@[simp] theorem heightFrom_nil (height x : Int64) : heightFrom height [] x = height := rfl

@[simp] theorem endHeight_nil (height : Int64) : endHeight height [] = height := rfl

@[simp] theorem endHeight_cons (height : Int64) (p : KeyPoint) (ps : List KeyPoint) :
    endHeight height (p :: ps) = endHeight p.height ps := rfl

theorem heightFrom_cons_of_le {height x : Int64} {p : KeyPoint} {ps : List KeyPoint}
    (h : p.x ≤ x) : heightFrom height (p :: ps) x = heightFrom p.height ps x := if_pos h

theorem heightFrom_cons_of_lt {height x : Int64} {p : KeyPoint} {ps : List KeyPoint}
    (h : x < p.x) : heightFrom height (p :: ps) x = height :=
  if_neg (Int64.not_le.2 h)

/-- To the left of all points the list is at its first height. -/
theorem heightFrom_of_forall_lt {height x : Int64} {ps : List KeyPoint}
    (h : ∀ p ∈ ps, x < p.x) : heightFrom height ps x = height := by
  cases ps with
  | nil => rfl
  | cons p ps => exact heightFrom_cons_of_lt (h p List.mem_cons_self)

/-- At its own coordinate the first point decides. -/
theorem heightFrom_cons_self {height : Int64} {p : KeyPoint} {ps : List KeyPoint}
    (h : Ascending (p :: ps)) : heightFrom height (p :: ps) p.x = p.height := by
  rw [heightFrom_cons_of_le (Int64.le_refl _)]
  exact heightFrom_of_forall_lt (ascending_cons.1 h).1

/-- A list without negative heights has none at any coordinate. -/
theorem heightFrom_nonneg {height : Int64} {ps : List KeyPoint} (h : 0 ≤ height)
    (hps : ∀ p ∈ ps, 0 ≤ p.height) (x : Int64) : 0 ≤ heightFrom height ps x := by
  induction ps generalizing height with
  | nil => exact h
  | cons p ps ih =>
      rw [heightFrom]
      split
      · exact ih (hps p List.mem_cons_self) fun q hq => hps q (List.mem_cons_of_mem _ hq)
      · exact h

theorem endHeight_eq_getLast? (height : Int64) (ps : List KeyPoint) :
    endHeight height ps = ps.getLast?.elim height (·.height) := by
  induction ps generalizing height with
  | nil => rfl
  | cons p ps ih =>
      rw [endHeight_cons, ih, List.getLast?_cons]
      cases ps.getLast? <;> rfl

theorem endHeight_concat (height : Int64) (ps : List KeyPoint) (p : KeyPoint) :
    endHeight height (ps ++ [p]) = p.height := by
  rw [endHeight_eq_getLast?, List.getLast?_concat, Option.elim_some]

/-! ### Cutting a list at a coordinate -/

/-- Every coordinate cuts a list in two, where coordinates do not decrease. -/
theorem exists_append_at {ps : List KeyPoint} (h : ps.Pairwise (·.x ≤ ·.x)) (x : Int64) :
    ∃ left right, ps = left ++ right ∧ (∀ p ∈ left, p.x ≤ x) ∧ ∀ p ∈ right, x < p.x := by
  induction ps with
  | nil => exact ⟨[], [], rfl, by simp, by simp⟩
  | cons p ps ih =>
      obtain ⟨hp, hps⟩ := List.pairwise_cons.1 h
      by_cases hx : p.x ≤ x
      · obtain ⟨left, right, rfl, hleft, hright⟩ := ih hps
        exact ⟨p :: left, right, rfl, List.forall_mem_cons.2 ⟨hx, hleft⟩, hright⟩
      · have hlt : x < p.x := Int64.not_le.1 hx
        refine ⟨[], p :: ps, rfl, by simp, List.forall_mem_cons.2 ⟨hlt, ?_⟩⟩
        intro q hq
        exact Int64.lt_of_lt_of_le hlt (hp q hq)

/-- Points that do not lie to the right count only by the last height among them. -/
theorem heightFrom_append_of_le {height x : Int64} {ps qs : List KeyPoint}
    (h : ∀ p ∈ ps, p.x ≤ x) :
    heightFrom height (ps ++ qs) x = heightFrom (endHeight height ps) qs x := by
  induction ps generalizing height with
  | nil => rfl
  | cons p ps ih =>
      obtain ⟨hp, hps⟩ := List.forall_mem_cons.1 h
      rw [List.cons_append, heightFrom_cons_of_le hp, ih hps, endHeight_cons]

/-- Points to the right do not count. -/
theorem heightFrom_append_of_lt {height x : Int64} {ps qs : List KeyPoint}
    (h : ∀ q ∈ qs, x < q.x) : heightFrom height (ps ++ qs) x = heightFrom height ps x := by
  induction ps generalizing height with
  | nil => exact heightFrom_of_forall_lt h
  | cons p ps ih => rw [List.cons_append, heightFrom, heightFrom, ih]

/-- To the right of all points the list is at its last height. -/
theorem heightFrom_of_forall_le {height x : Int64} {ps : List KeyPoint}
    (h : ∀ p ∈ ps, p.x ≤ x) : heightFrom height ps x = endHeight height ps := by
  rw [← List.append_nil ps, heightFrom_append_of_le h, List.append_nil, heightFrom_nil]

/-- At the largest coordinate no point lies to the right. -/
theorem heightFrom_maxValue (height : Int64) (ps : List KeyPoint) :
    heightFrom height ps Int64.maxValue = endHeight height ps :=
  heightFrom_of_forall_le fun _ _ => Int64.le_maxValue _

/-- **The reading by filtering and the reading by recursion agree**, where coordinates do not
decrease. -/
theorem stepHeight_eq_heightFrom {ps : List KeyPoint} (h : ps.Pairwise (·.x ≤ ·.x)) (x : Int64) :
    stepHeight ps x = heightFrom 0 ps x := by
  obtain ⟨left, right, rfl, hleft, hright⟩ := exists_append_at h x
  have hfilter : (left ++ right).filter (·.x ≤ x) = left := by
    rw [List.filter_append, List.filter_eq_self.2 (by simpa using hleft),
      List.filter_eq_nil_iff.2 (by simpa using hright), List.append_nil]
  rw [heightFrom_append_of_le hleft, heightFrom_of_forall_lt hright, stepHeight, hfilter,
    endHeight_eq_getLast?]

/-! ### What the heights determine -/

/-- Where the height changes for the first time there is a point. -/
theorem mem_of_first_change {ps : List KeyPoint} {height x : Int64}
    (h : ps.Pairwise (·.x ≤ ·.x)) (hle : ∀ p ∈ ps, p.x ≤ x)
    (hbefore : ∀ y < x, heightFrom height ps y = height) (hne : endHeight height ps ≠ height) :
    ⟨x, endHeight height ps⟩ ∈ ps := by
  rcases List.eq_nil_or_concat ps with rfl | ⟨init, p, rfl⟩
  · exact absurd rfl hne
  · rw [List.concat_eq_append] at *
    have hlast : ∀ q ∈ init ++ [p], q.x ≤ p.x := by
      intro q hq
      rcases List.mem_append.1 hq with hq | hq
      · exact (List.pairwise_append.1 h).2.2 q hq p (List.mem_singleton_self p)
      · exact List.mem_singleton.1 hq ▸ Int64.le_refl _
    -- The last point can not come before `x`, since the height has changed there.
    have hx : p.x = x := by
      refine Int64.le_antisymm (hle p (by simp)) (Int64.not_lt.1 fun hlt => hne ?_)
      rw [← heightFrom_of_forall_le hlast, hbefore p.x hlt]
    rw [endHeight_concat, ← hx]
    exact List.mem_append_right init (List.mem_singleton_self p)

/-- **A list that changes the height at every point is part of every list with its heights**, also
where the other list repeats heights or has several points at one coordinate. -/
theorem sublist_of_heightFrom_eq {ps qs : List KeyPoint} {height : Int64}
    (hp : Ascending ps) (hpc : Changing height ps) (hq : qs.Pairwise (·.x ≤ ·.x))
    (h : ∀ x, heightFrom height ps x = heightFrom height qs x) : ps.Sublist qs := by
  induction ps generalizing height qs with
  | nil => exact List.nil_sublist qs
  | cons p ps ih =>
      obtain ⟨hpx, hps⟩ := ascending_cons.1 hp
      obtain ⟨hne, hchanging⟩ := changing_cons.1 hpc
      obtain ⟨left, right, rfl, hleft, hright⟩ := exists_append_at hq p.x
      obtain ⟨hqleft, hqright, -⟩ := List.pairwise_append.1 hq
      have hend : endHeight height left = p.height := by
        have hat := h p.x
        rw [heightFrom_cons_self hp, heightFrom_append_of_le hleft,
          heightFrom_of_forall_lt hright] at hat
        exact hat.symm
      have hmem : p ∈ left := by
        have hbefore : ∀ y < p.x, heightFrom height left y = height := by
          intro y hy
          rw [← heightFrom_append_of_lt fun q hq => Int64.lt_trans hy (hright q hq), ← h,
            heightFrom_cons_of_lt hy]
        have hchange := mem_of_first_change hqleft hleft hbefore (hend ▸ hne)
        rwa [hend] at hchange
      have hrest : ps.Sublist right := by
        refine ih hps hchanging hqright ?_
        intro x
        by_cases hx : p.x ≤ x
        · have hall := h x
          rwa [heightFrom_cons_of_le hx,
            heightFrom_append_of_le fun q hq => Int64.le_trans (hleft q hq) hx, hend] at hall
        · have hlt : x < p.x := Int64.not_le.1 hx
          rw [heightFrom_of_forall_lt fun q hq => Int64.lt_trans hlt (hpx q hq),
            heightFrom_of_forall_lt fun q hq => Int64.lt_trans hlt (hright q hq)]
      exact (List.singleton_sublist.2 hmem).append hrest

/-- **A list that changes the height at every point is determined by its heights.** -/
theorem eq_of_heightFrom_eq {ps qs : List KeyPoint} {height : Int64}
    (hp : Ascending ps) (hpc : Changing height ps) (hq : Ascending qs) (hqc : Changing height qs)
    (h : ∀ x, heightFrom height ps x = heightFrom height qs x) : ps = qs := by
  have hpq := sublist_of_heightFrom_eq hp hpc (hq.imp Int64.le_of_lt) h
  have hqp := sublist_of_heightFrom_eq hq hqc (hp.imp Int64.le_of_lt) fun x => (h x).symm
  exact hpq.antisymm hqp

/-! ### The search by halving -/

/-- The search returns the boundary between the indices at which the condition holds and those at
which it fails. -/
theorem bisect_boundary {p : Nat → Bool} (hp : ∀ i j, i ≤ j → p j = true → p i = true)
    (lo hi : Nat) (h : lo ≤ hi) :
    lo ≤ bisect p lo hi ∧ bisect p lo hi ≤ hi ∧ (∀ i, lo ≤ i → i < bisect p lo hi → p i = true) ∧
      ∀ i, bisect p lo hi ≤ i → i < hi → p i = false := by
  fun_induction bisect p lo hi with
  | case1 lo hi hlt mid hmid ih =>
      obtain ⟨h₁, h₂, h₃, h₄⟩ := ih (by omega)
      refine ⟨by omega, h₂, ?_, h₄⟩
      intro i hi₁ hi₂
      rcases Nat.lt_or_ge i (mid + 1) with hi' | hi'
      · exact hp i mid (by omega) hmid
      · exact h₃ i hi' hi₂
  | case2 lo hi hlt mid hmid ih =>
      obtain ⟨h₁, h₂, h₃, h₄⟩ := ih (by omega)
      refine ⟨h₁, by omega, h₃, ?_⟩
      intro i hi₁ hi₂
      rcases Nat.lt_or_ge i mid with hi' | hi'
      · exact h₄ i hi₁ hi'
      · cases hpi : p i with
        | false => rfl
        | true => exact absurd (hp mid i hi' hpi) hmid
  | case3 lo hi hlt => exact ⟨Nat.le_refl _, h, by omega, by omega⟩

/-- The height is that of the last of the first `k` points, where these are the points that do not
lie to the right. -/
theorem heightFrom_of_boundary {ps : List KeyPoint} {x : Int64} {k : Nat} (height : Int64)
    (hle : ∀ i (hi : i < ps.length), i < k → ps[i].x ≤ x)
    (hlt : ∀ i (hi : i < ps.length), k ≤ i → x < ps[i].x) :
    heightFrom height ps x = (ps.take k).getLast?.elim height (·.height) := by
  have hleft : ∀ p ∈ ps.take k, p.x ≤ x := by
    intro p hp
    obtain ⟨i, hi, rfl⟩ := List.mem_take_iff_getElem.1 hp
    exact hle i (by omega) (by omega)
  have hright : ∀ p ∈ ps.drop k, x < p.x := by
    intro p hp
    obtain ⟨i, hi, rfl⟩ := List.mem_drop_iff_getElem.1 hp
    exact hlt (k + i) (by omega) (by omega)
  have hcut : heightFrom height (ps.take k ++ ps.drop k) x =
      heightFrom (endHeight height (ps.take k)) (ps.drop k) x := heightFrom_append_of_le hleft
  rwa [List.take_append_drop, heightFrom_of_forall_lt hright, endHeight_eq_getLast?] at hcut

/-- **The search by halving finds the height**, where coordinates do not decrease. -/
theorem Skyline.heightAt_eq_heightFrom {s : Skyline} (h : s.points.toList.Pairwise (·.x ≤ ·.x))
    (x : Int64) : s.heightAt x = heightFrom 0 s.points.toList x := by
  obtain ⟨⟨ps⟩⟩ := s
  replace h : ps.Pairwise (·.x ≤ ·.x) := h
  have hmono : ∀ i j : Nat, i ≤ j → ps[j]?.any (fun p : KeyPoint => p.x ≤ x) = true →
      ps[i]?.any (fun p : KeyPoint => p.x ≤ x) = true := by
    intro i j hij hj
    simp only [Option.any_eq_true, decide_eq_true_eq] at hj ⊢
    obtain ⟨q, hq, hqx⟩ := hj
    obtain ⟨hjl, rfl⟩ := List.getElem?_eq_some_iff.1 hq
    refine ⟨ps[i], List.getElem?_eq_getElem (by omega), ?_⟩
    rcases Nat.lt_or_eq_of_le hij with hlt | rfl
    · exact Int64.le_trans (List.pairwise_iff_getElem.1 h i j (by omega) hjl hlt) hqx
    · exact hqx
  obtain ⟨-, hk, hbelow, habove⟩ := bisect_boundary hmono 0 ps.length (Nat.zero_le _)
  have hheight : heightFrom 0 ps x = _ := heightFrom_of_boundary 0
    (fun i hi hik => by simpa [hi] using hbelow i (Nat.zero_le _) hik)
    (fun i hi hik => by simpa [hi] using habove i hik hi)
  rw [hheight]
  simp only [Skyline.heightAt, List.getElem?_toArray, List.size_toArray]
  cases hb : bisect (fun i => ps[i]?.any fun p : KeyPoint => p.x ≤ x) 0 ps.length with
  | zero => rfl
  | succ k =>
      have hkl : k < ps.length := by omega
      have hlast : (ps.take (k + 1)).getLast? = ps[k]? := by
        rw [List.getLast?_eq_getElem?, List.length_take, Nat.min_eq_left (by omega)]
        simp [hkl]
      rw [hlast]

end Cityscape
