/-
**Which lists of buildings are admitted.**

The check goes through a list from the left and stops at the first fault.  It finds none exactly if
the limit admits the number of buildings, all of them are valid and, where order is required, their
left edges never decrease (`Cityscape.Admission.check_eq_ok_iff`).  All of this carries over to any
part of the list.

Main definitions:

* `Cityscape.Limit.Admits` — the numbers of buildings that a limit admits.

Main results:

* `Cityscape.Admission.check_eq_ok_iff` — **the lists that are admitted**;
* `Cityscape.Admission.check_sublist` — a part of an admitted list is admitted.
-/

import Cityscape.Session
import Mathlib.Data.List.Chain

set_option relaxedAutoImplicit false
set_option autoImplicit false

namespace Cityscape

/-- The limit admits `n` buildings. -/
def Limit.Admits : Limit → Nat → Prop
  | .atMost max, n => n ≤ max
  | .growable, n => 2 * n ≤ lastSlot

instance (limit : Limit) (n : Nat) : Decidable (limit.Admits n) :=
  match limit with
  | .atMost max => inferInstanceAs (Decidable (n ≤ max))
  | .growable => inferInstanceAs (Decidable (2 * n ≤ lastSlot))

theorem Limit.Admits.mono {limit : Limit} {m n : Nat} (h : limit.Admits n) (hmn : m ≤ n) :
    limit.Admits m := by
  cases limit with
  | atMost max => exact Nat.le_trans hmn h
  | growable => exact Nat.le_trans (Nat.mul_le_mul_left 2 hmn) h

namespace Admission

variable {a : Admission}

/-- The check of the number of buildings, for both kinds of limits. -/
theorem checkCount_eq (a : Admission) (n : Nat) :
    a.checkCount n =
      if a.limit.Admits n then .ok ()
      else .error (.overCapacity n (a.limit.bound?.getD (lastSlot / 2))) := by
  rw [checkCount]
  cases a.limit with
  | atMost max =>
      by_cases h : n ≤ max
      · simp [Limit.Admits, h, Nat.not_lt.2 h]
      · simp [Limit.Admits, Limit.bound?, h, Nat.not_le.1 h]
  | growable =>
      by_cases h : 2 * n ≤ lastSlot
      · simp [Limit.Admits, h, Nat.not_lt.2 h]
      · simp [Limit.Admits, Limit.bound?, h, Nat.not_le.1 h]

/-- **The number of buildings comes first**: the buildings are looked at only if the limit admits so
many. -/
theorem check_eq (a : Admission) (bs : List Building) :
    a.check bs =
      if a.limit.Admits bs.length then a.checkFrom none 0 bs
      else .error (.overCapacity bs.length (a.limit.bound?.getD (lastSlot / 2))) := by
  rw [check, checkCount_eq]
  split_ifs <;> rfl

theorem not_misplaces_iff {prev : Option Building} {b : Building} :
    ¬ a.Misplaces prev b ↔ (a.ordered = true → ∀ p ∈ prev, p.left ≤ b.left) := by
  simp only [Misplaces, not_and, not_exists, Int64.not_lt]

/-- **What the check does at one building**: it refuses a degenerate one, then a misplaced one, and
goes on behind any other. -/
theorem checkFrom_cons (a : Admission) (prev : Option Building) (index : Nat) (b : Building)
    (bs : List Building) :
    a.checkFrom prev index (b :: bs) =
      if ¬ b.IsValid then .error (.degenerate index b)
      else if a.Misplaces prev b then .error (.unsorted index)
      else a.checkFrom (some b) (index + 1) bs := by
  rw [checkFrom, Building.check]
  by_cases hvalid : b.IsValid
  · by_cases hplace : a.Misplaces prev b
    · simp only [hvalid, hplace, not_true, if_true, if_false]
      rfl
    · simp only [hvalid, hplace, not_true, if_true, if_false]
      rfl
  · simp only [hvalid, not_false_iff, if_true, if_false]
    rfl

/-- One building is passed if it is valid and in order. -/
theorem checkFrom_cons_eq_ok_iff {prev : Option Building} {index : Nat} {b : Building}
    {bs : List Building} :
    a.checkFrom prev index (b :: bs) = .ok () ↔
      b.IsValid ∧ ¬ a.Misplaces prev b ∧ a.checkFrom (some b) (index + 1) bs = .ok () := by
  rw [checkFrom_cons]
  by_cases hvalid : b.IsValid
  · by_cases hplace : a.Misplaces prev b <;> simp [hvalid, hplace]
  · simp [hvalid]

/-- The buildings are passed if all of them are valid and, where order is required, no left edge
lies to the left of the one before it. -/
theorem checkFrom_eq_ok_iff {prev : Option Building} {index : Nat} {bs : List Building} :
    a.checkFrom prev index bs = .ok () ↔
      (∀ b ∈ bs, b.IsValid) ∧
        (a.ordered = true → (prev.toList ++ bs).IsChain (·.left ≤ ·.left)) := by
  induction bs generalizing prev index with
  | nil => cases prev <;> simp [checkFrom]
  | cons b bs ih =>
      rw [checkFrom_cons_eq_ok_iff, ih, not_misplaces_iff, List.forall_mem_cons]
      cases prev with
      | none => simp [and_assoc]
      | some p =>
          simp only [Option.toList_some, List.singleton_append, List.isChain_cons_cons,
            Option.mem_some_iff, forall_eq']
          constructor
          · rintro ⟨hb, hp, hbs, hchain⟩
            exact ⟨⟨hb, hbs⟩, fun ho => ⟨hp ho, hchain ho⟩⟩
          · rintro ⟨⟨hb, hbs⟩, hchain⟩
            exact ⟨hb, fun ho => (hchain ho).1, hbs, fun ho => (hchain ho).2⟩

/-- **The lists that are admitted**: the limit admits their number, every building is valid and,
where order is required, left edges never decrease. -/
theorem check_eq_ok_iff {bs : List Building} :
    a.check bs = .ok () ↔
      a.limit.Admits bs.length ∧ (∀ b ∈ bs, b.IsValid) ∧
        (a.ordered = true → bs.Pairwise (·.left ≤ ·.left)) := by
  have hchain : bs.IsChain (·.left ≤ ·.left) ↔ bs.Pairwise (·.left ≤ ·.left) := by
    have : Trans (fun b c : Building => b.left ≤ c.left) (fun b c : Building => b.left ≤ c.left)
      (fun b c : Building => b.left ≤ c.left) := ⟨Int64.le_trans⟩
    exact List.isChain_iff_pairwise
  have hfrom : a.checkFrom none 0 bs = .ok () ↔
      (∀ b ∈ bs, b.IsValid) ∧ (a.ordered = true → bs.IsChain (·.left ≤ ·.left)) :=
    checkFrom_eq_ok_iff
  rw [check_eq, ← hchain, ← hfrom]
  split_ifs with hcount <;> simp [hcount]

/-- No buildings are admitted on any terms. -/
theorem check_nil (a : Admission) : a.check [] = .ok () := by
  refine check_eq_ok_iff.2 ⟨?_, by simp, fun _ => .nil⟩
  cases a.limit with
  | atMost max => exact Nat.zero_le max
  | growable => exact Nat.zero_le lastSlot

/-- **A part of an admitted list is admitted.** -/
theorem check_sublist {bs cs : List Building} (h : a.check bs = .ok ()) (hcs : cs.Sublist bs) :
    a.check cs = .ok () := by
  obtain ⟨hcount, hvalid, hordered⟩ := check_eq_ok_iff.1 h
  refine check_eq_ok_iff.2 ⟨hcount.mono hcs.length_le, ?_, ?_⟩
  · exact fun b hb => hvalid b (hcs.subset hb)
  · exact fun ho => (hordered ho).sublist hcs

end Admission

end Cityscape
