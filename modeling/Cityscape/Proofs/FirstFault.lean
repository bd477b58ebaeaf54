/-
**The fault that is reported is the first one.**

A list of buildings may be refused for many reasons at once, and a list of points may be malformed
in many places.  Both checks go through their list from the left and report the first index at
which anything is wrong; only where two things are wrong at one index does their order in the check
decide.  A missing width or height of a building then comes before a wrong order, and for a point
there is only one report.

The checks carry the element before and the index along, while the faults are said of the whole
list, by index (`Cityscape.Admission.Faulty`, `Cityscape.Flawed`).  A check and its faults are
compared element by element: if the first index is faulty, it is the least one, and otherwise the
faults are those of the rest of the list, one index further on.  The last point of a list being off
the ground is a fault of its own index, and it is looked for only behind all other points; still no
later index can be reported before it, as there is none.

Main definitions:

* `Cityscape.Admission.Faulty` — a building is degenerate, or stands in the wrong order;
* `Cityscape.Flawed` — a point can not stand where it does in a well-formed list.

Main results:

* `Cityscape.Admission.checkFrom_eq_error_iff`, `Cityscape.firstFlaw_eq_some_iff` — both checks
  report the least index;
* `Cityscape.Admission.check_eq_overCapacity_iff` — when it is the number of buildings that is
  reported;
* `Cityscape.Admission.check_names_first_fault` — **exactly which buildings are refused, and what
  for**;
* `Cityscape.Skyline.ofPoints_names_first_flaw` — **exactly which points are refused, and where**.
-/

import Cityscape.Proofs.Admission
import Cityscape.Proofs.Regions
import Cityscape.Proofs.WellFormed
import Mathlib.Order.Bounds.Basic

set_option relaxedAutoImplicit false
set_option autoImplicit false

namespace Cityscape

/-! ### The least index with a property -/

section

variable {P Q : Nat → Prop}

theorem isLeast_zero (h : P 0) : IsLeast {i | P i} 0 := ⟨h, fun j _ => Nat.zero_le j⟩

/-- If the first index has the property, it is the least one. -/
theorem exists_isLeast_iff_of_zero (h : P 0) : (∃ i, IsLeast {i | P i} i ∧ Q i) ↔ Q 0 := by
  constructor
  · rintro ⟨i, hi, hq⟩
    rwa [hi.unique (isLeast_zero h)] at hq
  · intro hq
    exact ⟨0, isLeast_zero h, hq⟩

/-- If the first index does not have the property, the others can be counted from the second one
on. -/
theorem exists_isLeast_iff_of_not_zero (h : ¬ P 0) :
    (∃ i, IsLeast {i | P i} i ∧ Q i) ↔ ∃ i, IsLeast {i | P (i + 1)} i ∧ Q (i + 1) := by
  constructor
  · rintro ⟨i, ⟨hi, hleast⟩, hq⟩
    cases i with
    | zero => exact absurd hi h
    | succ i => exact ⟨i, ⟨hi, fun j hj => Nat.le_of_succ_le_succ (hleast hj)⟩, hq⟩
  · rintro ⟨i, ⟨hi, hleast⟩, hq⟩
    refine ⟨i + 1, ⟨hi, ?_⟩, hq⟩
    intro j hj
    cases j with
    | zero => exact absurd hj h
    | succ j => exact Nat.succ_le_succ (hleast hj)

end

/-! ### Buildings -/

/-- What is reported of a faulty building: that it is degenerate, if it is, and otherwise that it
is in the wrong order. -/
def Building.fault (b : Building) (index : Nat) : Refusal :=
  if b.IsValid then .unsorted index else .degenerate index b

namespace Admission

/-- The building at index `i` is degenerate, or it starts to the left of the one before it although
order is required. -/
def Faulty (a : Admission) (bs : List Building) (i : Nat) : Prop :=
  ∃ b ∈ bs[i]?, ¬ b.IsValid ∨ a.ordered = true ∧ 0 < i ∧ ∃ p ∈ bs[i - 1]?, b.left < p.left

instance (a : Admission) (bs : List Building) (i : Nat) : Decidable (a.Faulty bs i) :=
  inferInstanceAs (Decidable (∃ b ∈ bs[i]?, _))

/-- The building before index `i`, where `prev` comes before the whole list. -/
def before (prev : Option Building) (bs : List Building) : Nat → Option Building
  | 0 => prev
  | i + 1 => bs[i]?

/-- The building at index `i` is faulty, where `prev` comes before the whole list. -/
def FaultyAfter (a : Admission) (prev : Option Building) (bs : List Building) (i : Nat) : Prop :=
  ∃ b ∈ bs[i]?, ¬ b.IsValid ∨ a.Misplaces (before prev bs i) b

variable {a : Admission}

theorem faultyAfter_none_iff {bs : List Building} {i : Nat} :
    a.FaultyAfter none bs i ↔ a.Faulty bs i := by
  cases i with
  | zero => simp [FaultyAfter, Faulty, before, Misplaces]
  | succ i => simp [FaultyAfter, Faulty, before, Misplaces]

theorem faultyAfter_zero_iff {prev : Option Building} {b : Building} {bs : List Building} :
    a.FaultyAfter prev (b :: bs) 0 ↔ ¬ b.IsValid ∨ a.Misplaces prev b := by
  simp [FaultyAfter, before]

theorem faultyAfter_succ_iff {prev : Option Building} {b : Building} {bs : List Building}
    {i : Nat} :
    a.FaultyAfter prev (b :: bs) (i + 1) ↔ a.FaultyAfter (some b) bs i := by
  cases i <;> simp [FaultyAfter, before]

theorem checkFrom_of_faulty {prev : Option Building} {index : Nat} {b : Building}
    {bs : List Building} (h : a.FaultyAfter prev (b :: bs) 0) :
    a.checkFrom prev index (b :: bs) = .error (b.fault index) := by
  rw [checkFrom_cons, Building.fault]
  by_cases hvalid : b.IsValid
  · have hplace := (faultyAfter_zero_iff.1 h).resolve_left (not_not_intro hvalid)
    simp [hvalid, hplace]
  · simp [hvalid]

theorem checkFrom_of_not_faulty {prev : Option Building} {index : Nat} {b : Building}
    {bs : List Building} (h : ¬ a.FaultyAfter prev (b :: bs) 0) :
    a.checkFrom prev index (b :: bs) = a.checkFrom (some b) (index + 1) bs := by
  obtain ⟨hvalid, hplace⟩ := not_or.1 (mt faultyAfter_zero_iff.2 h)
  rw [checkFrom_cons, if_neg hvalid, if_neg hplace]

/-- **The check reports the first faulty building.** -/
theorem checkFrom_eq_error_iff {prev : Option Building} {index : Nat} {bs : List Building}
    {e : Refusal} :
    a.checkFrom prev index bs = .error e ↔
      ∃ i, IsLeast {i | a.FaultyAfter prev bs i} i ∧
        ∃ b, bs[i]? = some b ∧ e = b.fault (index + i) := by
  induction bs generalizing prev index with
  | nil => simp [checkFrom]
  | cons b bs ih =>
      by_cases hfault : a.FaultyAfter prev (b :: bs) 0
      · rw [checkFrom_of_faulty hfault, exists_isLeast_iff_of_zero hfault]
        simp [eq_comm]
      · rw [checkFrom_of_not_faulty hfault, ih, exists_isLeast_iff_of_not_zero hfault]
        simp only [faultyAfter_succ_iff, List.getElem?_cons_succ, Nat.add_assoc, Nat.add_comm 1]

/-- No building is refused for the number of buildings. -/
theorem checkFrom_ne_overCapacity {prev : Option Building} {index : Nat} {bs : List Building}
    {requested capacity : Nat} :
    a.checkFrom prev index bs ≠ .error (.overCapacity requested capacity) := by
  intro h
  obtain ⟨i, -, b, -, hfault⟩ := checkFrom_eq_error_iff.1 h
  rw [Building.fault] at hfault
  split at hfault <;> nomatch hfault

/-- **The number of buildings is reported if the limit does not admit it**, and only then. -/
theorem check_eq_overCapacity_iff {bs : List Building} {requested capacity : Nat} :
    a.check bs = .error (.overCapacity requested capacity) ↔
      ¬ a.limit.Admits bs.length ∧ requested = bs.length ∧
        capacity = a.limit.bound?.getD (lastSlot / 2) := by
  rw [check_eq]
  split_ifs with hadmits
  · simp [hadmits, checkFrom_ne_overCapacity]
  · simp [hadmits, eq_comm]

/-- **Exactly which buildings are refused, and what for.**  Too many of them are refused for their
number alone.  Otherwise they are admitted exactly if each is valid and, where order is required,
left edges never decrease; and if not, then the first faulty building is reported, as degenerate if
it is, and as unsorted if that is all that is wrong with it. -/
theorem check_names_first_fault (a : Admission) (bs : List Building) (hlen : bs.length < 2 ^ 63) :
    (∀ requested capacity, a.check bs = .error (.overCapacity requested capacity) ↔
        a.limit = .atMost capacity ∧ requested = bs.length ∧ capacity < bs.length) ∧
      ((∀ max, a.limit = .atMost max → bs.length ≤ max) →
        (a.check bs = .ok () ↔
          (∀ b ∈ bs, b.left < b.right ∧ 0 < b.height) ∧
            (a.ordered = true → bs.Pairwise (·.left ≤ ·.left))) ∧
        ∀ e, a.check bs = .error e ↔
          ∃ i b, IsLeast {i | a.Faulty bs i} i ∧ bs[i]? = some b ∧
            e = if b.IsValid then .unsorted i else .degenerate i b) := by
  have hadmits : (∀ max, a.limit = .atMost max → bs.length ≤ max) → a.limit.Admits bs.length := by
    intro hfew
    cases hlimit : a.limit with
    | atMost max => exact hfew max hlimit
    | growable => exact Nat.le_of_lt (two_mul_lt_lastSlot hlen)
  refine ⟨?_, ?_⟩
  · intro requested capacity
    rw [check_eq_overCapacity_iff]
    cases hlimit : a.limit with
    | atMost max =>
        simp only [Limit.Admits, Limit.bound?, Option.getD_some, Nat.not_le, Limit.atMost.injEq]
        constructor
        · rintro ⟨hmax, rfl, rfl⟩
          exact ⟨rfl, rfl, hmax⟩
        · rintro ⟨rfl, rfl, hmax⟩
          exact ⟨hmax, rfl, rfl⟩
    | growable =>
        rw [hlimit] at hadmits
        simp [hadmits]
  · intro hfew
    refine ⟨?_, ?_⟩
    · rw [check_eq_ok_iff]
      exact and_iff_right (hadmits hfew)
    · intro e
      rw [check_eq, if_pos (hadmits hfew), checkFrom_eq_error_iff]
      simp only [faultyAfter_none_iff, Nat.zero_add, exists_and_left, Building.fault]

/-- The third building is both degenerate and out of order, and the last one is degenerate too. -/
theorem check_names_first_fault_twice_faulty :
    let bs : List Building := [⟨0, 4, 3⟩, ⟨2, 6, 5⟩, ⟨1, 1, 5⟩, ⟨0, 0, 0⟩]
    IsLeast {i | Faulty {} bs i} 2 ∧
      check {} bs = .error (.degenerate 2 ⟨1, 1, 5⟩) ∧
      check ⟨.atMost 3, true⟩ bs = .error (.overCapacity 4 3) := by
  intro bs
  have hsound : ∀ i < 2, ¬ Faulty {} bs i := by decide
  have hleast : IsLeast {i | Faulty {} bs i} 2 :=
    ⟨by decide, fun i hi => Nat.not_lt.1 fun hlt => hsound i hlt hi⟩
  have hfew : ∀ max, Limit.atMost 512 = .atMost max → bs.length ≤ max := by
    rintro _ ⟨⟩
    decide
  refine ⟨hleast, ?_, ?_⟩
  · exact (((check_names_first_fault {} bs (by decide)).2 hfew).2 _).2
      ⟨2, ⟨1, 1, 5⟩, hleast, rfl, rfl⟩
  · exact ((check_names_first_fault ⟨.atMost 3, true⟩ bs (by decide)).1 4 3).2
      ⟨rfl, rfl, by decide⟩

end Admission

/-! ### Points -/

/-- The point at index `i` is below the ground, or it does not lie to the right of the one before
it or keeps its height, or it is the last one and off the ground. -/
def Flawed (ps : List KeyPoint) (i : Nat) : Prop :=
  ∃ p ∈ ps[i]?, p.height < 0 ∨
    (0 < i ∧ ∃ q ∈ ps[i - 1]?, p.x ≤ q.x ∨ p.height = q.height) ∨
    (i + 1 = ps.length ∧ p.height ≠ 0)

theorem flawed_cons_zero_iff {p : KeyPoint} {ps : List KeyPoint} :
    Flawed (p :: ps) 0 ↔ p.height < 0 ∨ (ps = [] ∧ p.height ≠ 0) := by
  simp [Flawed, eq_comm]

theorem flawed_singleton_iff {p : KeyPoint} {i : Nat} :
    Flawed [p] i ↔ i = 0 ∧ p.height ≠ 0 := by
  cases i with
  | zero =>
      have hne : p.height < 0 → p.height ≠ 0 := Int64.ne_of_lt
      simpa [flawed_cons_zero_iff] using hne
  | succ i => simp [Flawed]

/-- Behind the first point, a flaw is one of the rest of the list, or a clash at the seam. -/
theorem flawed_cons_cons_succ_iff {prev p : KeyPoint} {ps : List KeyPoint} {i : Nat} :
    Flawed (prev :: p :: ps) (i + 1) ↔ Flawed (p :: ps) i ∨ (i = 0 ∧ Clashes prev p) := by
  cases i with
  | zero =>
      have hone : Flawed (prev :: p :: ps) 1 ↔
          p.height < 0 ∨ Clashes prev p ∨ (ps = [] ∧ p.height ≠ 0) := by
        simp [Flawed, Clashes, eq_comm]
      rw [hone, flawed_cons_zero_iff, or_assoc, or_comm (a := Clashes prev p)]
      simp
  | succ i => simp [Flawed]

/-- Behind a point that is not below the ground, the check reports the first flaw. -/
theorem flawAfter_eq_some_iff {prev : KeyPoint} {index k : Nat} {ps : List KeyPoint}
    (h : 0 ≤ prev.height) :
    flawAfter prev index ps = some k ↔
      ∃ i, IsLeast {i | Flawed (prev :: ps) i} i ∧ k = index + i := by
  induction ps generalizing prev index with
  | nil =>
      -- `prev` is the last point, and the ground is all that is left to check.
      rw [flawAfter]
      split
      next hground =>
        have hnone : ∀ i, ¬ Flawed [prev] i := fun i hi => (flawed_singleton_iff.1 hi).2 hground
        simp [hnone, IsLeast]
      next hground =>
        rw [exists_isLeast_iff_of_zero (flawed_singleton_iff.2 ⟨rfl, hground⟩)]
        simp [eq_comm]
  | cons p ps ih =>
      -- Another point follows, so `prev` has no flaw, and its height matters to `p` alone.
      have hfirst : ¬ Flawed (prev :: p :: ps) 0 := by
        simp [flawed_cons_zero_iff, Int64.not_lt.2 h]
      rw [flawAfter, exists_isLeast_iff_of_not_zero hfirst]
      simp only [flawed_cons_cons_succ_iff]
      split
      next hflaw =>
        have hzero : Flawed (p :: ps) 0 ∨ 0 = 0 ∧ Clashes prev p :=
          hflaw.imp (fun hp => flawed_cons_zero_iff.2 (.inl hp)) (⟨rfl, ·⟩)
        rw [exists_isLeast_iff_of_zero hzero]
        simp [eq_comm]
      next hflaw =>
        obtain ⟨hp, hclash⟩ := not_or.1 hflaw
        rw [ih (Int64.not_lt.1 hp)]
        simp only [hclash, and_false, or_false, Nat.add_assoc, Nat.add_comm 1]

/-- **The check reports the first flaw.** -/
theorem firstFlaw_eq_some_iff {ps : List KeyPoint} {i : Nat} :
    firstFlaw ps = some i ↔ IsLeast {i | Flawed ps i} i := by
  cases ps with
  | nil => simp [firstFlaw, Flawed, IsLeast]
  | cons p ps =>
      rw [firstFlaw]
      split
      next h =>
        have hzero : Flawed (p :: ps) 0 := flawed_cons_zero_iff.2 (.inl h)
        rw [Option.some.injEq]
        constructor
        · rintro rfl
          exact isLeast_zero hzero
        · exact (isLeast_zero hzero).unique
      next h => simp [flawAfter_eq_some_iff (Int64.not_lt.1 h)]

theorem Skyline.ofPoints_eq_error_iff {points : Array KeyPoint} {e : Refusal} :
    ofPoints points = .error e ↔
      ∃ i, IsLeast {i | Flawed points.toList i} i ∧ e = .malformed i := by
  simp only [← firstFlaw_eq_some_iff]
  rw [ofPoints]
  cases firstFlaw points.toList with
  | none => simp
  | some index => simp [eq_comm]

/-- **Exactly which lists of points are refused, and where.**  A list passes as it is exactly if it
is well-formed, and otherwise the first flawed point is reported. -/
theorem Skyline.ofPoints_names_first_flaw (points : Array KeyPoint) :
    (∀ sky, ofPoints points = .ok sky ↔
      sky = ⟨points⟩ ∧ points.toList.Pairwise (·.x < ·.x) ∧
        (points.toList.map (·.height)).IsChain (· ≠ ·) ∧ (∀ p ∈ points.toList, 0 ≤ p.height) ∧
        (points = #[] ∨ ∃ p, points.back? = some p ∧ p.height = 0)) ∧
      ∀ e, ofPoints points = .error e ↔
        ∃ i, IsLeast {i | Flawed points.toList i} i ∧ e = .malformed i := by
  refine ⟨?_, fun e => ofPoints_eq_error_iff⟩
  intro sky
  rw [ofPoints_eq_ok_iff, wellFormed_toList_iff, and_comm]

end Cityscape
