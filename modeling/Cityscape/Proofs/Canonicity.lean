/-
**Buildings with the same contour.**

The contour of buildings depends on their height alone, and it shows this height everywhere.  So two
lists of buildings have the same contour exactly if they are at the same height at every coordinate
(`Cityscape.contour_eq_iff`), however they are ordered and cut into halves on the way.

A building that nowhere sticks out of others is hidden by them (`Cityscape.Building.HiddenBy`).
Hidden buildings do not change the height, and each building of a list is hidden by the list
itself; so the order of a list, copies in it and hidden buildings do not matter for the contour.

Main definitions:

* `Cityscape.Building.HiddenBy` — a building nowhere sticks out of some others;
* `Cityscape.byLeft` — buildings sorted by their left edges;
* `Cityscape.Session.Answers` — what a session makes of a list of buildings after any history.

Main results:

* `Cityscape.unionHeight_eq_of_hidden` — buildings that hide each other are at the same height;
* `Cityscape.contour_eq_iff` — **the contours are equal exactly if the heights are**;
* `Cityscape.Session.answers_eq_iff_height_eq` — **the same for the answers of sessions**.
-/

import Cityscape.Proofs.History
import Cityscape.Proofs.Merging

set_option relaxedAutoImplicit false
set_option autoImplicit false

namespace Cityscape

/-! ### Hidden buildings -/

/-- The building nowhere sticks out of the buildings of a list. -/
def Building.HiddenBy (b : Building) (bs : List Building) : Prop :=
  ∀ x, b.Covers x → b.height ≤ unionHeight bs x

theorem Building.hiddenBy_of_mem {b : Building} {bs : List Building} (h : b ∈ bs) :
    b.HiddenBy bs := by
  intro x hx
  exact le_unionHeight h hx

variable {bs cs extra : List Building}

theorem unionHeight_le_of_hidden (h : ∀ b ∈ bs, b.HiddenBy cs) (x : Int64) :
    unionHeight bs x ≤ unionHeight cs x := by
  refine unionHeight_le (unionHeight_nonneg cs x) ?_
  intro b hb hx
  exact h b hb x hx

/-- **Buildings that hide each other are at the same height.** -/
theorem unionHeight_eq_of_hidden (hb : ∀ b ∈ bs, b.HiddenBy cs) (hc : ∀ c ∈ cs, c.HiddenBy bs)
    (x : Int64) : unionHeight bs x = unionHeight cs x :=
  Int64.le_antisymm (unionHeight_le_of_hidden hb x) (unionHeight_le_of_hidden hc x)

theorem unionHeight_perm (h : bs.Perm cs) (x : Int64) : unionHeight bs x = unionHeight cs x := by
  refine unionHeight_eq_of_hidden ?_ ?_ x
  · intro b hb
    exact Building.hiddenBy_of_mem (h.mem_iff.1 hb)
  · intro c hc
    exact Building.hiddenBy_of_mem (h.mem_iff.2 hc)

theorem unionHeight_append_hidden (h : ∀ b ∈ extra, b.HiddenBy bs) (x : Int64) :
    unionHeight (bs ++ extra) x = unionHeight bs x := by
  refine unionHeight_eq_of_hidden ?_ ?_ x
  · intro b hb
    rcases List.mem_append.1 hb with hb | hb
    · exact Building.hiddenBy_of_mem hb
    · exact h b hb
  · intro b hb
    exact Building.hiddenBy_of_mem (List.mem_append_left extra hb)

/-! ### Equal contours -/

/-- **The contours of valid buildings are equal exactly if their heights are.** -/
theorem contour_eq_iff (hb : ∀ b ∈ bs, b.IsValid) (hc : ∀ c ∈ cs, c.IsValid) :
    contour bs = contour cs ↔ ∀ x, unionHeight bs x = unionHeight cs x := by
  constructor
  · intro h x
    rw [← heightFrom_contour, h, heightFrom_contour]
  · intro h
    refine (isContour_contour hb).eq_contour hc ?_
    intro x
    rw [heightFrom_contour, h]

theorem contour_perm (hb : ∀ b ∈ bs, b.IsValid) (h : bs.Perm cs) : contour bs = contour cs := by
  refine (contour_eq_iff hb ?_).2 (unionHeight_perm h)
  intro c hc
  exact hb c (h.mem_iff.2 hc)

/-! ### Sorting by left edges -/

/-- The buildings sorted by their left edges; where these are equal, in the given order. -/
def byLeft (bs : List Building) : List Building := bs.mergeSort fun b c => b.left ≤ c.left

theorem byLeft_perm (bs : List Building) : (byLeft bs).Perm bs := List.mergeSort_perm ..

theorem pairwise_byLeft (bs : List Building) : (byLeft bs).Pairwise (·.left ≤ ·.left) := by
  have htrans : ∀ a b c : Building, decide (a.left ≤ b.left) = true →
      decide (b.left ≤ c.left) = true → decide (a.left ≤ c.left) = true := by
    intro a b c hab hbc
    exact decide_eq_true (Int64.le_trans (of_decide_eq_true hab) (of_decide_eq_true hbc))
  have htotal : ∀ a b : Building,
      (decide (a.left ≤ b.left) || decide (b.left ≤ a.left)) = true := by
    intro a b
    rcases Int64.le_total a.left b.left with h | h <;> simp [h]
  exact (List.pairwise_mergeSort htrans htotal bs).imp of_decide_eq_true

/-- Sorted by left edges, admitted buildings are admitted also where order is required. -/
theorem Admission.check_byLeft {a : Admission} (h : a.check bs = .ok ()) :
    { a with ordered := true }.check (byLeft bs) = .ok () := by
  obtain ⟨hcount, hvalid, -⟩ := check_eq_ok_iff.1 h
  refine check_eq_ok_iff.2 ⟨?_, ?_, fun _ => pairwise_byLeft bs⟩
  · rwa [(byLeft_perm bs).length_eq]
  · intro b hb
    exact hvalid b ((byLeft_perm bs).mem_iff.1 hb)

/-! ### Answers of sessions -/

namespace Session

/-- A session on the terms `a` answers `bs` with the skyline `sky`, whatever it computed before. -/
def Answers (a : Admission) (bs : List Building) (sky : Skyline) : Prop :=
  ∀ calls, (((fresh a).afterAll calls).build bs).1 = .ok sky

/-- Admitted buildings are answered with their contour. -/
theorem answers_contour {a : Admission} (hlen : bs.length < 2 ^ 63) (h : a.check bs = .ok ()) :
    Answers a bs ⟨(contour bs).toArray⟩ := by
  intro calls
  refine build_of_ok (balanced_afterAll (balanced_fresh a) calls) hlen ?_
  rw [admission_afterAll]
  exact h

/-- **Answers are equal exactly if the buildings are at the same height everywhere**, on any terms
and after any histories.  So an admitted list gets the same answer in any other order, and with
copies of its buildings or with hidden buildings added; and where order is required, it gets this
answer once it is sorted. -/
theorem answers_eq_iff_height_eq (a₁ a₂ : Admission) (bs cs : List Building)
    (hbl : bs.length < 2 ^ 63) (hcl : cs.length < 2 ^ 63) (hb : a₁.check bs = .ok ())
    (hc : a₂.check cs = .ok ()) :
    ∃ sky₁ sky₂, Answers a₁ bs sky₁ ∧ Answers a₂ cs sky₂ ∧
      (sky₁.points.toList = sky₂.points.toList ↔ ∀ x, unionHeight bs x = unionHeight cs x) ∧
      (∀ extra, cs.Perm (bs ++ extra) → (∀ b ∈ extra, b ∈ bs ∨ b.HiddenBy bs) → sky₂ = sky₁) ∧
      Answers { a₁ with ordered := true } (byLeft bs) sky₁ := by
  have hbv := (Admission.check_eq_ok_iff.1 hb).2.1
  have hcv := (Admission.check_eq_ok_iff.1 hc).2.1
  refine ⟨_, _, answers_contour hbl hb, answers_contour hcl hc, contour_eq_iff hbv hcv, ?_, ?_⟩
  · intro extra hperm hextra
    have hhidden : ∀ b ∈ extra, b.HiddenBy bs := by
      intro b hb
      rcases hextra b hb with hmem | hhidden
      · exact Building.hiddenBy_of_mem hmem
      · exact hhidden
    have hheight : ∀ x, unionHeight cs x = unionHeight bs x := by
      intro x
      rw [unionHeight_perm hperm, unionHeight_append_hidden hhidden]
    rw [(contour_eq_iff hcv hbv).2 hheight]
  · have hsorted : contour (byLeft bs) = contour bs := (contour_perm hbv (byLeft_perm bs).symm).symm
    rw [← hsorted]
    refine answers_contour ?_ (Admission.check_byLeft hb)
    rwa [(byLeft_perm bs).length_eq]

theorem answers_eq_iff_height_eq_unsorted :
    ∃ sky, Answers { ordered := false } [⟨5, 9, 2⟩, ⟨1, 7, 4⟩] sky ∧
      Answers {} [⟨1, 7, 4⟩, ⟨2, 3, 1⟩, ⟨5, 9, 2⟩, ⟨5, 9, 2⟩] sky ∧
      Answers {} (byLeft [⟨5, 9, 2⟩, ⟨1, 7, 4⟩]) sky := by
  obtain ⟨sky₁, sky₂, h₁, h₂, -, hextra, hsorted⟩ :=
    answers_eq_iff_height_eq { ordered := false } {} [⟨5, 9, 2⟩, ⟨1, 7, 4⟩]
      [⟨1, 7, 4⟩, ⟨2, 3, 1⟩, ⟨5, 9, 2⟩, ⟨5, 9, 2⟩] (by decide) (by decide) rfl rfl
  -- The building from 2 to 3 is hidden, and the one from 5 to 9 stands there twice.
  have hhidden : Building.HiddenBy ⟨2, 3, 1⟩ [⟨5, 9, 2⟩, ⟨1, 7, 4⟩] := by
    rintro x ⟨hleft, hright⟩
    refine Int64.le_trans (b := 4) (by decide) (le_unionHeight (b := ⟨1, 7, 4⟩) (by decide) ?_)
    exact ⟨Int64.le_trans (b := 2) (by decide) hleft, Int64.lt_trans (b := 3) hright (by decide)⟩
  obtain rfl : sky₂ = sky₁ := hextra [⟨2, 3, 1⟩, ⟨5, 9, 2⟩] (by decide) (by simp [hhidden])
  exact ⟨sky₂, h₁, h₂, hsorted⟩

end Session

end Cityscape
