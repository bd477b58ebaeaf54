/-
**Splitting a region again and again.**

The halves of a region come from one product, one sum and one difference, and each of them may be
cut off by itself.  Two things hold whatever happens.  The halves are in the other arena, so they
overlap the region never; and the second half starts at the very slot number at which the first one
stops, cut off or not (`Cityscape.Region.stop_halves_fst`), so they never overlap each other.

That the halves make up the region is another matter, since a first half may ask for more than
there is.  If it does not, the second half stops where the region does, again cut off or not.
Nothing more is needed for splitting to go on: the halves may be split by any sizes, equal or not,
down to regions without slots.  What is left when one stops, now here and now there, are the
regions at a cut through the tree of all splits.  Read from left to right, each of them starts
where the one before it stops.  This says more than that their slots are those of the region, one
behind the other, because it gives regions without slots a place as well.

Main definitions:

* `Cityscape.Splitting`, `Cityscape.Splitting.Fits` — a tree of splits, none of which asks for more
  than there is;
* `Cityscape.Splitting.paths`, `Cityscape.Splitting.IsCut` — the ways down a tree, and **nodes of
  which each way meets exactly one**;
* `Cityscape.Splitting.regions` — the regions at chosen nodes, from left to right;
* `Cityscape.Region.slotNumbers`, `Cityscape.Tiles` — the slot numbers of a region, and regions one
  behind the other.

Main results:

* `Cityscape.Region.not_overlaps_halves` — the halves keep apart, for any region and any size;
* `Cityscape.Splitting.tiles_regions` — **the regions at a cut lie one behind the other**, from the
  start of the region to its stop;
* `Cityscape.Region.repeated_splitting_is_safe` — both, and the slot numbers at a cut.
-/

import Cityscape.Proofs.Overlap
import Cityscape.Proofs.Regions
import Mathlib.Data.List.Infix

set_option relaxedAutoImplicit false
set_option autoImplicit false

namespace Cityscape

/-! ### Keeping apart -/

namespace Region

variable {r s : Region}

theorem not_overlaps_of_arena_ne (h : r.arena ≠ s.arena) : ¬ r.Overlaps s := fun hrs => h hrs.1

/-- A region overlaps none that starts where it stops. -/
theorem not_overlaps_of_stop_eq (h : r.stop = s.offset) : ¬ r.Overlaps s := by
  rintro ⟨-, -, -, -, hlt⟩
  rw [h, UInt64.lt_iff_toNat_lt] at hlt
  exact Nat.lt_irrefl _ hlt

/-- **The halves overlap neither each other nor the region**, also if slot numbers are cut off. -/
theorem not_overlaps_halves (r : Region) (m : Nat) :
    ¬ (r.halves m).1.Overlaps (r.halves m).2 ∧ ¬ (r.halves m).1.Overlaps r ∧
      ¬ (r.halves m).2.Overlaps r := by
  have harena : r.arena.other ≠ r.arena := by cases r.arena <;> simp [Arena.other]
  exact ⟨not_overlaps_of_stop_eq (r.stop_halves_fst m), not_overlaps_of_arena_ne harena,
    not_overlaps_of_arena_ne harena⟩

end Region

/-! ### Regions one behind the other -/

/-- The slot numbers of a region. -/
def Region.slotNumbers (r : Region) : List Nat :=
  List.range' r.offset.toNat (r.stop.toNat - r.offset.toNat)

/-- The regions lie one behind the other: the first one starts at slot `i`, each of the others
starts where the one before it stops, and the last one stops at slot `j`. -/
def Tiles (i : Nat) : List Region → Nat → Prop
  | [], j => i = j
  | r :: rs, j => r.offset.toNat = i ∧ Tiles r.stop.toNat rs j

namespace Tiles

variable {i j k : Nat} {rs ss : List Region}

theorem singleton (r : Region) : Tiles r.offset.toNat [r] r.stop.toNat := ⟨rfl, rfl⟩

theorem append (h : Tiles i rs j) (h' : Tiles j ss k) : Tiles i (rs ++ ss) k := by
  induction rs generalizing i with
  | nil =>
      rw [Tiles] at h
      rwa [h]
  | cons r rs ih => exact ⟨h.1, ih h.2⟩

theorem le (h : Tiles i rs j) : i ≤ j := by
  induction rs generalizing i with
  | nil => exact Nat.le_of_eq h
  | cons r rs ih =>
      obtain ⟨rfl, htail⟩ := h
      exact Nat.le_trans r.offset_le_stop (ih htail)

/-- **The slot numbers of regions that lie one behind the other** are all from the first to the
last. -/
theorem flatMap_slotNumbers (h : Tiles i rs j) :
    rs.flatMap Region.slotNumbers = List.range' i (j - i) := by
  induction rs generalizing i with
  | nil =>
      rw [Tiles] at h
      rw [h, Nat.sub_self]
      rfl
  | cons r rs ih =>
      obtain ⟨rfl, htail⟩ := h
      have hstart := r.offset_le_stop
      have hrest := htail.le
      have hnext : r.stop.toNat = r.offset.toNat + (r.stop.toNat - r.offset.toNat) := by omega
      have hsum : j - r.offset.toNat =
          (r.stop.toNat - r.offset.toNat) + (j - r.stop.toNat) := by omega
      rw [List.flatMap_cons, ih htail, Region.slotNumbers, hsum, ← List.range'_append_1, ← hnext]

end Tiles

/-! ### Trees of splits -/

/-- What is done with a region: it is left whole, or it is split, with two slots for each of
`leftSize` buildings for its first half, and both halves are dealt with further. -/
inductive Splitting where
  | whole
  | split (leftSize : Nat) (first second : Splitting)

/-- The step down to one of the halves. -/
inductive Turn where
  | first
  | second
  deriving DecidableEq, Repr

namespace Splitting

/-- No split asks for more slots than the region has that is split there. -/
def Fits : Splitting → Region → Prop
  | whole, _ => True
  | split m s t, r => 2 * m ≤ r.capacity.toNat ∧ s.Fits (r.halves m).1 ∧ t.Fits (r.halves m).2

instance Fits.decidable : (t : Splitting) → (r : Region) → Decidable (t.Fits r)
  | whole, _ => inferInstanceAs (Decidable True)
  | split m s t, r =>
      have := Fits.decidable s (r.halves m).1
      have := Fits.decidable t (r.halves m).2
      inferInstanceAs (Decidable (_ ∧ _ ∧ _))

/-- The ways from the root of a tree down to a region that is left whole.  A node is the list of
the turns that lead to it from the root, so the nodes on a way are its initial segments. -/
def paths : Splitting → List (List Turn)
  | whole => [[]]
  | split _ s t => s.paths.map (.first :: ·) ++ t.paths.map (.second :: ·)

/-- The regions at the chosen nodes of a tree, from left to right. -/
def regions : Splitting → (List Turn → Bool) → Region → List Region
  | whole, chosen, r => if chosen [] then [r] else []
  | split m s t, chosen, r =>
      (if chosen [] then [r] else []) ++
        (s.regions (chosen ∘ (.first :: ·)) (r.halves m).1 ++
          t.regions (chosen ∘ (.second :: ·)) (r.halves m).2)

/-- Every way down the tree meets exactly `k` of the chosen nodes. -/
def Meets (t : Splitting) (chosen : List Turn → Bool) (k : Nat) : Prop :=
  ∀ path ∈ t.paths, path.inits.countP chosen = k

instance (t : Splitting) (chosen : List Turn → Bool) (k : Nat) : Decidable (t.Meets chosen k) :=
  inferInstanceAs (Decidable (∀ path ∈ t.paths, _))

/-- **The chosen nodes are a cut through the tree**: every way down meets exactly one of them. -/
def IsCut (t : Splitting) (chosen : List Turn → Bool) : Prop := t.Meets chosen 1

instance (t : Splitting) (chosen : List Turn → Bool) : Decidable (t.IsCut chosen) :=
  inferInstanceAs (Decidable (t.Meets chosen 1))

variable {t s : Splitting} {chosen : List Turn → Bool} {r : Region} {m k : Nat}

/-! ### Ways down a tree -/

/-- Some way leads down a tree. -/
theorem exists_mem_paths (t : Splitting) : ∃ path, path ∈ t.paths := by
  induction t with
  | whole => exact ⟨[], List.mem_singleton_self _⟩
  | split m s t ihs _ =>
      obtain ⟨path, hpath⟩ := ihs
      exact ⟨.first :: path, List.mem_append_left _ (List.mem_map_of_mem hpath)⟩

/-- The nodes on a way are the root and the nodes on the rest of the way. -/
theorem countP_inits_cons (chosen : List Turn → Bool) (turn : Turn) (path : List Turn) :
    (turn :: path).inits.countP chosen =
      path.inits.countP (chosen ∘ (turn :: ·)) + if chosen [] = true then 1 else 0 := by
  rw [List.inits_cons, List.countP_cons, List.countP_map]

/-- Below the root, a way meets what it meets at all, less the root. -/
theorem meets_split_iff :
    (split m s t).Meets chosen (k + if chosen [] = true then 1 else 0) ↔
      s.Meets (chosen ∘ (.first :: ·)) k ∧ t.Meets (chosen ∘ (.second :: ·)) k := by
  simp only [Meets, paths, List.forall_mem_append, List.forall_mem_map, countP_inits_cons,
    Nat.add_right_cancel_iff]

theorem Meets.below_of_chosen (h : (split m s t).Meets chosen (k + 1)) (hroot : chosen [] = true) :
    s.Meets (chosen ∘ (.first :: ·)) k ∧ t.Meets (chosen ∘ (.second :: ·)) k := by
  rwa [← meets_split_iff (m := m), hroot, if_pos rfl]

theorem Meets.below_of_not_chosen (h : (split m s t).Meets chosen k) (hroot : chosen [] = false) :
    s.Meets (chosen ∘ (.first :: ·)) k ∧ t.Meets (chosen ∘ (.second :: ·)) k := by
  rwa [← meets_split_iff (m := m), hroot, if_neg Bool.false_ne_true]

/-- If no way meets a chosen node, the root is not chosen. -/
theorem Meets.root_not_chosen (h : t.Meets chosen 0) : chosen [] = false := by
  obtain ⟨path, hpath⟩ := t.exists_mem_paths
  have hnone := List.countP_eq_zero.1 (h path hpath) [] (by cases path <;> simp)
  simpa using hnone

/-- If no way meets a chosen node, no region is chosen. -/
theorem Meets.regions_eq_nil (h : t.Meets chosen 0) : t.regions chosen r = [] := by
  induction t generalizing chosen r with
  | whole => rw [regions, h.root_not_chosen, if_neg Bool.false_ne_true]
  | split m s t ihs iht =>
      have hroot := h.root_not_chosen
      obtain ⟨hs, ht⟩ := h.below_of_not_chosen hroot
      rw [regions, hroot, if_neg Bool.false_ne_true, ihs hs, iht ht]
      rfl

/-- **A cut through a split region** is its root, or a cut through each half. -/
theorem IsCut.regions_split (h : (split m s t).IsCut chosen) :
    (split m s t).regions chosen r = [r] ∨
      s.IsCut (chosen ∘ (.first :: ·)) ∧ t.IsCut (chosen ∘ (.second :: ·)) ∧
        (split m s t).regions chosen r = s.regions (chosen ∘ (.first :: ·)) (r.halves m).1 ++
          t.regions (chosen ∘ (.second :: ·)) (r.halves m).2 := by
  cases hroot : chosen [] with
  | true =>
      obtain ⟨hs, ht⟩ := Meets.below_of_chosen h hroot
      left
      rw [regions, hroot, if_pos rfl, hs.regions_eq_nil, ht.regions_eq_nil]
      rfl
  | false =>
      obtain ⟨hs, ht⟩ := Meets.below_of_not_chosen h hroot
      refine .inr ⟨hs, ht, ?_⟩
      rw [regions, hroot, if_neg Bool.false_ne_true, List.nil_append]

/-- A cut through a region that is left whole is the region. -/
theorem IsCut.regions_whole (h : whole.IsCut chosen) : whole.regions chosen r = [r] := by
  have hroot := h [] (List.mem_singleton_self _)
  cases hchosen : chosen [] with
  | true => rw [regions, hchosen, if_pos rfl]
  | false => simp [hchosen] at hroot

/-! ### The regions at a cut -/

/-- **The regions at a cut lie one behind the other**, from the start of the region to its stop. -/
theorem tiles_regions (hfits : t.Fits r) (hcut : t.IsCut chosen) :
    Tiles r.offset.toNat (t.regions chosen r) r.stop.toNat := by
  induction t generalizing chosen r with
  | whole =>
      rw [hcut.regions_whole]
      exact .singleton r
  | split m s t ihs iht =>
      obtain ⟨hm, hfirst, hsecond⟩ := hfits
      rcases hcut.regions_split (r := r) with hroot | ⟨hs, ht, hbelow⟩
      · rw [hroot]
        exact .singleton r
      · have hleft := ihs hfirst hs
        have hright := iht hsecond ht
        rw [Region.halves_fst_offset, Region.stop_halves_fst] at hleft
        rw [(Region.Stretches.of_two_mul_le hm).stop_right (Nat.le_refl m)] at hright
        rw [hbelow]
        exact hleft.append hright

/-- If the slot after the region has a number, no region at a chosen node is cut off. -/
theorem numbered_of_mem_regions (hr : r.offset.toNat + r.capacity.toNat ≤ lastSlot)
    (hfits : t.Fits r) :
    ∀ s ∈ t.regions chosen r, s.offset.toNat + s.capacity.toNat ≤ lastSlot := by
  induction t generalizing chosen r with
  | whole =>
      intro s hs
      rw [regions, List.mem_ite_nil_right, List.mem_singleton] at hs
      rwa [hs.2]
  | split m s t ihs iht =>
      obtain ⟨hm, hfirst, hsecond⟩ := hfits
      have hroom : r.HasRoom m lastSlot := ⟨hm, hr, hr⟩
      intro u hu
      rw [regions, List.mem_append, List.mem_append, List.mem_ite_nil_right,
        List.mem_singleton] at hu
      rcases hu with ⟨-, rfl⟩ | hu | hu
      · exact hr
      · exact ihs (hroom.left (Nat.le_refl m)).numbered hfirst u hu
      · exact iht (hroom.right (Nat.le_refl m)).numbered hsecond u hu

end Splitting

/-- **Splitting a region again and again is safe.**  Whatever the region and however many slots its
first half asks for, the halves are in the other arena and overlap neither each other nor the
region.  If no split asks for more than there is, the regions at any cut through a tree of splits,
read from left to right, lie one behind the other from the start of the region to its stop, and
their slot numbers are those of the region.  If the slot after the region has a number, all of
these stops are the sums that they stand for. -/
theorem Region.repeated_splitting_is_safe (r : Region) :
    (∀ leftSize : Nat,
      ((r.halves leftSize).1.arena = r.arena.other ∧ (r.halves leftSize).2.arena = r.arena.other) ∧
        ¬ (r.halves leftSize).1.Overlaps (r.halves leftSize).2 ∧
        ¬ (r.halves leftSize).1.Overlaps r ∧ ¬ (r.halves leftSize).2.Overlaps r) ∧
      ∀ (t : Splitting) (chosen : List Turn → Bool), t.Fits r → t.IsCut chosen →
        Tiles r.offset.toNat (t.regions chosen r) r.stop.toNat ∧
        (t.regions chosen r).flatMap slotNumbers = r.slotNumbers ∧
        (r.offset.toNat + r.capacity.toNat < 2 ^ 64 → ∀ s ∈ t.regions chosen r,
          s.stop.toNat = s.offset.toNat + s.capacity.toNat) := by
  refine ⟨fun m => ⟨⟨rfl, rfl⟩, r.not_overlaps_halves m⟩, fun t chosen hfits hcut => ?_⟩
  have htiles := Splitting.tiles_regions hfits hcut
  refine ⟨htiles, htiles.flatMap_slotNumbers, fun hr s hs => ?_⟩
  have hnumbered : r.offset.toNat + r.capacity.toNat ≤ lastSlot := Nat.le_pred_of_lt hr
  rw [toNat_stop, Nat.min_eq_left (Splitting.numbered_of_mem_regions hnumbered hfits s hs)]

/-- Close to the largest slot number, a region is split three times, once by nothing at all, and
cut at different depths. -/
theorem Region.repeated_splitting_is_safe_at_mixed_depths :
    let r : Region := ⟨.two, 18446744073709551604, 10⟩
    let t : Splitting :=
      .split 2 (.split 2 .whole .whole) (.split 1 .whole (.split 0 .whole .whole))
    let chosen : List Turn → Bool :=
      ([[.first], [.second, .first], [.second, .second, .first],
        [.second, .second, .second]].contains ·)
    t.regions chosen r = [⟨.one, 18446744073709551604, 4⟩, ⟨.two, 18446744073709551608, 2⟩,
        ⟨.one, 18446744073709551610, 0⟩, ⟨.one, 18446744073709551610, 4⟩] ∧
      (t.regions chosen r).flatMap slotNumbers = r.slotNumbers ∧
      ∀ s ∈ t.regions chosen r, s.stop.toNat = s.offset.toNat + s.capacity.toNat := by
  intro r t chosen
  have hfits : t.Fits r := by decide +kernel
  have hcut : t.IsCut chosen := by decide +kernel
  obtain ⟨-, hslots, hstops⟩ := (repeated_splitting_is_safe r).2 t chosen hfits hcut
  exact ⟨by decide +kernel, hslots, hstops (by decide +kernel)⟩

end Cityscape
