/-
**The area inside an outline.**

The outline of a skyline follows the contour from left to right and returns along the ground.  It
is a polygon with corners at integers (`Cityscape.corners`), drawn through some conversion of
coordinates.  Its corners alone tell the area inside, by the sum of the cross products along its
edges (`Cityscape.shoelace`); the sign is negative because the polygon runs clockwise.  The
buildings tell the same area by their height, added up over all integers (`Cityscape.heightOver`).

The two are compared strip by strip.  From each key point to the next the contour is level, and
such a strip has an area that can be read off the two points (`Cityscape.strips`).  Along the
corners the strips come up by summation by parts: an edge up or down counts `x` times the change of
height, an edge to the right counts a strip, and on a contour that starts and ends on the ground
these two kinds of edges add up to the same.  Over the integers they come up by cutting the sum at
the key points.

Main definitions:

* `Cityscape.Corner`, `Cityscape.corners` — **the polygon** of a list of key points;
* `Cityscape.shoelace` — twice the signed area inside a polygon;
* `Cityscape.heightOver` — the height of buildings over any integer;
* `Cityscape.strips` — the area below a list of key points, strip by strip.

Main results:

* `Cityscape.strokes_eq` — an outline draws the corners of its polygon;
* `Cityscape.shoelace_corners` — the corners of a list that ends on the ground tell its strips;
* `Cityscape.finsum_heightOver` — so do the heights over all integers;
* `Cityscape.Session.outline_encloses_union` — **the outline of an answer is a polygon around the
  buildings**.
-/

import Cityscape.Binary64
import Cityscape.Drawing
import Cityscape.Proofs.Independence
import Mathlib.Algebra.BigOperators.Finprod
import Mathlib.Data.Int.ConditionallyCompleteOrder
import Mathlib.Data.Int.Interval
import Mathlib.Tactic.Ring

set_option relaxedAutoImplicit false
set_option autoImplicit false

namespace Cityscape

/-! ### The polygon of an outline -/

/-- A corner of a polygon, before it is drawn. -/
structure Corner where
  /-- How far to the right it is. -/
  x : Int64
  /-- How far above the ground it is. -/
  y : Int64
  deriving DecidableEq, Repr

/-- The corners over points that follow a contour at `height`: at each of them one at the height
before and one at its own. -/
def cornersFrom (height : Int64) : List KeyPoint → List Corner
  | [] => []
  | p :: ps => ⟨p.x, height⟩ :: ⟨p.x, p.height⟩ :: cornersFrom p.height ps

/-- **The polygon of a list of key points**, from the ground below the first of them. -/
def corners : List KeyPoint → List Corner
  | [] => []
  | p :: ps => ⟨p.x, 0⟩ :: cornersFrom 0 (p :: ps)

/-- The strokes over key points lead to their corners and then back to the start. -/
theorem strokes_eq {α : Type} (coord : Int64 → α) (height : Int64) (ps : List KeyPoint) :
    strokes coord height ps =
      (cornersFrom height ps).map (fun c => .line (coord c.x) (coord c.y)) ++ [.close] := by
  induction ps generalizing height with
  | nil => rfl
  | cons p ps ih => rw [strokes, ih, cornersFrom, List.map_cons, List.map_cons]; rfl

theorem length_cornersFrom (height : Int64) (ps : List KeyPoint) :
    (cornersFrom height ps).length = 2 * ps.length := by
  induction ps generalizing height with
  | nil => rfl
  | cons p ps ih =>
      rw [cornersFrom, List.length_cons, List.length_cons, ih, List.length_cons]
      omega

/-- Every second corner is a key point. -/
theorem getElem?_cornersFrom (height : Int64) (ps : List KeyPoint) (i : Nat) :
    (cornersFrom height ps)[2 * i + 1]? = ps[i]?.map fun p => ⟨p.x, p.height⟩ := by
  induction ps generalizing height i with
  | nil => rfl
  | cons p ps ih =>
      cases i with
      | zero => rfl
      | succ i => exact ih p.height i

/-- Edges run along the ground line or at a right angle to it. -/
theorem isChain_cornersFrom (c : Corner) (ps : List KeyPoint) :
    (c :: cornersFrom c.y ps).IsChain fun d e => d.x = e.x ∨ d.y = e.y := by
  induction ps generalizing c with
  | nil => exact .singleton c
  | cons p ps ih =>
      refine List.isChain_cons_cons.2 ⟨.inr rfl, List.isChain_cons_cons.2 ⟨.inl rfl, ?_⟩⟩
      exact ih ⟨p.x, p.height⟩

/-- The corners are at the coordinates of the key points. -/
theorem exists_mem_of_mem_cornersFrom {height : Int64} {ps : List KeyPoint} {c : Corner}
    (h : c ∈ cornersFrom height ps) : ∃ p ∈ ps, c.x = p.x := by
  induction ps generalizing height with
  | nil => exact absurd h List.not_mem_nil
  | cons p ps ih =>
      rw [cornersFrom, List.mem_cons, List.mem_cons] at h
      rcases h with rfl | rfl | h
      · exact ⟨p, List.mem_cons_self, rfl⟩
      · exact ⟨p, List.mem_cons_self, rfl⟩
      · obtain ⟨q, hq, hcq⟩ := ih h
        exact ⟨q, List.mem_cons_of_mem p hq, hcq⟩

/-- Coordinates of corners never decrease where those of the key points increase. -/
theorem pairwise_cornersFrom {height : Int64} {ps : List KeyPoint} (h : Ascending ps) :
    (cornersFrom height ps).Pairwise (·.x ≤ ·.x) := by
  induction ps generalizing height with
  | nil => exact .nil
  | cons p ps ih =>
      obtain ⟨hp, hps⟩ := ascending_cons.1 h
      have hright : ∀ c ∈ cornersFrom p.height ps, p.x ≤ c.x := by
        intro c hc
        obtain ⟨q, hq, hcq⟩ := exists_mem_of_mem_cornersFrom hc
        rw [hcq]
        exact Int64.le_of_lt (hp q hq)
      refine List.pairwise_cons.2 ⟨?_, List.pairwise_cons.2 ⟨hright, ih hps⟩⟩
      exact List.forall_mem_cons.2 ⟨Int64.le_refl p.x, hright⟩

/-- The last corner is at the height at which the key points end. -/
theorem getLast?_cornersFrom (height : Int64) (ps : List KeyPoint) (hne : ps ≠ []) :
    (cornersFrom height ps).getLast?.map (·.y) = some (endHeight height ps) := by
  induction ps generalizing height with
  | nil => exact absurd rfl hne
  | cons p ps ih =>
      cases ps with
      | nil => rfl
      | cons q ps => exact ih p.height (List.cons_ne_nil q ps)

/-! ### The area by the corners -/

/-- What an edge from one corner to another counts: twice the area of the triangle that it spans
with the origin. -/
def cross (c d : Corner) : Int := c.x.toInt * d.y.toInt - d.x.toInt * c.y.toInt

/-- **Twice the signed area inside a polygon**: the sum over its edges, the one from the last
corner back to the first one included. -/
def shoelace (cs : List Corner) : Int := (List.zipWith cross cs (cs.rotate 1)).sum

/-- What the edges along a row of corners count, from the corner `c` on. -/
def walk (c : Corner) : List Corner → Int
  | [] => 0
  | d :: ds => cross c d + walk d ds

theorem sum_zipWith_cross (c d : Corner) (cs : List Corner) :
    (List.zipWith cross (c :: cs) (cs ++ [d])).sum = walk c (cs ++ [d]) := by
  induction cs generalizing c with
  | nil => rfl
  | cons e cs ih => rw [List.cons_append, List.zipWith_cons_cons, List.sum_cons, ih, walk]

/-- The edges of a polygon lead from its first corner through all others and back. -/
theorem shoelace_cons (c : Corner) (cs : List Corner) :
    shoelace (c :: cs) = walk c (cs ++ [c]) := by
  rw [shoelace, List.rotate_cons_succ, List.rotate_zero, sum_zipWith_cross]

/-- **The area below a list of key points, strip by strip**: from `x` to the first of them it is at
`height`, and from each of them to the next at the height of the first one. -/
def strips (x height : Int64) : List KeyPoint → Int
  | [] => 0
  | p :: ps => (p.x.toInt - x.toInt) * height.toInt + strips p.x p.height ps

/-- **Summation by parts**: along the corners of points that end on the ground, every strip is
counted twice, and what remains is what the start counts. -/
theorem walk_cornersFrom {ps : List KeyPoint} {c d : Corner} (hend : endHeight c.y ps = 0)
    (hd : d.y = 0) :
    walk c (cornersFrom c.y ps ++ [d]) = -2 * strips c.x c.y ps - c.x.toInt * c.y.toInt := by
  induction ps generalizing c with
  | nil =>
      rw [endHeight_nil] at hend
      simp [cornersFrom, walk, cross, strips, hend, hd]
  | cons p ps ih =>
      have htail := ih (c := ⟨p.x, p.height⟩) hend
      simp only [cornersFrom, List.cons_append, walk, cross, strips, htail]
      ring

/-- **The corners of points that end on the ground tell their strips.** -/
theorem shoelace_corners {ps : List KeyPoint} (hend : endHeight 0 ps = 0) (x : Int64) :
    shoelace (corners ps) = -2 * strips x 0 ps := by
  cases ps with
  | nil => rfl
  | cons p ps =>
      have hwalk := walk_cornersFrom (c := ⟨p.x, 0⟩) (d := ⟨p.x, 0⟩) hend rfl
      rw [corners, shoelace_cons, hwalk]
      simp [strips]

/-! ### The area by the heights -/

/-- The height of buildings over any integer, and `0` where none of them stands. -/
def heightOver (bs : List Building) (x : Int) : Int :=
  (bs.filter fun b => b.left.toInt ≤ x ∧ x < b.right.toInt).foldr
    (fun b height => max b.height.toInt height) 0

theorem toInt_max (a b : Int64) : (max a b).toInt = max a.toInt b.toInt := by
  simp only [max_eq_ite, Int.max_def, Int64.le_iff_toInt_le]
  split <;> rfl

/-- Over a coordinate it is the height of the buildings there. -/
theorem heightOver_toInt (bs : List Building) (x : Int64) :
    heightOver bs x.toInt = (unionHeight bs x).toInt := by
  have hcovers : ∀ b : Building, decide (b.left.toInt ≤ x.toInt ∧ x.toInt < b.right.toInt) =
      decide (b.Covers x) := by
    intro b
    exact decide_eq_decide.2 (and_congr Int64.le_iff_toInt_le.symm Int64.lt_iff_toInt_lt.symm)
  have hfold : ∀ cs : List Building,
      cs.foldr (fun (b : Building) height => max b.height.toInt height) 0 =
        (cs.foldr (fun (b : Building) height => max b.height height) 0).toInt := by
    intro cs
    induction cs with
    | nil => rfl
    | cons c cs ih => rw [List.foldr_cons, List.foldr_cons, ih, toInt_max]
  rw [heightOver, unionHeight, hfold]
  simp only [hcovers]

/-- Buildings stand only over integers that are coordinates. -/
theorem support_heightOver_subset (bs : List Building) :
    Function.support (heightOver bs) ⊆
      Finset.Ico Int64.minValue.toInt Int64.maxValue.toInt := by
  intro x hx
  by_contra hout
  refine hx ?_
  have hnone : (bs.filter fun b => b.left.toInt ≤ x ∧ x < b.right.toInt) = [] := by
    refine List.filter_eq_nil_iff.2 fun b _ hb => hout ?_
    obtain ⟨hleft, hright⟩ := of_decide_eq_true hb
    rw [Finset.coe_Ico]
    exact ⟨le_trans b.left.minValue_le_toInt hleft, lt_of_lt_of_le hright b.right.toInt_le⟩
  rw [heightOver, hnone, List.foldr_nil]

/-- Every integer from one coordinate up to another is a coordinate. -/
theorem exists_toInt_eq {a b : Int64} {x : Int} (h : x ∈ Finset.Ico a.toInt b.toInt) :
    ∃ y : Int64, y.toInt = x ∧ a ≤ y ∧ y < b := by
  obtain ⟨hleft, hright⟩ := Finset.mem_Ico.1 h
  have hx : (Int64.ofInt x).toInt = x :=
    Int64.toInt_ofInt_of_le (le_trans a.le_toInt hleft) (lt_trans hright b.toInt_lt)
  refine ⟨.ofInt x, hx, ?_, ?_⟩
  · rwa [Int64.le_iff_toInt_le, hx]
  · rwa [Int64.lt_iff_toInt_lt, hx]

/-- **A sum over integers is cut at the key points**: what has the height of a list that ends on
the ground adds up to the strips of the list. -/
theorem sum_eq_strips {f : Int → Int} {ps : List KeyPoint} {a height : Int64} (hasc : Ascending ps)
    (ha : ∀ p ∈ ps, a ≤ p.x) (hend : endHeight height ps = 0)
    (hf : ∀ x, a ≤ x → f x.toInt = (heightFrom height ps x).toInt) :
    ∑ x ∈ Finset.Ico a.toInt Int64.maxValue.toInt, f x = strips a height ps := by
  induction ps generalizing a height with
  | nil =>
      rw [endHeight_nil] at hend
      refine Finset.sum_eq_zero fun x hx => ?_
      obtain ⟨y, rfl, hy, -⟩ := exists_toInt_eq hx
      rw [hf y hy, heightFrom_nil, hend, Int64.toInt_zero]
  | cons p ps ih =>
      obtain ⟨hp, hps⟩ := ascending_cons.1 hasc
      have hap : a.toInt ≤ p.x.toInt := Int64.le_iff_toInt_le.1 (ha p List.mem_cons_self)
      have hlevel : ∀ x ∈ Finset.Ico a.toInt p.x.toInt, f x = height.toInt := by
        intro x hx
        obtain ⟨y, rfl, hy, hyp⟩ := exists_toInt_eq hx
        rw [hf y hy, heightFrom_cons_of_lt hyp]
      have hfirst : ∑ x ∈ Finset.Ico a.toInt p.x.toInt, f x =
          (p.x.toInt - a.toInt) * height.toInt := by
        rw [Finset.sum_congr rfl hlevel, Finset.sum_const, Int.card_Ico, nsmul_eq_mul,
          Int.toNat_of_nonneg (Int.sub_nonneg_of_le hap)]
      have hrest : ∑ x ∈ Finset.Ico p.x.toInt Int64.maxValue.toInt, f x =
          strips p.x p.height ps := by
        refine ih hps (fun q hq => Int64.le_of_lt (hp q hq)) hend fun x hx => ?_
        rw [hf x (Int64.le_trans (ha p List.mem_cons_self) hx), heightFrom_cons_of_le hx]
      rw [← Finset.Ico_union_Ico_eq_Ico hap p.x.toInt_le,
        Finset.sum_union (Finset.Ico_disjoint_Ico_consecutive ..), hfirst, hrest, strips]

/-- **The heights over all integers tell the strips of the contour.** -/
theorem finsum_heightOver {bs : List Building} (h : ∀ b ∈ bs, b.IsValid) :
    ∑ᶠ x, heightOver bs x = strips Int64.minValue 0 (contour bs) := by
  have hcontour := isContour_contour h
  rw [finsum_eq_sum_of_support_subset _ (support_heightOver_subset bs)]
  refine sum_eq_strips hcontour.ascending (fun p _ => Int64.minValue_le p.x) hcontour.grounded ?_
  intro x _
  rw [heightOver_toInt, heightFrom_contour]

/-! ### Outlines of answers -/

namespace Session

/-- **The outline of an answer is a polygon around the buildings.**  Take any conversion of
coordinates that takes `0` to the ground, any history, and an admitted list of buildings.  The list
is answered, and unless the answer is empty its outline starts at a corner, leads to two corners
for each key point, and closes.  All edges are level or upright, the corners never go back to the
left, the closing edge lies on the ground, and every second corner behind the start is a key point.
The polygon runs clockwise around an area that is the height of the buildings, added up over all
integers. -/
theorem outline_encloses_union {α : Type} (coord : Int64 → α) (ground : α)
    (hground : coord 0 = ground) (a : Admission) (calls : List Call) (bs : List Building)
    (h : a.check bs = .ok ()) :
    (bs.length < 2 ^ 63 → ∃ sky, (((fresh a).afterAll calls).build bs).1 = .ok sky) ∧
      ∀ sky, (((fresh a).afterAll calls).build bs).1 = .ok sky → sky.points ≠ #[] →
        ∃ c cs, corners sky.points.toList = c :: cs ∧
          outline coord ground sky.points.toList =
            .start (coord c.x) (coord c.y) ::
              (cs.map fun d => .line (coord d.x) (coord d.y)) ++ [.close] ∧
          cs.length = 2 * sky.points.size ∧
          ((c :: cs).IsChain fun d e => d.x = e.x ∨ d.y = e.y) ∧
          (c :: cs).Pairwise (·.x ≤ ·.x) ∧
          (c.y = 0 ∧ cs.getLast?.map (·.y) = some 0) ∧
          (∀ i, cs[2 * i + 1]? = sky.points[i]?.map fun p => ⟨p.x, p.height⟩) ∧
          (Function.support (heightOver bs)).Finite ∧
          shoelace (c :: cs) = -2 * ∑ᶠ x, heightOver bs x := by
  subst hground
  have hvalid := (Admission.check_eq_ok_iff.1 h).2.1
  constructor
  · intro hlen
    refine ⟨_, build_of_ok (balanced_afterAll (balanced_fresh a) calls) hlen ?_⟩
    rw [admission_afterAll]
    exact h
  · intro sky hsky hne
    obtain ⟨-, rfl⟩ := eq_contour_of_build (balanced_afterAll (balanced_fresh a) calls) hsky
    have hcontour := isContour_contour hvalid
    have harea : shoelace (corners (contour bs)) = -2 * ∑ᶠ x, heightOver bs x := by
      rw [shoelace_corners hcontour.grounded Int64.minValue, finsum_heightOver hvalid]
    have hfinite : (Function.support (heightOver bs)).Finite :=
      (Finset.finite_toSet _).subset (support_heightOver_subset bs)
    -- All that is left is about the corners over the points of the contour.
    have hasc := hcontour.ascending
    have hend := hcontour.grounded
    simp only [List.getElem?_toArray, List.size_toArray]
    generalize contour bs = ps at *
    cases ps with
    | nil => exact absurd rfl hne
    | cons p ps =>
        refine ⟨⟨p.x, 0⟩, cornersFrom 0 (p :: ps), rfl, ?_, length_cornersFrom .., ?_, ?_,
          ⟨rfl, ?_⟩, ?_, hfinite, harea⟩
        · rw [outline, strokes_eq, List.cons_append]
        · exact isChain_cornersFrom ⟨p.x, 0⟩ (p :: ps)
        · have hcorners : (cornersFrom 0 (p :: ps)).Pairwise (·.x ≤ ·.x) :=
            pairwise_cornersFrom hasc
          refine List.pairwise_cons.2 ⟨?_, hcorners⟩
          exact List.forall_mem_cons.2 ⟨Int64.le_refl p.x, (List.pairwise_cons.1 hcorners).1⟩
        · rw [getLast?_cornersFrom 0 (p :: ps) (List.cons_ne_nil p ps), hend]
        · exact getElem?_cornersFrom 0 (p :: ps)

/-- Two buildings that overlap, drawn in binary64 numbers: the lower one sticks out by an area of
`4`, and the higher one has an area of `12`. -/
theorem outline_encloses_union_of_two :
    let bs : List Building := [⟨0, 4, 2⟩, ⟨2, 6, 3⟩]
    let s := (fresh {}).afterAll [.run [⟨0, 9, 1⟩]]
    Binary64.ofInt64 0 = .zero ∧
      ∃ sky c cs, (s.build bs).1 = .ok sky ∧
        outline Binary64.ofInt64 .zero sky.points.toList =
          .start (.ofInt64 c.x) (.ofInt64 c.y) ::
            (cs.map fun d => .line (.ofInt64 d.x) (.ofInt64 d.y)) ++ [.close] ∧
        shoelace (c :: cs) = -32 ∧ ∑ᶠ x, heightOver bs x = 16 := by
  intro bs s
  have hzero : Binary64.ofInt64 0 = .zero := by decide
  obtain ⟨hanswered, houtline⟩ :=
    outline_encloses_union Binary64.ofInt64 .zero hzero {} [.run [⟨0, 9, 1⟩]] bs rfl
  obtain ⟨sky, hsky⟩ := hanswered (by decide)
  obtain ⟨-, heq⟩ := eq_contour_of_build (balanced_afterAll (balanced_fresh {}) _) hsky
  have hpoints : sky.points.toList = [⟨0, 2⟩, ⟨2, 3⟩, ⟨6, 0⟩] := by
    rw [heq]
    decide
  have hne : sky.points ≠ #[] := by
    intro hempty
    rw [hempty] at hpoints
    nomatch hpoints
  obtain ⟨c, cs, hcorners, hdrawn, -, -, -, -, -, -, harea⟩ := houtline sky hsky hne
  have hshoelace : shoelace (c :: cs) = -32 := by
    rw [← hcorners, hpoints]
    decide
  exact ⟨hzero, sky, c, cs, hsky, hdrawn, hshoelace, by omega⟩

end Session

end Cityscape
