/-
**Only comparisons matter.**

Coordinates and heights are compared and never computed with.  So if all coordinates are replaced
by others in the same order, and all heights by others in the same order where the ground keeps its
height `0`, then everything that is computed is replaced likewise: what is admitted and what is
refused, at which building and for which cause, the points of a merge and the answers of a session.

The order has to be kept only on the values that occur, together with the ground, which comes in as
the height before the first point of a list and as the height behind a building.  A replacement may
be anything elsewhere, and it may take the values that occur to the ends of their range.  Therefore
each lemma on a step of the computation comes with one that says that the step brings in no new
values (`Cityscape.Drawn`).

Nothing is assumed about the lists of points or the buildings, which may be malformed or
degenerate; in particular a composition is followed through its recursion (`Cityscape.pointsIn`)
and not by the contour that it arrives at.

Main definitions:

* `Cityscape.IncreasingOn` — a function keeps the order of some values;
* `Cityscape.Relabelling`, `Cityscape.Relabelling.KeepsOrder` — new coordinates and new heights, and
  **that they keep the order of those that occur**;
* `Cityscape.Drawn` — all coordinates and heights of a list of points are among the given ones.

Main results:

* `Cityscape.Relabelling.map_merged`, `Cityscape.Relabelling.map_pointsIn`,
  `Cityscape.Relabelling.map_check` — merging, composing and admission commute with relabelling;
* `Cityscape.Session.only_comparisons_matter` — **so do the answers and refusals of sessions**, and
  the merge of any two lists.
-/

import Cityscape.Proofs.Independence
import Cityscape.Proofs.Merging

set_option relaxedAutoImplicit false
set_option autoImplicit false

namespace Cityscape

/-! ### Keeping the order of some values -/

/-- The function keeps the strict order of the values in a list. -/
def IncreasingOn (f : Int64 → Int64) (xs : List Int64) : Prop :=
  ∀ x ∈ xs, ∀ y ∈ xs, x < y → f x < f y

instance (f : Int64 → Int64) (xs : List Int64) : Decidable (IncreasingOn f xs) :=
  -- Only the values in the list are gone through, and not all numbers.
  @List.decidableBAll Int64 _ (fun _ => List.decidableBAll _ xs) xs

namespace IncreasingOn

variable {f : Int64 → Int64} {xs : List Int64} {x y : Int64}

theorem lt_iff (h : IncreasingOn f xs) (hx : x ∈ xs) (hy : y ∈ xs) : f x < f y ↔ x < y := by
  refine ⟨fun hf => ?_, h x hx y hy⟩
  rcases Int64.lt_or_le x y with hlt | hle
  · exact hlt
  · rcases Int64.lt_or_eq_of_le hle with hlt | rfl
    · exact absurd (h y hy x hx hlt) (Int64.lt_asymm hf)
    · exact absurd hf Int64.lt_irrefl

theorem le_iff (h : IncreasingOn f xs) (hx : x ∈ xs) (hy : y ∈ xs) : f x ≤ f y ↔ x ≤ y := by
  rw [← Int64.not_lt, ← Int64.not_lt, h.lt_iff hy hx]

theorem eq_iff (h : IncreasingOn f xs) (hx : x ∈ xs) (hy : y ∈ xs) : f x = f y ↔ x = y := by
  refine ⟨fun hf => ?_, congrArg f⟩
  have hxy := (h.le_iff hx hy).1 (hf ▸ Int64.le_refl _)
  have hyx := (h.le_iff hy hx).1 (hf ▸ Int64.le_refl _)
  exact Int64.le_antisymm hxy hyx

theorem max (h : IncreasingOn f xs) (hx : x ∈ xs) (hy : y ∈ xs) :
    max (f x) (f y) = f (Max.max x y) := by
  rw [max_eq_ite, max_eq_ite]
  simp only [h.le_iff hx hy]
  split <;> rfl

end IncreasingOn

/-- The larger of two heights is one of them. -/
theorem max_mem {heights : List Int64} {g h : Int64} (hg : g ∈ heights) (hh : h ∈ heights) :
    max g h ∈ heights := by
  rw [max_eq_ite]
  split
  next => exact hh
  next => exact hg

/-! ### Relabellings -/

/-- New coordinates and new heights; the ground keeps its height. -/
structure Relabelling where
  /-- The new coordinate. -/
  x : Int64 → Int64
  /-- The new height. -/
  height : Int64 → Int64
  /-- The ground keeps its height. -/
  ground : height 0 = 0

namespace Relabelling

variable (r : Relabelling)

/-- The relabelled point. -/
def point (p : KeyPoint) : KeyPoint := ⟨r.x p.x, r.height p.height⟩

/-- The relabelled building. -/
def building (b : Building) : Building := ⟨r.x b.left, r.x b.right, r.height b.height⟩

/-- The relabelled skyline. -/
def skyline (sky : Skyline) : Skyline := ⟨sky.points.map r.point⟩

/-- The relabelled cause of refusal: it is of the same kind and at the same place, and a building
that it shows is relabelled. -/
def refusal : Refusal → Refusal
  | .degenerate index b => .degenerate index (r.building b)
  | .overCapacity requested capacity => .overCapacity requested capacity
  | .unsorted index => .unsorted index
  | .malformed index => .malformed index

/-- The relabelled result of a computation that may be refused, where `f` relabels what it gives. -/
def result {α : Type} (f : α → α) : Except Refusal α → Except Refusal α
  | .ok a => .ok (f a)
  | .error e => .error (r.refusal e)

/-- The relabelling keeps the order of the given coordinates, and of the given heights together
with the ground. -/
structure KeepsOrder (xs heights : List Int64) : Prop where
  /-- Coordinates keep their order. -/
  x : IncreasingOn r.x xs
  /-- Heights and the ground keep their order. -/
  height : IncreasingOn r.height (0 :: heights)

end Relabelling

/-! ### Lists of points without other values -/

/-- The coordinates of the points are among `xs`, and their heights are among `heights` or on the
ground. -/
def Drawn (xs heights : List Int64) (ps : List KeyPoint) : Prop :=
  ∀ p ∈ ps, p.x ∈ xs ∧ p.height ∈ 0 :: heights

section

variable {xs heights : List Int64} {ps qs : List KeyPoint} {h₁ h₂ : Int64}

theorem drawn_cons {p : KeyPoint} :
    Drawn xs heights (p :: ps) ↔ (p.x ∈ xs ∧ p.height ∈ 0 :: heights) ∧ Drawn xs heights ps :=
  List.forall_mem_cons

theorem drawn_of_subset (h : ps ⊆ qs) : Drawn (qs.map (·.x)) (qs.map (·.height)) ps :=
  fun _ hp => ⟨List.mem_map_of_mem (h hp), List.mem_cons_of_mem _ (List.mem_map_of_mem (h hp))⟩

/-- A sweep brings in no new values. -/
theorem Drawn.swept (hp : Drawn xs heights ps) (hq : Drawn xs heights qs) (hh₁ : h₁ ∈ 0 :: heights)
    (hh₂ : h₂ ∈ 0 :: heights) : Drawn xs heights (swept h₁ h₂ ps qs) := by
  fun_induction Cityscape.swept h₁ h₂ ps qs with
  | case1 h₁ h₂ p ps q qs hlt ih =>
      obtain ⟨⟨hpx, hph⟩, hps⟩ := drawn_cons.1 hp
      exact drawn_cons.2 ⟨⟨hpx, max_mem hph hh₂⟩, ih hps hq hph hh₂⟩
  | case2 h₁ h₂ p ps q qs hlt hgt ih =>
      obtain ⟨⟨hqx, hqh⟩, hqs⟩ := drawn_cons.1 hq
      exact drawn_cons.2 ⟨⟨hqx, max_mem hh₁ hqh⟩, ih hp hqs hh₁ hqh⟩
  | case3 h₁ h₂ p ps q qs hlt hgt ih =>
      obtain ⟨⟨hpx, hph⟩, hps⟩ := drawn_cons.1 hp
      obtain ⟨⟨-, hqh⟩, hqs⟩ := drawn_cons.1 hq
      exact drawn_cons.2 ⟨⟨hpx, max_mem hph hqh⟩, ih hps hqs hph hqh⟩
  | case4 => exact hp
  | case5 => exact hq

theorem Drawn.sublist (hq : Drawn xs heights qs) (h : ps.Sublist qs) : Drawn xs heights ps :=
  fun p hp => hq p (h.subset hp)

theorem Drawn.merged (hp : Drawn xs heights ps) (hq : Drawn xs heights qs) :
    Drawn xs heights (merged ps qs) :=
  (hp.swept hq List.mem_cons_self List.mem_cons_self).sublist (changes_sublist _)

end

/-! ### Merging relabelled lists -/

namespace Relabelling

variable {r : Relabelling} {xs heights : List Int64}

theorem KeepsOrder.point_max (hr : r.KeepsOrder xs heights) (x : Int64) {g h : Int64}
    (hg : g ∈ 0 :: heights) (hh : h ∈ 0 :: heights) :
    ⟨r.x x, max (r.height g) (r.height h)⟩ = r.point ⟨x, max g h⟩ := by
  rw [hr.height.max hg hh, point]

/-- **The sweep of relabelled lists is the relabelled sweep.** -/
theorem map_swept (hr : r.KeepsOrder xs heights) {ps qs : List KeyPoint} {h₁ h₂ : Int64}
    (hp : Drawn xs heights ps) (hq : Drawn xs heights qs) (hh₁ : h₁ ∈ 0 :: heights)
    (hh₂ : h₂ ∈ 0 :: heights) :
    swept (r.height h₁) (r.height h₂) (ps.map r.point) (qs.map r.point) =
      (swept h₁ h₂ ps qs).map r.point := by
  fun_induction swept h₁ h₂ ps qs with
  | case1 h₁ h₂ p ps q qs hlt ih =>
      obtain ⟨⟨hpx, hph⟩, hps⟩ := drawn_cons.1 hp
      obtain ⟨⟨hqx, hqh⟩, hqs⟩ := drawn_cons.1 hq
      have hlt' : (r.point p).x < (r.point q).x := (hr.x.lt_iff hpx hqx).2 hlt
      rw [List.map_cons, List.map_cons, swept, if_pos hlt']
      exact congrArg₂ List.cons (hr.point_max p.x hph hh₂) (ih hps hq hph hh₂)
  | case2 h₁ h₂ p ps q qs hlt hgt ih =>
      obtain ⟨⟨hpx, hph⟩, hps⟩ := drawn_cons.1 hp
      obtain ⟨⟨hqx, hqh⟩, hqs⟩ := drawn_cons.1 hq
      have hlt' : ¬ (r.point p).x < (r.point q).x := mt (hr.x.lt_iff hpx hqx).1 hlt
      have hgt' : (r.point q).x < (r.point p).x := (hr.x.lt_iff hqx hpx).2 hgt
      rw [List.map_cons, List.map_cons, swept, if_neg hlt', if_pos hgt']
      exact congrArg₂ List.cons (hr.point_max q.x hh₁ hqh) (ih hp hqs hh₁ hqh)
  | case3 h₁ h₂ p ps q qs hlt hgt ih =>
      obtain ⟨⟨hpx, hph⟩, hps⟩ := drawn_cons.1 hp
      obtain ⟨⟨hqx, hqh⟩, hqs⟩ := drawn_cons.1 hq
      have hlt' : ¬ (r.point p).x < (r.point q).x := mt (hr.x.lt_iff hpx hqx).1 hlt
      have hgt' : ¬ (r.point q).x < (r.point p).x := mt (hr.x.lt_iff hqx hpx).1 hgt
      rw [List.map_cons, List.map_cons, swept, if_neg hlt', if_neg hgt']
      exact congrArg₂ List.cons (hr.point_max p.x hph hqh) (ih hps hqs hph hqh)
  | case4 => rw [List.map_nil, swept_nil_right]
  | case5 => rw [List.map_nil, swept_nil_left]

theorem map_changesFrom (hr : r.KeepsOrder xs heights) {ps : List KeyPoint} {height : Int64}
    (hp : Drawn xs heights ps) (hh : height ∈ 0 :: heights) :
    changesFrom (r.height height) (ps.map r.point) = (changesFrom height ps).map r.point := by
  induction ps generalizing height with
  | nil => rfl
  | cons p ps ih =>
      obtain ⟨⟨hpx, hph⟩, hps⟩ := drawn_cons.1 hp
      have hsame : (r.point p).height = r.height height ↔ p.height = height :=
        hr.height.eq_iff hph hh
      rw [List.map_cons, changesFrom, changesFrom]
      by_cases heq : p.height = height
      · rw [if_pos (hsame.2 heq), if_pos heq, ih hps hh]
      · rw [if_neg (mt hsame.1 heq), if_neg heq, List.map_cons]
        exact congrArg (r.point p :: ·) (ih hps hph)

theorem map_changes (hr : r.KeepsOrder xs heights) {ps : List KeyPoint} (hp : Drawn xs heights ps) :
    changes (ps.map r.point) = (changes ps).map r.point := by
  cases ps with
  | nil => rfl
  | cons p ps =>
      obtain ⟨⟨-, hph⟩, hps⟩ := drawn_cons.1 hp
      exact congrArg (r.point p :: ·) (map_changesFrom hr hps hph)

/-- **The merge of relabelled lists is the relabelled merge.**  The height before the first points
is that of the ground, which is why the ground has to keep its height. -/
theorem map_merged (hr : r.KeepsOrder xs heights) {ps qs : List KeyPoint} (hp : Drawn xs heights ps)
    (hq : Drawn xs heights qs) :
    merged (ps.map r.point) (qs.map r.point) = (merged ps qs).map r.point := by
  have hground : (0 : Int64) ∈ 0 :: heights := List.mem_cons_self
  have hswept := map_swept hr hp hq hground hground
  rw [r.ground] at hswept
  rw [merged, hswept, map_changes hr (hp.swept hq hground hground), merged]

end Relabelling

/-! ### Composing relabelled buildings -/

/-- The edges of the building are among `xs` and its height is among `heights`. -/
def Building.DrawnFrom (xs heights : List Int64) (b : Building) : Prop :=
  b.left ∈ xs ∧ b.right ∈ xs ∧ b.height ∈ heights

theorem Building.drawnFrom_of_mem {b : Building} {bs : List Building} (h : b ∈ bs) :
    b.DrawnFrom (edges bs) (bs.map (·.height)) :=
  ⟨mem_edges.2 ⟨b, h, .inl rfl⟩, mem_edges.2 ⟨b, h, .inr rfl⟩, List.mem_map_of_mem h⟩

section

variable {xs heights : List Int64} {bs : List Building} {out : Region}

theorem Building.DrawnFrom.rise_fall {b : Building} (h : b.DrawnFrom xs heights) :
    Drawn xs heights [⟨b.left, b.height⟩, ⟨b.right, 0⟩] := by
  obtain ⟨hleft, hright, hheight⟩ := h
  refine drawn_cons.2 ⟨⟨hleft, List.mem_cons_of_mem _ hheight⟩, ?_⟩
  exact drawn_cons.2 ⟨⟨hright, List.mem_cons_self⟩, by simp [Drawn]⟩

/-- A composition brings in no new values. -/
theorem drawn_pointsIn (hbs : ∀ b ∈ bs, b.DrawnFrom xs heights) {ps : List KeyPoint}
    (h : pointsIn out bs = .ok ps) : Drawn xs heights ps := by
  induction out, bs using halving_induction generalizing ps with
  | nil out =>
      rw [pointsIn] at h
      obtain rfl := Except.ok.inj h
      simp [Drawn]
  | single out b =>
      rw [pointsIn, Writer.accepted_eq_ok_iff] at h
      rw [← h.2]
      exact (hbs b List.mem_cons_self).rise_fall.sublist (changes_sublist _)
  | halves out bs htwo ihl ihr =>
      rw [pointsIn_of_two_le htwo] at h
      obtain ⟨left, hleft, h⟩ := bind_eq_ok_iff.1 h
      obtain ⟨right, hright, h⟩ := bind_eq_ok_iff.1 h
      obtain ⟨-, rfl⟩ := Writer.accepted_eq_ok_iff.1 h
      refine (ihl (fun b hb => hbs b (List.mem_of_mem_take hb)) hleft).merged ?_
      exact ihr (fun b hb => hbs b (List.mem_of_mem_drop hb)) hright

end

namespace Relabelling

variable {r : Relabelling} {xs heights : List Int64} {bs : List Building}

/-- A region has room for as many relabelled points as for others. -/
theorem map_accepted (r : Relabelling) (room : Nat) (ps : List KeyPoint) :
    Writer.accepted room (ps.map r.point) =
      r.result (List.map r.point) (Writer.accepted room ps) := by
  rw [Writer.accepted, Writer.accepted, List.length_map]
  split <;> rfl

theorem rise_fall_building (r : Relabelling) (b : Building) :
    [⟨(r.building b).left, (r.building b).height⟩, ⟨(r.building b).right, 0⟩] =
      [⟨b.left, b.height⟩, ⟨b.right, 0⟩].map r.point := by
  simp [point, building, r.ground]

/-- **Composing relabelled buildings arrives at the relabelled points**, or fails as it does for the
buildings themselves. -/
theorem map_pointsIn (hr : r.KeepsOrder xs heights) {out : Region}
    (hbs : ∀ b ∈ bs, b.DrawnFrom xs heights) :
    pointsIn out (bs.map r.building) = r.result (List.map r.point) (pointsIn out bs) := by
  induction out, bs using halving_induction with
  | nil out => rw [List.map_nil, pointsIn]; rfl
  | single out b =>
      have hdrawn := (hbs b List.mem_cons_self).rise_fall
      rw [List.map_singleton, pointsIn, pointsIn, rise_fall_building, map_changes hr hdrawn,
        map_accepted]
  | halves out bs htwo ihl ihr =>
      have hbl : ∀ b ∈ bs.take (leftSize bs.length), b.DrawnFrom xs heights :=
        fun b hb => hbs b (List.mem_of_mem_take hb)
      have hbr : ∀ b ∈ bs.drop (leftSize bs.length), b.DrawnFrom xs heights :=
        fun b hb => hbs b (List.mem_of_mem_drop hb)
      have hlen : (bs.map r.building).length = bs.length := List.length_map _
      rw [pointsIn_of_two_le (hlen.symm ▸ htwo), pointsIn_of_two_le htwo, hlen, ← List.map_take,
        ← List.map_drop, ihl hbl, ihr hbr]
      cases hleft : pointsIn (out.halves (leftSize bs.length)).1 (bs.take (leftSize bs.length)) with
      | error e => rfl
      | ok left =>
          cases hright : pointsIn (out.halves (leftSize bs.length)).2
              (bs.drop (leftSize bs.length)) with
          | error e => rfl
          | ok right =>
              have hmerged := map_merged hr (drawn_pointsIn hbl hleft) (drawn_pointsIn hbr hright)
              exact (congrArg _ hmerged).trans (map_accepted r out.room (merged left right))

/-! ### Admitting relabelled buildings -/

theorem isValid_building_iff (hr : r.KeepsOrder xs heights) {b : Building}
    (hb : b.DrawnFrom xs heights) : (r.building b).IsValid ↔ b.IsValid := by
  obtain ⟨hleft, hright, hheight⟩ := hb
  have hpos := hr.height.lt_iff List.mem_cons_self (List.mem_cons_of_mem _ hheight)
  rw [r.ground] at hpos
  exact and_congr (hr.x.lt_iff hleft hright) hpos

theorem misplaces_building_iff (hr : r.KeepsOrder xs heights) {a : Admission}
    {prev : Option Building} {b : Building} (hprev : ∀ p ∈ prev, p.DrawnFrom xs heights)
    (hb : b.DrawnFrom xs heights) :
    a.Misplaces (prev.map r.building) (r.building b) ↔ a.Misplaces prev b := by
  cases prev with
  | none => simp [Admission.Misplaces]
  | some p =>
      have hleft := hr.x.lt_iff hb.1 (hprev p rfl).1
      simp [Admission.Misplaces, building, hleft]

theorem map_checkFrom (hr : r.KeepsOrder xs heights) (a : Admission) {prev : Option Building}
    (index : Nat) (hprev : ∀ p ∈ prev, p.DrawnFrom xs heights)
    (hbs : ∀ b ∈ bs, b.DrawnFrom xs heights) :
    a.checkFrom (prev.map r.building) index (bs.map r.building) =
      r.result id (a.checkFrom prev index bs) := by
  induction bs generalizing prev index with
  | nil => rfl
  | cons b bs ih =>
      obtain ⟨hb, hbs⟩ := List.forall_mem_cons.1 hbs
      have hsome : ∀ p ∈ some b, p.DrawnFrom xs heights := by simpa using hb
      have hrest := ih (index + 1) hsome hbs
      rw [List.map_cons, Admission.checkFrom_cons, Admission.checkFrom_cons]
      simp only [isValid_building_iff hr hb, misplaces_building_iff hr hprev hb]
      split_ifs with hvalid hplace
      · rfl
      · exact hrest
      · rfl

/-- **Relabelled buildings are admitted if the buildings are**, and otherwise refused for the same
cause at the same place. -/
theorem map_check (hr : r.KeepsOrder xs heights) (a : Admission)
    (hbs : ∀ b ∈ bs, b.DrawnFrom xs heights) :
    a.check (bs.map r.building) = r.result id (a.check bs) := by
  have hnone : ∀ p ∈ (none : Option Building), p.DrawnFrom xs heights := by simp
  have hfrom := map_checkFrom hr a 0 hnone hbs
  rw [Admission.check_eq, Admission.check_eq, List.length_map]
  split_ifs
  · exact hfrom
  · rfl

end Relabelling

/-! ### Sessions -/

namespace Session

/-- **A computation on relabelled buildings has the relabelled result**, whatever is in storage. -/
theorem map_result {r : Relabelling} {s : Session} {bs : List Building} (hs : s.storage.Balanced)
    (hr : r.KeepsOrder (edges bs) (bs.map (·.height))) :
    (s.run (bs.map r.building)).result = r.result (Array.map r.point) (s.run bs).result := by
  have hdrawn : ∀ b ∈ bs, b.DrawnFrom (edges bs) (bs.map (·.height)) :=
    fun b hb => Building.drawnFrom_of_mem hb
  change (compute s.admission s.storage (bs.map r.building)).1 =
    r.result (Array.map r.point) (compute s.admission s.storage bs).1
  rw [result_compute hs, result_compute hs, List.length_map, r.map_check hr s.admission hdrawn,
    r.map_pointsIn hr hdrawn]
  cases s.admission.check bs with
  | error e => rfl
  | ok u =>
      cases pointsIn (.root bs.length) bs with
      | error e => rfl
      | ok ps => exact congrArg Except.ok List.map_toArray.symm

/-- **Only comparisons matter.**  If a relabelling keeps the order of the edges and of the heights
that occur, then a session admits the relabelled buildings if it admits the buildings, refuses them
otherwise for the same cause at the same place, and answers with the relabelled skyline; and if it
keeps the order of what occurs in two lists of points, which need not be well-formed, then their
merge is relabelled. -/
theorem only_comparisons_matter (r : Relabelling) :
    (∀ (a : Admission) (calls : List Call) (bs : List Building),
      r.KeepsOrder (edges bs) (bs.map (·.height)) →
        let s := (fresh a).afterAll calls
        a.check (bs.map r.building) = r.result id (a.check bs) ∧
          (s.build (bs.map r.building)).1 = r.result r.skyline (s.build bs).1 ∧
          (s.run (bs.map r.building)).result = r.result (Array.map r.point) (s.run bs).result) ∧
      ∀ left right : List KeyPoint,
        r.KeepsOrder ((left ++ right).map (·.x)) ((left ++ right).map (·.height)) →
          Skyline.empty.after
              (Skyline.collector.merge (left.map r.point) (right.map r.point)) =
            r.skyline (Skyline.empty.after (Skyline.collector.merge left right)) := by
  constructor
  · intro a calls bs hr s
    have hrun := map_result (balanced_afterAll (balanced_fresh a) calls) hr
    refine ⟨r.map_check hr a fun b hb => Building.drawnFrom_of_mem hb, ?_, hrun⟩
    rw [build, build, hrun]
    cases (s.run bs).result <;> rfl
  · intro left right hr
    have hleft : Drawn ((left ++ right).map (·.x)) ((left ++ right).map (·.height)) left :=
      drawn_of_subset (List.subset_append_left left right)
    have hright : Drawn ((left ++ right).map (·.x)) ((left ++ right).map (·.height)) right :=
      drawn_of_subset (List.subset_append_right left right)
    refine Skyline.eq_of_toList_eq ?_
    rw [Skyline.toList_after_merge_empty, r.map_merged hr hleft hright]
    exact (Array.toList_map.trans (congrArg _ (Skyline.toList_after_merge_empty left right))).symm

/-- The outer edges go to the ends of the range of coordinates, and the inner ones next to each
other. -/
theorem only_comparisons_matter_at_the_ends :
    let f : Int64 → Int64 := fun x =>
      if x ≤ 0 then Int64.minValue else if x ≤ 2 then 7 else if x ≤ 4 then 8 else Int64.maxValue
    let g : Int64 → Int64 := fun h => if h ≤ 0 then h else if h ≤ 3 then 1 else Int64.maxValue
    let r : Relabelling := ⟨f, g, rfl⟩
    let s := (fresh {}).afterAll [.run [⟨0, 9, 1⟩]]
    (s.build [⟨Int64.minValue, 8, 1⟩, ⟨7, Int64.maxValue, Int64.maxValue⟩]).1 =
        r.result r.skyline (s.build [⟨0, 4, 3⟩, ⟨2, 6, 5⟩]).1 ∧
      (s.build [⟨Int64.minValue, 8, 1⟩, ⟨Int64.maxValue, 7, -2⟩]).1 =
        r.result r.skyline (s.build [⟨0, 4, 3⟩, ⟨6, 2, -2⟩]).1 ∧
      Skyline.empty.after
          (Skyline.collector.merge [⟨8, -1⟩, ⟨7, 1⟩] [⟨Int64.maxValue, Int64.maxValue⟩]) =
        r.skyline (Skyline.empty.after (Skyline.collector.merge [⟨4, -1⟩, ⟨2, 3⟩] [⟨6, 5⟩])) := by
  intro f g r s
  have hadmitted : r.KeepsOrder (edges [⟨0, 4, 3⟩, ⟨2, 6, 5⟩]) [3, 5] :=
    ⟨by decide +kernel, by decide +kernel⟩
  have hrefused : r.KeepsOrder (edges [⟨0, 4, 3⟩, ⟨6, 2, -2⟩]) [3, -2] :=
    ⟨by decide +kernel, by decide +kernel⟩
  have hpoints : r.KeepsOrder [4, 2, 6] [-1, 3, 5] :=
    ⟨by decide +kernel, by decide +kernel⟩
  obtain ⟨hsessions, hmerge⟩ := only_comparisons_matter r
  exact ⟨(hsessions {} [.run [⟨0, 9, 1⟩]] _ hadmitted).2.1,
    (hsessions {} [.run [⟨0, 9, 1⟩]] _ hrefused).2.1,
    hmerge [⟨4, -1⟩, ⟨2, 3⟩] [⟨6, 5⟩] hpoints⟩

end Session

end Cityscape
