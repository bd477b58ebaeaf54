/-
**What is in every slot after a computation.**

The calls of a computation write over each other: the halves of a half use the same slots as the
whole, and of a longer contour that was there before a tail may stick out.  What is left can be
pictured as layers.  Every call of the plan puts the contour of its own buildings in place, and in
a slot the contour of the call that is nested least deep lies on top; where no contour reaches, the
slot holds what it held before the computation.

The proof follows the halving.  The two halves of a call never reach the same slot, so their layers
are put side by side (`Cityscape.Shows.append`); the call itself is nested less deep than all calls
below it and writes last, so it lies on top of them (`Cityscape.Shows.cons`).

Main definitions:

* `Cityscape.Placement.Reaches`, `Cityscape.Topmost` — the contour of a call reaches a slot, and
  lies on top there;
* `Cityscape.Shows` — a slot shows what lies on top.

Main results:

* `Cityscape.shows_composed` — the slots that a composition leaves;
* `Cityscape.Session.slots_after_build` — **the content of every slot after a computation**.
-/

import Cityscape.Proofs.History
import Cityscape.Proofs.Plan

set_option relaxedAutoImplicit false
set_option autoImplicit false

namespace Cityscape

/-! ### Layers -/

/-- The first `len` points of a call reach slot `j` of the arena `a`. -/
def Placement.Reaches (p : Placement) (len : Nat) (a : Arena) (j : Nat) : Prop :=
  p.region.arena = a ∧ p.region.offset.toNat ≤ j ∧ j < p.region.offset.toNat + len

instance (p : Placement) (len : Nat) (a : Arena) (j : Nat) : Decidable (p.Reaches len a j) :=
  inferInstanceAs (Decidable (_ ∧ _ ∧ _))

/-- Of the calls `ps` that reach a slot with their skylines, `p` is the one nested least deep. -/
structure Topmost (sky : Placement → List KeyPoint) (ps : List Placement) (a : Arena) (j : Nat)
    (p : Placement) : Prop where
  /-- It is one of the calls. -/
  mem : p ∈ ps
  /-- It reaches the slot. -/
  reaches : p.Reaches (sky p).length a j
  /-- All others that reach the slot are nested deeper. -/
  least : ∀ q ∈ ps, q.Reaches (sky q).length a j → q = p ∨ p.depth < q.depth

instance (sky : Placement → List KeyPoint) (ps : List Placement) (a : Arena) (j : Nat)
    (p : Placement) : Decidable (Topmost sky ps a j p) :=
  decidable_of_iff (p ∈ ps ∧ p.Reaches (sky p).length a j ∧
      ∀ q ∈ ps, q.Reaches (sky q).length a j → q = p ∨ p.depth < q.depth)
    ⟨fun h => ⟨h.1, h.2.1, h.2.2⟩, fun h => ⟨h.mem, h.reaches, h.least⟩⟩

/-- What lies on top depends on the skylines of the calls alone. -/
theorem Topmost.congr {sky sky' : Placement → List KeyPoint} {ps : List Placement} {a : Arena}
    {j : Nat} {p : Placement} (h : ∀ q ∈ ps, sky q = sky' q) (hp : Topmost sky ps a j p) :
    Topmost sky' ps a j p where
  mem := hp.mem
  reaches := h p hp.mem ▸ hp.reaches
  least := fun q hq hreach => hp.least q hq (by rwa [h q hq])

/-- A slot that held `old` holds `new`: the point of the call that lies on top, or what it held
before if no call reaches it. -/
def Shows (sky : Placement → List KeyPoint) (ps : List Placement) (a : Arena) (j : Nat)
    (old new : Option KeyPoint) : Prop :=
  (∃ p, Topmost sky ps a j p ∧ new = (sky p)[j - p.region.offset.toNat]?) ∨
    ((∀ p ∈ ps, ¬ p.Reaches (sky p).length a j) ∧ new = old)

namespace Shows

variable {sky : Placement → List KeyPoint} {ps qs : List Placement} {a : Arena} {j : Nat}
  {x y z : Option KeyPoint}

theorem nil : Shows sky [] a j x x := .inr ⟨fun _ hp => absurd hp List.not_mem_nil, rfl⟩

/-- Calls that do not reach the same slot lie side by side. -/
theorem append (hps : Shows sky ps a j x y) (hqs : Shows sky qs a j y z)
    (h : ∀ p ∈ ps, ∀ q ∈ qs, p.Reaches (sky p).length a j → ¬ q.Reaches (sky q).length a j) :
    Shows sky (ps ++ qs) a j x z := by
  rcases hqs with ⟨q, ⟨hmem, hreach, hleast⟩, hz⟩ | ⟨hnone, rfl⟩
  · refine .inl ⟨q, ⟨List.mem_append_right ps hmem, hreach, fun r hr hrreach => ?_⟩, hz⟩
    rcases List.mem_append.1 hr with hr | hr
    · exact absurd hreach (h r hr q hmem hrreach)
    · exact hleast r hr hrreach
  · rcases hps with ⟨p, ⟨hmem, hreach, hleast⟩, hz⟩ | ⟨hnone', rfl⟩
    · refine .inl ⟨p, ⟨List.mem_append_left qs hmem, hreach, fun r hr hrreach => ?_⟩, hz⟩
      rcases List.mem_append.1 hr with hr | hr
      · exact hleast r hr hrreach
      · exact absurd hrreach (hnone r hr)
    · refine .inr ⟨fun r hr => ?_, rfl⟩
      rcases List.mem_append.1 hr with hr | hr
      · exact hnone' r hr
      · exact hnone r hr

/-- A call that is nested less deep than all others lies on top of them. -/
theorem cons {p : Placement} (hps : Shows sky ps a j x y) (hdepth : ∀ q ∈ ps, p.depth < q.depth)
    (hin : p.Reaches (sky p).length a j → z = (sky p)[j - p.region.offset.toNat]?)
    (hout : ¬ p.Reaches (sky p).length a j → z = y) : Shows sky (p :: ps) a j x z := by
  by_cases hp : p.Reaches (sky p).length a j
  · refine .inl ⟨p, ⟨List.mem_cons_self, hp, fun q hq _ => ?_⟩, hin hp⟩
    rcases List.mem_cons.1 hq with rfl | hq
    · exact .inl rfl
    · exact .inr (hdepth q hq)
  · obtain rfl := hout hp
    rcases hps with ⟨q, ⟨hmem, hreach, hleast⟩, hz⟩ | ⟨hnone, rfl⟩
    · refine .inl ⟨q, ⟨List.mem_cons_of_mem p hmem, hreach, fun r hr hrreach => ?_⟩, hz⟩
      rcases List.mem_cons.1 hr with rfl | hr
      · exact absurd hrreach hp
      · exact hleast r hr hrreach
    · refine .inr ⟨fun r hr => ?_, rfl⟩
      rcases List.mem_cons.1 hr with rfl | hr
      · exact hp
      · exact hnone r hr

/-- What is put in place for a call lies on top of all calls nested deeper. -/
theorem put {p : Placement} {s t : Storage} {points : List KeyPoint} (hsky : sky p = points)
    (hps : Shows sky ps a j (s.arena a)[j]? (t.arena a)[j]?) (hdepth : ∀ q ∈ ps, p.depth < q.depth)
    (hfits : p.region.offset.toNat + points.length ≤ (t.arena p.region.arena).size) :
    Shows sky (p :: ps) a j (s.arena a)[j]? ((t.put p.region points).arena a)[j]? := by
  subst hsky
  refine hps.cons hdepth ?_ ?_
  · rintro ⟨rfl, hle, hlt⟩
    obtain ⟨i, rfl⟩ := Nat.exists_eq_add_of_le hle
    rw [Storage.arena_put_self, getElem?_overwrite_inside hfits (by omega), Nat.add_sub_cancel_left]
  · intro hreach
    by_cases ha : p.region.arena = a
    · refine Storage.getElem?_put_outside ?_ a
      by_contra hj
      exact hreach ⟨ha, by omega, by omega⟩
    · rw [Storage.arena_put_of_ne ha]

end Shows

/-! ### The layers of a composition -/

/-- The contour of a call lies in the share of the call. -/
theorem Placement.Within.lt_of_reaches {p : Placement} {first n depth : Nat} {r : Region}
    {bs : List Building} {a : Arena} {j : Nat} (h : p.Within first n depth r)
    (hreach : p.Reaches (contour (p.slice bs)).length a j) :
    r.offset.toNat ≤ j ∧ j < r.offset.toNat + 2 * n := by
  obtain ⟨hstart, hend⟩ := h.share
  obtain ⟨-, hle, hlt⟩ := hreach
  have hlen := length_contour_le (p.slice bs)
  have hslice := p.length_slice_le bs
  omega

/-- **The slots that a composition leaves** show the layers of its calls.  The buildings composed
are those from `first` on in a longer list. -/
theorem shows_composed {all bs : List Building} {out : Region} {slots : Nat} {s : Storage}
    (first depth : Nat) (hpos : 0 < bs.length) (hbs : (all.drop first).take bs.length = bs)
    (hout : out.HasRoom bs.length slots) (hs : s.HasSlots slots) (a : Arena) (j : Nat) :
    Shows (fun p => contour (p.slice all)) (planFrom first (first + bs.length - 1) depth out) a j
      (s.arena a)[j]? ((composed out bs s).arena a)[j]? := by
  induction out, bs using halving_induction generalizing first depth s with
  | nil out => exact absurd hpos (Nat.lt_irrefl 0)
  | single out b =>
      have hslice : (⟨first, first, depth, out⟩ : Placement).slice all = [b] :=
        (Placement.slice_mk hpos out all).trans hbs
      rw [composed, List.length_singleton, Nat.add_sub_cancel, planFrom_self]
      exact Shows.put (p := ⟨first, first, depth, out⟩) (congrArg contour hslice) .nil (by simp)
        (hout.contour_fits hs)
  | halves out bs h ihl ihr =>
      have hlt := leftSize_lt h
      have hleft := hout.left (Nat.le_of_lt hlt)
      have hright := hout.right (Nat.le_of_lt hlt)
      have hlenl := List.length_take_of_le (Nat.le_of_lt hlt)
      have hlenr := List.length_drop (i := leftSize bs.length) (l := bs)
      have hsl := hs.composed (out.halves (leftSize bs.length)).1 (bs.take (leftSize bs.length))
      have hsr := hsl.composed (out.halves (leftSize bs.length)).2 (bs.drop (leftSize bs.length))
      have hslice : (⟨first, first + bs.length - 1, depth, out⟩ : Placement).slice all = bs :=
        (Placement.slice_mk hpos out all).trans hbs
      have htake : (all.drop first).take (leftSize bs.length) = bs.take (leftSize bs.length) := by
        rw [← hbs, List.take_take, hbs, Nat.min_eq_left (Nat.le_of_lt hlt)]
      have hdrop : (all.drop (first + leftSize bs.length)).take (bs.length - leftSize bs.length) =
          bs.drop (leftSize bs.length) := by
        rw [← List.drop_drop, ← List.drop_take, hbs]
      rw [hlenl] at ihl
      rw [hlenr] at ihr
      have hl := ihl first (depth + 1) (leftSize_pos _) htake hleft hs
      have hr := ihr _ (depth + 1) (Nat.sub_pos_of_lt hlt) hdrop hright hsl
      rw [composed_of_two_le h, planFrom_of_two_le h]
      refine Shows.put (p := ⟨first, first + bs.length - 1, depth, out⟩) (congrArg contour hslice)
        (hl.append hr ?_) ?_ (hout.contour_fits hsr)
      · -- The first half ends where the second one starts.
        intro p hp q hq hpj hqj
        have hpshare := (within_of_mem_planFrom hleft (leftSize_pos _) p hp).lt_of_reaches hpj
        have hqshare :=
          (within_of_mem_planFrom hright (Nat.sub_pos_of_lt hlt) q hq).lt_of_reaches hqj
        rw [Region.halves_fst_offset] at hpshare
        rw [hout.offset_right (Nat.le_of_lt hlt)] at hqshare
        omega
      · intro q hq
        rcases List.mem_append.1 hq with hq | hq
        · exact (within_of_mem_planFrom hleft (leftSize_pos _) q hq).depth_le
        · exact (within_of_mem_planFrom hright (Nat.sub_pos_of_lt hlt) q hq).depth_le

/-- A whole composition shows the layers of its plan. -/
theorem shows_plan {bs : List Building} {slots : Nat} {s : Storage}
    (hout : (Region.root bs.length).HasRoom bs.length slots) (hs : s.HasSlots slots) (a : Arena)
    (j : Nat) : Shows (fun p => contour (p.slice bs)) (plan bs.length) a j (s.arena a)[j]?
      ((composed (.root bs.length) bs s).arena a)[j]? := by
  rw [plan]
  split
  next h =>
      obtain rfl := List.length_eq_zero_iff.1 h
      rw [composed]
      exact .nil
  next h =>
      have hshows := shows_composed 0 0 (Nat.pos_of_ne_zero h) (List.take_length ..) hout hs a j
      rwa [Nat.zero_add] at hshows

/-! ### The slots after a computation -/

namespace Session

/-- **The content of every slot after a computation.**  Take any session with level arenas, whatever
they hold, and an admitted list of buildings.  Each arena ends up with its slots, or two slots for
each building if these are more.  Every slot holds a point of the skyline that lies on top there,
where the skyline of a call is the one that its own buildings have alone.  Where no skyline reaches,
a slot holds what it held, and a new one is untouched. -/
theorem slots_after_build (s : Session) (bs : List Building)
    (hlevel : s.storage.one.size = s.storage.two.size) (hlen : bs.length < 2 ^ 63)
    (h : s.admission.check bs = .ok ()) :
    ∃ sky : Placement → List KeyPoint,
      (∀ p ∈ plan bs.length,
        ((fresh s.admission).build (p.slice bs)).1 = .ok ⟨(sky p).toArray⟩) ∧
      ∀ a, ((s.build bs).2.storage.arena a).size = max (s.storage.arena a).size (2 * bs.length) ∧
        ∀ j < ((s.build bs).2.storage.arena a).size,
          (∃ p, Topmost sky (plan bs.length) a j p ∧
            ((s.build bs).2.storage.arena a)[j]? = (sky p)[j - p.region.offset.toNat]?) ∨
          ((∀ p ∈ plan bs.length, ¬ p.Reaches (sky p).length a j) ∧
            ((s.build bs).2.storage.arena a)[j]? =
              if j < (s.storage.arena a).size then (s.storage.arena a)[j]? else some ⟨0, 0⟩) := by
  have hbal : s.storage.Balanced := hlevel
  have hslots : 2 * bs.length ≤ lastSlot := by
    simp only [lastSlot, UInt64.size]
    omega
  have hout : (Region.root bs.length).HasRoom bs.length (2 * bs.length) := .root hslots Nat.le.refl
  have hstorage : (s.build bs).2.storage =
      composed (.root bs.length) bs (s.storage.grow (2 * bs.length)) := storage_of_ok hbal hlen h
  refine ⟨fun p => contour (p.slice bs), fun p _ => ?_, fun a => ?_⟩
  · -- The buildings of a call are admitted, since they are part of an admitted list.
    have hsub := p.slice_sublist bs
    exact build_of_ok (balanced_fresh s.admission)
      (Nat.lt_of_le_of_lt hsub.length_le hlen) (Admission.check_sublist h hsub)
  · have hsize : ((s.build bs).2.storage.arena a).size =
        max (s.storage.arena a).size (2 * bs.length) := by
      rw [hstorage, size_arena_composed, hbal.arena_grow, Storage.size_padTo]
    refine ⟨hsize, fun j hj => ?_⟩
    have hshows := shows_plan hout (hbal.hasSlots_grow _) a j
    rw [← hstorage, hbal.arena_grow, Storage.getElem?_padTo (hsize ▸ hj)] at hshows
    exact hshows

/-- Three buildings, of which the first hides the other two, over slots that hold leftovers.  In the
first arena the points of the second building stand behind the contour of all three, then comes a
slot that no skyline reaches, and one that is new. -/
theorem slots_after_build_over_stale_slots :
    let s : Session := ⟨{}, ⟨.replicate 5 ⟨9, 9⟩, .replicate 5 ⟨8, 8⟩⟩⟩
    let bs : List Building := [⟨0, 10, 5⟩, ⟨2, 6, 3⟩, ⟨4, 8, 2⟩]
    let left : Storage := ⟨#[⟨0, 5⟩, ⟨10, 0⟩, ⟨2, 3⟩, ⟨6, 0⟩, ⟨9, 9⟩, ⟨0, 0⟩],
      #[⟨0, 5⟩, ⟨10, 0⟩, ⟨8, 8⟩, ⟨8, 8⟩, ⟨4, 2⟩, ⟨8, 0⟩]⟩
    (s.build bs).2.storage = left := by
  intro s bs left
  obtain ⟨sky, hsky, hslots⟩ := slots_after_build s bs rfl (by decide) rfl
  have hcontour : ∀ p ∈ plan 3, sky p = contour (p.slice bs) := by
    intro p hp
    have hsub := p.slice_sublist bs
    have halone := build_of_ok (balanced_fresh {}) (Nat.lt_of_le_of_lt hsub.length_le (by decide))
      (Admission.check_sublist (a := {}) rfl hsub)
    exact List.toArray_inj (Skyline.mk.inj (Except.ok.inj ((hsky p hp).symm.trans halone)))
  have harena : ∀ a, (s.build bs).2.storage.arena a = left.arena a := by
    intro a
    have hsize : ((s.build bs).2.storage.arena a).size = 6 := by
      rw [(hslots a).1]
      cases a <;> rfl
    have htop : ∀ j < 6, ∀ p ∈ plan 3, Topmost (fun p => contour (p.slice bs)) (plan 3) a j p →
        (contour (p.slice bs))[j - p.region.offset.toNat]? = (left.arena a)[j]? := by
      cases a <;> decide +kernel
    have hbare : ∀ j < 6, (∀ p ∈ plan 3, ¬ p.Reaches (contour (p.slice bs)).length a j) →
        (if j < (s.storage.arena a).size then (s.storage.arena a)[j]? else some ⟨0, 0⟩) =
          (left.arena a)[j]? := by
      cases a <;> decide +kernel
    refine Array.ext_getElem? fun j => ?_
    rcases Nat.lt_or_ge j 6 with hj | hj
    · rcases (hslots a).2 j (hsize ▸ hj) with ⟨p, hp, hslot⟩ | ⟨hnone, hslot⟩
      · rw [hslot, hcontour p hp.mem]
        exact htop j hj p hp.mem (hp.congr hcontour)
      · rw [hslot]
        exact hbare j hj fun p hp => hcontour p hp ▸ hnone p hp
    · rw [Array.getElem?_eq_none (hsize ▸ hj), Array.getElem?_eq_none (by cases a <;> exact hj)]
  exact congr (congrArg Storage.mk (harena .one)) (harena .two)

end Session

end Cityscape
