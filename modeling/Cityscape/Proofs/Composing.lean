/-
**What composing by halving computes.**

A composition runs through reads and writes of regions, each of which could be refused.  In a region
that has room for its buildings none of them is: the composition succeeds with the length of the
contour of the buildings, and what it leaves in storage is described by recursion on the buildings
alone, without any reading or refusing (`Cityscape.composed`).

The proof is one induction over the halving.  Its invariant is that a composition touches only the
two slots for each of its buildings (`Cityscape.getElem?_composed_outside`): the second half then
leaves the result of the first in place until both are read.

Main definitions:

* `Cityscape.composed` — **the storage that a composition leaves**.

Main results:

* `Cityscape.getElem?_composed_outside` — slots outside the region's share keep what they hold;
* `Cityscape.read_composed` — the region starts with the contour of the buildings;
* `Cityscape.compose_run` — **the composition succeeds**, and leaves this storage;
* `Cityscape.compose_in_any_region` — **what one call does**, on arenas of any content.
-/

import Cityscape.Halving.Plan
import Cityscape.Proofs.Contour
import Cityscape.Proofs.Regions
import Cityscape.Proofs.Writing

set_option relaxedAutoImplicit false
set_option autoImplicit false

namespace Cityscape

/-! ### Reading back what was put in place -/

namespace Storage

/-- Both arenas have at least `n` slots. -/
def HasSlots (s : Storage) (n : Nat) : Prop := ∀ a, n ≤ (s.arena a).size

/-- Points that are put at the start of a region are there to be read. -/
theorem read_put {s : Storage} {r : Region} {points : List KeyPoint}
    (hroom : points.length ≤ r.capacity.toNat)
    (hfits : r.offset.toNat + points.length ≤ (s.arena r.arena).size) :
    (s.put r points).read r points.length = some points.toArray := by
  rw [read, Region.read, arena_put_self, size_overwrite, if_pos ⟨hroom, hfits⟩,
    extract_overwrite hfits]

/-- What is read depends only on the slots read, and on the size of the arena. -/
theorem read_congr {s t : Storage} {r : Region} {len : Nat}
    (hsize : (s.arena r.arena).size = (t.arena r.arena).size)
    (h : ∀ j, r.offset.toNat ≤ j → j < r.offset.toNat + len →
      (s.arena r.arena)[j]? = (t.arena r.arena)[j]?) : s.read r len = t.read r len := by
  rw [read, read, Region.read, Region.read, hsize]
  split
  next =>
    congr 1
    refine Array.ext_getElem? fun i => ?_
    rw [Array.getElem?_extract, Array.getElem?_extract, hsize]
    split
    next hi => exact h _ (Nat.le_add_right _ _) (by omega)
    next => rfl
  next => rfl

end Storage

theorem fetch_run {s : Storage} {r : Region} {len : Nat} {points : Array KeyPoint}
    (h : s.read r len = some points) : (fetch r len).run.run s = (.ok points, s) := by
  have hget : (get : Attempt Storage Refusal Storage).run.run s = (.ok s, s) := rfl
  rw [fetch, Attempt.run_bind_of_ok hget, h]
  rfl

/-! ### The recursion -/

/-- Induction over the halving of a list of buildings together with that of a region. -/
theorem halving_induction {P : Region → List Building → Prop} (nil : ∀ out, P out [])
    (single : ∀ out b, P out [b])
    (halves : ∀ out bs, 2 ≤ bs.length →
      P (out.halves (leftSize bs.length)).1 (bs.take (leftSize bs.length)) →
      P (out.halves (leftSize bs.length)).2 (bs.drop (leftSize bs.length)) → P out bs)
    (out : Region) (bs : List Building) : P out bs := by
  induction hn : bs.length using Nat.strongRecOn generalizing out bs with
  | _ n ih =>
      match bs, hn with
      | [], _ => exact nil out
      | [b], _ => exact single out b
      | b :: c :: rest, hn =>
          have htwo : 2 ≤ (b :: c :: rest).length := by simp
          have hlt := leftSize_lt htwo
          have hpos := leftSize_pos (b :: c :: rest).length
          refine halves out (b :: c :: rest) htwo (ih _ ?_ _ _ rfl) (ih _ ?_ _ _ rfl)
          · rw [List.length_take]
            omega
          · rw [List.length_drop]
            omega

theorem compose_of_two_le {out : Region} {bs : List Building} (h : 2 ≤ bs.length) :
    compose out bs = (do
      let leftLen ← compose (out.halves (leftSize bs.length)).1 (bs.take (leftSize bs.length))
      let rightLen ← compose (out.halves (leftSize bs.length)).2 (bs.drop (leftSize bs.length))
      let leftPoints ← fetch (out.halves (leftSize bs.length)).1 leftLen
      let rightPoints ← fetch (out.halves (leftSize bs.length)).2 rightLen
      Storage.write out fun _ => do
        Writer.collector.merge leftPoints.toList rightPoints.toList
        return (← get).len) := by
  match bs, h with
  | b :: c :: rest, _ =>
      rw [compose]
      rfl

/-- **The storage that a composition leaves**: each call puts the contour of its buildings into its
region, after its two halves have put theirs into the other arena. -/
def composed (out : Region) : List Building → Storage → Storage
  | [], s => s
  | [b], s => s.put out (contour [b])
  | b :: c :: rest, s =>
      let buildings := b :: c :: rest
      let m := leftSize buildings.length
      let s := composed (out.halves m).1 (buildings.take m) s
      let s := composed (out.halves m).2 (buildings.drop m) s
      s.put out (contour buildings)
termination_by buildings => buildings.length
decreasing_by
  all_goals
    have := leftSize_lt (n := (b :: c :: rest).length) (by simp)
    have := leftSize_pos (b :: c :: rest).length
    simp only [List.length_take, List.length_drop]
    omega

theorem composed_of_two_le {out : Region} {bs : List Building} (h : 2 ≤ bs.length) (s : Storage) :
    composed out bs s =
      (composed (out.halves (leftSize bs.length)).2 (bs.drop (leftSize bs.length))
        (composed (out.halves (leftSize bs.length)).1 (bs.take (leftSize bs.length)) s)).put out
          (contour bs) := by
  match bs, h with
  | b :: c :: rest, _ => rw [composed]

@[simp] theorem size_arena_composed (out : Region) (bs : List Building) (s : Storage) (a : Arena) :
    ((composed out bs s).arena a).size = (s.arena a).size := by
  induction out, bs using halving_induction generalizing s with
  | nil out => rw [composed]
  | single out b => rw [composed, Storage.size_arena_put]
  | halves out bs h ihl ihr => rw [composed_of_two_le h, Storage.size_arena_put, ihr, ihl]

theorem Storage.HasSlots.composed {s : Storage} {n : Nat} (h : s.HasSlots n) (out : Region)
    (bs : List Building) : (Cityscape.composed out bs s).HasSlots n := by
  intro a
  rw [size_arena_composed]
  exact h a

/-- Slots outside a list of points that is put in place keep what they hold, in both arenas. -/
theorem Storage.getElem?_put_outside {s : Storage} {r : Region} {points : List KeyPoint} {j : Nat}
    (h : j < r.offset.toNat ∨ r.offset.toNat + points.length ≤ j) (a : Arena) :
    ((s.put r points).arena a)[j]? = (s.arena a)[j]? := by
  by_cases ha : r.arena = a
  · subst ha
    rw [Storage.arena_put_self, getElem?_overwrite_outside h]
  · rw [Storage.arena_put_of_ne ha]

/-- **A composition touches only the two slots for each of its buildings**, in both arenas. -/
theorem getElem?_composed_outside {out : Region} {bs : List Building} {slots j : Nat}
    (hout : out.HasRoom bs.length slots)
    (hj : j < out.offset.toNat ∨ out.offset.toNat + 2 * bs.length ≤ j) (s : Storage) (a : Arena) :
    ((composed out bs s).arena a)[j]? = (s.arena a)[j]? := by
  induction out, bs using halving_induction generalizing s with
  | nil out => rw [composed]
  | single out b =>
      have hlen := length_contour_le [b]
      rw [composed, Storage.getElem?_put_outside (by omega)]
  | halves out bs h ihl ihr =>
      have hm := Nat.le_of_lt (leftSize_lt h)
      have hlen := length_contour_le bs
      have hoffset := hout.offset_right hm
      have htake := List.length_take_of_le hm
      have hdrop := List.length_drop (i := leftSize bs.length) (l := bs)
      -- The shares of the two halves make up the share of the whole.
      rw [composed_of_two_le h, Storage.getElem?_put_outside (by omega),
        ihr (hout.right_drop hm) (by omega), ihl (hout.left_take hm)]
      rw [Region.halves_fst_offset]
      omega

/-- A composition ends with putting the contour of its buildings in place. -/
theorem composed_eq_put (out : Region) (bs : List Building) (s : Storage) :
    ∃ t : Storage, composed out bs s = t.put out (contour bs) ∧
      ∀ a, (t.arena a).size = (s.arena a).size := by
  match bs with
  | [] =>
      refine ⟨s, ?_, fun _ => rfl⟩
      rcases out with ⟨a, offset, capacity⟩
      rw [composed]
      cases a <;> rfl
  | [b] => exact ⟨s, by rw [composed], fun _ => rfl⟩
  | b :: c :: rest =>
      refine ⟨_, composed_of_two_le (by simp) s, fun a => ?_⟩
      rw [size_arena_composed, size_arena_composed]

/-- A region with room for its buildings has room for their contour. -/
theorem Region.HasRoom.contour_fits {out : Region} {bs : List Building} {slots : Nat} {s : Storage}
    (hout : out.HasRoom bs.length slots) (hs : s.HasSlots slots) :
    out.offset.toNat + (contour bs).length ≤ (s.arena out.arena).size := by
  obtain ⟨hroom, hinside, -⟩ := hout
  have hlen := length_contour_le bs
  have hslots := hs out.arena
  omega

/-- Each slot at the start of the region holds its point of the contour. -/
theorem getElem?_composed_inside {out : Region} {bs : List Building} {slots i : Nat} {s : Storage}
    (hout : out.HasRoom bs.length slots) (hs : s.HasSlots slots) (hi : i < (contour bs).length) :
    ((composed out bs s).arena out.arena)[out.offset.toNat + i]? = (contour bs)[i]? := by
  obtain ⟨t, ht, hsize⟩ := composed_eq_put out bs s
  have hfits := hout.contour_fits hs
  rw [← hsize] at hfits
  rw [ht, Storage.arena_put_self, getElem?_overwrite_inside hfits hi]

/-- **Afterwards the region starts with the contour of the buildings.** -/
theorem read_composed {out : Region} {bs : List Building} {slots : Nat} {s : Storage}
    (hout : out.HasRoom bs.length slots) (hs : s.HasSlots slots) :
    (composed out bs s).read out (contour bs).length = some (contour bs).toArray := by
  obtain ⟨t, ht, hsize⟩ := composed_eq_put out bs s
  have hfits := hout.contour_fits hs
  rw [← hsize] at hfits
  rw [ht]
  exact Storage.read_put (Nat.le_trans (length_contour_le bs) hout.room) hfits

/-- **The second half leaves the result of the first one where it is.** -/
theorem read_composed_left {out : Region} {bs : List Building} {m slots : Nat} {s : Storage}
    (hm : m ≤ bs.length) (hout : out.HasRoom bs.length slots) (hs : s.HasSlots slots) :
    (composed (out.halves m).2 (bs.drop m) (composed (out.halves m).1 (bs.take m) s)).read
      (out.halves m).1 (contour (bs.take m)).length = some (contour (bs.take m)).toArray := by
  rw [← read_composed (hout.left_take hm) hs]
  refine Storage.read_congr (size_arena_composed ..) fun j _ hj => ?_
  refine getElem?_composed_outside (hout.right_drop hm) (.inl ?_) _ _
  have hlen := length_contour_le (bs.take m)
  rw [List.length_take_of_le hm] at hlen
  rw [Region.halves_fst_offset] at hj
  rw [hout.offset_right hm]
  omega

/-- Writing a list of points to a region with room for their changes puts these in place. -/
theorem Region.HasRoom.write_appendAll {out : Region} {n slots : Nat} {s : Storage}
    {points : List KeyPoint} (hout : out.HasRoom n slots) (hs : s.HasSlots slots)
    (hlen : (changes points).length ≤ 2 * n) :
    (Storage.write out fun _ => do
        Writer.collector.appendAll points
        return (← get).len).run.run s =
      (.ok (changes points).length, s.put out (changes points)) := by
  have hslots := hs out.arena
  have hinside := hout.inside
  have hstop : out.stop.toNat ≤ (s.arena out.arena).size := by
    rw [hout.stop_eq]
    omega
  have hfits : (changes points).length ≤ out.room := by
    have hroom := hout.room
    rw [Region.room, hout.stop_eq]
    omega
  rw [Storage.write_appendAll hstop, Writer.accepted, if_pos hfits, List.take_of_length_le hfits]
  rfl

/-- **Composing valid buildings in a region with room for them succeeds** with the length of their
contour, and leaves the storage of `Cityscape.composed`. -/
theorem compose_run {out : Region} {bs : List Building} {slots : Nat} {s : Storage}
    (hbs : ∀ b ∈ bs, b.IsValid) (hout : out.HasRoom bs.length slots) (hs : s.HasSlots slots) :
    (compose out bs).run.run s = (.ok (contour bs).length, composed out bs s) := by
  induction out, bs using halving_induction generalizing s with
  | nil out =>
      rw [compose, composed]
      rfl
  | single out b =>
      have hlen := length_contour_le [b]
      have hchanges := changes_rise_fall (hbs b List.mem_cons_self)
      rw [compose, composed, Collector.project_eq_appendAll, ← hchanges]
      exact hout.write_appendAll hs (by rw [hchanges]; exact hlen)
  | halves out bs h ihl ihr =>
      have hm := Nat.le_of_lt (leftSize_lt h)
      have hleft := hout.left_take hm
      have hright := hout.right_drop hm
      have hbl : ∀ b ∈ bs.take (leftSize bs.length), b.IsValid :=
        fun b hb => hbs b (List.mem_of_mem_take hb)
      have hbr : ∀ b ∈ bs.drop (leftSize bs.length), b.IsValid :=
        fun b hb => hbs b (List.mem_of_mem_drop hb)
      have hsl := hs.composed (out.halves (leftSize bs.length)).1 (bs.take (leftSize bs.length))
      have hsr := hsl.composed (out.halves (leftSize bs.length)).2 (bs.drop (leftSize bs.length))
      have hchanges : changes (swept 0 0 (contour (bs.take (leftSize bs.length)))
          (contour (bs.drop (leftSize bs.length)))) = contour bs := by
        have hmerged := merged_contour hbl hbr
        rwa [List.take_append_drop] at hmerged
      -- Both halves succeed, both results can be read back, and their merge fits.
      rw [compose_of_two_le h, composed_of_two_le h, Attempt.run_bind_of_ok (ihl hbl hleft hs),
        Attempt.run_bind_of_ok (ihr hbr hright hsl),
        Attempt.run_bind_of_ok (fetch_run (read_composed_left hm hout hs)),
        Attempt.run_bind_of_ok (fetch_run (read_composed hright hsl)),
        Collector.merge_eq_appendAll, ← hchanges]
      exact hout.write_appendAll hsr (by rw [hchanges]; exact length_contour_le bs)

/-! ### One call in any region -/

/-- **One call in any region.**  Composing the buildings from number `first` to number `last` of a
list of valid ones succeeds in every region that has two slots for each of them and lies inside the
arenas, whatever these hold.  It returns a length from `2` up to the number of these slots; so many
slots at the start of the region then hold the contour of the buildings, and in both arenas all
slots that are not among the two for each building hold what they held. -/
theorem compose_in_any_region (all : List Building) (first last slots : Nat) (out : Region)
    (s : Storage) (hvalid : ∀ b ∈ all, b.IsValid) (hle : first ≤ last) (hlast : last < all.length)
    (hroom : 2 * (last - first + 1) ≤ out.capacity.toNat)
    (hinside : out.offset.toNat + out.capacity.toNat ≤ slots) (hslots : slots < 2 ^ 63)
    (hsize : ∀ a, (s.arena a).size = slots) :
    let n := last - first + 1
    let bs := (all.drop first).take n
    ∃ len t, (compose out bs).run.run s = (.ok len, t) ∧ 2 ≤ len ∧ len ≤ 2 * n ∧
      len = (contour bs).length ∧
      (∀ i < len, (t.arena out.arena)[out.offset.toNat + i]? = (contour bs)[i]?) ∧
      ∀ a, (t.arena a).size = slots ∧
        ∀ j, j < out.offset.toNat ∨ out.offset.toNat + 2 * n ≤ j →
          (t.arena a)[j]? = (s.arena a)[j]? := by
  intro n bs
  have hlen : bs.length = n := by
    refine List.length_take_of_le ?_
    rw [List.length_drop]
    omega
  have hbs : ∀ b ∈ bs, b.IsValid := by
    intro b hb
    exact hvalid b (List.mem_of_mem_drop (List.mem_of_mem_take hb))
  have hne : bs ≠ [] := List.ne_nil_of_length_pos (by omega)
  have hout : out.HasRoom bs.length slots := by
    have hnumbered := two_mul_lt_lastSlot hslots
    rw [hlen]
    exact ⟨hroom, hinside, by omega⟩
  have hs : s.HasSlots slots := fun a => Nat.le_of_eq (hsize a).symm
  have hmost := length_contour_le bs
  rw [hlen] at hmost
  refine ⟨_, _, compose_run hbs hout hs, two_le_length_contour hne hbs, hmost, rfl, ?_, ?_⟩
  · intro i hi
    exact getElem?_composed_inside hout hs hi
  · intro a
    refine ⟨(size_arena_composed ..).trans (hsize a), ?_⟩
    intro j hj
    rw [← hlen] at hj
    exact getElem?_composed_outside hout hj s a

/-- Two of four buildings are composed in the middle of arenas that are full of other points, in a
region with a slot to spare. -/
theorem compose_in_any_region_midway :
    let all : List Building := [⟨0, 9, 1⟩, ⟨2, 6, 5⟩, ⟨0, 4, 3⟩, ⟨7, 8, 2⟩]
    let s : Storage := ⟨Array.replicate 8 ⟨9, 9⟩, Array.replicate 8 ⟨8, 8⟩⟩
    let out : Region := ⟨.two, 2, 5⟩
    ∃ t, (compose out ((all.drop 1).take 2)).run.run s = (.ok 3, t) ∧
      (∀ i < 3, t.two[2 + i]? = [⟨0, 3⟩, ⟨2, 5⟩, ⟨6, 0⟩][i]?) ∧ t.two[6]? = some ⟨8, 8⟩ := by
  intro all s out
  have hsize : ∀ a, (s.arena a).size = 8 := by
    intro a
    cases a <;> rfl
  have hcontour : contour ((all.drop 1).take 2) = [⟨0, 3⟩, ⟨2, 5⟩, ⟨6, 0⟩] := by decide
  obtain ⟨len, t, hrun, -, -, hlen, hpoints, hframe⟩ :=
    compose_in_any_region all 1 2 8 out s (by decide) (by decide) (by decide) (by decide)
      (by decide) (by decide) hsize
  rw [hcontour] at hlen hpoints
  subst hlen
  exact ⟨t, hrun, hpoints, (hframe .two).2 6 (.inr (by decide))⟩

end Cityscape
