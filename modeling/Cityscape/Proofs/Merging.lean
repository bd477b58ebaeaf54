/-
**What a skyline keeps.**

A skyline takes any point and never fails, so all that appending does to it can be said by its list
of points: the changes among the appended points stand behind the points that were there
(`Cityscape.Skyline.toList_after_appendAll`).  The merge of two skylines is therefore the merge of
their lists, and what holds of lists carries over: merging keeps skylines well-formed, and the merge
is at the larger of the two heights everywhere.  A well-formed skyline may start on the ground; such
a first point is merged like any other and may stay in the result.

There are four ways to make a collector take points: pushing a point, appending a point if it
changes the height, projecting a building, and merging two lists.  Here they are made data
(`Cityscape.Request`), so that sequences of them can be spoken of, on one collector or on several at
once.  A request that fails does not end a sequence: the next one finds the store as the failure
left it.

Main definitions:

* `Cityscape.Request`, `Cityscape.Request.on` — a request, and carrying it out on a collector;
* `Cityscape.Request.points`, `Cityscape.Request.added` — the points of a request, and those of them
  that are kept behind a list;
* `Cityscape.Collector.afterAll` — the store after a sequence of requests.

Main results:

* `Cityscape.Skyline.toList_after_appendAll` — **what a skyline keeps** of the points it is handed;
* `Cityscape.Skyline.merge_is_upper_contour` — **the merge of well-formed skylines is well-formed
  and has the larger of their heights**;
* `Cityscape.Request.push_or_appends` — a request is a push, or a row of appends.
-/

import Cityscape.Skyline.Height
import Cityscape.Proofs.Contour
import Cityscape.Proofs.Writing

set_option relaxedAutoImplicit false
set_option autoImplicit false

namespace Cityscape

namespace Skyline

/-- A skyline is the list of its points. -/
theorem eq_mk_of_toList_eq {s : Skyline} {ps : List KeyPoint} (h : s.points.toList = ps) :
    s = ⟨ps.toArray⟩ := by
  rcases s with ⟨⟨points⟩⟩
  rw [← h]

/-- Skylines with the same points are equal. -/
theorem eq_of_toList_eq {s t : Skyline} (h : s.points.toList = t.points.toList) : s = t :=
  (eq_mk_of_toList_eq h).trans (eq_mk_of_toList_eq rfl).symm

theorem toList_empty : empty.points.toList = [] := rfl

/-! ### What a skyline keeps -/

/-- One job after another: no job on a skyline can fail. -/
theorem after_bind (s : Skyline) (x y : Attempt Skyline Empty Unit) :
    s.after (do x; y) = (s.after x).after y := by
  rcases hrun : x.run.run s with ⟨result, t⟩
  cases result with
  | error e => nomatch e
  | ok u =>
      have hx : s.after x = t := by rw [after, hrun]
      have hxy : s.after (do x; y) = t.after y := by
        rw [after, Attempt.run_bind_of_ok hrun]
        rfl
      rw [hxy, hx]

/-- An appended point is kept if it changes the height. -/
theorem toList_after_append (s : Skyline) (p : KeyPoint) :
    (s.after (collector.append p.x p.height)).points.toList =
      if s.points.toList.getLast?.any (·.height == p.height) then s.points.toList
      else s.points.toList ++ [p] := by
  rw [Array.getLast?_toList]
  change (s.after (if s.points.back?.any (·.height == p.height) then pure ()
    else collector.push ⟨p.x, p.height⟩)).points.toList = _
  split
  · rfl
  · exact Array.toList_push

/-- **What a skyline keeps**: behind the points that it has, the changes among the appended
points. -/
theorem toList_after_appendAll (s : Skyline) (ps : List KeyPoint) :
    (s.after (collector.appendAll ps)).points.toList =
      s.points.toList ++ changesAfter s.points.toList.getLast? ps := by
  induction ps generalizing s with
  | nil =>
      rw [Collector.appendAll_nil, changesAfter_nil, List.append_nil]
      rfl
  | cons p ps ih =>
      have happend := toList_after_append s p
      rw [Collector.appendAll_cons, after_bind, ih, changesAfter_cons, happend]
      split
      · rfl
      · rw [List.getLast?_concat, List.append_assoc, List.singleton_append]

theorem toList_after_appendAll_empty (ps : List KeyPoint) :
    (empty.after (collector.appendAll ps)).points.toList = changes ps :=
  toList_after_appendAll empty ps

/-- Two lists merged into an empty skyline. -/
theorem toList_after_merge_empty (ps qs : List KeyPoint) :
    (empty.after (collector.merge ps qs)).points.toList = merged ps qs := by
  rw [Collector.merge_eq_appendAll, toList_after_appendAll_empty, merged]

/-- **The points of a merge.** -/
theorem toList_merge (s t : Skyline) :
    (s.merge t).points.toList = merged s.points.toList t.points.toList :=
  toList_after_merge_empty _ _

/-- **The points of one valid building** are those of its contour. -/
theorem toList_ofBuilding {b : Building} (h : b.IsValid) :
    (ofBuilding b).points.toList = contour [b] := by
  rw [ofBuilding, Collector.project_eq_appendAll, toList_after_appendAll_empty, changes_rise_fall h]

/-! ### Merging well-formed skylines -/

/-- The height of a well-formed skyline is that of its list. -/
theorem heightAt_of_wellFormed {s : Skyline} (h : WellFormed s.points.toList) (x : Int64) :
    s.heightAt x = heightFrom 0 s.points.toList x :=
  heightAt_eq_heightFrom (h.ascending.imp Int64.le_of_lt) x

/-- Two well-formed lists merged into an empty skyline are well-formed. -/
theorem isWellFormed_after_merge_empty {left right : List KeyPoint} (hl : WellFormed left)
    (hr : WellFormed right) : (empty.after (collector.merge left right)).isWellFormed = true := by
  rw [isWellFormed_iff, toList_after_merge_empty]
  exact hl.merged hr

theorem isWellFormed_merge {s t : Skyline} (hs : s.isWellFormed = true)
    (ht : t.isWellFormed = true) :
    (s.merge t).isWellFormed = true :=
  isWellFormed_after_merge_empty (isWellFormed_iff.1 hs) (isWellFormed_iff.1 ht)

/-- **The upper contour of two skylines**: the merge of well-formed skylines is well-formed, and at
every coordinate it has the larger of their heights. -/
theorem merge_is_upper_contour (s t : Skyline) (hs : s.isWellFormed = true)
    (ht : t.isWellFormed = true) :
    (s.merge t).isWellFormed = true ∧
      ∀ x, (s.merge t).heightAt x = max (s.heightAt x) (t.heightAt x) := by
  rw [isWellFormed_iff] at hs ht
  have hmerge : WellFormed (s.merge t).points.toList := by
    rw [toList_merge]
    exact hs.merged ht
  refine ⟨isWellFormed_iff.2 hmerge, ?_⟩
  intro x
  rw [heightAt_of_wellFormed hmerge, heightAt_of_wellFormed hs, heightAt_of_wellFormed ht,
    toList_merge, heightFrom_merged hs ht]

theorem merge_is_upper_contour_of_ground :
    let s : Skyline := ⟨#[⟨-3, 0⟩, ⟨1, 4⟩, ⟨6, 0⟩]⟩
    let t : Skyline := ⟨#[⟨1, 2⟩, ⟨4, 7⟩, ⟨6, 4⟩, ⟨8, 0⟩]⟩
    (s.merge t).isWellFormed = true ∧
      ∀ x, (s.merge t).heightAt x = max (s.heightAt x) (t.heightAt x) := by
  intro s t
  exact merge_is_upper_contour s t (by decide) (by decide)

end Skyline

/-! ### Requests -/

/-- What can be asked of a collector: to take a point, whatever its height or if it changes the
height; the rise and the fall of a building, valid or not; the merge of two lists, well-formed or
not. -/
inductive Request where
  | push (p : KeyPoint)
  | append (x height : Int64)
  | project (b : Building)
  | merge (left right : List KeyPoint)

namespace Request

/-- Carries out the request on a collector. -/
def on {σ ε : Type} (c : Collector σ ε) : Request → Attempt σ ε Unit
  | push p => c.push p
  | append x height => c.append x height
  | project b => c.project b
  | merge left right => c.merge left right

/-- The points of the request, in the order in which they are handed to a collector. -/
def points : Request → List KeyPoint
  | push p => [p]
  | append x height => [⟨x, height⟩]
  | project b => [⟨b.left, b.height⟩, ⟨b.right, 0⟩]
  | merge left right => swept 0 0 left right

/-- The points that the request adds behind the points `kept`, where there is room for all of them:
a pushed point in any case, and otherwise the changes of height. -/
def added (kept : List KeyPoint) : Request → List KeyPoint
  | push p => [p]
  | q => changesAfter kept.getLast? q.points

/-- **A request is a push, or a row of appends.** -/
theorem push_or_appends (q : Request) :
    (∃ p, q = push p) ∨ (∀ kept, q.added kept = changesAfter kept.getLast? q.points) ∧
      ∀ (σ ε : Type) (c : Collector σ ε), q.on c = c.appendAll q.points := by
  cases q with
  | push p => exact .inl ⟨p, rfl⟩
  | append x height =>
      refine .inr ⟨fun _ => rfl, fun σ ε c => ?_⟩
      rw [points, Collector.appendAll_cons, Collector.appendAll_nil, bind_pure_unit, on]
  | project b => exact .inr ⟨fun _ => rfl, fun σ ε c => c.project_eq_appendAll b⟩
  | merge left right => exact .inr ⟨fun _ => rfl, fun σ ε c => c.merge_eq_appendAll left right⟩

end Request

/-- **The store after a sequence of requests**, each of which may succeed or fail. -/
def Collector.afterAll {σ ε : Type} (c : Collector σ ε) (s : σ) (requests : List Request) : σ :=
  requests.foldl (fun s q => ((q.on c).run.run s).2) s

theorem Collector.afterAll_cons {σ ε : Type} (c : Collector σ ε) (s : σ) (q : Request)
    (requests : List Request) :
    c.afterAll s (q :: requests) = c.afterAll ((q.on c).run.run s).2 requests := rfl

/-- **What a request adds to a skyline**, which has room for everything. -/
theorem Skyline.toList_after_request (s : Skyline) (q : Request) :
    (s.after (q.on collector)).points.toList = s.points.toList ++ q.added s.points.toList := by
  rcases q.push_or_appends with ⟨p, rfl⟩ | ⟨hadded, hon⟩
  · exact Array.toList_push
  · rw [hon, hadded, toList_after_appendAll]

end Cityscape
