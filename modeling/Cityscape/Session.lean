/-
**Sessions.**

A session computes one skyline after the other with the same terms of admission, and keeps its
storage from one computation to the next.  A refused or empty input does not touch the storage.

A list of buildings is admitted if there are not too many of them, each is valid, and, unless that
check is switched off, their left edges never decrease.  The buildings are examined in order, and
the first fault found is the one reported; at one building a missing width or height comes before a
wrong order.

A computation reports on itself in a trace, plain data that is produced together with the result.

* `Cityscape.Admission.check` — **the check**, with the first fault found;
* `Cityscape.Trace.Entry`, `Cityscape.Trace.within` — an entry of a trace, and a span around events;
* `Cityscape.Session.run`, `Cityscape.Session.build` — **one computation**, and its skyline.
-/

import Cityscape.Collector.Arrays
import Cityscape.Halving.Plan

set_option relaxedAutoImplicit false
set_option autoImplicit false

namespace Cityscape

/-! ### Admission -/

/-- How many buildings are admitted: at most so many, or as many as can have their slots
numbered. -/
inductive Limit where
  | atMost (n : Nat)
  | growable
  deriving DecidableEq, Repr

/-- The largest number of buildings that is admitted, if it is set. -/
def Limit.bound? : Limit → Option Nat
  | .atMost n => some n
  | .growable => none

/-- What admission depends on. -/
structure Admission where
  /-- The limit on the number of buildings. -/
  limit : Limit := .atMost 512
  /-- Whether left edges that decrease are refused.  The contour does not depend on the order of
  the buildings, so this decides only what is admitted. -/
  ordered : Bool := true
  deriving DecidableEq, Repr

namespace Admission

/-- Refuses more buildings than the limit allows. -/
def checkCount (a : Admission) (n : Nat) : Except Refusal Unit :=
  match a.limit with
  | .atMost max => if max < n then .error (.overCapacity n max) else .ok ()
  | .growable => if lastSlot < 2 * n then .error (.overCapacity n (lastSlot / 2)) else .ok ()

/-- The building `b` starts to the left of the one before it, if there is one, although order is
required. -/
def Misplaces (a : Admission) (prev : Option Building) (b : Building) : Prop :=
  a.ordered = true ∧ ∃ p ∈ prev, b.left < p.left

instance (a : Admission) (prev : Option Building) (b : Building) :
    Decidable (a.Misplaces prev b) :=
  inferInstanceAs (Decidable (_ ∧ _))

/-- Refuses the first faulty building among those that start at `index` and follow `prev`. -/
def checkFrom (a : Admission) (prev : Option Building) (index : Nat) :
    List Building → Except Refusal Unit
  | [] => .ok ()
  | b :: bs => do
      b.check index
      if a.Misplaces prev b then throw (.unsorted index)
      a.checkFrom (some b) (index + 1) bs

/-- Admits or refuses a list of buildings: the count comes first, then the buildings in order. -/
def check (a : Admission) (buildings : List Building) : Except Refusal Unit := do
  a.checkCount buildings.length
  a.checkFrom none 0 buildings

end Admission

/-! ### Traces -/

namespace Trace

/-- The importance of an entry: what is asked of the library, or every step. -/
inductive Level where
  | debug
  | trace
  deriving DecidableEq, Repr

/-- The name of a level. -/
def Level.name : Level → String
  | .debug => "DEBUG"
  | .trace => "TRACE"

/-- What a field of an entry holds: a number of things, or a text. -/
inductive Value where
  | count (n : Nat)
  | text (s : String)
  deriving DecidableEq, Repr

/-- One entry of a trace: a span comes into being, is entered or is left, or something happens in
it. -/
inductive Entry where
  | span (level : Level) (name : String) (fields : List (String × Value))
  | enter
  | event (level : Level) (fields : List (String × Value))
  | exit
  deriving DecidableEq, Repr

/-- A span with the given events in it. -/
def within (level : Level) (name : String) (fields : List (String × Value))
    (events : List Entry) : List Entry :=
  [.span level name fields, .enter] ++ events ++ [.exit]

end Trace

/-! ### Computations -/

/-- Terms of admission, and the storage that all computations share. -/
structure Session where
  /-- What is admitted. -/
  admission : Admission := {}
  /-- The storage, as the last computation left it. -/
  storage : Storage := .empty
  deriving DecidableEq, Repr

/-- All that one computation leaves behind. -/
structure Outcome where
  /-- The points of the skyline, or the cause of refusal. -/
  result : Except Refusal (Array KeyPoint)
  /-- The session afterwards. -/
  session : Session
  /-- What the computation reported on itself. -/
  trace : List Trace.Entry

namespace Session

/-- The event of a refusal. -/
def rejected (e : Refusal) : Trace.Entry :=
  .event .debug [("err", .text e.message), ("message", .text "rejected building set")]

/-- The event of a finished skyline. -/
def finished (len : Nat) : Trace.Entry :=
  .event .trace [("message", .text "skyline built"), ("points", .count len)]

/-- One computation without its span: the result, the storage and the events. -/
def compute (a : Admission) (storage : Storage) (buildings : List Building) :
    Except Refusal (Array KeyPoint) × Storage × List Trace.Entry :=
  match a.check buildings with
  | .error e => (.error e, storage, [rejected e])
  | .ok () =>
      if buildings.isEmpty then (.ok #[], storage, []) else
        let root := Region.root buildings.length
        match (compose root buildings).run.run (storage.grow root.capacity.toNat) with
        | (.error e, storage) => (.error e, storage, [])
        | (.ok len, storage) =>
            match storage.read root len with
            | some points => (.ok points, storage, [finished len])
            | none => (.error (.overCapacity len root.capacity.toNat), storage, [finished len])

/-- One computation, inside a span that tells the number of buildings. -/
def run (s : Session) (buildings : List Building) : Outcome :=
  let (result, storage, events) := compute s.admission s.storage buildings
  { result
    session := { s with storage }
    trace := Trace.within .debug "skyline_build" [("buildings", .count buildings.length)] events }

/-- The skyline of a list of buildings, and the session afterwards. -/
def build (s : Session) (buildings : List Building) : Except Refusal Skyline × Session :=
  let outcome := s.run buildings
  (outcome.result.map Skyline.mk, outcome.session)

end Session

end Cityscape
