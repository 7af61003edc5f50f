/-!
# Schedules

Running a system of activities on a virtual clock.

## Main definitions

* `Schedule`: how the activities of a system move, and which times they wait for.
* `Schedule.Turns`: who is to move; `Turns.next` is what happens next.
* `Schedule.settle`: let every activity run until none can move.
* `Schedule.advance`: let time pass, from each time that is waited for to the next.

## Design notes

Activities take turns. A turn lasts until the activity has to wait or lets the others go first.
Those that wait get ready as soon as they can move, in the order in which they began to wait, and
that order outlasts a run. Those that let the others go first are ready again when nobody else is,
the last of them first.

Time stands still while anything can move. Running is bounded by fuel: `settle` by what the system
itself says it may need, `advance` by the time that passes, since every stop on the way is later
than the one before.
-/

namespace BlockFeed

/-- How a system of activities moves. -/
class Schedule (S : Type) where
  /-- The number of activities; their places are the numbers below. -/
  size : S → Nat
  /-- The system after the next step of the activity at a place, if it can take one now, and whether
  the activity lets the others go first before it takes another. -/
  step : S → Nat → Option (S × Bool)
  /-- The places of activities that wait, in the order in which they began to. -/
  waiting : S → List Nat
  setWaiting : S → List Nat → S
  /-- As many steps as it may take until none can move. -/
  budget : S → Nat
  now : S → Nat
  setNow : S → Nat → S
  deadlines : S → List Nat

namespace Schedule

variable {S : Type} [Schedule S]

/-- Whether the activity at a place can move. -/
def canMove (s : S) (place : Nat) : Bool := (step s place).isSome

def Blocked (s : S) : Prop := ∀ place < size s, canMove s place = false

/-- All places: those of activities that wait, in order, and then the others. -/
def places (s : S) : List Nat :=
  (waiting s).filter (· < size s)
    ++ (List.range (size s)).filter fun place => !(waiting s).contains place

/-- Who is to move, by place. -/
structure Turns where
  /-- Those that are ready, from the first to the last. -/
  ready : List Nat
  /-- Those that let the others go first, from the last to the first. -/
  deferred : List Nat := []
  /-- Those that wait, in the order in which they began to. -/
  waiting : List Nat

namespace Turns

/-- The turns when activities are about to be run: whoever can move is ready. -/
def start (s : S) : Turns where
  ready := (places s).filter (canMove s)
  waiting := (places s).filter fun place => !canMove s place

/-- After a step, those that can move now do not wait any longer, and new activities are ready. -/
def wake (t : Turns) (before after : S) : Turns :=
  let woken := t.waiting.filter (canMove after)
  { t with
    ready := t.ready ++ woken ++ List.range' (size before) (size after - size before)
    waiting := t.waiting.filter fun place => !canMove after place }

/-- What happens next: the first that is ready takes a step or begins to wait; if nobody is, those
that let the others go first are ready again. -/
def next (t : Turns) (s : S) : Option (Turns × S) :=
  match t.ready, t.deferred with
  | [], [] => none
  | [], deferred => some ({ t with ready := deferred, deferred := [] }, s)
  | place :: ready, _ =>
    match step s place with
    | none => some ({ t with ready, waiting := t.waiting ++ [place] }, s)
    | some (after, yields) =>
      let t := if yields then { t with ready, deferred := place :: t.deferred } else t
      some (t.wake s after, after)

/-- So many things happen, or until nobody is to move. -/
def run : Nat → Turns → S → Turns × S
  | 0, t, s => (t, s)
  | n + 1, t, s =>
    match t.next s with
    | none => (t, s)
    | some (t, s) => run n t s

end Turns

/-- Let every activity run until none can move: for each step that it takes, all may get ready in
vain. -/
def settle (s : S) : S :=
  let (t, after) := (Turns.start s).run (budget s * (size s + 2)) s
  setWaiting after t.waiting

/-- The first of the times waited for that is after now and not after a limit. -/
def nextDeadline? (s : S) (limit : Nat) : Option Nat :=
  ((deadlines s).filter fun d => now s < d && d ≤ limit).min?

/-- Let time pass to a limit, with at most so many stops. -/
def advanceTo (limit : Nat) : Nat → S → S
  | 0, s => settle (setNow s limit)
  | n + 1, s =>
    match nextDeadline? s limit with
    | none => settle (setNow s limit)
    | some d => advanceTo limit n (settle (setNow s d))

def advance (s : S) (duration : Nat) : S := advanceTo (now s + duration) duration s

end Schedule

end BlockFeed
