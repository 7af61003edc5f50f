import BlockFeed.Dispatcher
import BlockFeed.Receiver
import BlockFeed.Report
import BlockFeed.Schedule
import BlockFeed.Sender

/-!
# Pipelines

A sender and receivers over connections in memory, with the activities that run on them.

## Main definitions

* `Pipeline`: the sender, the receivers, the wire between them, the clock and the activities.
* `Pipeline.move`: one step of one activity.
* `Pipeline.Event`, `Pipeline.apply`: everything that may happen to a pipeline.

## Design notes

A run is any list of events: activities move in any order, and between any two of their steps
connections may fail, time may pass, and more may be asked of the sender and the receivers. When
it is run by a schedule, whoever is about to read lets others go first, a send then looks for all
its acknowledgments together, and a reading of a closed receiver returns.
-/

namespace BlockFeed

/-- An activity of a pipeline. -/
inductive Activity where
  | send (x : Send)
  | refused (error : FeedError)
  | listen (receiver : Nat) (l : Listen)

namespace Activity

/-- The result of an activity that sends, if it is done. -/
def sent? : Activity → Option (Except SendError Unit)
  | send x => x.result?
  | _ => none

def deadline? : Activity → Option Nat
  | listen _ l => l.deadline?
  | _ => none

/-- The number of things that an activity may do next, as far as a schedule tells them apart. -/
def width : Activity → Nat
  | send x => x.width
  | _ => 1

/-- Whether an activity that has done the thing at `pick` lets others go first. -/
def yields (pick : Nat) : Activity → Bool
  | send x => x.looks pick
  | refused _ => false
  | listen _ l => l.looks

end Activity

/-- A sender and receivers over connections in memory. -/
structure Pipeline where
  sender : Sender
  receivers : List Receiver := []
  wire : Wire := {}
  /-- The time, in milliseconds. -/
  now : Nat := 0
  /-- The activities, from the first that began to the last. -/
  activities : List Activity := []
  /-- The places of activities that wait, in the order in which they began to. -/
  waiting : List Nat := []

namespace Pipeline

/-- One step of the activity at a place, doing the thing at `pick` where it may do several. -/
def move (p : Pipeline) (place pick : Nat) : Option Pipeline :=
  match p.activities[place]? with
  | some (.send x) =>
    match x.step place pick p.sender p.wire with
    | none => none
    | some (sender, wire, x) =>
      some { p with sender, wire, activities := p.activities.set place (.send x) }
  | some (.listen i l) =>
    match p.receivers[i]? with
    | none => none
    | some r =>
      match l.step p.now pick r p.wire with
      | none => none
      | some (r, wire, l) =>
        some { p with
          receivers := p.receivers.set i r
          wire
          activities := p.activities.set place (.listen i l) }
  | _ => none

/-- Everything that may happen to a pipeline. -/
inductive Event where
  /-- An activity takes a step, if it can. -/
  | move (place pick : Nat)
  | elapse (duration : Nat)
  | connect (c : Connection)
  | join (a b : Ref)
  | occur (r : Ref) (o : Occurrence)
  | disconnect (r : Ref)
  | register (r : Ref)
  | unregister (id : String)
  /-- The sender forgets the connections that are no longer open. -/
  | removeClosed
  /-- The sender unregisters and closes all connections, and goes on. -/
  | closeAll
  | closeSender
  | send (payload : Bytes)
  | report (m : Marshaler) (r : Report)
  | attach (r : Receiver)
  | listen (receiver : Nat) (r : Ref)
  | closeReceiver (receiver : Nat)

def begin (p : Pipeline) (a : Activity) : Pipeline := { p with activities := p.activities ++ [a] }

/-- The pipeline after something has happened to it. -/
def apply (p : Pipeline) : Event → Pipeline
  | .move place pick => (p.move place pick).getD p
  | .elapse duration => { p with now := p.now + duration }
  | .connect c => { p with wire := (p.wire.add c).1 }
  | .join a b => { p with wire := p.wire.join a b }
  | .occur r o => { p with wire := p.wire.undergo r o }
  | .disconnect r => { p with wire := (p.wire.close r).2 }
  | .register r => { p with sender := p.sender.add p.wire r }
  | .unregister id =>
    let (_, sender, wire) := p.sender.closeAndRemove p.wire id
    { p with sender, wire }
  | .removeClosed => { p with sender := p.sender.removeClosed p.wire }
  | .closeAll =>
    let (registry, wire) := p.sender.registry.closeAll p.wire
    { p with sender := { p.sender with registry }, wire }
  | .closeSender =>
    let (sender, wire) := p.sender.close p.wire
    { p with sender, wire }
  | .send payload => p.begin (.send ⟨payload, .called⟩)
  | .report m r =>
    match r.payload m with
    | .ok payload => p.begin (.send ⟨payload, .called⟩)
    | .error e => p.begin (.refused e)
  | .attach r => { p with receivers := p.receivers ++ [r] }
  | .listen receiver r => p.begin (.listen receiver ⟨r, .called⟩)
  | .closeReceiver receiver => { p with receivers := p.receivers.modify receiver (·.close) }

def applyAll (p : Pipeline) (events : List Event) : Pipeline := events.foldl apply p

/-- A step of the activity at a place for each of the things that it may do, one after the other,
if it can do any; and whether it lets others go first after one of them. -/
def moveAll (p : Pipeline) (place : Nat) : Option (Pipeline × Bool) :=
  (List.range ((p.activities[place]?).elim 0 (·.width))).foldl (fun moved pick =>
    let (before, yielding) := moved.getD (p, false)
    match before.move place pick with
    | none => moved
    | some p => some (p, yielding || (p.activities[place]?).any (·.yields pick))) none

instance : Schedule Pipeline where
  size p := p.activities.length
  step := moveAll
  waiting := Pipeline.waiting
  setWaiting p waiting := { p with waiting }
  budget p :=
    32 * (1 + p.wire.backlog + (p.activities.length + 1) * (p.wire.connections.length + 1))
  now := Pipeline.now
  setNow p now := { p with now }
  deadlines p := p.activities.filterMap (·.deadline?)

end Pipeline

end BlockFeed
