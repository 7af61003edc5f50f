import BlockFeed.Link.Registry
import BlockFeed.Signal

/-!
# Senders

A sender puts payloads into frames, one counter for each, and writes every frame to all its
registered connections. If it asks for acknowledgments, a send goes on until each connection that
took the frame has acknowledged it, has failed, or is no longer waited for because the sender was
closed.

## Main definitions

* `Sender`: the counter, the registry, and the sends that queue for their turn.
* `Send`: one send and how far it has got; `Send.step`: its next step, if it has one now.
* `AckWait.step`: the next step of the wait for one acknowledgment.
* `Sender.close`: end all waits and close all connections.

## Design notes

Sends take turns: the first in `line` has the turn and leaves the line when it is done, so no send
reads an acknowledgment that is meant for another. A step is what happens between two points at
which other activities may intervene; while a send has its turn, the waits for its
acknowledgments are independent of each other, and `pick` says which of them moves.
-/

namespace BlockFeed

/-- What sends share. -/
structure Sender where
  withAcknowledge : Bool
  lastCounter : UInt64 := 0
  registry : Registry := .empty
  /-- The sends that wait for their turn, after the one that has it. -/
  line : List Nat := []
  /-- Fired when the sender is closed. -/
  cancel : Signal := {}

namespace Sender

def add (s : Sender) (w : Wire) (r : Ref) : Sender := { s with registry := s.registry.add w r }

def closeAndRemove (s : Sender) (w : Wire) (id : String) :
    Except RegistryError Unit × Sender × Wire :=
  let (result, registry, w) := s.registry.closeAndRemove w id
  (result, { s with registry }, w)

/-- Forget the connections that are no longer open. -/
def removeClosed (s : Sender) (w : Wire) : Sender :=
  { s with registry := s.registry.removeClosed w }

def close (s : Sender) (w : Wire) : Sender × Wire :=
  let (registry, w) := s.registry.closeAll w
  ({ s with registry, cancel := s.cancel.close }, w)

end Sender

/-- How the wait for an acknowledgment ended. -/
inductive AckOutcome where
  | acknowledged
  | cancelled
  | failed (error : ConnectionError)
  deriving DecidableEq, Repr

/-- The wait for one acknowledgment. -/
structure AckWait where
  id : String
  conn : Ref
  outcome : Option AckOutcome := none
  deriving DecidableEq, Repr

/-- How far a send has got. -/
inductive SendPhase where
  | called
  | queued
  /-- It writes its frame to one connection after the other. -/
  | writing (counter : UInt64) (rest written : List (String × Ref)) (failures : List Failure)
  | waiting (counter : UInt64) (waits : List AckWait) (failures : List Failure)
  | done (result : Except SendError Unit)

/-- One send. -/
structure Send where
  payload : Bytes
  phase : SendPhase := .called

/-- The result of a send that is done. -/
def Send.result? (s : Send) : Option (Except SendError Unit) :=
  match s.phase with
  | .done result => some result
  | _ => none

namespace AckWait

/-- The next step of the wait for the acknowledgment of a counter: a closed sender ends it; a
message is taken, and ends it if it is that acknowledgment; an error ends it, and its connection
is unregistered and closed. -/
def step (counter : UInt64) (s : Sender) (w : Wire) (a : AckWait) :
    Option (Sender × Wire × AckWait) :=
  if a.outcome.isSome then none
  else if s.cancel.closed then some (s, w, { a with outcome := some .cancelled })
  else
    match w.read? a.conn with
    | none => none
    | some (.ok bytes, w) =>
      match Ack.decode bytes with
      | .ok n =>
        if n = counter then some (s, w, { a with outcome := some .acknowledged })
        else some (s, w, a)
      | .error _ => some (s, w, a)
    | some (.error e, w) =>
      let (_, s, w) := s.closeAndRemove w a.id
      some (s, w, { a with outcome := some (.failed e) })

def delivered (a : AckWait) : Bool :=
  match a.outcome with
  | some .acknowledged | some .cancelled => true
  | _ => false

def failure? (a : AckWait) : Option Failure :=
  match a.outcome with
  | some (.failed e) => some ⟨a.id, e⟩
  | _ => none

end AckWait

namespace Send

/-- What waits that have all ended amount to: one connection that was not lost is enough. -/
def verdict (waits : List AckWait) (failures : List Failure) : Except SendError Unit :=
  if waits.any (·.delivered) then .ok ()
  else .error (.allWritesFailed (failures ++ waits.filterMap (·.failure?)))

/-- The send has its result, and the next in line has its turn. -/
def finish (result : Except SendError Unit) (s : Sender) (w : Wire) (x : Send) :
    Sender × Wire × Send :=
  ({ s with line := s.line.tail }, w, { x with phase := .done result })

/-- The send begins: without connections or without a payload it is done at once, otherwise it
joins the line under its number. -/
def begin (me : Nat) (s : Sender) (w : Wire) (x : Send) : Sender × Wire × Send :=
  if s.registry.isEmpty then (s, w, { x with phase := .done (.error .noConnections) })
  else if x.payload.isEmpty then (s, w, { x with phase := .done (.error .emptyPayload) })
  else ({ s with line := s.line ++ [me] }, w, { x with phase := .queued })

/-- The send has its turn: it takes the next counter, and the connections that are registered
now. -/
def start (s : Sender) (w : Wire) (x : Send) : Sender × Wire × Send :=
  if s.registry.isEmpty then finish (.error .noConnections) s w x
  else
    let counter := s.lastCounter + 1
    ({ s with lastCounter := counter }, w,
      { x with phase := .writing counter s.registry.entries [] [] })

def frame (s : Sender) (counter : UInt64) (x : Send) : Bytes :=
  Frame.encode ⟨s.withAcknowledge, counter, x.payload⟩

/-- Every connection has been written to: wait for acknowledgments if they were asked for. -/
def settle (counter : UInt64) (written : List (String × Ref)) (failures : List Failure)
    (s : Sender) (w : Wire) (x : Send) : Sender × Wire × Send :=
  if written.isEmpty then finish (.error (.allWritesFailed failures)) s w x
  else if s.withAcknowledge then
    (s, w, { x with phase := .waiting counter (written.map fun c => ⟨c.1, c.2, none⟩) failures })
  else finish (.ok ()) s w x

/-- The next step of the send under its number, if it can take one now; of its waits for
acknowledgments the one at `pick` moves. -/
def step (me pick : Nat) (s : Sender) (w : Wire) (x : Send) : Option (Sender × Wire × Send) :=
  match x.phase with
  | .called => some (begin me s w x)
  | .queued => if s.line.head? = some me then some (start s w x) else none
  | .writing counter ((id, r) :: rest) written failures =>
    match w.write r (frame s counter x) with
    | (.ok (), w) =>
      some (s, w, { x with phase := .writing counter rest (written ++ [(id, r)]) failures })
    | (.error e, w) =>
      some (s, w, { x with phase := .writing counter rest written (failures ++ [⟨id, e⟩]) })
  | .writing counter [] written failures => some (settle counter written failures s w x)
  | .waiting counter waits failures =>
    match waits[pick]? with
    | none => none
    | some a =>
      match a.step counter s w with
      | none => none
      | some (s, w, a) =>
        let waits := waits.set pick a
        if waits.all (·.outcome.isSome) then some (finish (verdict waits failures) s w x)
        else some (s, w, { x with phase := .waiting counter waits failures })
  | .done _ => none

/-- The number of waits that a send may move. -/
def width (x : Send) : Nat :=
  match x.phase with
  | .waiting _ waits _ => waits.length
  | _ => 1

/-- Whether the wait at `pick` is about to look for its acknowledgment; it lets others go first
before it does. -/
def looks (pick : Nat) (x : Send) : Bool :=
  match x.phase with
  | .waiting _ waits _ => waits[pick]?.any (·.outcome.isNone)
  | _ => false

end Send

end BlockFeed
