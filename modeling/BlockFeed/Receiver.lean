import BlockFeed.FeedError
import BlockFeed.Link.Wire
import BlockFeed.Signal
import BlockFeed.Table

/-!
# Receivers

A receiver reads frames from a connection, hands each payload to its handler, and acknowledges
those that ask for it.

## Main definitions

* `Handler`: whoever takes the payloads; `Reply`: what it does with one.
* `Receiver`: the handler, the settings, and what has been handled so far.
* `Listen`: one reading of a connection and how far it has got; `Listen.step`: its next step, if
  it has one now.
* `Listen.unlessClosed`: a reading waits for something, and for the closing of its receiver;
  `Listen.pause`: it begins to wait for a time.
* `Receiver.close`: end every reading.

## Design notes

A message that is no frame is passed over. If the handler refuses a payload, its frame is still
acknowledged, unless the receiver is to block on errors. An acknowledgment that cannot be written
is tried again after the retry interval, and nothing is read in the meantime; an error that tells
that the connection is gone ends the reading. A payload is handed over in the step that reads its
frame. A reading that waits looks at whether its receiver was closed and at whether it may go on in
no certain order: where both have come, either may win. It does so for the first time where a pause
begins, so a receiver that is closed by then does not pause.
-/

namespace BlockFeed

/-- A payload as it is handed over. -/
structure Delivery where
  payload : Bytes
  counter : UInt64
  deriving DecidableEq, Repr

/-- What a handler does with a payload. -/
structure Reply where
  result : Except HandlerError Unit
  closes : Bool := false

/-- What a handler does with a payload, given those it has been handed before. -/
abbrev Handler := List Delivery → Delivery → Reply

namespace Handler

def accepting : Handler := fun _ _ => ⟨.ok (), false⟩

/-- The handler, but of the payloads it accepts it refuses some with a message. -/
def refusing (h : Handler) (refuses : Delivery → Bool) (message : String) : Handler :=
  fun past d =>
    let reply := h past d
    match reply.result with
    | .ok () => if refuses d then { reply with result := .error (.refused message) } else reply
    | .error _ => reply

/-- The handler, but at some payloads it closes the receiver. -/
def closing (h : Handler) (closes : Delivery → Bool) : Handler :=
  fun past d =>
    let reply := h past d
    { reply with closes := reply.closes || closes d }

end Handler

/-- A payload that has been handed over, with what the handler says to it. -/
structure Handled where
  delivery : Delivery
  result : Except HandlerError Unit

/-- The life of a receiver. -/
inductive ReceiverState where
  | idle
  | listening
  /-- The last reading ended because the connection was gone. -/
  | closed
  /-- The last reading ended because the receiver was closed. -/
  | cancelled
  deriving DecidableEq, Repr

def ReceiverState.name : ReceiverState → String
  | idle => "Idle"
  | listening => "Listening"
  | closed => "Closed"
  | cancelled => "Cancelled"

/-- What the readings of a receiver share. -/
structure Receiver where
  handler : Handler
  /-- Whether a payload that the handler refuses stays unacknowledged. -/
  blockOnError : Bool
  /-- The pause between attempts, in milliseconds. -/
  retry : Nat
  state : ReceiverState := .idle
  /-- What has been handed over, from the first to the last. -/
  handled : List Handled := []
  /-- Fired when the receiver is closed. -/
  cancel : Signal := {}

namespace Receiver

def close (r : Receiver) : Receiver := { r with cancel := r.cancel.close }

def deliveries (r : Receiver) : List Delivery := r.handled.map (·.delivery)

def handOver (r : Receiver) (d : Delivery) : Receiver :=
  let reply := r.handler r.deliveries d
  let r := { r with handled := r.handled ++ [⟨d, reply.result⟩] }
  if reply.closes then r.close else r

def answer (r : Receiver) (d : Delivery) : Except HandlerError Unit :=
  (r.handler r.deliveries d).result

/-- Forget the receivers that are tracked under ids, and close each of them. -/
def closeTracked (tracked : Table Nat) (receivers : List Receiver) : Table Nat × List Receiver :=
  (.empty, tracked.values.foldl (fun rs i => rs.modify i close) receivers)

end Receiver

/-- What a reading goes on with after a pause. -/
inductive Resume where
  | read
  | acknowledge (counter : UInt64)
  deriving DecidableEq, Repr

/-- How far a reading has got. -/
inductive ListenPhase where
  | called
  | reading
  /-- The handler has the payload of a frame, and will give this answer. -/
  | handling (frame : Frame) (answer : Except HandlerError Unit)
  | acknowledging (counter : UInt64)
  | pausing (deadline : Nat) (resume : Resume)
  /-- It is done; whether the connection was gone. -/
  | done (gone : Bool)

/-- One reading of a connection. -/
structure Listen where
  conn : Ref
  phase : ListenPhase := .called

namespace Listen

/-- The result of a reading that is done. -/
def result? (l : Listen) : Option Bool :=
  match l.phase with
  | .done gone => some gone
  | _ => none

def deadline? (l : Listen) : Option Nat :=
  match l.phase with
  | .pausing deadline _ => some deadline
  | _ => none

/-- Whether a reading is about to look for a message; it lets others go first before it does. -/
def looks (l : Listen) : Bool :=
  match l.phase with
  | .reading => true
  | _ => false

def finish (gone : Bool) (r : Receiver) (w : Wire) (l : Listen) : Receiver × Wire × Listen :=
  ({ r with state := if gone then .closed else .cancelled }, w, { l with phase := .done gone })

/-- A message has arrived: the payload of a frame is handed over, all else is passed over. -/
def receive (bytes : Bytes) (r : Receiver) (w : Wire) (l : Listen) : Receiver × Wire × Listen :=
  match Frame.decode bytes with
  | .ok frame =>
    let d : Delivery := ⟨frame.payload, frame.counter⟩
    (r.handOver d, w, { l with phase := .handling frame (r.answer d) })
  | .error _ => (r, w, { l with phase := .reading })

/-- The handler has answered: acknowledge if that is asked for and not withheld. -/
def conclude (frame : Frame) (answer : Except HandlerError Unit) (r : Receiver) (l : Listen) :
    Listen :=
  if frame.ackRequested && (answer.isOk || !r.blockOnError) then
    { l with phase := .acknowledging frame.counter }
  else { l with phase := .reading }

/-- A pause begins; a receiver that was closed does not pause, unless the pause is over at once. -/
def pause (now : Nat) (resume : Resume) (r : Receiver) (w : Wire) (l : Listen) :
    Receiver × Wire × Listen :=
  if r.cancel.closed && 0 < r.retry then finish false r w l
  else (r, w, { l with phase := .pausing (now + r.retry) resume })

/-- What comes of a read that has an answer. -/
def take (now : Nat) (r : Receiver) (l : Listen) :
    Except ConnectionError Bytes × Wire → Receiver × Wire × Listen
  | (.ok bytes, w) => receive bytes r w l
  | (.error e, w) =>
    if e.isClosed then finish true r w l
    else pause now .read r w l

/-- A pause is over. -/
def goOn (l : Listen) : Resume → Listen
  | .read => { l with phase := .reading }
  | .acknowledge counter => { l with phase := .acknowledging counter }

/-- A reading goes on when it is ready, or returns because its receiver was closed; where it may do
both, it returns at the pick `0` and goes on at any other. -/
def unlessClosed (pick : Nat) (r : Receiver) (w : Wire) (l : Listen)
    (ready : Option (Receiver × Wire × Listen)) : Option (Receiver × Wire × Listen) :=
  if r.cancel.closed && (pick == 0 || ready.isNone) then some (finish false r w l) else ready

/-- The next step of a reading at a time, if it can take one now. -/
def step (now pick : Nat) (r : Receiver) (w : Wire) (l : Listen) :
    Option (Receiver × Wire × Listen) :=
  match l.phase with
  | .called => some ({ r with state := .listening }, w, { l with phase := .reading })
  | .reading => unlessClosed pick r w l ((w.read? l.conn).map (take now r l))
  | .handling frame answer => some (r, w, conclude frame answer r l)
  | .acknowledging counter =>
    match w.write l.conn (Ack.encode counter) with
    | (.ok (), w) => some (r, w, { l with phase := .reading })
    | (.error e, w) =>
      if e.isClosed then some (finish true r w l)
      else some (pause now (.acknowledge counter) r w l)
  | .pausing deadline resume =>
    unlessClosed pick r w l (if now < deadline then none else some (r, w, l.goOn resume))
  | .done _ => none

end Listen

end BlockFeed
