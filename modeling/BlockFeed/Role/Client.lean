import BlockFeed.Config.Basic
import BlockFeed.Receiver
import BlockFeed.Sender

/-!
# Clients

A client keeps one connection to a server. It dials when it needs the connection and has none, and
dials again, after a pause, until a dial succeeds or the client is closed. What it sends goes out
again over a new connection whenever the old one is lost on the way.

## Main definitions

* `Client`: the sender, the receiver, and the slot that holds the connection.
* `Obtain`: obtaining the connection; `Discard`: giving up a connection that was lost.
* `ClientSend`, `ClientListen`, `ClientClose`: the activities of a client, each with its `step`.
* `ClientActivity.answerDial`: what a dial that has come to an end does.

## Design notes

The slot is held by one activity at a time: the first in `line`. Whoever finds it empty dials while
holding it, so there is at most one dial at a time; a dial that is out is not interrupted, the
pause after a failed one is. What comes of a dial is told from outside, and a connection made by
one is a new connection.
-/

namespace BlockFeed

/-- What the activities of a client share. -/
structure Client where
  address : String
  /-- The pause between attempts, in milliseconds. -/
  retry : Nat
  sender : Sender
  receiver : Receiver
  slot : Option Ref := none
  /-- The activities that wait for the slot, after the one that holds it. -/
  line : List Nat := []
  /-- Fired when the client is closed. -/
  cancel : Signal := {}
  /-- How often the handler was told that the client is closed. -/
  handlerCloses : Nat := 0

namespace Client

/-- A client with the settings of a configuration. -/
def ofConfig (c : Config) (handler : Handler) : Except ConfigError Client := do
  c.validate
  let retry := 1000 * c.retryDurationSecs.toNat
  return {
    address := c.url
    retry
    sender := { withAcknowledge := c.withAcknowledge }
    receiver := { handler, blockOnError := c.blockingAckOnError, retry } }

/-- Whether the slot holds an open connection; no answer while an activity holds the slot. -/
def connected? (c : Client) (w : Wire) : Option Bool :=
  if c.line.isEmpty then
    match c.slot with
    | some r => some (w.conn r).isOpen
    | none => some false
  else none

/-- Let the next in line have the slot. -/
def release (c : Client) : Client := { c with line := c.line.tail }

def enqueue (c : Client) (me : Nat) : Client := { c with line := c.line ++ [me] }

def holds (c : Client) (me : Nat) : Bool := c.line.head? == some me

/-- Register a connection with the sender, unless its id is registered already. -/
def register (c : Client) (w : Wire) (r : Ref) : Client :=
  if c.sender.registry.contains (w.conn r).id then c else { c with sender := c.sender.add w r }

end Client

/-- Obtaining the connection of a client. -/
inductive Obtain where
  | called
  | queued
  | ready
  | dialing
  /-- Pausing until a time after a failed dial. -/
  | pausing (deadline : Nat)
  | got (r : Ref)
  | refused
  deriving DecidableEq, Repr

namespace Obtain

/-- The connection is there: register it if it is for sending, and release the slot. -/
def finish (register : Bool) (r : Ref) (c : Client) (w : Wire) : Client × Obtain :=
  ((if register then c.register w r else c).release, .got r)

/-- The next step of the activity `me`, if it can take one now. -/
def step (me now : Nat) (register : Bool) (c : Client) (w : Wire) :
    Obtain → Option (Client × Obtain)
  | .called => some (c.enqueue me, .queued)
  | .queued =>
    if c.holds me then
      match c.slot with
      | some r => if (w.conn r).isOpen then some (finish register r c w) else some (c, .ready)
      | none => some (c, .ready)
    else none
  | .ready => if c.cancel.closed then some (c.release, .refused) else some (c, .dialing)
  | .dialing => none
  | .pausing deadline =>
    if c.cancel.closed then some (c.release, .refused)
    else if now < deadline then none
    else some (c, .ready)
  | .got _ => none
  | .refused => none

/-- A dial has come to an end: with a connection, which takes the slot, or without one. -/
def answer (now : Nat) (register : Bool) (dialed : Option Ref) (c : Client) (w : Wire) :
    Obtain → Client × Obtain
  | .dialing =>
    match dialed with
    | some r => finish register r { c with slot := some r } w
    | none => (c, .pausing (now + c.retry))
  | o => (c, o)

def deadline? : Obtain → Option Nat
  | .pausing deadline => some deadline
  | _ => none

end Obtain

/-- Giving up a connection that was lost. -/
inductive Discard where
  | called
  | queued
  /-- The slot does not hold the connection any more. -/
  | cleared
  | done
  deriving DecidableEq, Repr

namespace Discard

/-- Unregister and close a connection; one that is not registered is closed if it is open. -/
def drop (r : Ref) (c : Client) (w : Wire) : Client × Wire :=
  match c.sender.closeAndRemove w (w.conn r).id with
  | (.error (.notFound _), _, _) => if (w.conn r).isOpen then (c, (w.close r).2) else (c, w)
  | (_, sender, w) => ({ c with sender }, w)

/-- The next step of the activity `me`, if it can take one now. -/
def step (me : Nat) (r : Ref) (c : Client) (w : Wire) : Discard → Option (Client × Wire × Discard)
  | .called => some (c.enqueue me, w, .queued)
  | .queued =>
    if c.holds me then
      let c := if c.slot = some r then { c with slot := none } else c
      some (c.release, w, .cleared)
    else none
  | .cleared =>
    let (c, w) := drop r c w
    some (c, w, .done)
  | .done => none

end Discard

/-- How far a send of a client has got. -/
inductive ClientSendPhase where
  | called
  | attempting
  | obtaining (o : Obtain)
  | sending (r : Ref) (x : Send)
  /-- It gives up a connection that was lost. -/
  | discarding (r : Ref) (d : Discard)
  /-- It pauses until a time after a failed attempt. -/
  | pausing (deadline : Nat)
  | done (result : Except SendError Unit)

/-- A send of a client. -/
structure ClientSend where
  payload : Bytes
  phase : ClientSendPhase := .called

namespace ClientSend

def result? (s : ClientSend) : Option (Except SendError Unit) :=
  match s.phase with
  | .done result => some result
  | _ => none

def deadline? (s : ClientSend) : Option Nat :=
  match s.phase with
  | .obtaining o => o.deadline?
  | .pausing deadline => some deadline
  | _ => none

/-- The number of things it may do next. -/
def width (s : ClientSend) : Nat :=
  match s.phase with
  | .sending _ x => x.width
  | _ => 1

/-- What follows from how far the connection has been obtained. -/
def afterObtain (payload : Bytes) : Obtain → ClientSendPhase
  | .got r => .sending r ⟨payload, .called⟩
  | .refused => .done (.error .closed)
  | o => .obtaining o

/-- What follows from how far the sender has got: a success is a success, a lost connection is
given up, and after any other failure there is a pause. -/
def afterSend (now retry : Nat) (r : Ref) (x : Send) : ClientSendPhase :=
  match x.result? with
  | none => .sending r x
  | some (.ok ()) => .done (.ok ())
  | some (.error .emptyPayload) => .done (.error .emptyPayload)
  | some (.error e) =>
    if e.isConnectionClosed then .discarding r .called else .pausing (now + retry)

/-- What follows from how far a lost connection has been given up. -/
def afterDiscard (r : Ref) : Discard → ClientSendPhase
  | .done => .attempting
  | d => .discarding r d

/-- The next step of the activity `me`, if it can take one now. -/
def step (me now pick : Nat) (c : Client) (w : Wire) (s : ClientSend) :
    Option (Client × Wire × ClientSend) :=
  match s.phase with
  | .called =>
    if s.payload.isEmpty then some (c, w, { s with phase := .done (.error .emptyPayload) })
    else some (c, w, { s with phase := .attempting })
  | .attempting =>
    if c.cancel.closed then some (c, w, { s with phase := .done (.error .closed) })
    else some (c, w, { s with phase := .obtaining .called })
  | .obtaining o =>
    match o.step me now true c w with
    | none => none
    | some (c, o) => some (c, w, { s with phase := afterObtain s.payload o })
  | .sending r x =>
    match x.step me pick c.sender w with
    | none => none
    | some (sender, w, x) =>
      some ({ c with sender }, w, { s with phase := afterSend now c.retry r x })
  | .discarding r d =>
    match d.step me r c w with
    | none => none
    | some (c, w, d) => some (c, w, { s with phase := afterDiscard r d })
  | .pausing deadline =>
    if c.cancel.closed then some (c, w, { s with phase := .done (.error .closed) })
    else if now < deadline then none
    else some (c, w, { s with phase := .attempting })
  | .done _ => none

end ClientSend

/-- How far the reading of a client has got. -/
inductive ClientListen where
  | obtaining (o : Obtain)
  | listening (r : Ref) (l : Listen)
  /-- It gives up a connection that was lost. -/
  | discarding (r : Ref) (d : Discard)
  | done

namespace ClientListen

def deadline? : ClientListen → Option Nat
  | .obtaining o => o.deadline?
  | .listening _ l => l.deadline?
  | _ => none

/-- What follows from how far the connection has been obtained. -/
def afterObtain : Obtain → ClientListen
  | .got r => .listening r ⟨r, .called⟩
  | .refused => .done
  | o => .obtaining o

/-- What follows from how far the reading has got: unless the connection was lost and the client
is open, it is over. -/
def afterListen (closed : Bool) (r : Ref) (l : Listen) : ClientListen :=
  match l.result? with
  | none => .listening r l
  | some gone => if gone && !closed then .discarding r .called else .done

/-- What follows from how far a lost connection has been given up. -/
def afterDiscard (r : Ref) : Discard → ClientListen
  | .done => .obtaining .called
  | d => .discarding r d

/-- The next step of the activity `me`, if it can take one now. -/
def step (me now pick : Nat) (c : Client) (w : Wire) :
    ClientListen → Option (Client × Wire × ClientListen)
  | .obtaining o =>
    match o.step me now false c w with
    | none => none
    | some (c, o) => some (c, w, afterObtain o)
  | .listening r l =>
    match l.step now pick c.receiver w with
    | none => none
    | some (receiver, w, l) =>
      some ({ c with receiver }, w, afterListen c.cancel.closed r l)
  | .discarding r d =>
    match d.step me r c w with
    | none => none
    | some (c, w, d) => some (c, w, afterDiscard r d)
  | .done => none

end ClientListen

/-- How far closing a client has got. -/
inductive ClientClose where
  | called
  | released
  | queued
  | done
  deriving DecidableEq, Repr

namespace ClientClose

/-- Release everything that waits, and close what is registered. -/
def releaseAll (c : Client) (w : Wire) : Client × Wire :=
  let (sender, w) := c.sender.close w
  ({ c with sender, receiver := c.receiver.close, cancel := c.cancel.close }, w)

/-- Take the connection out of the slot, close it if it is open, and tell the handler. -/
def emptySlot (c : Client) (w : Wire) : Client × Wire :=
  let w := match c.slot with
    | some r => if (w.conn r).isOpen then (w.close r).2 else w
    | none => w
  ({ c.release with slot := none, handlerCloses := c.handlerCloses + 1 }, w)

/-- The next step of the activity `me`, if it can take one now. -/
def step (me : Nat) (c : Client) (w : Wire) : ClientClose → Option (Client × Wire × ClientClose)
  | .called =>
    if c.cancel.closed then some (c, w, .done)
    else
      let (c, w) := releaseAll c w
      some (c, w, .released)
  | .released => some (c.enqueue me, w, .queued)
  | .queued =>
    if c.holds me then
      let (c, w) := emptySlot c w
      some (c, w, .done)
    else none
  | .done => none

end ClientClose

/-- An activity of a client. -/
inductive ClientActivity where
  | send (s : ClientSend)
  | listen (l : ClientListen)
  | close (x : ClientClose)

namespace ClientActivity

/-- The next step of the activity `me`, if it can take one now. -/
def step (me now pick : Nat) (c : Client) (w : Wire) :
    ClientActivity → Option (Client × Wire × ClientActivity)
  | .send s => (s.step me now pick c w).map fun (c, w, s) => (c, w, .send s)
  | .listen l => (l.step me now pick c w).map fun (c, w, l) => (c, w, .listen l)
  | .close x => (x.step me c w).map fun (c, w, x) => (c, w, .close x)

/-- Whether a dial of the activity is out. -/
def dialing : ClientActivity → Bool
  | .send ⟨_, .obtaining .dialing⟩ | .listen (.obtaining .dialing) => true
  | _ => false

/-- A dial of the activity has come to an end, with a connection or without one. -/
def answerDial (now : Nat) (dialed : Option Ref) (c : Client) (w : Wire) :
    ClientActivity → Client × ClientActivity
  | .send s =>
    match s.phase with
    | .obtaining o =>
      let (c, o) := o.answer now true dialed c w
      (c, .send { s with phase := ClientSend.afterObtain s.payload o })
    | _ => (c, .send s)
  | .listen (.obtaining o) =>
    let (c, o) := o.answer now false dialed c w
    (c, .listen (ClientListen.afterObtain o))
  | a => (c, a)

def deadline? : ClientActivity → Option Nat
  | .send s => s.deadline?
  | .listen l => l.deadline?
  | .close _ => none

/-- The number of things it may do next, as far as a schedule tells them apart. -/
def width : ClientActivity → Nat
  | .send s => s.width
  | _ => 1

def finished : ClientActivity → Bool
  | .send s => s.result?.isSome
  | .listen .done => true
  | .close .done => true
  | _ => false

end ClientActivity

end BlockFeed
