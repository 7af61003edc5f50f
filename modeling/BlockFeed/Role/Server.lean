import BlockFeed.Config.Basic
import BlockFeed.Link.Address
import BlockFeed.Receiver
import BlockFeed.Sender

/-!
# Servers

A server accepts connections. While it has no handler, the connections it accepts are those it
sends to; once it has one, each connection it accepts is read by a receiver of its own.

## Main definitions

* `Server`: the sender, the receivers, and the handler.
* `ServerSend`, `Accept`: the activities of a server, each with its `step`.
* `Server.close`: end everything.
* `Server.statusOf`: the answer to a request that is no upgrade.

## Design notes

A server forgets connections that are no longer open before and after each send. A receiver is
tracked under the id of its connection for as long as it reads. A connection that is accepted after
the server was closed is closed at once.
-/

namespace BlockFeed

/-- What the activities of a server share. -/
structure Server where
  address : String
  /-- The largest message that is read, in bytes. -/
  maxMessageSize : Nat
  /-- Whether a payload that the handler refuses stays unacknowledged. -/
  blockOnError : Bool
  /-- The pause between attempts, in milliseconds. -/
  retry : Nat
  /-- Sends to the connections that are not read. -/
  sender : Sender
  receivers : List Receiver := []
  /-- The receivers that read, under the ids of their connections. -/
  tracked : Table Nat := .empty
  /-- Whoever takes the payloads of connections accepted from now on. -/
  handler : Option Handler := none
  /-- Fired when the server is closed. -/
  cancel : Signal := {}
  /-- How often a handler was told that the server is closed. -/
  handlerCloses : Nat := 0

namespace Server

/-- A server with the settings of a configuration. -/
def ofConfig (c : Config) : Except ConfigError Server := do
  c.validate
  return {
    address := c.url
    maxMessageSize := c.maxMessageSize.toNat
    blockOnError := c.blockingAckOnError
    retry := 1000 * c.retryDurationSecs.toNat
    sender := { withAcknowledge := c.withAcknowledge } }

/-- Let a handler take the payloads of connections accepted from now on. -/
def register (s : Server) (h : Handler) : Server := { s with handler := some h }

/-- Forget the connections that are no longer open. -/
def prune (s : Server) (w : Wire) : Server := { s with sender := s.sender.removeClosed w }

/-- End everything: connections are closed, receivers stop, and the handler is told; nothing
happens the second time. -/
def close (s : Server) (w : Wire) : Server × Wire :=
  if s.cancel.closed then (s, w)
  else
    let (sender, w) := s.sender.close w
    let (tracked, receivers) := Receiver.closeTracked s.tracked s.receivers
    ({ s with
      sender, tracked, receivers
      cancel := s.cancel.close
      handlerCloses := s.handlerCloses + if s.handler.isSome then 1 else 0 }, w)

/-- The path that a request asks for, without what follows a question mark or a number sign. -/
def pathOf (target : String) : String :=
  String.ofList (target.toList.takeWhile fun c => c != '?' && c != '#')

/-- The status that answers a request that is no upgrade: nothing is found but at the endpoint,
and there only a GET is allowed, which lacks what an upgrade needs. -/
def statusOf (method target : String) : Nat :=
  if pathOf target != Address.route then 404 else if method == "GET" then 400 else 405

end Server

/-- How far a send of a server has got. -/
inductive ServerSendPhase where
  | called
  | sending (x : Send)
  | done (result : Except SendError Unit)

/-- A send of a server. -/
structure ServerSend where
  payload : Bytes
  phase : ServerSendPhase := .called

namespace ServerSend

def result? (s : ServerSend) : Option (Except SendError Unit) :=
  match s.phase with
  | .done result => some result
  | _ => none

/-- The number of things it may do next. -/
def width (s : ServerSend) : Nat :=
  match s.phase with
  | .sending x => x.width
  | _ => 1

/-- The next step of the activity `me`, if it can take one now. -/
def step (me pick : Nat) (s : Server) (w : Wire) (x : ServerSend) :
    Option (Server × Wire × ServerSend) :=
  match x.phase with
  | .called =>
    if s.cancel.closed then some (s, w, { x with phase := .done (.error .closed) })
    else some (s.prune w, w, { x with phase := .sending ⟨x.payload, .called⟩ })
  | .sending y =>
    match y.step me pick s.sender w with
    | none => none
    | some (sender, w, y) =>
      let s := { s with sender }
      match y.result? with
      | none => some (s, w, { x with phase := .sending y })
      | some result => some (s.prune w, w, { x with phase := .done result })
  | .done _ => none

end ServerSend

/-- How far the care for an accepted connection has got. -/
inductive AcceptPhase where
  | called
  | joined
  | tracked (receiver : Nat)
  | listening (receiver : Nat) (l : Listen)
  /-- Its receiver has stopped and is no longer tracked. -/
  | stopped
  | done

/-- The care for an accepted connection. -/
structure Accept where
  conn : Ref
  phase : AcceptPhase := .called

namespace Accept

def deadline? (a : Accept) : Option Nat :=
  match a.phase with
  | .listening _ l => l.deadline?
  | _ => none

/-- A new receiver for a connection, tracked under its id. -/
def track (s : Server) (w : Wire) (r : Ref) (handler : Handler) : Server :=
  { s with
    receivers := s.receivers ++ [{ handler, blockOnError := s.blockOnError, retry := s.retry }]
    tracked := s.tracked.insert (w.conn r).id s.receivers.length }

/-- The next step of the care for a connection, if it can be taken now. -/
def step (now pick : Nat) (s : Server) (w : Wire) (a : Accept) :
    Option (Server × Wire × Accept) :=
  match a.phase with
  | .called =>
    if s.cancel.closed then some (s, (w.close a.conn).2, { a with phase := .done })
    else
      match s.handler with
      | none => some ({ s with sender := s.sender.add w a.conn }, w, { a with phase := .joined })
      | some handler =>
        some (track s w a.conn handler, w, { a with phase := .tracked s.receivers.length })
  | .joined =>
    if s.cancel.closed then
      let (_, sender, w) := s.sender.closeAndRemove w (w.conn a.conn).id
      some ({ s with sender }, w, { a with phase := .done })
    else some (s, w, { a with phase := .done })
  | .tracked i =>
    let receivers := if s.cancel.closed then s.receivers.modify i (·.close) else s.receivers
    some ({ s with receivers }, w, { a with phase := .listening i ⟨a.conn, .called⟩ })
  | .listening i l =>
    match s.receivers[i]? with
    | none => none
    | some r =>
      match l.step now pick r w with
      | none => none
      | some (r, w, l) =>
        let s := { s with receivers := s.receivers.set i r }
        if l.result?.isSome then
          some ({ s with tracked := s.tracked.erase (w.conn a.conn).id }, w,
            { a with phase := .stopped })
        else some (s, w, { a with phase := .listening i l })
  | .stopped =>
    let w := if (w.conn a.conn).isOpen then (w.close a.conn).2 else w
    some (s, w, { a with phase := .done })
  | .done => none

end Accept

end BlockFeed
