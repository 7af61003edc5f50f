import BlockFeed.Link.Wire
import BlockFeed.Text.Quoted

/-!
# Sockets

A socket has at most one link at a time. One that dials may be opened again after it was closed,
over a new link, while reads and writes that began on an old link are still under way.

## Main definitions

* `Socket`: the current link, and who waits for the ends of each link.
* `SocketRead`, `SocketWrite`, `SocketClose`, `SocketOpen`: the operations, each with its `step`.
* `SocketOpen.answer`: what a dial that has come to an end does.

## Design notes

A link is a connection of the wire; it is shut when that connection is not open. Reads of one link
take turns, and so do its writes. An operation remembers the link it began on: when it finds that
link gone it shuts that link, and takes it away from the socket only if the socket still has it.
Whether a read of a link that was shut meanwhile notices so, or takes what has arrived, is open:
`pick` decides.
-/

namespace BlockFeed

/-- An endpoint with at most one link at a time. -/
structure Socket where
  id : String
  dialable : Bool
  link : Option Ref := none
  /-- The reads that wait for their turn, each with its link; the first of a link has it. -/
  readers : List (Ref × Nat) := []
  /-- The writes that wait for their turn, each with its link; the first of a link has it. -/
  writers : List (Ref × Nat) := []
  deriving DecidableEq, Repr

namespace Socket

def isOpen (s : Socket) : Bool := s.link.isSome

def describe (s : Socket) : String :=
  "WsConnection \x7b id: " ++ Text.quoted s.id ++ ", open: "
    ++ (if s.isOpen then "true" else "false") ++ ", .. \x7d"

def shut (w : Wire) (r : Ref) : Bool := !(w.conn r).isOpen

/-- Take a link away from the socket if it is the current one. -/
def detach (s : Socket) (r : Ref) : Socket := if s.link = some r then { s with link := none } else s

/-- An operation on a link reported an error: if it tells that the link is gone, the link is shut
and taken away. -/
def afterError (s : Socket) (w : Wire) (r : Ref) (e : ConnectionError) : Socket × Wire :=
  if e.isClosed then (s.detach r, w.set r { w.conn r with isOpen := false }) else (s, w)

/-- The operation that has its turn at a link. -/
def turn (line : List (Ref × Nat)) (r : Ref) : Option Nat := line.lookup r

def leave (line : List (Ref × Nat)) (r : Ref) (me : Nat) : List (Ref × Nat) := line.erase (r, me)

end Socket

/-- A read of a socket. -/
inductive SocketRead where
  | called
  /-- It waits for its turn at a link. -/
  | queued (r : Ref)
  | reading (r : Ref)
  | done (result : Except ConnectionError Bytes)

namespace SocketRead

/-- The read is done, and the next has its turn. -/
def finish (me : Nat) (r : Ref) (result : Except ConnectionError Bytes) (s : Socket) (w : Wire) :
    Socket × Wire × SocketRead :=
  ({ s with readers := Socket.leave s.readers r me }, w, .done result)

def receive (me : Nat) (r : Ref) (s : Socket) (w : Wire) :
    Except ConnectionError Bytes × Connection → Socket × Wire × SocketRead
  | (.ok bytes, c) => finish me r (.ok bytes) s (w.set r c)
  | (.error e, c) =>
    let (s, w) := s.afterError (w.set r c) r e
    finish me r (.error e) s w

/-- The next step of the operation `me`, if it can take one now. -/
def step (me pick : Nat) (s : Socket) (w : Wire) : SocketRead → Option (Socket × Wire × SocketRead)
  | .called =>
    match s.link with
    | none => some (s, w, .done (.error .notOpen))
    | some r => some ({ s with readers := s.readers ++ [(r, me)] }, w, .queued r)
  | .queued r =>
    if Socket.turn s.readers r = some me then some (s, w, .reading r)
    else if Socket.shut w r then some (finish me r (.error .notOpen) s w)
    else none
  | .reading r =>
    if Socket.shut w r && pick = 0 then some (finish me r (.error .notOpen) s w)
    else (w.conn r).next?.map (receive me r s w)
  | .done _ => none

end SocketRead

/-- A write to a socket. -/
inductive SocketWrite where
  | called
  /-- It waits for its turn at a link. -/
  | queued (r : Ref)
  | writing (r : Ref)
  | done (result : Except ConnectionError Unit)

namespace SocketWrite

/-- The write is done, and the next has its turn. -/
def finish (me : Nat) (r : Ref) (result : Except ConnectionError Unit) (s : Socket) (w : Wire) :
    Socket × Wire × SocketWrite :=
  ({ s with writers := Socket.leave s.writers r me }, w, .done result)

/-- The next step of the operation `me`, which writes a message, if it can take one now. -/
def step (me : Nat) (bytes : Bytes) (s : Socket) (w : Wire) :
    SocketWrite → Option (Socket × Wire × SocketWrite)
  | .called =>
    match s.link with
    | none => some (s, w, .done (.error .notOpen))
    | some r => some ({ s with writers := s.writers ++ [(r, me)] }, w, .queued r)
  | .queued r =>
    if Socket.turn s.writers r = some me then
      if Socket.shut w r then some (finish me r (.error .notOpen) s w) else some (s, w, .writing r)
    else none
  | .writing r =>
    match w.afterWrite r bytes ((w.conn r).send bytes) with
    | (.ok (), w) => some (finish me r (.ok ()) s w)
    | (.error e, w) =>
      let (s, w) := s.afterError w r e
      some (finish me r (.error e) s w)
  | .done _ => none

end SocketWrite

/-- Closing a socket. -/
inductive SocketClose where
  | called
  /-- It has shut a link, and waits for its turn to say so to the other end. -/
  | queued (r : Ref) (outcome : Except ConnectionError Unit)
  | done (result : Except ConnectionError Unit)

namespace SocketClose

/-- The result of closing: that the other end was gone already is no failure. -/
def verdict : Except ConnectionError Unit → Except ConnectionError Unit
  | .ok () => .ok ()
  | .error e => if e.isClosed then .ok () else .error e

/-- The next step of the operation `me`, if it can take one now. -/
def step (me : Nat) (s : Socket) (w : Wire) : SocketClose → Option (Socket × Wire × SocketClose)
  | .called =>
    match s.link with
    | none => some (s, w, .done (.error .notOpen))
    | some r =>
      let (outcome, w) := w.close r
      some ({ s with link := none, writers := s.writers ++ [(r, me)] }, w, .queued r outcome)
  | .queued r outcome =>
    if Socket.turn s.writers r = some me then
      some ({ s with writers := Socket.leave s.writers r me }, w, .done (verdict outcome))
    else none
  | .done _ => none

end SocketClose

/-- Opening a socket. -/
inductive SocketOpen where
  | called
  | dialing
  | done (result : Except ConnectionError Unit)

namespace SocketOpen

/-- The next step, if it can be taken now. -/
def step (s : Socket) : SocketOpen → Option SocketOpen
  | .called =>
    if s.isOpen then some (.done (.error .alreadyOpen))
    else if s.dialable then some .dialing
    else some (.done (.error .cannotRedial))
  | .dialing => none
  | .done _ => none

/-- A dial has come to an end: with a link, which the socket takes unless it got another one
meanwhile, or with an error. -/
def answer (dialed : Except ConnectionError Ref) (s : Socket) (w : Wire) :
    SocketOpen → Socket × Wire × SocketOpen
  | .dialing =>
    match dialed with
    | .error e => (s, w, .done (.error e))
    | .ok r =>
      if s.isOpen then (s, (w.close r).2, .done (.error .alreadyOpen))
      else ({ s with link := some r }, w, .done (.ok ()))
  | o => (s, w, o)

end SocketOpen

end BlockFeed
