import BlockFeed.Codec.Frame
import BlockFeed.Link.Error

/-!
# Connections

One end of a link: what has arrived at it and was not read yet, what will come of writes to it,
and what has been done with it so far.

## Main definitions

* `Connection`: the state of one end, with its history.
* `Connection.read?`, `Connection.write`, `Connection.close`: what its owner may do.
* `Occurrence`, `Connection.undergo`: what may happen to it from outside.

## Design notes

`read?` has no answer while nothing has arrived: its caller waits. A connection that `drops` is no
longer open once an error told that it is gone, as a socket is; any other stays open until it is
closed. What will come of a write is planned ahead, so that every course of events is some plan.
-/

namespace BlockFeed

/-- What a read finds. -/
inductive Inbound where
  | data (bytes : Bytes)
  | failure (error : ConnectionError)
  deriving DecidableEq, Repr

/-- A write as it was called for. -/
structure WriteCall where
  bytes : Bytes
  /-- Whether the connection was open to it. -/
  attempted : Bool
  /-- Why the message was not accepted, if it was not. -/
  error : Option ConnectionError
  deriving DecidableEq, Repr

/-- One end of a link. -/
structure Connection where
  id : String := ""
  isOpen : Bool := false
  /-- Whether an error that tells that it is gone ends it. -/
  drops : Bool := false
  /-- What has arrived and was not read yet. -/
  inbound : List Inbound := []
  ended : Bool := false
  /-- What comes of the next writes. -/
  plan : List (Option ConnectionError) := []
  afterPlan : Option ConnectionError := none
  /-- If set, an accepted frame is answered at once by the acknowledgment of its counter and
  this. -/
  echo : Option UInt64 := none
  closeError : Option ConnectionError := none
  writes : List WriteCall := []
  taken : List Inbound := []
  closes : Nat := 0
  deriving DecidableEq, Repr, Inhabited

namespace Connection

def written (c : Connection) : List Bytes :=
  (c.writes.filter fun w => w.error.isNone).map (·.bytes)

def attempts (c : Connection) : Nat := (c.writes.filter (·.attempted)).length

/-- The connection after one of its operations reported an error. -/
def afterError (c : Connection) (e : ConnectionError) : Connection :=
  if c.drops && e.isClosed then { c with isOpen := false } else c

/-- The connection after what had arrived first was taken from before the rest. -/
def take (c : Connection) (first : Inbound) (rest : List Inbound) : Connection :=
  { c with inbound := rest, taken := c.taken ++ [first] }

/-- Take what has arrived first, whether or not the connection is open; no answer while there is
nothing to report. -/
def next? (c : Connection) : Option (Except ConnectionError Bytes × Connection) :=
  match c.inbound with
  | .data bytes :: rest => some (.ok bytes, c.take (.data bytes) rest)
  | .failure e :: rest => some (.error e, (c.take (.failure e) rest).afterError e)
  | [] => if c.ended then some (.error .closedByPeer, c.afterError .closedByPeer) else none

/-- Read what has arrived first; no answer while there is nothing to report. -/
def read? (c : Connection) : Option (Except ConnectionError Bytes × Connection) :=
  if c.isOpen then c.next? else some (.error .notOpen, c)

/-- What comes of the next write to an open connection. -/
def nextOutcome (c : Connection) : Option ConnectionError := c.plan.headD c.afterPlan

/-- The connection after a write that was attempted. -/
def record (c : Connection) (bytes : Bytes) (error : Option ConnectionError) : Connection :=
  { c with plan := c.plan.tail, writes := c.writes ++ [⟨bytes, true, error⟩] }

/-- What an accepted message makes arrive at once. -/
def reply (c : Connection) (bytes : Bytes) : List Inbound :=
  match c.echo, Frame.decode bytes with
  | some offset, .ok f => [.data (Ack.encode (f.counter + offset))]
  | _, _ => []

/-- Hand a message to the link, whether or not the connection is open. -/
def send (c : Connection) (bytes : Bytes) : Except ConnectionError Unit × Connection :=
  match c.nextOutcome with
  | some e => (.error e, (c.record bytes (some e)).afterError e)
  | none => (.ok (), { c.record bytes none with inbound := c.inbound ++ c.reply bytes })

def write (c : Connection) (bytes : Bytes) : Except ConnectionError Unit × Connection :=
  if c.isOpen then c.send bytes
  else (.error .notOpen, { c with writes := c.writes ++ [⟨bytes, false, some .notOpen⟩] })

def close (c : Connection) : Except ConnectionError Unit × Connection :=
  let c := { c with closes := c.closes + 1 }
  if c.isOpen then
    (match c.closeError with
      | some e => .error e
      | none => .ok (), { c with isOpen := false })
  else (.error .notOpen, c)

end Connection

/-- What may happen to a connection from outside. -/
inductive Occurrence where
  | arrive (items : List Inbound)
  /-- Nothing will arrive any more. -/
  | finish
  /-- What will come of the writes from now on. -/
  | planWrites (plan : List (Option ConnectionError)) (afterPlan : Option ConnectionError)
  /-- It opens, or it is no longer open. -/
  | setOpen (isOpen : Bool)
  /-- Accepted frames are answered from now on, or no longer. -/
  | setEcho (offset : Option UInt64)
  deriving DecidableEq, Repr

/-- The connection after something has happened to it. -/
def Connection.undergo (c : Connection) : Occurrence → Connection
  | .arrive items => { c with inbound := c.inbound ++ items }
  | .finish => { c with ended := true }
  | .planWrites plan afterPlan => { c with plan := plan, afterPlan := afterPlan }
  | .setOpen isOpen => { c with isOpen := isOpen }
  | .setEcho offset => { c with echo := offset }

end BlockFeed
