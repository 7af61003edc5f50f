import BlockFeed.Link.Identity
import BlockFeed.Link.Socket
import BlockFeed.Role.Client
import BlockFeed.Role.Server
import BlockFeed.Schedule

/-!
# Hosts

A host runs clients, servers and bare sockets side by side, and connects those that find each
other.

## Main definitions

* `Host`: the clients, servers and sockets, what is bound, and the activities.
* `Party`: a client or a server, with the activities that either has.
* `Host.bind`: bind a listener to an address.
* `Host.begin`: one more activity; `HostActivity.outcome?`: what it has come to.
* `Host.move`, `Host.meet`: one step of an activity; the end of a dial that is out.

## Design notes

A dial succeeds if the host has a network and the url that is dialed is the endpoint of an address
that a listener is bound to; then both ends of a new link come into being, one for the dialer and
one for the listener. A host without a network refuses every dial. A link ends on both sides once
it is closed on one.
-/

namespace BlockFeed

/-- Whoever accepts what is dialed at an address. -/
inductive Listener where
  | server (i : Nat)
  /-- Accepted sockets wait to be collected, under a given id or one of their own. -/
  | acceptor (id : Option String) (waiting : List Ref)
  | silent

/-- A client or a server of a host. -/
inductive Party where
  | client (i : Nat)
  | server (i : Nat)
  deriving DecidableEq, Repr

/-- An activity on a host. -/
inductive HostActivity where
  | client (i : Nat) (a : ClientActivity)
  | send (i : Nat) (s : ServerSend)
  | close (i : Nat) (closed : Bool)
  | accept (i : Nat) (a : Accept)
  | read (i : Nat) (x : SocketRead)
  | write (i : Nat) (bytes : Bytes) (x : SocketWrite)
  | shut (i : Nat) (x : SocketClose)
  | dial (i : Nat) (address : String) (x : SocketOpen)

/-- What an activity has come to. -/
inductive Outcome where
  | over
  | sent (result : Except SendError Unit)
  | received (result : Except ConnectionError Bytes)
  /-- A socket was opened, written to or closed, or was not. -/
  | performed (result : Except ConnectionError Unit)

namespace Party

def send (payload : Bytes) : Party → HostActivity
  | client i => .client i (.send ⟨payload, .called⟩)
  | server i => .send i ⟨payload, .called⟩

def close : Party → HostActivity
  | client i => .client i (.close .called)
  | server i => .close i false

/-- The party reads until it is closed; servers read without being asked. -/
def listen? : Party → Option HostActivity
  | client i => some (.client i (.listen (.obtaining .called)))
  | server _ => none

end Party

namespace HostActivity

/-- What an activity has come to, if it is over. -/
def outcome? : HostActivity → Option Outcome
  | client _ (.send x) => x.result?.map .sent
  | client _ a => if a.finished then some .over else none
  | send _ x => x.result?.map .sent
  | close _ closed => if closed then some .over else none
  | read _ (.done result) => some (.received result)
  | write _ _ (.done result) | shut _ (.done result) | dial _ _ (.done result) =>
    some (.performed result)
  | _ => none

def deadline? : HostActivity → Option Nat
  | client _ a => a.deadline?
  | accept _ a => a.deadline?
  | _ => none

/-- The number of things that an activity may do next. -/
def width : HostActivity → Nat
  | client _ a => a.width
  | send _ s => s.width
  | _ => 1

end HostActivity

/-- Clients, servers and sockets side by side. -/
structure Host where
  networked : Bool := true
  clients : List Client := []
  servers : List Server := []
  sockets : List Socket := []
  wire : Wire := {}
  /-- The listeners, under the addresses they are bound to. -/
  bound : Table Listener := .empty
  /-- The time, in milliseconds. -/
  now : Nat := 0
  /-- The activities, from the first that began to the last. -/
  activities : List HostActivity := []
  /-- The places of activities that wait, in the order in which they began to. -/
  waiting : List Nat := []

namespace Host

/-- Whether an address has a port to bind: what follows its last colon is a 16-bit number. -/
def bindable (address : String) : Bool :=
  match (address.toList.reverse).span (· != ':') with
  | (port, ':' :: _) => (Text.unsigned? UInt16.size (String.ofList port.reverse)).isSome
  | _ => false

def bind (h : Host) (address : String) (l : Listener) : Except IoKind Host :=
  if !bindable address then .error .invalidInput
  else if h.bound.contains address then .error .addrInUse
  else .ok { h with bound := h.bound.insert address l }

def begin (h : Host) (a : HostActivity) : Host := { h with activities := h.activities ++ [a] }

/-- Close a server; nobody is bound to its address any more. -/
def closeServer (h : Host) (i : Nat) : Host :=
  match h.servers[i]? with
  | none => h
  | some s =>
    let (s, wire) := s.close h.wire
    let bound := h.bound.filter fun _ l => match l with
      | .server j => j != i
      | _ => true
    { h with servers := h.servers.set i s, wire, bound }

def receivers (h : Host) : Party → List Receiver
  | .client i => (h.clients[i]?.map (·.receiver)).toList
  | .server i => (h.servers[i]?.map (·.receivers)).getD []

/-- How often the handler of a party was told that the party is closed. -/
def handlerCloses (h : Host) : Party → Nat
  | .client i => (h.clients[i]?.map (·.handlerCloses)).getD 0
  | .server i => (h.servers[i]?.map (·.handlerCloses)).getD 0

def addClient (h : Host) (c : Client) : Party × Host :=
  (.client h.clients.length, { h with clients := h.clients ++ [c] })

def addServer (h : Host) (s : Server) : Party × Host :=
  (.server h.servers.length, { h with servers := h.servers ++ [s] })

def addSocket (h : Host) (s : Socket) : Nat × Host :=
  (h.sockets.length, { h with sockets := h.sockets ++ [s] })

def serving (h : Host) (i : Nat) : Bool :=
  h.bound.values.any fun l => match l with
    | .server j => j == i
    | _ => false

/-- The address and the listener that are reached by dialing an address. -/
def reach? (h : Host) (address : String) : Option (String × Listener) :=
  if h.networked then
    h.bound.entries.find? fun e => Address.endpoint address == Address.endpoint e.1
  else none

def freshId (h : Host) : String :=
  Identity.generate h.now (h.wire.connections.length + h.sockets.length)

/-- A new link, its far end under an id or one of its own: the near end, the far end. -/
def link (h : Host) (id : Option String) : Ref × Ref × Host :=
  let (wire, near) := h.wire.add { id := h.freshId, isOpen := true, drops := true }
  let h := { h with wire }
  let (wire, far) := h.wire.add { id := id.getD h.freshId, isOpen := true, drops := true }
  (near, far, { h with wire := wire.join near far })

/-- A new link to a listener: the near end, and the host with the far end in the listener's
hands. -/
def connect (h : Host) (address : String) (l : Listener) : Option (Ref × Host) :=
  match l with
  | .silent => none
  | .server i =>
    let (near, far, h) := h.link none
    some (near, h.begin (.accept i ⟨far, .called⟩))
  | .acceptor id waiting =>
    let (near, far, h) := h.link id
    some (near, { h with bound := h.bound.insert address (.acceptor id (waiting ++ [far])) })

def dialed (h : Host) (address : String) : Option Ref × Host :=
  match (h.reach? address).bind fun e => h.connect e.1 e.2 with
  | some (r, h) => (some r, h)
  | none => (none, h)

/-- The error of a dial that reached nobody. -/
def refusal (address : String) : ConnectionError :=
  .dial (Address.endpoint address) (.io .connectionRefused "Connection refused")

def put (h : Host) (place : Nat) (a : HostActivity) : Host :=
  { h with activities := h.activities.set place a }

/-- The end of the dial that the activity at a place has out. -/
def meet (h : Host) (place : Nat) : Option Host :=
  match h.activities[place]? with
  | some (.client i a) =>
    match h.clients[i]? with
    | some c =>
      if a.dialing then
        let (r, h) := h.dialed c.address
        let (c, a) := a.answerDial h.now r c h.wire
        some ({ h with clients := h.clients.set i c }.put place (.client i a))
      else none
    | none => none
  | some (.dial i address .dialing) =>
    match h.sockets[i]? with
    | some s =>
      let (r, h) := h.dialed address
      let outcome := match r with
        | some r => .ok r
        | none => .error (refusal address)
      let (s, wire, x) := SocketOpen.answer outcome s h.wire .dialing
      some ({ h with sockets := h.sockets.set i s, wire }.put place (.dial i address x))
    | none => none
  | _ => none

/-- One step of the activity at a place, doing the thing at `pick` where it may do several. -/
def move (h : Host) (place pick : Nat) : Option Host :=
  match h.activities[place]? with
  | some (.client i a) =>
    match h.clients[i]? with
    | none => none
    | some c =>
      (a.step place h.now pick c h.wire).map fun (c, wire, a) =>
        { h with clients := h.clients.set i c, wire }.put place (.client i a)
  | some (.send i x) =>
    match h.servers[i]? with
    | none => none
    | some s =>
      (x.step place pick s h.wire).map fun (s, wire, x) =>
        { h with servers := h.servers.set i s, wire }.put place (.send i x)
  | some (.close i closed) =>
    if closed then none else some ((h.closeServer i).put place (.close i true))
  | some (.accept i x) =>
    match h.servers[i]? with
    | none => none
    | some s =>
      (x.step h.now pick s h.wire).map fun (s, wire, x) =>
        { h with servers := h.servers.set i s, wire }.put place (.accept i x)
  | some (.read i x) =>
    match h.sockets[i]? with
    | none => none
    | some s =>
      (x.step place pick s h.wire).map fun (s, wire, x) =>
        { h with sockets := h.sockets.set i s, wire }.put place (.read i x)
  | some (.write i bytes x) =>
    match h.sockets[i]? with
    | none => none
    | some s =>
      (x.step place bytes s h.wire).map fun (s, wire, x) =>
        { h with sockets := h.sockets.set i s, wire }.put place (.write i bytes x)
  | some (.shut i x) =>
    match h.sockets[i]? with
    | none => none
    | some s =>
      (x.step place s h.wire).map fun (s, wire, x) =>
        { h with sockets := h.sockets.set i s, wire }.put place (.shut i x)
  | some (.dial i address x) =>
    match h.sockets[i]? with
    | none => none
    | some s => (x.step s).map fun x => h.put place (.dial i address x)
  | none => none

/-- One step of the activity at a place, doing the first thing that it can, or the end of the dial
that it has out. -/
def moveFirst (h : Host) (place : Nat) : Option Host :=
  ((h.activities[place]?).bind fun a => (List.range a.width).findSome? (h.move place)).orElse
    fun _ => h.meet place

instance : Schedule Host where
  size h := h.activities.length
  step h place := (h.moveFirst place).map (·, false)
  waiting := Host.waiting
  setWaiting h waiting := { h with waiting }
  budget h :=
    64 * (1 + h.wire.backlog + (h.activities.length + 1) * (h.wire.connections.length + 1))
  now := Host.now
  setNow h now := { h with now }
  deadlines h := h.activities.filterMap (·.deadline?)

/-- What the activity at a place has come to, if it is over. -/
def outcome? (h : Host) (place : Nat) : Option Outcome :=
  (h.activities[place]?).bind (·.outcome?)

/-- Begin an activity, run until nothing moves, and tell what the activity has come to. -/
def run (h : Host) (a : HostActivity) : Option Outcome × Host :=
  let after := Schedule.settle (h.begin a)
  (after.outcome? h.activities.length, after)

end Host

end BlockFeed
