import BlockFeed.Proofs.Run
import BlockFeed.Proofs.Socket.Moves

/-!
# Sessions

A socket with the operations that are under way on it, and everything that may happen to it and to
its links in any order.

## Main definitions

* `SocketActivity`: an operation that is under way, with its `step`.
* `Session`: the socket, its links and the operations.
* `Session.Event`, `Session.apply`: everything that may happen.
* `Session.start`: a socket that dials, or one that was accepted.
* `Session.Effect`: what an event does.

## Design notes

What an operation does between two of its waits is one step. Whether a dial gets through, and what
it then gets, is decided from outside when it comes to an end. The other ends of the links are not
part of a session: what they do is whatever arrives, that nothing arrives any more, and what comes
of the writes.
-/

namespace BlockFeed

/-- An operation that is under way on a socket. -/
inductive SocketActivity where
  | read (x : SocketRead)
  | write (bytes : Bytes) (x : SocketWrite)
  | close (x : SocketClose)
  | dial (x : SocketOpen)

namespace SocketActivity

/-- The link at which an operation waits for something. -/
def link? : SocketActivity → Option Ref
  | read x => x.link?
  | write _ x => x.link?
  | close x => x.link?
  | dial _ => none

/-- The next step of the operation `me`, if it can take one now. -/
def step (me pick : Nat) (s : Socket) (w : Wire) :
    SocketActivity → Option (Socket × Wire × SocketActivity)
  | read x => (x.step me pick s w).map fun (s, w, x) => (s, w, read x)
  | write bytes x => (x.step me bytes s w).map fun (s, w, x) => (s, w, write bytes x)
  | close x => (x.step me s w).map fun (s, w, x) => (s, w, close x)
  | dial x => (x.step s).map fun x => (s, w, dial x)

/-- What a step of the operation `me` does. -/
inductive Move (me pick : Nat) (s : Socket) (w : Wire) :
    SocketActivity → Socket → Wire → SocketActivity → Prop where
  | read {x x' : SocketRead} {s' : Socket} {w' : Wire} : SocketRead.Move me pick s w x s' w' x' →
      Move me pick s w (.read x) s' w' (.read x')
  | write {bytes : Bytes} {x x' : SocketWrite} {s' : Socket} {w' : Wire} :
      SocketWrite.Move me bytes s w x s' w' x' →
      Move me pick s w (.write bytes x) s' w' (.write bytes x')
  | close {x x' : SocketClose} {s' : Socket} {w' : Wire} : SocketClose.Move me s w x s' w' x' →
      Move me pick s w (.close x) s' w' (.close x')
  | dial {x x' : SocketOpen} : x.step s = some x' → Move me pick s w (.dial x) s w (.dial x')

variable {me pick : Nat} {s s' : Socket} {w w' : Wire} {a a' : SocketActivity}

theorem move_of_step (h : a.step me pick s w = some (s', w', a')) :
    Move me pick s w a s' w' a' := by
  cases a with
  | read x =>
    obtain ⟨⟨_, _, _⟩, hstep, heq⟩ := Option.map_eq_some_iff.mp h
    cases heq
    exact .read (SocketRead.move_of_step hstep)
  | write bytes x =>
    obtain ⟨⟨_, _, _⟩, hstep, heq⟩ := Option.map_eq_some_iff.mp h
    cases heq
    exact .write (SocketWrite.move_of_step hstep)
  | close x =>
    obtain ⟨⟨_, _, _⟩, hstep, heq⟩ := Option.map_eq_some_iff.mp h
    cases heq
    exact .close (SocketClose.move_of_step hstep)
  | dial x =>
    obtain ⟨_, hstep, heq⟩ := Option.map_eq_some_iff.mp h
    cases heq
    exact .dial hstep

/-- An operation leaves everything as it is, or uses the link that it waits at. -/
theorem Move.uses (h : Move me pick s w a s' w' a') (unjoined : w.joints = []) :
    (s' = s ∧ w' = w) ∨
      ∃ r, (a.link? = some r ∨ a'.link? = some r) ∧ s.Uses r w s' w' := by
  cases h with
  | read hmove => exact hmove.uses
  | write hmove => exact hmove.uses unjoined
  | close hmove => exact hmove.uses unjoined
  | dial => exact .inl ⟨rfl, rfl⟩

/-- An operation waits at the link that was the current one when it began. -/
theorem Move.link? (h : Move me pick s w a s' w' a') {r : Ref} (hr : a'.link? = some r) :
    a.link? = some r ∨ a.link? = none ∧ s.link = some r := by
  cases h with
  | read hmove => exact hmove.link? hr
  | write hmove => exact hmove.link? hr
  | close hmove => exact hmove.link? hr
  | dial => cases hr

end SocketActivity

/-- A socket with its links and the operations that are under way. -/
structure Session where
  socket : Socket
  wire : Wire := {}
  /-- The operations, from the first that began to the last. -/
  activities : List SocketActivity := []

namespace Session

/-- Everything that may happen to a session. -/
inductive Event where
  | read
  | write (bytes : Bytes)
  | close
  | dial
  /-- An operation takes a step, if it can. -/
  | move (place pick : Nat)
  /-- The dial that an operation has out comes to an end, with an error or with a link. -/
  | answer (place : Nat) (outcome : Except ConnectionError Connection)
  | arrive (r : Ref) (items : List Inbound)
  /-- Nothing will arrive at a link any more. -/
  | finish (r : Ref)
  /-- What will come of the writes to a link from now on. -/
  | planWrites (r : Ref) (plan : List (Option ConnectionError))
      (afterPlan : Option ConnectionError)

def begin (p : Session) (a : SocketActivity) : Session :=
  { p with activities := p.activities ++ [a] }

/-- One step of the operation at a place, doing the thing at `pick` where it may do several. -/
def move (p : Session) (place pick : Nat) : Option Session :=
  match p.activities[place]? with
  | none => none
  | some a =>
    (a.step place pick p.socket p.wire).map fun (socket, wire, a) =>
      { socket, wire, activities := p.activities.set place a }

/-- The session after the dial that an operation has out has come to an end: a link that it gets is
new, and open. -/
def answer (p : Session) (place : Nat) (outcome : Except ConnectionError Connection) : Session :=
  match p.activities[place]? with
  | some (.dial .dialing) =>
    let (dialed, wire) : Except ConnectionError Ref × Wire := match outcome with
      | .error e => (.error e, p.wire)
      | .ok c =>
        let (wire, r) := p.wire.add { c with isOpen := true }
        (.ok r, wire)
    let (socket, wire, x) := SocketOpen.answer dialed p.socket wire .dialing
    { socket, wire, activities := p.activities.set place (.dial x) }
  | _ => p

/-- The session after something has happened to it. -/
def apply (p : Session) : Event → Session
  | .read => p.begin (.read .called)
  | .write bytes => p.begin (.write bytes .called)
  | .close => p.begin (.close .called)
  | .dial => p.begin (.dial .called)
  | .move place pick => (p.move place pick).getD p
  | .answer place outcome => p.answer place outcome
  | .arrive r items => { p with wire := p.wire.undergo r (.arrive items) }
  | .finish r => { p with wire := p.wire.undergo r .finish }
  | .planWrites r plan afterPlan =>
    { p with wire := p.wire.undergo r (.planWrites plan afterPlan) }

def applyAll (p : Session) (events : List Event) : Session := events.foldl apply p

theorem applyAll_append (p : Session) (before after : List Event) :
    p.applyAll (before ++ after) = (p.applyAll before).applyAll after := List.foldl_append

theorem applyAll_concat (p : Session) (events : List Event) (e : Event) :
    p.applyAll (events ++ [e]) = (p.applyAll events).apply e := by
  rw [applyAll_append]
  rfl

/-- A socket that has not dialed yet, or one that was accepted with its link. -/
def start (id : String) : Option Connection → Session
  | none => { socket := { id, dialable := true } }
  | some c =>
    { socket := { id, dialable := false, link := some 0 }
      wire := { connections := [{ c with isOpen := true }] } }

/-- What a move of the operation at a place does. -/
inductive Moved (p : Session) (place pick : Nat) : Session → Prop where
  | step {a a' : SocketActivity} {socket : Socket} {wire : Wire} :
      p.activities[place]? = some a →
      SocketActivity.Move place pick p.socket p.wire a socket wire a' →
      Moved p place pick { socket, wire, activities := p.activities.set place a' }
  | stay : p.move place pick = none → Moved p place pick p

theorem moved_apply (p : Session) (place pick : Nat) :
    p.Moved place pick (p.apply (.move place pick)) := by
  rw [apply]
  cases hmove : p.move place pick with
  | none => exact .stay hmove
  | some p' =>
    rw [move] at hmove
    split at hmove
    · cases hmove
    · next a ha =>
      obtain ⟨⟨_, _, _⟩, hstep, rfl⟩ := Option.map_eq_some_iff.mp hmove
      exact .step ha (SocketActivity.move_of_step hstep)

/-- What an event does. -/
inductive Effect (p : Session) (e : Event) : Session → Prop where
  | move {place pick : Nat} {p' : Session} : e = .move place pick → p.Moved place pick p' →
      Effect p e p'
  /-- A dial gets a link. -/
  | gain {place : Nat} {c : Connection} : e = .answer place (.ok c) →
      p.activities[place]? = some (.dial .dialing) → p.socket.link = none →
      Effect p e {
        socket := { p.socket with link := some p.wire.connections.length }
        wire := (p.wire.add { c with isOpen := true }).1
        activities := p.activities.set place (.dial (.done (.ok ()))) }
  /-- A dial gets a link that is not needed any more: it is closed again. -/
  | discard {place : Nat} {c : Connection} : e = .answer place (.ok c) →
      p.activities[place]? = some (.dial .dialing) → p.socket.isOpen = true →
      Effect p e {
        socket := p.socket
        wire := ((p.wire.add { c with isOpen := true }).1.close p.wire.connections.length).2
        activities := p.activities.set place (.dial (.done (.error .alreadyOpen))) }
  /-- A dial fails. -/
  | fail {place : Nat} {error : ConnectionError} : e = .answer place (.error error) →
      p.activities[place]? = some (.dial .dialing) →
      Effect p e
        { p with activities := p.activities.set place (.dial (.done (.error error))) }
  /-- Nobody has a dial out. -/
  | stay {place : Nat} {outcome : Except ConnectionError Connection} :
      e = .answer place outcome → Effect p e p
  /-- An operation begins. -/
  | begin {a : SocketActivity} : (∀ place pick, e ≠ .move place pick) → a.link? = none →
      a ≠ .dial .dialing → Effect p e (p.begin a)
  /-- Something happens to a link. -/
  | occur {r : Ref} {o : Occurrence} : (∀ place pick, e ≠ .move place pick) →
      (∀ isOpen, o ≠ .setOpen isOpen) → Effect p e { p with wire := p.wire.undergo r o }

variable {p : Session}

theorem effect_answer (p : Session) (place : Nat) (outcome : Except ConnectionError Connection) :
    p.Effect (.answer place outcome) (p.apply (.answer place outcome)) := by
  rw [apply, answer.eq_def]
  split
  · next hdialing =>
    cases outcome with
    | error error => exact .fail rfl hdialing
    | ok c =>
      dsimp only [SocketOpen.answer]
      split
      · next hopen => exact .discard rfl hdialing hopen
      · next hopen => exact .gain rfl hdialing (by simpa [Socket.isOpen] using hopen)
  · exact .stay rfl

theorem effect_apply (p : Session) (e : Event) : p.Effect e (p.apply e) := by
  cases e with
  | read | write | close | dial => exact .begin nofun rfl nofun
  | move place pick => exact .move rfl (p.moved_apply place pick)
  | answer place outcome => exact p.effect_answer place outcome
  | arrive | finish | planWrites => exact .occur nofun nofun

end Session

end BlockFeed
