import BlockFeed.Proofs.Run
import BlockFeed.Proofs.Server.Moves

/-!
# Services

A server with the connections that it has accepted, and everything that may happen to them in any
order.

## Main definitions

* `Service`: the server, the wire, the clock and the activities.
* `Service.Event`, `Service.apply`: everything that may happen.
* `Service.Cares`: which activity is the care for which connection.
* `Service.Provides`: connections are accepted under ids of their own, and do not open again.
* `Service.Moved`: what a move of an activity does.

## Design notes

The other ends of the connections are not part of a service: what peers do to a connection is
whatever may happen to it from outside. A connection is known by its place on the wire, and the care
for it is one activity, from the moment in which it is accepted.
-/

namespace BlockFeed

/-- An activity of a service. -/
inductive ServiceActivity where
  | send (x : ServerSend)
  | accept (a : Accept)

/-- A server and the connections that it has accepted. -/
structure Service where
  server : Server
  wire : Wire := {}
  /-- The time, in milliseconds. -/
  now : Nat := 0
  /-- The activities, from the first that began to the last. -/
  activities : List ServiceActivity := []

namespace Service

/-- Everything that may happen to a service. -/
inductive Event where
  /-- An activity takes a step, if it can. -/
  | move (place pick : Nat)
  | elapse (duration : Nat)
  /-- A socket is accepted. -/
  | accept (c : Connection)
  /-- A handler is to take the payloads of connections accepted from now on. -/
  | register (h : Handler)
  /-- A peer does something to a connection. -/
  | occur (r : Ref) (o : Occurrence)
  | send (payload : Bytes)
  | close

/-- One step of the activity at a place, doing the thing at `pick` where it may do several. -/
def move (p : Service) (place pick : Nat) : Option Service :=
  match p.activities[place]? with
  | some (.send x) =>
    (x.step place pick p.server p.wire).map fun (server, wire, x) =>
      { p with server, wire, activities := p.activities.set place (.send x) }
  | some (.accept a) =>
    (a.step p.now pick p.server p.wire).map fun (server, wire, a) =>
      { p with server, wire, activities := p.activities.set place (.accept a) }
  | none => none

def begin (p : Service) (a : ServiceActivity) : Service :=
  { p with activities := p.activities ++ [a] }

/-- The service after something has happened to it. -/
def apply (p : Service) : Event → Service
  | .move place pick => (p.move place pick).getD p
  | .elapse duration => { p with now := p.now + duration }
  | .accept c =>
    let (wire, r) := p.wire.add c
    { p with wire }.begin (.accept ⟨r, .called⟩)
  | .register h => { p with server := p.server.register h }
  | .occur r o => { p with wire := p.wire.undergo r o }
  | .send payload => p.begin (.send ⟨payload, .called⟩)
  | .close =>
    let (server, wire) := p.server.close p.wire
    { p with server, wire }

def applyAll (p : Service) (events : List Event) : Service := events.foldl apply p

theorem applyAll_append (p : Service) (before after : List Event) :
    p.applyAll (before ++ after) = (p.applyAll before).applyAll after := List.foldl_append

theorem applyAll_concat (p : Service) (events : List Event) (e : Event) :
    p.applyAll (events ++ [e]) = (p.applyAll events).apply e := by
  rw [applyAll_append]
  rfl

/-- The activity at a place is the care for an accepted connection. -/
def Cares (p : Service) (place : Nat) (a : Accept) : Prop :=
  p.activities[place]? = some (.accept a)

/-- Whoever is begun comes last. -/
theorem cares_begin {p : Service} {b : ServiceActivity} {place : Nat} {a : Accept} :
    (p.begin b).Cares place a ↔
      p.Cares place a ∨ (place = p.activities.length ∧ b = .accept a) := by
  rw [Cares, Cares, begin, List.getElem?_append]
  split
  · next hlt => simp [Nat.ne_of_lt hlt]
  · next hge =>
    have hge := Nat.le_of_not_lt hge
    rw [List.getElem?_eq_none hge, List.getElem?_singleton]
    have hlast : place - p.activities.length = 0 ↔ place = p.activities.length := by omega
    simp [hlast]

/-- What peers and listeners keep to: a connection is accepted under an id of its own, and no
connection opens again. -/
def Provides (p : Service) : Event → Prop
  | .accept c => ∀ f < p.wire.connections.length, (p.wire.conn f).id ≠ c.id
  | .occur _ o => o ≠ .setOpen true
  | .move .. | .elapse _ | .register _ | .send _ | .close => True

instance (p : Service) : DecidablePred p.Provides
  | .accept c =>
    inferInstanceAs (Decidable (∀ f < p.wire.connections.length, (p.wire.conn f).id ≠ c.id))
  | .occur _ o => inferInstanceAs (Decidable (o ≠ .setOpen true))
  | .move .. | .elapse _ | .register _ | .send _ | .close => isTrue trivial

/-- What a move of the activity at a place does. -/
inductive Moved (p : Service) (place pick : Nat) : Service → Prop where
  | send {x x' : ServerSend} {server : Server} {wire : Wire} :
      p.activities[place]? = some (.send x) →
      ServerSend.Move place pick p.server p.wire x server wire x' →
      Moved p place pick
        { p with server, wire, activities := p.activities.set place (.send x') }
  | accept {a a' : Accept} {server : Server} {wire : Wire} :
      p.activities[place]? = some (.accept a) →
      Accept.Move p.now p.server p.wire a server wire a' →
      Moved p place pick
        { p with server, wire, activities := p.activities.set place (.accept a') }
  | stay : p.move place pick = none → Moved p place pick p

theorem moved_of_move {p p' : Service} {place pick : Nat} (h : p.move place pick = some p') :
    Moved p place pick p' := by
  rw [move] at h
  split at h
  · next x hx =>
    obtain ⟨⟨server, wire, x'⟩, hstep, rfl⟩ := Option.map_eq_some_iff.mp h
    exact .send hx (ServerSend.move_of_step hstep)
  · next a ha =>
    obtain ⟨⟨server, wire, a'⟩, hstep, rfl⟩ := Option.map_eq_some_iff.mp h
    exact .accept ha (Accept.move_of_step hstep)
  · cases h

theorem moved_apply (p : Service) (place pick : Nat) :
    Moved p place pick (p.apply (.move place pick)) := by
  rw [apply]
  cases h : p.move place pick with
  | none => exact .stay h
  | some p' => exact moved_of_move h

end Service

end BlockFeed
