import BlockFeed.Proofs.Sender.Solo
import BlockFeed.Proofs.Server.Bookkeeping

/-!
# The audience of a broadcast

Which connections a send of a server is for, if no socket is accepted, nothing else is sent and the
server is not closed while it runs.

## Main definitions

* `Service.Alone`: no socket is being accepted, and no send is running but the one at a place.
* `Service.Event.Aside`: what may happen while a send runs.
* `Service.Mirrors`: a send of a server has got as far as a send on its own.
* `Service.Addresses`: what becomes of a send of a server, from the step in which it is called.

## Main results

* `Service.Mirrors.step`: one step of the one is one step of the other.
* `Service.mirrors_applyAll`: so they have got equally far in every run.
* `Service.addresses_of_alone`: a send of a server is a send on its own to the connections that were
  open when it was called, and leaves only open ones registered.

## Design notes

Nothing is asked of the state in which a send is called: `Service.apply` with `Event.send` leads
from any state to one with a send that has taken no step. What happens to the connections in between
is handed on to the send on its own as it is. The two differ only after the end, when a server
forgets the connections that are no longer open.
-/

namespace BlockFeed

/-- The activity is over, or it is the care for a connection that is not about to be registered. -/
def ServiceActivity.Rests : ServiceActivity → Prop
  | .send x => x.result?.isSome = true
  | .accept a =>
    match a.phase with
    | .called | .joined => False
    | .tracked _ | .listening .. | .stopped | .done => True

instance : DecidablePred ServiceActivity.Rests
  | .send x => inferInstanceAs (Decidable (x.result?.isSome = true))
  | .accept ⟨_, .called⟩ | .accept ⟨_, .joined⟩ => isFalse id
  | .accept ⟨_, .tracked _⟩ | .accept ⟨_, .listening ..⟩ | .accept ⟨_, .stopped⟩
  | .accept ⟨_, .done⟩ => isTrue trivial

/-- The care for a connection that is not about to be registered does nothing to the sender. -/
theorem Accept.Move.rests {now : Nat} {s s' : Server} {w w' : Wire} {a a' : Accept}
    (h : Move now s w a s' w' a') (rests : (ServiceActivity.accept a).Rests) :
    s'.sender = s.sender ∧ (ServiceActivity.accept a').Rests := by
  cases h with
  | dismiss hp | enlist hp | track hp | keep hp | withdraw hp =>
    simp [ServiceActivity.Rests, hp] at rests
  | listen | read | stop | close => exact ⟨rfl, trivial⟩

/-- A send that is done moves no more. -/
theorem ServerSend.Move.not_rests {me pick : Nat} {s s' : Server} {w w' : Wire} {x x' : ServerSend}
    (h : Move me pick s w x s' w' x') : ¬(ServiceActivity.send x).Rests := by
  cases h with
  | refuse hp | call hp | send hp | finish hp =>
    simp [ServiceActivity.Rests, ServerSend.result?, hp]

namespace Service

/-- No socket is being accepted, and no send is running but the one at a place. -/
def Alone (p : Service) (place : Nat) : Prop :=
  ∀ q < p.activities.length, q ≠ place → ∀ a ∈ p.activities[q]?, a.Rests

instance (p : Service) (place : Nat) : Decidable (p.Alone place) :=
  inferInstanceAs (Decidable (∀ q < p.activities.length, _))

/-- No socket is accepted, nothing is sent, and the server is not closed. -/
def Event.Aside : Event → Prop
  | .accept _ | .send _ | .close => False
  | .move .. | .elapse _ | .register _ | .occur .. => True

instance : DecidablePred Event.Aside
  | .accept _ | .send _ | .close => isFalse id
  | .move .. | .elapse _ | .register _ | .occur .. => isTrue trivial

/-- What an event is to the send at a place: a step of it, or something that others do to the
connections. -/
def heard (place : Nat) (p : Service) : Event → Send.Solo.Event
  | .move q pick => if q = place then .step pick else .meanwhile (p.apply (.move q pick)).wire
  | e => .meanwhile (p.apply e).wire

/-- What the events of a run are to the send at a place. -/
def hears (place : Nat) (p : Service) (events : List Event) : List Send.Solo.Event :=
  collect apply (fun p e => [heard place p e]) p events

theorem hears_concat (place : Nat) (p : Service) (events : List Event) (e : Event) :
    p.hears place (events ++ [e])
      = p.hears place events ++ [(p.applyAll events).heard place e] := collect_concat ..

/-- The send at a place has got as far as a send on its own, with the same connections. -/
inductive Mirrors (place : Nat) (p : Service) (z : Send.Solo) : Prop where
  | running {payload : Bytes} :
      p.activities[place]? = some (.send ⟨payload, .sending z.send⟩) → z.send.result? = none →
      p.server.sender = z.sender → p.wire = z.wire → Mirrors place p z
  /-- They have the same result, and the server has forgotten the connections that were not open
  then. -/
  | returned {payload : Bytes} {result : Except SendError Unit} {w : Wire} :
      p.activities[place]? = some (.send ⟨payload, .done result⟩) → z.send.result? = some result →
      p.server.sender = z.sender.removeClosed w → p.wire = z.wire → Mirrors place p z

/-- The send of a payload by the sender of a server, called now. -/
def asked (p : Service) (payload : Bytes) : Send.Solo :=
  ⟨p.server.sender, p.wire, ⟨payload, .called⟩⟩

/-- A connection is open, and stays open in the course of some events. -/
def StaysOpen (p : Service) (events : List Event) (r : Ref) : Prop :=
  ∀ earlier later, events = earlier ++ later → ((p.applyAll earlier).wire.conn r).isOpen = true

/-- What becomes of a send of a server that is called in the step from `p` to `begun`, in the course
of the events that follow. -/
structure Addresses (place : Nat) (payload : Bytes) (p begun : Service) (during : List Event) :
    Prop where
  /-- It begins by forgetting the registered connections that are not open, and does nothing to any
  connection. -/
  forgets : begun.wire = p.wire ∧ ∃ registry,
    begun.server = { p.server with sender := { p.server.sender with registry } } ∧
    registry.entries = p.server.sender.registry.entries.filter fun c => (p.wire.conn c.2).isOpen
  /-- From then on it is the send of its sender to the connections that are left. -/
  mirrors : (begun.applyAll during).Mirrors place
    ((begun.asked payload).applyAll place (begun.hears place during))
  /-- If none is left, it does nothing to any connection, takes no counter, and tells so. -/
  deserted : (∀ c ∈ p.server.sender.registry.entries, (p.wire.conn c.2).isOpen = false) →
    (begun.applyAll during).server.sender.lastCounter = p.server.sender.lastCounter ∧
    ∀ earlier pick later, during = earlier ++ .move place pick :: later →
      ((begun.applyAll earlier).apply (.move place pick)).wire = (begun.applyAll earlier).wire ∧
      ((begun.applyAll earlier).apply (.move place pick)).sent? place
        = some (.error .noConnections)
  /-- When it returns, all that is registered is open. -/
  returns : ∀ earlier pick later, during = earlier ++ .move place pick :: later →
    (begun.applyAll earlier).sent? place = none →
    ((begun.applyAll earlier).apply (.move place pick)).sent? place ≠ none →
    ∀ c ∈ ((begun.applyAll earlier).apply (.move place pick)).server.sender.registry.entries,
      (((begun.applyAll earlier).apply (.move place pick)).wire.conn c.2).isOpen = true
  /-- A connection that is open all the time stays registered, unless its own acknowledgment cannot
  be read. -/
  stays : ∀ c ∈ p.server.sender.registry.entries, begun.StaysOpen during c.2 →
    (∀ error, (c.2, .failed error) ∉
      (begun.asked payload).ends place (begun.hears place during)) →
    c ∈ (begun.applyAll during).server.sender.registry.entries

variable {p : Service} {place pick : Nat} {e : Event} {z : Send.Solo} {payload : Bytes}

/-- While a send runs, nothing else begins, and nothing changes the sender but the send. -/
theorem Alone.apply (alone : p.Alone place) (aside : e.Aside) : (p.apply e).Alone place ∧
    ((∀ pick, e ≠ .move place pick) → (p.apply e).server.sender = p.server.sender ∧
      (p.apply e).activities[place]? = p.activities[place]?) := by
  cases e with
  | accept | send | close => exact aside.elim
  | elapse | register | occur => exact ⟨alone, fun _ => ⟨rfl, rfl⟩⟩
  | move q pick =>
    have hmoved := p.moved_apply q pick
    generalize p.apply (.move q pick) = p' at hmoved
    -- the others are as they were
    have hset {b : ServiceActivity} (hrests : q ≠ place → b.Rests) :
        ∀ r < (p.activities.set q b).length, r ≠ place →
          ∀ a ∈ (p.activities.set q b)[r]?, a.Rests := by
      intro r hr hne a ha
      rcases getElem?_of_set ha with ⟨rfl, rfl⟩ | ⟨-, ha⟩
      · exact hrests hne
      · exact alone r (by simpa using hr) hne a ha
    cases hmoved with
    | stay => exact ⟨alone, fun _ => ⟨rfl, rfl⟩⟩
    | @send x x' server wire hx hmove =>
      have hq : q = place := by
        by_contra hne
        exact hmove.not_rests (alone q (List.getElem?_eq_some_iff.mp hx).1 hne _ hx)
      subst hq
      exact ⟨hset fun hne => absurd rfl hne, fun hne => absurd rfl (hne pick)⟩
    | @accept a a' server wire ha hmove =>
      have hrests (hne : q ≠ place) : server.sender = p.server.sender ∧
          (ServiceActivity.accept a').Rests :=
        hmove.rests (alone q (List.getElem?_eq_some_iff.mp ha).1 hne _ ha)
      refine ⟨hset fun hne => (hrests hne).2, fun hne => ?_⟩
      have hq : q ≠ place := fun heq => hne pick (heq ▸ rfl)
      exact ⟨(hrests hq).1, List.getElem?_set_ne hq⟩

theorem alone_applyAll (alone : p.Alone place) {events : List Event}
    (aside : ∀ e ∈ events, e.Aside) : (p.applyAll events).Alone place := by
  induction events using List.reverseRecOn with
  | nil => exact alone
  | append_singleton events e ih =>
    obtain ⟨hevents, he⟩ := List.forall_mem_append.mp aside
    rw [applyAll_concat]
    exact ((ih hevents).apply (he e List.mem_cons_self)).1

/-- The first step of a send forgets the connections that are not open, and does no more. -/
theorem apply_called (called : p.activities[place]? = some (.send ⟨payload, .called⟩))
    (hopen : p.server.cancel.closed = false) (pick : Nat) : p.apply (.move place pick) = { p with
      server := p.server.prune p.wire
      activities := p.activities.set place (.send ⟨payload, .sending ⟨payload, .called⟩⟩) } := by
  rw [apply, move, called]
  simp [ServerSend.step, hopen]

/-- The next step of a send of a server is that of its sender. -/
theorem apply_sending {y : Send}
    (sending : p.activities[place]? = some (.send ⟨payload, .sending y⟩)) (pick : Nat) :
    p.apply (.move place pick) = match y.step place pick p.server.sender p.wire with
      | none => p
      | some (sender, wire, y) => match y.result? with
        | none => { p with
            server := { p.server with sender }, wire
            activities := p.activities.set place (.send ⟨payload, .sending y⟩) }
        | some result => { p with
            server := Server.prune { p.server with sender } wire, wire
            activities := p.activities.set place (.send ⟨payload, .done result⟩) } := by
  rw [apply, move, sending]
  dsimp only
  rw [ServerSend.step]
  dsimp only
  cases y.step place pick p.server.sender p.wire with
  | none => rfl
  | some next =>
    obtain ⟨sender, wire, y⟩ := next
    dsimp only
    cases y.result? <;> rfl

theorem apply_returned {result : Except SendError Unit}
    (done : p.activities[place]? = some (.send ⟨payload, .done result⟩)) (pick : Nat) :
    p.apply (.move place pick) = p := by
  rw [apply, move, done]
  rfl

namespace Mirrors

theorem sent? (h : p.Mirrors place z) : p.sent? place = z.send.result? := by
  cases h with
  | running hx hnone => rw [Service.sent?, hx, hnone]; rfl
  | returned hx hresult => rw [Service.sent?, hx, hresult]; rfl

theorem exists_send (h : p.Mirrors place z) :
    ∃ x, p.activities[place]? = some (.send x) := by
  cases h with
  | running hx | returned hx => exact ⟨_, hx⟩

theorem wire (h : p.Mirrors place z) : p.wire = z.wire := by
  cases h <;> assumption

/-- A step of a send that runs is one of its sender. When that one is done, the server forgets the
connections that are not open. -/
theorem step_of_running {x : ServerSend} (h : p.Mirrors place z)
    (hx : p.activities[place]? = some (.send x)) (running : x.result? = none) (pick : Nat) :
    (p.apply (.move place pick)).wire = (z.apply place (.step pick)).wire ∧
    (((p.apply (.move place pick)).activities[place]?
        = some (.send { x with phase := .sending (z.apply place (.step pick)).send }) ∧
      (z.apply place (.step pick)).send.result? = none ∧
      (p.apply (.move place pick)).server.sender = (z.apply place (.step pick)).sender) ∨
    ∃ result, (p.apply (.move place pick)).activities[place]?
        = some (.send { x with phase := .done result }) ∧
      (z.apply place (.step pick)).send.result? = some result ∧
      (p.apply (.move place pick)).server.sender
        = (z.apply place (.step pick)).sender.removeClosed (p.apply (.move place pick)).wire) := by
  cases h with
  | returned hy =>
    obtain rfl := ServiceActivity.send.inj (Option.some.inj (hx.symm.trans hy))
    cases running
  | running hy hnone hsender hwire =>
    obtain rfl := ServiceActivity.send.inj (Option.some.inj (hx.symm.trans hy))
    have hset (a : ServiceActivity) : (p.activities.set place a)[place]? = some a :=
      List.getElem?_set_self (List.getElem?_eq_some_iff.mp hx).1
    rw [apply_sending hx, hsender, hwire, Send.Solo.apply]
    cases z.send.step place pick z.sender z.wire with
    | none => exact ⟨hwire, .inl ⟨hx, hnone, hsender⟩⟩
    | some next =>
      obtain ⟨sender, wire, y⟩ := next
      dsimp only
      cases hresult : y.result? with
      | none => exact ⟨rfl, .inl ⟨hset _, rfl, rfl⟩⟩
      | some result => exact ⟨rfl, .inr ⟨result, hset _, rfl, rfl⟩⟩

/-- One step of the one is one step of the other. -/
theorem step (h : p.Mirrors place z) (pick : Nat) :
    (p.apply (.move place pick)).Mirrors place (z.apply place (.step pick)) := by
  cases h with
  | running hx hnone hsender hwire =>
    obtain ⟨hwire', ⟨hx', hnone', hsender'⟩ | ⟨result, hx', hresult, hsender'⟩⟩ :=
      step_of_running (.running hx hnone hsender hwire) hx rfl pick
    · exact .running hx' hnone' hsender' hwire'
    · exact .returned hx' hresult hsender' hwire'
  | @returned payload result w hx hresult hsender hwire =>
    have hdone : z.send.phase = .done result := by
      rw [Send.result?] at hresult
      split at hresult
      · next hp => rw [hp, Option.some.inj hresult]
      · cases hresult
    rw [apply_returned hx, Send.Solo.apply_done hdone]
    exact .returned hx hresult hsender hwire

/-- What others do changes the connections, and nothing else of it. -/
theorem meanwhile (h : p.Mirrors place z) {p' : Service}
    (sender : p'.server.sender = p.server.sender)
    (activity : p'.activities[place]? = p.activities[place]?) :
    p'.Mirrors place (z.apply place (.meanwhile p'.wire)) := by
  cases h with
  | running hx hnone hsender =>
    exact .running (activity.trans hx) hnone (sender.trans hsender) rfl
  | returned hx hresult hsender =>
    exact .returned (activity.trans hx) hresult (sender.trans hsender) rfl

/-- In the step in which it returns, a server forgets the connections that are not open. -/
theorem sender_step (h : p.Mirrors place z) (running : p.sent? place = none) (pick : Nat) :
    ((p.apply (.move place pick)).sent? place = none ∧
      (p.apply (.move place pick)).server.sender = (z.apply place (.step pick)).sender) ∨
    (p.apply (.move place pick)).server.sender
      = (z.apply place (.step pick)).sender.removeClosed (p.apply (.move place pick)).wire := by
  obtain ⟨x, hx⟩ := h.exists_send
  rw [Service.sent?, hx] at running
  obtain ⟨-, ⟨hx', -, hsender⟩ | ⟨_, -, -, hsender⟩⟩ := h.step_of_running hx running pick
  · exact .inl ⟨by rw [Service.sent?, hx']; rfl, hsender⟩
  · exact .inr hsender

/-- A send that has returned moves no more. -/
theorem stay (h : p.Mirrors place z) (returned : p.sent? place ≠ none) (pick : Nat) :
    p.apply (.move place pick) = p := by
  cases h with
  | running hx => exact absurd (by rw [Service.sent?, hx]; rfl) returned
  | returned hx => exact apply_returned hx pick

theorem lastCounter (h : p.Mirrors place z) :
    p.server.sender.lastCounter = z.sender.lastCounter := by
  cases h with
  | running _ _ hsender => rw [hsender]
  | returned _ _ hsender =>
    rw [hsender]
    rfl

theorem apply (h : p.Mirrors place z) (alone : p.Alone place) (aside : e.Aside) :
    (p.apply e).Mirrors place (z.apply place (p.heard place e)) := by
  by_cases hmine : ∃ pick, e = .move place pick
  · obtain ⟨pick, rfl⟩ := hmine
    rw [heard, if_pos rfl]
    exact h.step pick
  · have hne : ∀ pick, e ≠ .move place pick := fun pick heq => hmine ⟨pick, heq⟩
    obtain ⟨hsender, hactivity⟩ := (alone.apply aside).2 hne
    have hheard : p.heard place e = .meanwhile (p.apply e).wire := by
      cases e with
      | move q pick => exact if_neg fun heq : q = place => hne pick (heq ▸ rfl)
      | _ => rfl
    rw [hheard]
    exact h.meanwhile hsender hactivity

end Mirrors

/-- A send of a server and a send on its own, to which the same happens, get equally far. -/
theorem mirrors_applyAll (h : p.Mirrors place z) (alone : p.Alone place) {events : List Event}
    (aside : ∀ e ∈ events, e.Aside) :
    (p.applyAll events).Mirrors place (z.applyAll place (p.hears place events)) := by
  induction events using List.reverseRecOn with
  | nil => exact h
  | append_singleton events e ih =>
    obtain ⟨hevents, he⟩ := List.forall_mem_append.mp aside
    rw [applyAll_concat, hears_concat, Send.Solo.applyAll_concat]
    exact (ih hevents).apply (alone_applyAll alone hevents) (he e List.mem_cons_self)

section Asked

variable (begun : p.Mirrors place (p.asked payload)) (alone : p.Alone place) {during : List Event}
  (aside : ∀ e ∈ during, e.Aside)

include begun alone aside

/-- A connection that is open all the time stays registered, as long as it can be read. -/
theorem stays_registered {c : String × Ref} (hc : c ∈ p.server.sender.registry.entries)
    (stays : p.StaysOpen during c.2)
    (kept : ∀ error, (c.2, .failed error) ∉ (p.asked payload).ends place (p.hears place during)) :
    c ∈ (p.applyAll during).server.sender.registry.entries := by
  induction during using List.reverseRecOn with
  | nil => exact hc
  | append_singleton events e ih =>
    obtain ⟨hevents, he⟩ := List.forall_mem_append.mp aside
    have hmirrors := mirrors_applyAll begun alone hevents
    -- the send on its own keeps the connection as well
    have hz : c ∈ ((p.asked payload).applyAll place
        (p.hears place (events ++ [e]))).sender.registry.entries :=
      Send.Solo.stays_registered rfl hc kept
    have hbefore := ih hevents (fun earlier later heq => stays earlier (later ++ [e])
      (by rw [heq, List.append_assoc])) fun error hmem => kept error (by
        rw [hears_concat, Send.Solo.ends_concat]
        exact List.mem_append_left _ hmem)
    have hnow := stays (events ++ [e]) [] (List.append_nil _).symm
    rw [hears_concat, Send.Solo.applyAll_concat] at hz
    rw [applyAll_concat] at hnow ⊢
    by_cases hmine : ∃ pick, e = .move place pick
    · obtain ⟨pick, rfl⟩ := hmine
      rw [heard, if_pos rfl] at hz
      by_cases hrunning : (p.applyAll events).sent? place = none
      · rcases hmirrors.sender_step hrunning pick with ⟨-, hsender⟩ | hsender
        · exact hsender ▸ hz
        · rw [hsender]
          exact Registry.mem_removeClosed_iff.mpr ⟨hz, hnow⟩
      · rwa [hmirrors.stay hrunning]
    · obtain ⟨hsender, -⟩ := ((alone_applyAll alone hevents).apply (he e List.mem_cons_self)).2
        fun pick heq => hmine ⟨pick, heq⟩
      rwa [hsender]

/-- When the send returns, all that is registered is open. -/
theorem open_of_returned (running : (p.applyAll during).sent? place = none)
    (returned : ((p.applyAll during).apply (.move place pick)).sent? place ≠ none)
    {c : String × Ref}
    (hc : c ∈ ((p.applyAll during).apply (.move place pick)).server.sender.registry.entries) :
    (((p.applyAll during).apply (.move place pick)).wire.conn c.2).isOpen = true := by
  have hmirrors := mirrors_applyAll begun alone aside
  rcases hmirrors.sender_step running pick with ⟨hnone, -⟩ | hsender
  · exact absurd hnone returned
  · rw [hsender] at hc
    exact (Registry.mem_removeClosed_iff.mp hc).2

/-- Where nothing is registered, the send does nothing to any connection, and tells so. -/
theorem step_deserted (empty : p.server.sender.registry.entries = []) (pick : Nat) :
    ((p.applyAll during).apply (.move place pick)).wire = (p.applyAll during).wire ∧
      ((p.applyAll during).apply (.move place pick)).sent? place
        = some (.error .noConnections) := by
  have hmirrors := mirrors_applyAll begun alone aside
  have hstep := hmirrors.step pick
  have hheard : .step pick ∈ p.hears place during ++ [.step pick] :=
    List.mem_append_right _ (List.mem_singleton_self _)
  constructor
  · rw [hstep.wire, hmirrors.wire]
    exact (Send.Solo.deserted rfl empty place (p.hears place during)).2.1 pick
  · rw [hstep.sent?, ← Send.Solo.applyAll_concat]
    exact (Send.Solo.deserted rfl empty place _).2.2 pick hheard

end Asked

/-- A send of a server that nothing disturbs is a send of its sender to the connections that were
open when it was called. When it returns, all that is registered is open, and no connection is
missing that stayed open and could be read. -/
theorem addresses_of_alone (called : p.activities[place]? = some (.send ⟨payload, .called⟩))
    (hopen : p.server.cancel.closed = false) (alone : p.Alone place) (pick : Nat)
    (during : List Event) (aside : ∀ e ∈ during, e.Aside) :
    Addresses place payload p (p.apply (.move place pick)) during := by
  have hcall := apply_called called hopen pick
  have halone := (alone.apply (show Event.Aside (.move place pick) from trivial)).1
  have hmirrors : (p.apply (.move place pick)).Mirrors place
      ((p.apply (.move place pick)).asked payload) := by
    rw [hcall]
    exact .running (List.getElem?_set_self (List.getElem?_eq_some_iff.mp called).1) rfl rfl rfl
  have hwire : (p.apply (.move place pick)).wire = p.wire := by rw [hcall]
  have hserver : (p.apply (.move place pick)).server = p.server.prune p.wire := by rw [hcall]
  generalize p.apply (.move place pick) = begun at halone hmirrors hwire hserver
  have hentries : begun.server.sender.registry.entries
      = p.server.sender.registry.entries.filter fun c => (p.wire.conn c.2).isOpen := by
    rw [hserver]
    rfl
  have hpart {earlier later : List Event} {pick : Nat}
      (hsplit : during = earlier ++ .move place pick :: later) : ∀ e ∈ earlier, e.Aside :=
    fun e he => aside e (hsplit ▸ List.mem_append_left _ he)
  constructor
  · exact ⟨hwire, begun.server.sender.registry, by rw [hserver]; rfl, hentries⟩
  · exact mirrors_applyAll hmirrors halone aside
  · intro hnone
    have hempty : begun.server.sender.registry.entries = [] := by
      rw [hentries, List.filter_eq_nil_iff]
      exact fun c hc => by simp [hnone c hc]
    refine ⟨?_, fun earlier k later hsplit =>
      step_deserted hmirrors halone (hpart hsplit) hempty k⟩
    rw [(mirrors_applyAll hmirrors halone aside).lastCounter,
      (Send.Solo.deserted rfl hempty place _).1]
    exact congrArg (·.sender.lastCounter) hserver
  · intro earlier k later hsplit hrunning hreturned c hc
    exact open_of_returned hmirrors halone (hpart hsplit) hrunning hreturned hc
  · intro c hc hstays hkept
    refine stays_registered hmirrors halone aside ?_ hstays hkept
    rw [hentries]
    exact List.mem_filter.mpr ⟨hc, hwire ▸ hstays [] during rfl⟩

/-- Four connections are accepted and the first is gone when a frame is sent. -/
def gathered : List Event :=
  [.accept { id := "a", isOpen := true }, .move 0 0, .move 0 0,
    .accept { id := "b", isOpen := true }, .move 1 0, .move 1 0,
    .accept { id := "c", isOpen := true }, .move 2 0, .move 2 0,
    .accept { id := "d", isOpen := true }, .move 3 0, .move 3 0, .occur 0 (.setOpen false),
    .send [7]]

/-- Of the others one acknowledges the frame, one cannot be read, and one acknowledges it but is
gone before the send returns. -/
def parted : List Event :=
  [.move 4 0, .move 4 0, .move 4 0, .move 4 0, .move 4 0, .move 4 0,
    .occur 1 (.arrive [.data (Ack.encode 1)]), .occur 2 (.arrive [.failure .closedByPeer]),
    .occur 3 (.arrive [.data (Ack.encode 1)]), .move 4 1, .move 4 2, .occur 3 (.setOpen false),
    .move 4 0]

/-- Only the connection that stayed is registered when the send returns. -/
theorem addresses_parted : ∃ p : Service, p = ({ server := quiet } : Service).applyAll gathered ∧
    Addresses 4 [7] p (p.apply (.move 4 0)) parted ∧
    p.server.sender.registry.names = ["a", "b", "c", "d"] ∧
    (p.apply (.move 4 0)).server.sender.registry.names = ["b", "c", "d"] ∧
    ((p.apply (.move 4 0)).applyAll parted).sent? 4 = some (.ok ()) ∧
    ((p.apply (.move 4 0)).applyAll parted).server.sender.registry.names = ["b"] :=
  ⟨_, rfl, addresses_of_alone rfl (by decide +kernel) (by decide +kernel) 0 parted (by decide),
    by decide +kernel, by decide +kernel, by decide +kernel, by decide +kernel⟩

end Service

end BlockFeed
