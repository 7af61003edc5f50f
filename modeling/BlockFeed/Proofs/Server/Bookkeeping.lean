import BlockFeed.Proofs.Server.Work

/-!
# Bookkeeping of a server

What a server has in its books about every connection that it has ever accepted, in every run in
which its activities run until all have to wait before anything more happens from outside.

## Main definitions

* `Service.Paced`: something happens from outside only when no activity can take a step.
* `Service.Broadcast`, `Service.Reading`, `Service.TurnedAway`, `Service.Refused`: what becomes of
  a connection that was accepted without a handler, with one, or after the server was closed, and
  of a send after that.
* `Service.Bookkept`: all of this, in every run.

## Main results

* `Service.bookkept`: a server keeps its books in every run.

## Design notes

Whether a connection is read is decided in the first step of its care. In a run that is paced
nothing happens between its being accepted and that step, so the handler that counts is the one that
was registered when it was accepted.
-/

namespace BlockFeed

namespace Service

/-- It is a step of an activity. -/
def Event.IsMove : Event → Prop
  | .move .. => True
  | .elapse _ | .accept _ | .register _ | .occur .. | .send _ | .close => False

instance : DecidablePred Event.IsMove
  | .move .. => isTrue trivial
  | .elapse _ | .accept _ | .register _ | .occur .. | .send _ | .close => isFalse id

/-- Something happens from outside only when no activity can take a step. -/
def Paced (p : Service) (e : Event) : Prop := p.Provides e ∧ (e.IsMove ∨ p.Blocked)

instance (p : Service) : DecidablePred p.Paced := fun _ => inferInstanceAs (Decidable (_ ∧ _))

/-- The reading of a connection runs, with the receiver at a place. -/
def Reads (p : Service) (place i : Nat) : Prop :=
  ∃ a l, p.Cares place a ∧ a.phase = .listening i l

/-- The result of the send at a place, if it is done. -/
def sent? (p : Service) (place : Nat) : Option (Except SendError Unit) :=
  match p.activities[place]? with
  | some (.send x) => x.result?
  | _ => none

/-- What becomes of a connection that is accepted while there is no handler. -/
structure Broadcast (p : Service) (c : Connection) (after : List Event) : Prop where
  untracked : (p.applyAll (.accept c :: after)).server.tracked.get? c.id = none
  /-- By the time that all have to wait it has been registered. -/
  joins : (p.applyAll (.accept c :: after)).Blocked → ∃ earlier later, after = earlier ++ later ∧
    (c.id, p.wire.connections.length) ∈
      (p.applyAll (.accept c :: earlier)).server.sender.registry.entries
  /-- It stays registered for as long as it is open. -/
  stays : (p.applyAll (.accept c :: after)).Blocked →
    ((p.applyAll (.accept c :: after)).wire.conn p.wire.connections.length).isOpen = true →
    (c.id, p.wire.connections.length) ∈
      (p.applyAll (.accept c :: after)).server.sender.registry.entries

/-- What becomes of a connection that is accepted while there is a handler. -/
structure Reading (p : Service) (c : Connection) (after : List Event) : Prop where
  unregistered : ∀ r, (c.id, r) ∉
    (p.applyAll (.accept c :: after)).server.sender.registry.entries
  /-- A receiver is tracked under its id exactly while it reads. -/
  tracked_iff : (p.applyAll (.accept c :: after)).Blocked → ∀ i,
    (p.applyAll (.accept c :: after)).server.tracked.get? c.id = some i ↔
      (p.applyAll (.accept c :: after)).Reads p.activities.length i
  /-- When it is not read any more, it is closed. -/
  ended : (p.applyAll (.accept c :: after)).Blocked →
    (∀ i, ¬(p.applyAll (.accept c :: after)).Reads p.activities.length i) →
    ((p.applyAll (.accept c :: after)).wire.conn p.wire.connections.length).isOpen = false

/-- What becomes of a connection that is accepted after the server was closed. -/
structure TurnedAway (p : Service) (c : Connection) (after : List Event) : Prop where
  unregistered : ∀ r, (c.id, r) ∉
    (p.applyAll (.accept c :: after)).server.sender.registry.entries
  untracked : (p.applyAll (.accept c :: after)).server.tracked.get? c.id = none
  shut : (p.applyAll (.accept c :: after)).Blocked →
    ((p.applyAll (.accept c :: after)).wire.conn p.wire.connections.length).isOpen = false

/-- What becomes of a send that is called for after the server was closed. -/
structure Refused (p : Service) (payload : Bytes) (after : List Event) : Prop where
  /-- It does nothing to any connection. -/
  untouched : ∀ earlier pick later, after = earlier ++ .move p.activities.length pick :: later →
    ((p.applyAll (.send payload :: earlier)).apply (.move p.activities.length pick)).wire =
      (p.applyAll (.send payload :: earlier)).wire
  result : (p.applyAll (.send payload :: after)).Blocked →
    (p.applyAll (.send payload :: after)).sent? p.activities.length = some (.error .closed)

/-- What a server has in its books in the course of a run. -/
structure Bookkept (start : Service) (events : List Event) : Prop where
  /-- Whoever goes first, activities can take only so many steps before all have to wait. -/
  settles : ∃ bound, ∀ ms p', (start.applyAll events).moves ms = some p' → ms.length ≤ bound
  broadcast : ∀ before c after, events = before ++ .accept c :: after → .close ∉ before →
    (start.applyAll before).server.handler = none → (start.applyAll before).Broadcast c after
  reading : ∀ before c after, events = before ++ .accept c :: after → .close ∉ before →
    (start.applyAll before).server.handler ≠ none → (start.applyAll before).Reading c after
  turnedAway : ∀ before c after, events = before ++ .accept c :: after → .close ∈ before →
    (start.applyAll before).TurnedAway c after
  refused : ∀ before payload after, events = before ++ .send payload :: after → .close ∈ before →
    (start.applyAll before).Refused payload after
  /-- Once the server was closed, nothing is registered or tracked any more. -/
  emptied : .close ∈ events → (start.applyAll events).server.sender.registry.entries = [] ∧
    (start.applyAll events).server.tracked.entries = []
  /-- Once the server was closed, no connection that it ever accepted is open. -/
  shut : .close ∈ events → (start.applyAll events).Blocked →
    ∀ r, ((start.applyAll events).wire.conn r).isOpen = false

variable {p s : Service} {e : Event} {place : Nat} {a : Accept} {c : Connection}
  {events after : List Event}

/-- The care for a connection goes on, and only in its own steps. -/
theorem cares_apply (ha : p.Cares place a) (e : Event) : ∃ a', (p.apply e).Cares place a' ∧
    (a' = a ∨ ∃ pick, e = .move place pick ∧
      Accept.Move p.now p.server p.wire a (p.apply e).server (p.apply e).wire a') := by
  cases e with
  | move q pick =>
    have hmoved := p.moved_apply q pick
    generalize p.apply (.move q pick) = p' at hmoved
    cases hmoved with
    | send hx =>
      refine ⟨a, (List.getElem?_set_ne ?_).trans ha, .inl rfl⟩
      rintro rfl
      cases hx.symm.trans ha
    | @accept b b' server wire hb hmove =>
      by_cases hq : q = place
      · subst hq
        obtain rfl := ServiceActivity.accept.inj (Option.some.inj (hb.symm.trans ha))
        exact ⟨b', List.getElem?_set_self (List.getElem?_eq_some_iff.mp hb).1,
          .inr ⟨pick, rfl, hmove⟩⟩
      · exact ⟨a, (List.getElem?_set_ne hq).trans ha, .inl rfl⟩
    | stay => exact ⟨a, ha, .inl rfl⟩
  | accept | send => exact ⟨a, cares_begin.mpr (.inl ha), .inl rfl⟩
  | elapse | register | occur | close => exact ⟨a, ha, .inl rfl⟩

/-- Moves leave the handler and whether the server was closed as they are. -/
theorem settings_move (p : Service) (place pick : Nat) :
    (p.apply (.move place pick)).server.handler = p.server.handler ∧
      (p.apply (.move place pick)).server.cancel = p.server.cancel := by
  have hmoved := p.moved_apply place pick
  generalize p.apply (.move place pick) = p' at hmoved
  cases hmoved with
  | send _ hmove =>
    obtain ⟨sender, rfl⟩ := hmove.server
    exact ⟨rfl, rfl⟩
  | accept _ hmove => exact ⟨hmove.settings.1, hmove.settings.2.1⟩
  | stay => exact ⟨rfl, rfl⟩

/-- When nothing can move, the care for a connection is over, or the connection is read. -/
theorem Blocked.phase (blocked : p.Blocked) (ha : p.Cares place a) : a.phase = .done ∨
    ∃ i l, a.phase = .listening i l ∧
      ∀ r, p.server.receivers[i]? = some r → l.step p.now 0 r p.wire = none := by
  have hstep : a.step p.now 0 p.server p.wire = none := by
    have hnone := blocked place 0
    rw [move, ha] at hnone
    simpa using hnone
  cases hp : a.phase with
  | called =>
    rw [Accept.step, hp] at hstep
    dsimp only at hstep
    split at hstep
    · cases hstep
    · split at hstep <;> cases hstep
  | joined =>
    rw [Accept.step, hp] at hstep
    dsimp only at hstep
    split at hstep <;> cases hstep
  | tracked | stopped =>
    rw [Accept.step, hp] at hstep
    cases hstep
  | listening i l =>
    exact .inr ⟨i, l, rfl, (Accept.step_eq_none_of_listening hp).mp hstep⟩
  | done => exact .inl rfl

/-- Connections stay in their places, under their ids. -/
theorem keeps_apply (p : Service) (e : Event) :
    p.wire.connections.length ≤ (p.apply e).wire.connections.length ∧
      ∀ f < p.wire.connections.length, ((p.apply e).wire.conn f).id = (p.wire.conn f).id := by
  have hwanes {w : Wire} (h : p.wire.Wanes w) : p.wire.connections.length ≤ w.connections.length ∧
      ∀ f < p.wire.connections.length, (w.conn f).id = (p.wire.conn f).id :=
    ⟨Nat.le_of_eq h.size.symm, fun f _ => h.id f⟩
  cases e with
  | move place pick =>
    have hmoved := p.moved_apply place pick
    generalize p.apply (.move place pick) = p' at hmoved
    cases hmoved with
    | send _ hmove => exact hwanes hmove.wanes
    | accept _ hmove => exact hwanes hmove.wanes
    | stay => exact hwanes (.refl _)
  | accept c =>
    refine ⟨(p.wire.length_add c).symm ▸ Nat.le_succ _, fun f hf => ?_⟩
    exact congrArg Connection.id ((p.wire.conn_add c f).trans (if_neg (Nat.ne_of_lt hf)))
  | occur r o =>
    have hstill := p.wire.still_undergo r o
    exact ⟨Nat.le_of_eq hstill.size.symm, fun f _ => (hstill.conn f).id⟩
  | close => exact hwanes (p.server.wanes_close p.wire)
  | elapse | register | send => exact hwanes (.refl _)

theorem sound_applyAll (sound : s.Sound) (paced : Along apply Paced s events) :
    (s.applyAll events).Sound := by
  refine along_induction sound (fun events e _ hpaced ih => ?_) paced
  rw [applyAll_concat]
  exact ih.apply hpaced.1

/-- A connection that was accepted is there under its id. -/
theorem id_newcomer (s : Service) (c : Connection) (after : List Event) :
    s.wire.connections.length < (s.applyAll (.accept c :: after)).wire.connections.length ∧
      ((s.applyAll (.accept c :: after)).wire.conn s.wire.connections.length).id = c.id := by
  induction after using List.reverseRecOn with
  | nil =>
    refine ⟨(s.wire.length_add c).symm ▸ Nat.lt_succ_self _, ?_⟩
    exact congrArg Connection.id ((s.wire.conn_add c _).trans (if_pos rfl))
  | append_singleton after e ih =>
    obtain ⟨hlt, hid⟩ := ih
    rw [← List.cons_append, applyAll_concat]
    obtain ⟨hsize, hkeeps⟩ := keeps_apply (s.applyAll (.accept c :: after)) e
    exact ⟨Nat.lt_of_lt_of_le hlt hsize, (hkeeps _ hlt).trans hid⟩

/-- The care for a connection that was accepted is always there. -/
theorem cares_newcomer (s : Service) (c : Connection) (after : List Event) :
    ∃ a, (s.applyAll (.accept c :: after)).Cares s.activities.length a ∧
      a.conn = s.wire.connections.length := by
  induction after using List.reverseRecOn with
  | nil => exact ⟨_, cares_begin.mpr (.inr ⟨rfl, rfl⟩), rfl⟩
  | append_singleton after e ih =>
    obtain ⟨a, ha, hconn⟩ := ih
    rw [← List.cons_append, applyAll_concat]
    obtain ⟨a', ha', rfl | ⟨_, _, hmove⟩⟩ := cares_apply ha e
    · exact ⟨a', ha', hconn⟩
    · exact ⟨a', ha', hmove.conn.trans hconn⟩

/-- Until the care for a connection has taken its first step, handler and server are as they were
when the connection was accepted. -/
theorem settings_of_called (paced : Along apply Paced s (.accept c :: after))
    (ha : (s.applyAll (.accept c :: after)).Cares s.activities.length a)
    (hcalled : a.phase = .called) :
    (s.applyAll (.accept c :: after)).server.handler = s.server.handler ∧
      (s.applyAll (.accept c :: after)).server.cancel = s.server.cancel := by
  induction after using List.reverseRecOn generalizing a with
  | nil => exact ⟨rfl, rfl⟩
  | append_singleton after e ih =>
    rw [← List.cons_append] at paced ha ⊢
    obtain ⟨hbefore, -, hwhen⟩ := along_concat.mp paced
    rw [applyAll_concat] at ha ⊢
    obtain ⟨b, hb, -⟩ := cares_newcomer s c after
    obtain ⟨a', ha', rfl | ⟨_, _, hmove⟩⟩ := cares_apply hb e
    · obtain rfl := ServiceActivity.accept.inj (Option.some.inj (ha.symm.trans ha'))
      -- while the first step can be taken, nothing happens from outside
      rcases hwhen with hmove | hblocked
      · cases e with
        | move place pick =>
          obtain ⟨hhandler, hcancel⟩ := settings_move (s.applyAll (.accept c :: after)) place pick
          rw [hhandler, hcancel]
          exact ih hbefore hb hcalled
        | elapse | accept | register | occur | send | close => cases hmove
      · rcases Blocked.phase hblocked hb with hp | ⟨_, _, hp, -⟩ <;> cases hcalled.symm.trans hp
    · obtain rfl := ServiceActivity.accept.inj (Option.some.inj (ha.symm.trans ha'))
      exact absurd hcalled hmove.ne_called

/-- Nothing is registered but a connection in the first step of its care, while there is no
handler. -/
theorem entries_apply (p : Service) (e : Event) {entry : String × Ref}
    (h : entry ∈ (p.apply e).server.sender.registry.entries) :
    entry ∈ p.server.sender.registry.entries ∨ ∃ place a, p.Cares place a ∧ a.phase = .called ∧
      p.server.handler = none ∧ entry = ((p.wire.conn a.conn).id, a.conn) := by
  cases e with
  | move place pick =>
    have hmoved := p.moved_apply place pick
    generalize p.apply (.move place pick) = p' at hmoved h
    cases hmoved with
    | send _ hmove => exact .inl (hmove.entries.subset h)
    | accept ha hmove =>
      rcases hmove.entries h with hold | ⟨hp, -, hnone, heq⟩
      · exact .inl hold
      · exact .inr ⟨place, _, ha, hp, hnone, heq⟩
    | stay => exact .inl h
  | close => exact .inl (p.server.entries_close p.wire h)
  | elapse | accept | register | occur | send => exact .inl h

theorem closed_apply (p : Service) (e : Event) : (p.apply e).server.cancel.closed = true ↔
    p.server.cancel.closed = true ∨ e = .close := by
  cases e with
  | move place pick => simp [(settings_move p place pick).2]
  | close => simp [Service.apply, p.server.closed_close p.wire]
  | elapse | accept | register | occur | send =>
    simp [Service.apply, Service.begin, Server.register]

/-- A server is closed exactly if it was told to close. -/
theorem closed_applyAll (hopen : s.server.cancel.closed = false) (events : List Event) :
    (s.applyAll events).server.cancel.closed = true ↔ .close ∈ events := by
  induction events using List.reverseRecOn with
  | nil => simp [applyAll, hopen]
  | append_singleton events e ih =>
    rw [applyAll_concat, closed_apply, ih, List.mem_append, List.mem_singleton, eq_comm]

/-- When the server was closed and nothing can move, no connection is open. -/
theorem Sound.shut (sound : p.Sound) (closed : p.server.cancel.closed = true)
    (blocked : p.Blocked) (r : Ref) : (p.wire.conn r).isOpen = false := by
  rcases Nat.lt_or_ge r p.wire.connections.length with hr | hr
  · obtain ⟨place, a, ha, rfl⟩ := sound.cared r hr
    have hkept := (sound.kept place a ha).2
    rw [Accept.Kept] at hkept
    rcases blocked.phase ha with hp | ⟨i, l, hp, hstuck⟩
    · rw [hp] at hkept
      refine Bool.eq_false_iff.mpr fun hopen => ?_
      have hmem := hkept.2 hopen
      rw [(sound.fits.closed closed).1] at hmem
      cases hmem
    · -- a reading whose receiver was closed can always take a step
      rw [hp] at hkept
      obtain ⟨⟨q, hq, -, hreleased⟩, -, hnone⟩ := hkept
      have hsome := Listen.step_isSome_of_closed p.now 0 p.wire (hreleased closed) hnone
      rw [hstuck q hq] at hsome
      cases hsome
  · rw [Wire.conn_of_le hr]

section Newcomer

variable (sound : s.Sound) (paced : Along apply Paced s (.accept c :: after))

include sound paced

theorem sound_newcomer : (s.applyAll (.accept c :: after)).Sound := sound_applyAll sound paced

omit sound in
/-- A connection that is accepted while there is no handler waits for the first step of its care,
or it has been registered. -/
theorem unread_newcomer (hopen : s.server.cancel.closed = false)
    (hnone : s.server.handler = none) :
    ∃ a, (s.applyAll (.accept c :: after)).Cares s.activities.length a ∧
      a.conn = s.wire.connections.length ∧ (a.phase = .called ∨
        (a.phase = .joined ∨ a.phase = .done) ∧ ∃ earlier later, after = earlier ++ later ∧
          (c.id, s.wire.connections.length) ∈
            (s.applyAll (.accept c :: earlier)).server.sender.registry.entries) := by
  induction after using List.reverseRecOn with
  | nil => exact ⟨_, cares_begin.mpr (.inr ⟨rfl, rfl⟩), rfl, .inl rfl⟩
  | append_singleton after e ih =>
    rw [← List.cons_append] at paced ⊢
    obtain ⟨hbefore, -⟩ := along_concat.mp paced
    obtain ⟨a, ha, hconn, hphase⟩ := ih hbefore
    obtain ⟨hlt, hid⟩ := id_newcomer s c after
    have hsettings := settings_of_called hbefore ha
    rw [applyAll_concat]
    have hlong (h : ∃ earlier later, after = earlier ++ later ∧
          (c.id, s.wire.connections.length) ∈
            (s.applyAll (.accept c :: earlier)).server.sender.registry.entries) :
        ∃ earlier later, after ++ [e] = earlier ++ later ∧ (c.id, s.wire.connections.length) ∈
          (s.applyAll (.accept c :: earlier)).server.sender.registry.entries := by
      obtain ⟨earlier, later, hsplit, hmem⟩ := h
      exact ⟨earlier, later ++ [e], by rw [hsplit, List.append_assoc], hmem⟩
    obtain ⟨a', ha', rfl | ⟨pick, he, hmove⟩⟩ := cares_apply ha e
    · exact ⟨a', ha', hconn, hphase.imp_right fun ⟨hp, h⟩ => ⟨hp, hlong h⟩⟩
    · refine ⟨a', ha', hmove.conn.trans hconn, .inr ?_⟩
      have hnow : (s.applyAll (.accept c :: (after ++ [e]))) =
          (s.applyAll (.accept c :: after)).apply e := by
        rw [← List.cons_append, applyAll_concat]
      generalize hserver : ((s.applyAll (.accept c :: after)).apply e).server = server,
        ((s.applyAll (.accept c :: after)).apply e).wire = wire at hmove
      cases hmove with
      | dismiss hp hclosed =>
        rw [(hsettings hp).2, hopen] at hclosed
        cases hclosed
      | enlist hp =>
        refine ⟨.inl rfl, after ++ [e], [], (List.append_nil _).symm, ?_⟩
        rw [hnow, hserver]
        refine Registry.mem_add_iff.mpr (.inl ⟨?_, hconn.symm⟩)
        rw [hconn, hid]
      | track hp _ hhandler =>
        rw [(hsettings hp).1, hnone] at hhandler
        cases hhandler
      | keep hp | withdraw hp =>
        refine ⟨.inr rfl, hlong ?_⟩
        rcases hphase with hcalled | ⟨-, h⟩
        · cases hp.symm.trans hcalled
        · exact h
      | listen hp | read hp | stop hp | close hp =>
        rcases hphase with hcalled | ⟨hjoined | hdone, -⟩
        · cases hp.symm.trans hcalled
        · cases hp.symm.trans hjoined
        · cases hp.symm.trans hdone

/-- Nothing is ever registered under the id of a connection that is accepted while there is a
handler. -/
theorem unregistered_newcomer (hhandler : s.server.handler ≠ none) (r : Ref) :
    (c.id, r) ∉ (s.applyAll (.accept c :: after)).server.sender.registry.entries := by
  induction after using List.reverseRecOn with
  | nil =>
    intro hmem
    obtain ⟨hlt, hid⟩ := sound.fits.named (c.id, r) hmem
    exact paced.1.1 r hlt hid
  | append_singleton after e ih =>
    rw [← List.cons_append] at paced ⊢
    obtain ⟨hbefore, -⟩ := along_concat.mp paced
    rw [applyAll_concat]
    intro hmem
    rcases entries_apply _ e hmem with hold | ⟨place, b, hb, hcalled, hnone, heq⟩
    · exact ih hbefore hold
    · have hsound := sound_newcomer sound hbefore
      obtain ⟨a, ha, hconn⟩ := cares_newcomer s c after
      obtain ⟨hlt, hid⟩ := id_newcomer s c after
      have hsame : b.conn = s.wire.connections.length :=
        hsound.ids _ (hsound.kept place b hb).1 _ hlt ((Prod.mk.inj heq).1.symm.trans hid.symm)
      obtain rfl := hsound.own _ _ _ _ hb ha (hsame.trans hconn.symm)
      rw [(settings_of_called hbefore hb hcalled).1] at hnone
      exact hhandler hnone

theorem broadcast_newcomer (hopen : s.server.cancel.closed = false)
    (hnone : s.server.handler = none) : s.Broadcast c after := by
  have hsound := sound_newcomer sound paced
  obtain ⟨a, ha, hconn, hphase⟩ := unread_newcomer paced hopen hnone
  have hkept := (hsound.kept _ a ha).2
  have hid := (id_newcomer s c after).2
  rw [Accept.Kept, hconn, hid] at hkept
  refine ⟨?_, fun blocked => ?_, fun blocked hisOpen => ?_⟩
  · rcases hphase with hp | ⟨hp | hp, -⟩ <;> rw [hp] at hkept
    · exact hkept
    · exact hkept.1
    · exact hkept.1
  · rcases hphase with hp | ⟨-, h⟩
    · rcases blocked.phase ha with hp' | ⟨_, _, hp', -⟩ <;> cases hp.symm.trans hp'
    · exact h
  · rcases blocked.phase ha with hp | ⟨i, l, hp, -⟩
    · rw [hp] at hkept
      exact hkept.2 hisOpen
    · rcases hphase with hp' | ⟨hp' | hp', -⟩ <;> cases hp.symm.trans hp'

theorem reading_newcomer (hhandler : s.server.handler ≠ none) : s.Reading c after := by
  have hsound := sound_newcomer sound paced
  have hunregistered := unregistered_newcomer sound paced hhandler
  obtain ⟨a, ha, hconn⟩ := cares_newcomer s c after
  have hkept := (hsound.kept _ a ha).2
  have hid := (id_newcomer s c after).2
  rw [Accept.Kept, hconn, hid] at hkept
  have hreads {i : Nat} : (s.applyAll (.accept c :: after)).Reads s.activities.length i ↔
      ∃ l, a.phase = .listening i l := by
    constructor
    · rintro ⟨b, l, hb, hp⟩
      obtain rfl := ServiceActivity.accept.inj (Option.some.inj (ha.symm.trans hb))
      exact ⟨l, hp⟩
    · rintro ⟨l, hp⟩
      exact ⟨a, l, ha, hp⟩
  refine ⟨hunregistered, fun blocked i => ?_, fun blocked hnot => ?_⟩
  · rw [hreads]
    rcases blocked.phase ha with hp | ⟨j, l, hp, hstuck⟩
    · rw [hp] at hkept
      simp [hkept.1, hp]
    · rw [hp] at hkept
      obtain ⟨⟨q, hq, htracked, hreleased⟩, -, hresult⟩ := hkept
      rw [hconn, hid] at htracked
      have hstill : (s.applyAll (.accept c :: after)).server.cancel.closed = false := by
        refine Bool.eq_false_iff.mpr fun hclosed => ?_
        have hsome := Listen.step_isSome_of_closed (s.applyAll (.accept c :: after)).now 0
          (s.applyAll (.accept c :: after)).wire (hreleased hclosed) hresult
        rw [hstuck q hq] at hsome
        cases hsome
      simp [htracked hstill, hp, eq_comm]
  · rcases blocked.phase ha with hp | ⟨i, l, hp, -⟩
    · rw [hp] at hkept
      exact Bool.eq_false_iff.mpr fun hisOpen => hunregistered _ (hkept.2 hisOpen)
    · exact absurd (hreads.mpr ⟨l, hp⟩) (hnot i)

end Newcomer

/-- A send that is called for after the server was closed has not taken its step, or it was refused
in it. -/
theorem refused_send (closed : s.server.cancel.closed = true) (payload : Bytes)
    (after : List Event) : (s.applyAll (.send payload :: after)).server.cancel.closed = true ∧
      ∃ x, (s.applyAll (.send payload :: after)).activities[s.activities.length]? = some (.send x) ∧
        (x.phase = .called ∨ x.phase = .done (.error .closed)) := by
  induction after using List.reverseRecOn with
  | nil => exact ⟨closed, _, List.getElem?_concat_length, .inl rfl⟩
  | append_singleton after e ih =>
    rw [← List.cons_append, applyAll_concat]
    obtain ⟨hclosed, x, hx, hphase⟩ := ih
    generalize s.applyAll (.send payload :: after) = p at hclosed hx
    refine ⟨(closed_apply p e).mpr (.inl hclosed), ?_⟩
    have hlt := (List.getElem?_eq_some_iff.mp hx).1
    cases e with
    | move place pick =>
      have hmoved := p.moved_apply place pick
      generalize p.apply (.move place pick) = p' at hmoved
      cases hmoved with
      | @send y y' server wire hy hmove =>
        by_cases hplace : place = s.activities.length
        · subst hplace
          obtain rfl := ServiceActivity.send.inj (Option.some.inj (hy.symm.trans hx))
          refine ⟨y', List.getElem?_set_self hlt, ?_⟩
          cases hmove with
          | refuse => exact .inr rfl
          | call _ hopen => exact absurd hclosed (by simp [hopen])
          | send hp | finish hp => rcases hphase with hp' | hp' <;> cases hp.symm.trans hp'
        · exact ⟨x, (List.getElem?_set_ne hplace).trans hx, hphase⟩
      | accept ha =>
        refine ⟨x, (List.getElem?_set_ne ?_).trans hx, hphase⟩
        rintro rfl
        cases ha.symm.trans hx
      | stay => exact ⟨x, hx, hphase⟩
    | accept | send => exact ⟨x, (List.getElem?_append_left hlt).trans hx, hphase⟩
    | elapse | register | occur | close => exact ⟨x, hx, hphase⟩

theorem refused_of_closed (closed : s.server.cancel.closed = true) (payload : Bytes)
    (after : List Event) : s.Refused payload after where
  untouched earlier pick later _ := by
    obtain ⟨hclosed, x, hx, hphase⟩ := refused_send closed payload earlier
    generalize s.applyAll (.send payload :: earlier) = p at hclosed hx
    have hmoved := p.moved_apply s.activities.length pick
    generalize p.apply (.move s.activities.length pick) = p' at hmoved
    cases hmoved with
    | send hy hmove =>
      obtain rfl := ServiceActivity.send.inj (Option.some.inj (hy.symm.trans hx))
      cases hmove with
      | refuse | call => rfl
      | send hp | finish hp => rcases hphase with hp' | hp' <;> cases hp.symm.trans hp'
    | accept ha => cases ha.symm.trans hx
    | stay => rfl
  result blocked := by
    obtain ⟨hclosed, x, hx, hphase⟩ := refused_send closed payload after
    rcases hphase with hp | hp
    · have hnone := blocked s.activities.length 0
      simp [move, hx, ServerSend.step, hp, hclosed] at hnone
    · rw [sent?, hx]
      simp [ServerSend.result?, hp]

/-- A server that was just set up has nothing in its books. -/
theorem sound_of_config {config : Config} {server : Server}
    (h : Server.ofConfig config = .ok server) :
    Sound { server } ∧ server.cancel.closed = false := by
  rw [Server.ofConfig, Config.validate] at h
  split at h
  · cases h
  split at h
  · cases h
  next hretry =>
  obtain rfl := Except.ok.inj h
  have hpos : 0 < 1000 * config.retryDurationSecs.toNat :=
    Nat.mul_pos (by decide) (Nat.pos_of_ne_zero fun h => hretry (UInt64.toNat_inj.mp h))
  refine ⟨⟨⟨fun _ hc => absurd hc List.not_mem_nil,
      fun _ _ hi => (Option.some_ne_none _ hi.symm).elim,
      fun hclosed => (Bool.false_ne_true hclosed).elim, hpos,
      fun _ hr => absurd hr List.not_mem_nil⟩,
    fun f hf => absurd hf (Nat.not_lt_zero f), fun f hf => absurd hf (Nat.not_lt_zero f),
    fun place _ a _ ha => ?_, fun place a ha => ?_⟩, rfl⟩
  all_goals simp [Cares] at ha

/-- A server keeps its books in every run in which its activities run until all have to wait before
anything more happens from outside: what is registered and what is tracked tells how it treats each
connection, and nothing is left of it all once the server was closed. -/
theorem bookkept {config : Config} {server : Server} (h : Server.ofConfig config = .ok server)
    (events : List Event) (paced : Along apply Paced { server } events) :
    Bookkept { server } events := by
  obtain ⟨hstart, hopen⟩ := sound_of_config h
  have hclosed := closed_applyAll (s := { server }) hopen
  generalize ({ server } : Service) = start at hstart paced hclosed
  have hsound := sound_applyAll hstart paced
  -- what happens after an event is a run of its own, from where the event happens
  have hafter {before after : List Event} {e : Event} (hsplit : events = before ++ e :: after) :
      (start.applyAll before).Sound ∧ Along apply Paced (start.applyAll before) (e :: after) ∧
        start.applyAll events = (start.applyAll before).applyAll (e :: after) := by
    subst hsplit
    obtain ⟨hbefore, hrest⟩ := along_append.mp paced
    exact ⟨sound_applyAll hstart hbefore, hrest, applyAll_append _ _ _⟩
  constructor
  · exact ⟨_, fun ms p' hms => Nat.le_trans (Nat.le_add_left _ _) (length_le_work hsound hms)⟩
  · intro before c after hsplit hnot hnone
    obtain ⟨hbefore, hrest, -⟩ := hafter hsplit
    exact broadcast_newcomer hbefore hrest
      (Bool.eq_false_iff.mpr fun hc => hnot ((hclosed before).mp hc)) hnone
  · intro before c after hsplit _ hhandler
    obtain ⟨hbefore, hrest, -⟩ := hafter hsplit
    exact reading_newcomer hbefore hrest hhandler
  · intro before c after hsplit hclose
    obtain ⟨hbefore, hrest, heq⟩ := hafter hsplit
    have hshut : (start.applyAll events).server.cancel.closed = true :=
      (hclosed events).mpr (hsplit ▸ List.mem_append_left _ hclose)
    rw [heq] at hsound hshut
    obtain ⟨hempty, htracked⟩ := hsound.fits.closed hshut
    refine ⟨fun r hr => ?_, ?_, fun blocked => hsound.shut hshut blocked _⟩
    · rw [hempty] at hr
      cases hr
    · rw [htracked]
      rfl
  · intro before payload after _ hclose
    exact refused_of_closed ((hclosed before).mpr hclose) payload after
  · intro hclose
    obtain ⟨hempty, htracked⟩ := hsound.fits.closed ((hclosed events).mpr hclose)
    exact ⟨hempty, by rw [htracked]; rfl⟩
  · exact fun hclose blocked r => hsound.shut ((hclosed events).mpr hclose) blocked r

def quiet : Server where
  address := "localhost:22111"
  maxMessageSize := 16777216
  blockOnError := false
  retry := 5000
  sender := { withAcknowledge := true }

/-- One connection is accepted without a handler and one with it; a frame is sent to the first, and
one arrives on the second. -/
def visited : List Event :=
  [.accept { id := "a", isOpen := true }, .move 0 0, .move 0 0, .register .accepting,
    .accept { id := "b", isOpen := true }, .move 1 0, .move 1 0, .move 1 0, .send [7], .move 2 0,
    .move 2 0, .move 2 0, .move 2 0, .move 2 0,
    .occur 1 (.arrive [.data (Frame.encode ⟨true, 1, [5]⟩)]), .move 1 0, .move 1 0, .move 1 0,
    .move 1 0]

/-- The second connection is lost, and a third comes. -/
def replaced : List Event :=
  [.occur 1 (.arrive [.failure .closedByPeer]), .move 1 0, .move 1 0, .move 1 0,
    .accept { id := "c", isOpen := true }, .move 3 0, .move 3 0, .move 3 0]

/-- A connection and a send come too late. -/
def tardy : List Event :=
  [.move 2 0, .move 2 0, .move 3 0, .move 3 0, .move 3 0, .accept { id := "d", isOpen := true },
    .move 4 0, .send [8], .move 5 0]

/-- The server is closed while one connection is broadcast to and one is read, and a send waits. -/
theorem bookkept_visited : Bookkept { server := quiet } (visited ++ replaced ++ .close :: tardy) ∧
    (({ server := quiet } : Service).applyAll visited).server.tracked.entries = [("b", 0)] ∧
    (({ server := quiet } : Service).applyAll visited).server.sender.registry.entries
      = [("a", 0)] ∧
    (({ server := quiet } : Service).applyAll (visited ++ replaced)).server.tracked.entries
      = [("c", 1)] ∧
    [2, 5].map (({ server := quiet } : Service).applyAll
      (visited ++ replaced ++ .close :: tardy)).sent? = [some (.ok ()), some (.error .closed)] := by
  have made : Server.ofConfig {} = .ok quiet := rfl
  exact ⟨bookkept made _ (by decide +kernel), by decide +kernel, by decide +kernel,
    by decide +kernel, by decide +kernel⟩

end Service

end BlockFeed
