import BlockFeed.Pipeline
import BlockFeed.Proofs.Link.Histories
import BlockFeed.Proofs.Receiver.Moves
import BlockFeed.Proofs.Run
import BlockFeed.Proofs.Sender.Ledger

/-!
# Courses of a pipeline

What a run of a pipeline assigns, and what an event does to the activities.

## Main definitions

* `Pipeline.Event.Quiet`: nobody but the sender and the receivers puts messages on connections.
* `Pipeline.beginning`: where every run starts.
* `Pipeline.ledger`: what is assigned in the course of a run.
* `Pipeline.Moved`: what a move of an activity does to the pipeline.
* `Pipeline.Aside`, `Pipeline.Around`: what any other event does to it.
* `Pipeline.Effect`: what an event does to the pipeline, and what it assigns.

## Design notes

The ledger is read off the activities: an event assigns a counter if it turns a send that waits for
its turn into one that writes.
-/

namespace BlockFeed.Pipeline

/-- Nobody but the sender and the receivers puts messages on connections: connections come without
any and answer nothing of themselves, and a new receiver has handed over nothing yet. -/
def Event.Quiet : Event → Prop
  | .connect c => c.messages = [] ∧ c.echo = none
  | .occur _ o => o.Quiet
  | .attach r => r.handled = []
  | _ => True

/-- A pipeline at its beginning: there is only a sender, which asks for acknowledgments or not. -/
def beginning (withAcknowledge : Bool) : Pipeline := { sender := { withAcknowledge } }

def sendAt? (p : Pipeline) (place : Nat) : Option Send :=
  match p.activities[place]? with
  | some (.send x) => some x
  | _ => none

def payloadAt? (p : Pipeline) (place : Nat) : Option Bytes := (p.sendAt? place).map (·.payload)

/-- The result of the call at a place, if it is done. -/
def sent? (p : Pipeline) (place : Nat) : Option (Except SendError Unit) :=
  (p.activities[place]?).bind Activity.sent?

def assigned (p : Pipeline) (e : Event) : Ledger :=
  match e with
  | .move place _ => Ledger.taken place (p.sendAt? place) ((p.apply e).sendAt? place)
  | _ => []

/-- What is assigned in the course of a run. -/
def ledger (p : Pipeline) (events : List Event) : Ledger := collect apply assigned p events

/-- What a history of the connections gains in a step of the activity at a place. -/
def gainedAt {α : Type} (history : Connection → List α) (place : Nat) (p : Pipeline) (e : Event) :
    List (Ref × α) :=
  match e with
  | .move q _ => if q = place then p.wire.news history (p.apply e).wire else []
  | _ => []

/-- What a history of the connections gains in the steps of the activity at a place. -/
def gained {α : Type} (history : Connection → List α) (place : Nat) (p : Pipeline)
    (events : List Event) : List (Ref × α) :=
  collect apply (gainedAt history place) p events

theorem applyAll_append (p : Pipeline) (before after : List Event) :
    p.applyAll (before ++ after) = (p.applyAll before).applyAll after := List.foldl_append

theorem sendAt?_eq_some {p : Pipeline} {place : Nat} {x : Send} :
    p.sendAt? place = some x ↔ p.activities[place]? = some (.send x) := by
  rw [sendAt?]
  constructor
  · intro h
    split at h
    · next y hy =>
      obtain rfl := Option.some.inj h
      exact hy
    · cases h
  · intro h
    rw [h]

/-- What a move of the activity at a place does. -/
inductive Moved (p : Pipeline) (place pick : Nat) : Pipeline → Prop where
  /-- A send takes a step. -/
  | send {x x' : Send} {sender : Sender} {wire : Wire} :
      p.activities[place]? = some (.send x) →
      Send.Move place pick p.sender p.wire x sender wire x' →
      Moved p place pick { p with sender, wire, activities := p.activities.set place (.send x') }
  /-- A reading takes a step. -/
  | listen {i : Nat} {l l' : Listen} {r r' : Receiver} {wire : Wire} :
      p.activities[place]? = some (.listen i l) → p.receivers[i]? = some r →
      Listen.Move p.now r p.wire l r' wire l' →
      Moved p place pick { p with
        receivers := p.receivers.set i r', wire
        activities := p.activities.set place (.listen i l') }
  /-- The activity cannot move. -/
  | stay : p.move place pick = none → Moved p place pick p

theorem moved_of_move {p p' : Pipeline} {place pick : Nat} (h : p.move place pick = some p') :
    Moved p place pick p' := by
  rw [move] at h
  split at h
  · next x hx =>
    split at h
    · cases h
    · next sender wire x' hstep =>
      obtain rfl := Option.some.inj h
      exact .send hx (Send.move_of_step hstep)
  · next i l hl =>
    split at h
    · cases h
    next r hr =>
    split at h
    · cases h
    · next r' wire l' hstep =>
      obtain rfl := Option.some.inj h
      exact .listen hl hr (Listen.move_of_step hstep)
  · cases h

theorem move_send_eq_none_iff {p : Pipeline} {place pick : Nat} {x : Send}
    (hx : p.activities[place]? = some (.send x)) :
    p.move place pick = none ↔ x.step place pick p.sender p.wire = none := by
  rw [move, hx]
  dsimp only
  split <;> simp [*]

theorem move_listen_eq_none_iff {p : Pipeline} {place pick i : Nat} {l : Listen} {r : Receiver}
    (hl : p.activities[place]? = some (.listen i l)) (hr : p.receivers[i]? = some r) :
    p.move place pick = none ↔ l.step p.now pick r p.wire = none := by
  rw [move, hl]
  dsimp only
  rw [hr]
  dsimp only
  split <;> simp [*]

theorem moved_apply (p : Pipeline) (place pick : Nat) :
    Moved p place pick (p.apply (.move place pick)) := by
  rw [apply]
  cases h : p.move place pick with
  | none => exact .stay h
  | some p' => exact moved_of_move h

theorem assigned_send {p : Pipeline} {place pick : Nat} {x x' : Send} {sender : Sender}
    {wire : Wire} (hx : p.activities[place]? = some (.send x))
    (happly : p.apply (.move place pick)
      = { p with sender, wire, activities := p.activities.set place (.send x') }) :
    p.assigned (.move place pick) = Ledger.taken place (some x) (some x') := by
  have hlt : place < p.activities.length := (List.getElem?_eq_some_iff.mp hx).1
  rw [assigned, happly, sendAt?_eq_some.mpr hx]
  congr 1
  exact sendAt?_eq_some.mpr (List.getElem?_set_self hlt)

theorem assigned_listen {p p' : Pipeline} {place pick i : Nat} {l l' : Listen}
    (hl : p.activities[place]? = some (.listen i l))
    (happly : p.apply (.move place pick) = p')
    (hp' : p'.activities = p.activities.set place (.listen i l')) :
    p.assigned (.move place pick) = [] := by
  have hlt : place < p.activities.length := (List.getElem?_eq_some_iff.mp hl).1
  have hafter : p'.sendAt? place = none := by
    rw [sendAt?, hp', List.getElem?_set_self hlt]
  rw [assigned, happly, hafter, Ledger.taken_none]

theorem assigned_stay {p : Pipeline} {place pick : Nat} (happly : p.apply (.move place pick) = p) :
    p.assigned (.move place pick) = [] := by
  rw [assigned, happly, Ledger.taken_self]

/-- After a step of the send at a place, that send has changed and no other. -/
theorem sendAt?_set_send {p : Pipeline} {place : Nat} {x x' : Send} {sender : Sender} {wire : Wire}
    (hx : p.activities[place]? = some (.send x)) (q : Nat) :
    Pipeline.sendAt? { p with sender, wire, activities := p.activities.set place (.send x') } q
      = if q = place then some x' else p.sendAt? q := by
  have hlt : place < p.activities.length := (List.getElem?_eq_some_iff.mp hx).1
  by_cases hq : q = place
  · subst hq
    simp [sendAt?, hlt]
  · have hne : place ≠ q := fun heq => hq heq.symm
    simp [sendAt?, hq, hne]

/-- A step of a reading changes no send. -/
theorem sendAt?_set_listen {p : Pipeline} {place i : Nat} {l l' : Listen} {wire : Wire}
    {receivers : List Receiver} (hl : p.activities[place]? = some (.listen i l)) (q : Nat) :
    Pipeline.sendAt? { p with
      receivers, wire, activities := p.activities.set place (.listen i l') } q = p.sendAt? q := by
  by_cases hq : place = q
  · subst hq
    have hlt : place < p.activities.length := (List.getElem?_eq_some_iff.mp hl).1
    have hnone : p.sendAt? place = none := by rw [sendAt?, hl]
    rw [hnone]
    simp [sendAt?, hlt]
  · simp [sendAt?, hq]

/-- After an activity has changed, a send is that activity, or was there before. -/
theorem sendAt?_of_set {p : Pipeline} {place q : Nat} {a : Activity} {y : Send} {sender : Sender}
    {receivers : List Receiver} {wire : Wire} (hy : Pipeline.sendAt? { p with
      sender, receivers, wire, activities := p.activities.set place a } q = some y) :
    (q = place ∧ a = .send y) ∨ (q ≠ place ∧ p.sendAt? q = some y) := by
  rw [sendAt?_eq_some] at hy ⊢
  exact getElem?_of_set hy

theorem sendAt?_of_mem_assigned {p : Pipeline} {e : Event} {a : Assignment}
    (h : a ∈ p.assigned e) : ∃ x, p.sendAt? a.place = some x ∧ x.payload = a.payload := by
  cases e with
  | move place pick =>
    obtain ⟨x, hx, hpay⟩ := Ledger.payload_of_mem_taken h
    rw [Ledger.place_of_mem_taken h]
    exact ⟨x, hx, hpay⟩
  | _ => cases h

theorem assigned_of_ne_move {p : Pipeline} {e : Event} (he : ∀ place pick, e ≠ .move place pick) :
    p.assigned e = [] := by
  rw [assigned]
  exact he

/-- What an event in which no activity takes a step leaves of a pipeline, whatever messages it
brings. -/
structure Aside (p : Pipeline) (e : Event) (p' : Pipeline) : Prop where
  withAcknowledge : p'.sender.withAcknowledge = p.sender.withAcknowledge
  lastCounter : p'.sender.lastCounter = p.sender.lastCounter
  line : p'.sender.line = p.sender.line
  /-- Only closing the sender fires its signal. -/
  cancel : e ≠ .closeSender → p'.sender.cancel = p.sender.cancel
  /-- Nothing is registered unless that is asked for. -/
  entries : ∀ c ∈ p'.sender.registry.entries, c ∈ p.sender.registry.entries ∨
    ∃ r, e = .register r ∧ c = ((p.wire.conn r).id, r)
  /-- Nothing is written or read; there may be one more connection. -/
  logs : p.wire.Still p'.wire ∨ ∃ c, e = .connect c ∧ p'.wire = (p.wire.add c).1
  /-- Activities begin behind the others. -/
  activities : ∃ more, p'.activities = p.activities ++ more ∧ ∀ a ∈ more,
    (∃ payload, a = .send ⟨payload, .called⟩) ∨ (∃ error, a = .refused error) ∨
      ∃ i r, e = .listen i r ∧ a = .listen i ⟨r, .called⟩

namespace Aside

variable {p : Pipeline} {e : Event}

theorem refl (p : Pipeline) (e : Event) : p.Aside e p where
  withAcknowledge := rfl
  lastCounter := rfl
  line := rfl
  cancel := fun _ => rfl
  entries := fun _ hc => .inl hc
  logs := .inl (.refl _)
  activities := ⟨[], by simp⟩

theorem still {wire : Wire} (h : p.wire.Still wire) (e : Event) : p.Aside e { p with wire } :=
  { refl p e with logs := .inl h }

theorem unregister {registry : Registry} {wire : Wire} (h : p.wire.Still wire)
    (hsub : registry.entries.Sublist p.sender.registry.entries) (e : Event) :
    p.Aside e { p with sender := { p.sender with registry }, wire } :=
  { refl p e with logs := .inl h, entries := fun _ hc => .inl (hsub.subset hc) }

theorem call {a : Activity}
    (ha : (∃ payload, a = .send ⟨payload, .called⟩) ∨ ∃ error, a = .refused error) (e : Event) :
    p.Aside e (p.begin a) :=
  { refl p e with
    activities := ⟨[a], rfl, fun b hb => by
      obtain rfl := List.mem_singleton.mp hb
      exact ha.imp_right .inl⟩ }

theorem listen (p : Pipeline) (i : Nat) (r : Ref) :
    p.Aside (.listen i r) (p.begin (.listen i ⟨r, .called⟩)) :=
  { refl p _ with
    activities := ⟨[.listen i ⟨r, .called⟩], rfl, fun b hb => by
      obtain rfl := List.mem_singleton.mp hb
      exact .inr (.inr ⟨i, r, rfl, rfl⟩)⟩ }

end Aside

/-- A send that is there was there before, or it has just begun. -/
theorem Aside.sendAt? {p p' : Pipeline} {e : Event} (h : p.Aside e p') {q : Nat} {y : Send}
    (hy : p'.sendAt? q = some y) :
    p.sendAt? q = some y ∨ (p.activities.length ≤ q ∧ y.phase = .called) := by
  obtain ⟨more, hmore, hnew⟩ := h.activities
  rw [sendAt?_eq_some, hmore] at hy
  rcases Nat.lt_or_ge q p.activities.length with hlt | hge
  · rw [List.getElem?_append_left hlt] at hy
    exact .inl (sendAt?_eq_some.mpr hy)
  · rw [List.getElem?_append_right hge] at hy
    rcases hnew _ (List.mem_of_getElem? hy) with ⟨_, heq⟩ | ⟨_, heq⟩ | ⟨_, _, _, heq⟩
    · cases heq
      exact .inr ⟨hge, rfl⟩
    · cases heq
    · cases heq

theorem Aside.sendAt?_of_lt {p p' : Pipeline} {e : Event} (h : p.Aside e p') {place : Nat}
    (hlt : place < p.activities.length) : p'.sendAt? place = p.sendAt? place := by
  obtain ⟨more, hmore, -⟩ := h.activities
  rw [Pipeline.sendAt?, Pipeline.sendAt?, hmore, List.getElem?_append_left hlt]

/-- A send that was there stays as it is. -/
theorem Aside.sendAt?_of_some {p p' : Pipeline} {e : Event} (h : p.Aside e p') {place : Nat}
    {x : Send} (hx : p.sendAt? place = some x) : p'.sendAt? place = some x := by
  have hlt := (List.getElem?_eq_some_iff.mp (sendAt?_eq_some.mp hx)).1
  rw [h.sendAt?_of_lt hlt, hx]

theorem aside_apply {p : Pipeline} {e : Event} (he : ∀ place pick, e ≠ .move place pick) :
    p.Aside e (p.apply e) := by
  cases e with
  | move place pick => exact absurd rfl (he place pick)
  | elapse duration => exact { Aside.refl p _ with }
  | connect c => exact { Aside.refl p _ with logs := .inr ⟨c, rfl, rfl⟩ }
  | join a b =>
    exact Aside.still (show p.wire.Still (p.wire.join a b) from ⟨rfl, fun _ => .refl _⟩) _
  | occur r o => exact .still (p.wire.still_undergo r o) _
  | disconnect r => exact .still (p.wire.still_close r) _
  | register r =>
    refine { Aside.refl p _ with entries := fun c hc => ?_ }
    exact (Registry.mem_add hc).imp_right fun heq => ⟨r, rfl, heq⟩
  | unregister id =>
    exact .unregister (Registry.still_closeAndRemove id)
      (p.sender.keeps_closeAndRemove p.wire id).entries _
  | removeClosed => exact .unregister (.refl _) Registry.entries_removeClosed _
  | closeAll => exact .unregister Registry.still_closeAll Registry.entries_closeAll _
  | closeSender =>
    have hregistry := Registry.entries_closeAll (g := p.sender.registry) (w := p.wire)
    exact { Aside.unregister Registry.still_closeAll hregistry _ with
      cancel := fun hne => absurd rfl hne }
  | send payload => exact .call (.inl ⟨payload, rfl⟩) _
  | report m r =>
    rw [apply]
    split
    · next payload _ => exact .call (.inl ⟨payload, rfl⟩) _
    · next error _ => exact .call (.inr ⟨error, rfl⟩) _
  | attach r => exact { Aside.refl p _ with }
  | listen i r => exact .listen p i r
  | closeReceiver i => exact { Aside.refl p _ with }

/-- What an event does to a pipeline, and what it assigns. -/
inductive Effect (p : Pipeline) (e : Event) : Pipeline → Ledger → Prop where
  /-- A send takes a step. -/
  | send {place pick : Nat} {x x' : Send} {sender : Sender} {wire : Wire} : e = .move place pick →
      p.activities[place]? = some (.send x) →
      Send.Move place pick p.sender p.wire x sender wire x' →
      Effect p e { p with sender, wire, activities := p.activities.set place (.send x') }
        (Ledger.taken place (some x) (some x'))
  /-- A reading takes a step. -/
  | listen {place pick i : Nat} {l l' : Listen} {r r' : Receiver} {wire : Wire} :
      e = .move place pick → p.activities[place]? = some (.listen i l) →
      p.receivers[i]? = some r → Listen.Move p.now r p.wire l r' wire l' →
      Effect p e { p with
        receivers := p.receivers.set i r', wire
        activities := p.activities.set place (.listen i l') } []
  /-- No activity takes a step. -/
  | aside {p' : Pipeline} : p.Aside e p' → Effect p e p' []

theorem effect_apply (p : Pipeline) (e : Event) : p.Effect e (p.apply e) (p.assigned e) := by
  by_cases he : ∃ place pick, e = .move place pick
  · obtain ⟨place, pick, rfl⟩ := he
    have hmoved := p.moved_apply place pick
    generalize happly : p.apply (.move place pick) = p' at hmoved
    cases hmoved with
    | send hx hmove =>
      rw [assigned_send hx happly]
      exact .send rfl hx hmove
    | listen hl hr hmove =>
      rw [assigned_listen hl happly rfl]
      exact .listen rfl hl hr hmove
    | stay =>
      rw [assigned_stay happly]
      exact .aside (.refl p _)
  · have hmove : ∀ place pick, e ≠ .move place pick := fun q pick heq => he ⟨q, pick, heq⟩
    rw [assigned_of_ne_move hmove]
    exact .aside (aside_apply hmove)

theorem withAcknowledge_apply (p : Pipeline) (e : Event) :
    (p.apply e).sender.withAcknowledge = p.sender.withAcknowledge := by
  have heffect := p.effect_apply e
  generalize p.apply e = p', p.assigned e = more at heffect
  cases heffect with
  | send _ _ hmove => exact hmove.settings.1
  | listen => rfl
  | aside hp => exact hp.withAcknowledge

theorem withAcknowledge_applyAll (p : Pipeline) (events : List Event) :
    (p.applyAll events).sender.withAcknowledge = p.sender.withAcknowledge := by
  induction events generalizing p with
  | nil => rfl
  | cons e rest ih => exact (ih (p.apply e)).trans (withAcknowledge_apply p e)

theorem cancel_apply {p : Pipeline} {e : Event} (he : e ≠ .closeSender) :
    (p.apply e).sender.cancel = p.sender.cancel := by
  have heffect := p.effect_apply e
  generalize p.apply e = p', p.assigned e = more at heffect
  cases heffect with
  | send _ _ hmove => exact hmove.settings.2
  | listen => rfl
  | aside hp => exact hp.cancel he

theorem cancel_applyAll {p : Pipeline} {events : List Event}
    (hopen : ∀ e ∈ events, e ≠ .closeSender) :
    (p.applyAll events).sender.cancel = p.sender.cancel := by
  induction events generalizing p with
  | nil => rfl
  | cons e rest ih =>
    obtain ⟨he, hrest⟩ := List.forall_mem_cons.mp hopen
    exact (ih hrest).trans (cancel_apply he)

/-- The assignments stay numbered, and the last number is that of the sender. -/
theorem numbered_apply {p : Pipeline} {log : Ledger} (numbered : log.Numbered)
    (last : p.sender.lastCounter = UInt64.ofNat log.length) (e : Event) :
    (log ++ p.assigned e).Numbered ∧
      (p.apply e).sender.lastCounter = UInt64.ofNat (log ++ p.assigned e).length := by
  have heffect := p.effect_apply e
  generalize p.apply e = p', p.assigned e = more at heffect ⊢
  cases heffect with
  | send _ _ hmove => exact hmove.numbered numbered last
  | listen =>
    rw [List.append_nil]
    exact ⟨numbered, last⟩
  | aside hp =>
    rw [List.append_nil]
    exact ⟨numbered, hp.lastCounter.trans last⟩

/-- However a run goes on, the assignments are numbered. -/
theorem numbered_applyAll {p : Pipeline} (fresh : p.sender.lastCounter = 0) (events : List Event) :
    (p.ledger events).Numbered ∧
      (p.applyAll events).sender.lastCounter = UInt64.ofNat (p.ledger events).length := by
  have hcourse : Along apply (fun _ _ => True) p events :=
    along_of_forall apply (fun _ _ => trivial) p
  have hnumbered := collect_invariant
    (fun (p : Pipeline) (log : Ledger) =>
      log.Numbered ∧ p.sender.lastCounter = UInt64.ofNat log.length)
    (fun p log e _ h => numbered_apply h.1 h.2 e) hcourse ⟨Ledger.numbered_nil, fresh⟩
  rwa [List.nil_append] at hnumbered

/-- What an event other than a move leaves of a pipeline while nobody but the sender and the
receivers puts messages on connections. -/
structure Around (p : Pipeline) (e : Event) (p' : Pipeline) : Prop extends p.Aside e p' where
  /-- No message arrives; there may be one more connection or one more link. -/
  wire : p.wire.Keeps p'.wire ∨ (∃ c, e = .connect c ∧ p'.wire = (p.wire.add c).1) ∨
    ∃ a b, e = .join a b ∧ p'.wire = p.wire.join a b
  receivers : GrowAll p.receivers p'.receivers
  /-- Nothing is handed over. -/
  deliveries : ∀ (i : Nat) (r' : Receiver), p'.receivers[i]? = some r' → r'.deliveries = [] ∨
    ∃ r, p.receivers[i]? = some r ∧ r'.deliveries = r.deliveries

namespace Around

variable {p p' : Pipeline} {e : Event}

theorem same (h : p.Aside e p')
    (wire : p.wire.Keeps p'.wire ∨ (∃ c, e = .connect c ∧ p'.wire = (p.wire.add c).1) ∨
      ∃ a b, e = .join a b ∧ p'.wire = p.wire.join a b)
    (receivers : p'.receivers = p.receivers) : p.Around e p' where
  toAside := h
  wire := wire
  receivers := receivers ▸ .refl _
  deliveries := fun _ r hr => .inr ⟨r, receivers ▸ hr, rfl⟩

theorem keeps (h : p.Aside e p') (wire : p.wire.Keeps p'.wire)
    (receivers : p'.receivers = p.receivers) : p.Around e p' :=
  same h (.inl wire) receivers

theorem attach {r : Receiver} (h : r.handled = []) :
    p.Around (.attach r) { p with receivers := p.receivers ++ [r] } where
  toAside := aside_apply (p := p) (e := .attach r) nofun
  wire := .inl (.refl _)
  receivers := .append _ _
  deliveries := by
    intro i q hq
    rcases Nat.lt_or_ge i p.receivers.length with hi | hi
    · rw [List.getElem?_append_left hi] at hq
      exact .inr ⟨q, hq, rfl⟩
    · rw [List.getElem?_append_right hi] at hq
      obtain rfl := List.mem_singleton.mp (List.mem_of_getElem? hq)
      exact .inl (by rw [Receiver.deliveries, h]; rfl)

theorem closeReceiver (p : Pipeline) (i : Nat) :
    p.Around (.closeReceiver i) { p with receivers := p.receivers.modify i (·.close) } where
  toAside := aside_apply (p := p) (e := .closeReceiver i) nofun
  wire := .inl (.refl _)
  receivers := .close _ i
  deliveries := fun _ _ hq => .inr (GrowAll.deliveries_close hq)

end Around

theorem around_apply {p : Pipeline} {e : Event} (mute : p.wire.Mute) (quiet : e.Quiet)
    (he : ∀ place pick, e ≠ .move place pick) : p.Around e (p.apply e) := by
  have haside := aside_apply (p := p) he
  cases e with
  | move place pick => exact absurd rfl (he place pick)
  | elapse | register | removeClosed | send | listen => exact .keeps haside (.refl _) rfl
  | report m r =>
    rw [apply] at haside ⊢
    split at haside <;> exact .keeps haside (.refl _) rfl
  | connect c => exact .same haside (.inr (.inl ⟨c, rfl, rfl⟩)) rfl
  | join a b => exact .same haside (.inr (.inr ⟨a, b, rfl, rfl⟩)) rfl
  | occur r o => exact .keeps haside (Wire.keeps_undergo mute quiet) rfl
  | disconnect r => exact .keeps haside (Wire.keeps_close mute r) rfl
  | unregister id =>
    exact .keeps haside (Sender.wire_closeAndRemove (s := p.sender) mute id) rfl
  | closeAll | closeSender => exact .keeps haside (Registry.keeps_closeAll mute) rfl
  | attach r => exact .attach quiet
  | closeReceiver i => exact .closeReceiver p i

/-- Activities stay in their places, and sends keep their payloads. -/
theorem payloadAt?_apply {p : Pipeline} {place : Nat} (hlt : place < p.activities.length)
    (e : Event) : place < (p.apply e).activities.length ∧
      (p.apply e).payloadAt? place = p.payloadAt? place := by
  have heffect := p.effect_apply e
  generalize p.apply e = p', p.assigned e = more at heffect ⊢
  cases heffect with
  | @send q _ x x' _ _ _ hx hmove =>
    refine ⟨by simpa using hlt, ?_⟩
    rw [payloadAt?, sendAt?_set_send hx, payloadAt?]
    split
    · next hq => rw [hq, sendAt?_eq_some.mpr hx, Option.map_some, Option.map_some, hmove.payload]
    · rfl
  | listen _ hl =>
    refine ⟨by simpa using hlt, ?_⟩
    rw [payloadAt?, sendAt?_set_listen hl, payloadAt?]
  | aside hp =>
    obtain ⟨more, hmore, -⟩ := hp.activities
    rw [payloadAt?, hp.sendAt?_of_lt hlt, payloadAt?, hmore, List.length_append]
    exact ⟨Nat.lt_add_right _ hlt, rfl⟩

theorem payloadAt?_applyAll {p : Pipeline} {place : Nat} (hlt : place < p.activities.length)
    (events : List Event) : (p.applyAll events).payloadAt? place = p.payloadAt? place := by
  induction events generalizing p with
  | nil => rfl
  | cons e rest ih =>
    obtain ⟨hlt', hsame⟩ := payloadAt?_apply hlt e
    exact (ih hlt').trans hsame

/-- The call of a report sends its payload, if it has one. -/
theorem payloadAt?_report (p : Pipeline) (m : Marshaler) (r : Report) :
    p.activities.length < (p.apply (.report m r)).activities.length ∧
      (p.apply (.report m r)).payloadAt? p.activities.length = (r.payload m).toOption := by
  rw [apply]
  cases r.payload m with
  | ok payload => simp [begin, payloadAt?, sendAt?, Except.toOption]
  | error e => simp [begin, payloadAt?, sendAt?, Except.toOption]

theorem sent?_eq_some {p : Pipeline} {place : Nat} {result : Except SendError Unit} :
    p.sent? place = some result ↔ ∃ x, p.sendAt? place = some x ∧ x.phase = .done result := by
  rw [sent?, sendAt?]
  constructor
  · intro h
    obtain ⟨a, ha, hsent⟩ := Option.bind_eq_some_iff.mp h
    cases a with
    | send x =>
      rw [ha]
      refine ⟨x, rfl, ?_⟩
      rw [Activity.sent?, Send.result?] at hsent
      split at hsent
      · next hp =>
        obtain rfl := Option.some.inj hsent
        exact hp
      · cases hsent
    | refused e => cases hsent
    | listen i l => cases hsent
  · rintro ⟨x, hx, hp⟩
    have hact : p.activities[place]? = some (.send x) := sendAt?_eq_some.mp hx
    rw [hact, Option.bind_some, Activity.sent?, Send.result?, hp]

/-- A sender and a receiver that blocks on errors are linked. -/
def linked : List Event :=
  [.connect { id := "near", isOpen := true }, .connect { id := "far", isOpen := true }, .join 0 1,
    .register 0, .attach { handler := .accepting, blockOnError := true, retry := 1000 },
    .listen 0 1]

/-- The sender writes, the receiver reads, hands over and acknowledges, and the sender reads. -/
def roundTrip : List Event :=
  [.move 1 0, .move 1 0, .move 1 0, .move 1 0, .move 0 0, .move 0 0, .move 0 0, .move 0 0,
    .move 1 0]

end BlockFeed.Pipeline
