import BlockFeed.Proofs.Client.Sound

/-!
# Delivery across reconnects

A client sends a payload again, under a new counter and over a new connection, until an attempt
succeeds. If it tells that the payload was sent, some peer was handed that payload in the course of
the call, and did not refuse it if that matters to the peer.

## Main definitions

* `Exchange.Event.Quiet`: the peers put nothing but acknowledgments on the links.
* `Exchange.Reliable`: the client is sound, and so are all activities.
* `Exchange.DeliveredSince`: what the success of a send stands for.

## Main results

* `Exchange.delivered_of_sent_ok`: success means delivery during the call.

## Design notes

The ledger has one assignment for each attempt that got so far, all at the place of the call. The
attempt that succeeds has read the acknowledgment of its own counter, and a peer acknowledges only
what it has handed over. While 64 bits are enough nobody else has that counter, neither another
attempt nor another send, and nobody had it before the call.
-/

namespace BlockFeed

section Activities

variable {R R' : List Receiver} {log log' : Ledger} {me now pick : Nat} {c c' : Client}
  {w w' : Wire}

/-- What is known of a send of a client under its number: its attempt is accounted for, and success
means that a payload like its own was handed over under a counter that it was given. -/
def ClientSend.Accounted (R : List Receiver) (log : Ledger) (me : Nat) (s : ClientSend) : Prop :=
  match s.phase with
  | .sending _ x => x.payload = s.payload ∧ x.Accounted R log me ∧ x.WritesNear
  | .done result =>
    result = .ok () → ∃ counter, ⟨me, s.payload, counter⟩ ∈ log ∧ Vouched R counter
  | .called | .attempting | .obtaining _ | .discarding _ _ | .pausing _ => True

theorem ClientSend.Accounted.mono {s : ClientSend} (h : s.Accounted R log me)
    (hlog : log ⊆ log') (hR : GrowAll R R') : s.Accounted R' log' me := by
  rw [ClientSend.Accounted] at h ⊢
  split
  · next hp =>
    rw [hp] at h
    exact ⟨h.1, h.2.1.mono hlog hR, h.2.2⟩
  · next hp =>
    rw [hp] at h
    intro hok
    obtain ⟨counter, hmem, hv⟩ := h hok
    exact ⟨counter, hlog hmem, hR.vouched hv⟩
  all_goals trivial

/-- A step of a send of a sound client leaves the client sound and the send accounted for. -/
theorem ClientSend.Move.sound {s s' : ClientSend}
    (h : ClientSend.Move me now pick c w s c' w' s') (hc : c.Sound R w log)
    (hs : s.Accounted R log me) :
    c'.Sound R w' (log ++ Ledger.taken me s.send? s'.send?) ∧
      s'.Accounted R (log ++ Ledger.taken me s.send? s'.send?) me := by
  cases h with
  | refuse =>
    rw [taken_between (.inr (by rfl)), List.append_nil]
    refine ⟨hc, ?_⟩
    intro hok
    cases hok
  | attempt | call =>
    rw [taken_between (.inr (by rfl)), List.append_nil]
    exact ⟨hc, trivial⟩
  | @obtain o o' _ hp htends =>
    rw [taken_between (.inl (by rw [send?, hp])), List.append_nil]
    refine ⟨hc.tends htends, ?_⟩
    rcases afterObtain_cases s.payload o' with ⟨r, -, heq⟩ | heq | heq
    · rw [ClientSend.Accounted, heq]
      exact ⟨rfl, trivial, trivial⟩
    · rw [ClientSend.Accounted, heq]
      intro hok
      cases hok
    · rw [ClientSend.Accounted, heq]
      trivial
  | @discard r d d' _ _ hp htends =>
    rw [taken_between (.inl (by rw [send?, hp])), List.append_nil]
    refine ⟨hc.tends htends, ?_⟩
    rcases afterDiscard_cases r d' with heq | heq
    · rw [ClientSend.Accounted, heq]
      trivial
    · rw [ClientSend.Accounted, heq]
      trivial
  | @send r x x' sender _ hp hmove =>
    rw [ClientSend.Accounted, hp] at hs
    obtain ⟨hpayload, hx, hnear⟩ := hs
    rw [taken_afterSend hp]
    refine ⟨hc.send hmove hx hnear, ?_⟩
    have hpayload' : x'.payload = s.payload := hmove.payload.trans hpayload
    have hx' := hmove.accounted hc.audited hc.acks hc.isOpen hx
    rcases afterSend_cases now c.retry r x' with heq | ⟨hdone, heq⟩ | ⟨e, -, heq | heq | heq⟩
    · rw [ClientSend.Accounted, heq]
      exact ⟨hpayload', hx', hmove.near hc.entries hnear⟩
    · -- the attempt has succeeded, and what is known of it is what success stands for
      rw [Send.Accounted, hdone, hpayload'] at hx'
      rw [ClientSend.Accounted, heq]
      exact hx'
    · rw [ClientSend.Accounted, heq]
      intro hok
      cases hok
    all_goals
      rw [ClientSend.Accounted, heq]
      trivial

/-- What is known of a reading of a client: it is passive. -/
def ClientListen.Accounted (a : ClientListen) : Prop :=
  match a with
  | .listening _ l => l.Passive
  | .obtaining _ | .discarding _ _ | .done => True

/-- A step of a reading of a sound client leaves the client sound and the reading passive. -/
theorem ClientListen.Move.sound {a a' : ClientListen} (h : ClientListen.Move now c w a c' w' a')
    (hc : c.Sound R w log) (ha : a.Accounted) : c'.Sound R w' log ∧ a'.Accounted := by
  cases h with
  | tend htends hslot =>
    refine ⟨hc.tends htends, ?_⟩
    cases a' with
    | listening r l =>
      obtain ⟨rfl, hr⟩ := hslot r l rfl
      exact ⟨hc.slot r hr, trivial⟩
    | obtaining | discarding | done => trivial
  | @read r l l' receiver _ ha' hmove =>
    rw [ha'] at ha
    refine ⟨hc.read hmove ha, ?_⟩
    rw [afterListen]
    split
    · exact hmove.passive hc.sided ha
    · split <;> trivial

def ExchangeActivity.Accounted (R : List Receiver) (log : Ledger) (place : Nat) :
    ExchangeActivity → Prop
  | .client (.send s) => s.Accounted R log place
  | .client (.listen a) => a.Accounted
  | .client (.close _) => True
  | .peer i l => l.AccountedBy R i

theorem ExchangeActivity.Accounted.mono {place : Nat} {a : ExchangeActivity}
    (h : a.Accounted R log place) (hlog : log ⊆ log') (hR : GrowAll R R') :
    a.Accounted R' log' place := by
  cases a with
  | client a =>
    cases a with
    | send s => exact ClientSend.Accounted.mono h hlog hR
    | listen | close => exact h
  | peer i l => exact Listen.AccountedBy.mono h hR

end Activities

namespace Exchange

/-- The peers put nothing but acknowledgments on the links: new connections come without messages
and answer nothing of themselves, and a new receiver has handed over nothing yet. -/
def Event.Quiet : Event → Prop
  | .answer _ (some (near, far)) =>
    (near.messages = [] ∧ near.echo = none) ∧ far.messages = [] ∧ far.echo = none
  | .occur _ o => o.Quiet
  | .attach r => r.handled = []
  | _ => True

/-- The client is sound, and all activities are accounted for. -/
structure Reliable (p : Exchange) (log : Ledger) : Prop where
  sound : p.client.Sound p.peers p.wire log
  activities : ∀ (place : Nat) (a : ExchangeActivity), p.activities[place]? = some a →
    a.Accounted p.peers log place

namespace Reliable

variable {p : Exchange} {log : Ledger}

theorem set (h : p.Reliable log) {R : List Receiver} {log' : Ledger} {place : Nat}
    {a : ExchangeActivity} (hlog : log ⊆ log') (hR : GrowAll p.peers R)
    (ha : a.Accounted R log' place) (q : Nat) (b : ExchangeActivity)
    (hb : (p.activities.set place a)[q]? = some b) : b.Accounted R log' q := by
  rcases getElem?_of_set hb with ⟨rfl, rfl⟩ | ⟨-, hb⟩
  · exact ha
  · exact (h.activities q b hb).mono hlog hR

/-- An activity begins of which there is nothing to know. -/
theorem begin (h : p.Reliable log) {a : ExchangeActivity}
    (ha : ∀ place, a.Accounted p.peers log place) : (p.begin a).Reliable log where
  sound := h.sound
  activities := by
    intro q b hb
    change (p.activities ++ [a])[q]? = some b at hb
    rcases Nat.lt_or_ge q p.activities.length with hlt | hge
    · rw [List.getElem?_append_left hlt] at hb
      exact h.activities q b hb
    · rw [List.getElem?_append_right hge] at hb
      obtain rfl := List.mem_singleton.mp (List.mem_of_getElem? hb)
      exact ha q

theorem keeps (h : p.Reliable log) {wire : Wire} (hw : p.wire.Keeps wire) :
    Reliable { p with wire } log :=
  ⟨h.sound.keeps hw, h.activities⟩

theorem grow (h : p.Reliable log) {peers : List Receiver} (hR : GrowAll p.peers peers)
    (hhandled : ∀ r ∈ peers, ∀ d ∈ r.deliveries, d ∈ log.deliveries) :
    Reliable { p with peers } log :=
  ⟨h.sound.grow hR hhandled,
    fun q a ha => (h.activities q a ha).mono (List.Subset.refl log) hR⟩

/-- An activity takes a step. Only the step that closes the client makes it unreliable. -/
theorem move (h : p.Reliable log) (place pick : Nat) :
    (p.apply (.move place pick)).client.cancel.closed = true ∨
      (p.apply (.move place pick)).Reliable (log ++ p.assigned (.move place pick)) := by
  have hmoved := p.moved_apply place pick
  have hother (hnone : p.callAt? place = none) : log ++ p.assigned (.move place pick) = log := by
    rw [assigned_of_callAt?_none hnone, List.append_nil]
  generalize happly : p.apply (.move place pick) = p' at hmoved
  cases hmoved with
  | send hs hmove =>
    have hlt := (List.getElem?_eq_some_iff.mp hs).1
    obtain ⟨hsound, hacc⟩ := hmove.sound h.sound (h.activities place _ hs)
    rw [assigned_send happly (callAt?_eq_some.mpr hs)
      (callAt?_eq_some.mpr (List.getElem?_set_self hlt))]
    exact .inr ⟨hsound, h.set (List.subset_append_left log _) (.refl _) hacc⟩
  | read ha hmove =>
    obtain ⟨hsound, hacc⟩ := hmove.sound h.sound (h.activities place _ ha)
    rw [hother (by rw [callAt?, ha])]
    exact .inr ⟨hsound, h.set (List.Subset.refl log) (.refl _) hacc⟩
  | close ha hx =>
    rw [hother (by rw [callAt?, ha])]
    refine hx.imp_right fun htends => ?_
    exact ⟨h.sound.tends htends, h.set (List.Subset.refl log) (.refl _) trivial⟩
  | peer hl hr hmove =>
    have hacc := Listen.AccountedBy.accounted (h.activities place _ hl) hr
    rw [hother (by rw [callAt?, hl])]
    exact .inr ⟨h.sound.peer hmove hr hacc, h.set (List.Subset.refl log)
      (.set hr hmove.grows) (hmove.accountedBy hr hacc)⟩
  | stay =>
    rw [assigned, happly, Ledger.taken_self, List.append_nil]
    exact .inr h

theorem answer (h : p.Reliable log) {place : Nat} {ends : Option (Connection × Connection)}
    (quiet : (Event.answer place ends).Quiet) : (p.apply (.answer place ends)).Reliable log := by
  have hanswered := p.answered_apply place ends
  generalize p.apply (.answer place ends) = p' at hanswered
  cases hanswered with
  | linked ha hends htends hto =>
    subst hends
    have hsound := h.sound.link quiet.1 quiet.2
    refine ⟨hsound.tends htends, h.set (List.Subset.refl log) (.refl _) ?_⟩
    rcases hto with ⟨payload, rfl, rfl⟩ | ⟨rfl, rfl⟩
    · exact ⟨rfl, trivial, trivial⟩
    · exact ⟨hsound.slot _ rfl, trivial⟩
  | failed ha hto =>
    refine ⟨h.sound, h.set (List.Subset.refl log) (.refl _) ?_⟩
    rcases hto with ⟨payload, rfl, rfl⟩ | ⟨rfl, rfl⟩ <;> trivial
  | stay => exact h

theorem around (h : p.Reliable log) {e : Event} (quiet : e.Quiet)
    (he : ∀ place pick, e ≠ .move place pick) : (p.apply e).Reliable log := by
  cases e with
  | move place pick => exact absurd rfl (he place pick)
  | answer place ends => exact h.answer quiet
  | elapse duration => exact ⟨h.sound, h.activities⟩
  | occur r o => exact h.keeps (Wire.keeps_undergo h.sound.audited.mute quiet)
  | disconnect r => exact h.keeps (Wire.keeps_close h.sound.audited.mute r)
  | attach r =>
    refine h.grow (.append _ _) ?_
    intro q hq d hd
    rcases List.mem_append.mp hq with hq | hq
    · exact h.sound.audited.handled q hq d hd
    · obtain rfl := List.mem_singleton.mp hq
      rw [Receiver.deliveries, show q.handled = [] from quiet] at hd
      cases hd
  | closePeer i =>
    refine h.grow (.close _ i) ?_
    intro q hq d hd
    obtain ⟨j, hj⟩ := List.mem_iff_getElem?.mp hq
    obtain ⟨r, hr, hsame⟩ := GrowAll.deliveries_close hj
    exact h.sound.audited.handled r (List.mem_of_getElem? hr) d (hsame ▸ hd)
  | listen i r => exact h.begin fun _ => Listen.accountedBy_called p.peers i r
  | send | read | close => exact h.begin fun _ => trivial

end Reliable

section Runs

variable {p : Exchange}

theorem closed_move (h : p.client.cancel.closed = true) (place pick : Nat) :
    (p.apply (.move place pick)).client.cancel.closed = true := by
  have hmoved := p.moved_apply place pick
  generalize p.apply (.move place pick) = p' at hmoved
  cases hmoved with
  | send _ hmove => exact hmove.cancel ▸ h
  | read _ hmove => exact hmove.cancel ▸ h
  | close _ hx =>
    rcases hx with hclosed | htends
    · exact hclosed
    · exact htends.cancel ▸ h
  | peer | stay => exact h

theorem closed_apply (h : p.client.cancel.closed = true) (e : Event) :
    (p.apply e).client.cancel.closed = true := by
  cases e with
  | move place pick => exact closed_move h place pick
  | answer place ends =>
    have hanswered := p.answered_apply place ends
    generalize p.apply (.answer place ends) = p' at hanswered
    cases hanswered with
    | linked _ _ htends => exact htends.cancel ▸ h
    | failed | stay => exact h
  | elapse | occur | disconnect | attach | listen | closePeer | send | read | close => exact h

theorem closed_applyAll (h : p.client.cancel.closed = true) (events : List Event) :
    (p.applyAll events).client.cancel.closed = true := by
  induction events generalizing p with
  | nil => exact h
  | cons e rest ih => exact ih (closed_apply h e)

/-- Activities stay, and receivers of peers only hand over more. -/
theorem grow_apply (p : Exchange) (e : Event) :
    p.activities.length ≤ (p.apply e).activities.length ∧ GrowAll p.peers (p.apply e).peers := by
  cases e with
  | move place pick =>
    have hmoved := p.moved_apply place pick
    generalize p.apply (.move place pick) = p' at hmoved
    cases hmoved with
    | send | read | close => exact ⟨by simp, .refl _⟩
    | peer _ hr hmove => exact ⟨by simp, .set hr hmove.grows⟩
    | stay => exact ⟨Nat.le_refl _, .refl _⟩
  | answer place ends =>
    have hanswered := p.answered_apply place ends
    generalize p.apply (.answer place ends) = p' at hanswered
    cases hanswered with
    | linked | failed => exact ⟨by simp, .refl _⟩
    | stay => exact ⟨Nat.le_refl _, .refl _⟩
  | attach => exact ⟨Nat.le_refl _, .append _ _⟩
  | closePeer i => exact ⟨Nat.le_refl _, .close _ i⟩
  | listen | send | read | close => exact ⟨by simp [apply, begin], .refl _⟩
  | elapse | occur | disconnect => exact ⟨Nat.le_refl _, .refl _⟩

theorem grow_applyAll (p : Exchange) (events : List Event) :
    p.activities.length ≤ (p.applyAll events).activities.length ∧
      GrowAll p.peers (p.applyAll events).peers := by
  induction events generalizing p with
  | nil => exact ⟨Nat.le_refl _, .refl _⟩
  | cons e rest ih =>
    have hfirst := p.grow_apply e
    have hrest := ih (p.apply e)
    exact ⟨Nat.le_trans hfirst.1 hrest.1, hfirst.2.trans hrest.2⟩

theorem place_lt_of_mem_ledger {events : List Event} {a : Assignment}
    (h : a ∈ p.ledger events) : a.place < (p.applyAll events).activities.length := by
  induction events generalizing p with
  | nil => cases h
  | cons e rest ih =>
    rcases List.mem_append.mp h with h | h
    · exact Nat.lt_of_lt_of_le (place_lt_of_mem_assigned h) (p.grow_applyAll (e :: rest)).1
    · exact ih h

/-- While the client is not closed, the exchange is reliable. -/
theorem reliable_apply {log : Ledger} {e : Event} (quiet : e.Quiet)
    (h : p.client.cancel.closed = false → p.Reliable log)
    (isOpen : (p.apply e).client.cancel.closed = false) :
    (p.apply e).Reliable (log ++ p.assigned e) := by
  -- a client that is open now was open before
  have hbefore : p.client.cancel.closed = false := by
    cases hclosed : p.client.cancel.closed with
    | false => rfl
    | true => exact absurd (closed_apply hclosed e) (by simp [isOpen])
  by_cases he : ∃ place pick, e = .move place pick
  · obtain ⟨place, pick, rfl⟩ := he
    exact ((h hbefore).move place pick).resolve_left (by simp [isOpen])
  · have hmove : ∀ place pick, e ≠ .move place pick := fun q pick heq => he ⟨q, pick, heq⟩
    rw [assigned_of_ne_move hmove, List.append_nil]
    exact (h hbefore).around quiet hmove

end Runs

/-- An exchange in which nothing has begun: there is only the client. -/
def start (client : Client) : Exchange := { client }

theorem reliable_start {config : Config} {handler : Handler} {client : Client}
    (made : Client.ofConfig config handler = .ok client) (acks : config.withAcknowledge = true) :
    (start client).Reliable [] := by
  obtain rfl := Client.eq_of_ofConfig made
  refine ⟨⟨acks, rfl, .empty rfl, .empty, ?_, ?_⟩, ?_⟩
  · intro r hr
    cases hr
  · intro e he
    cases he
  · intro place a ha
    cases ha

/-- How much a receiver of a peer has handed over. -/
def handedOver (p : Exchange) (receiver : Nat) : Nat :=
  (p.peers[receiver]?).elim 0 (·.handled.length)

/-- The call that came when the exchange was like `p` was given a counter under which a receiver of
a peer has handed over a payload, without a refusal if the receiver blocks on errors. While 64 bits
are enough for the counters, it is the payload of the call, and it was handed over since. -/
def DeliveredSince (p p' : Exchange) (log : Ledger) (payload : Bytes) : Prop :=
  ∃ counter, ⟨p.activities.length, payload, counter⟩ ∈ log ∧
    ∃ (i : Nat) (receiver : Receiver), p'.peers[i]? = some receiver ∧ ∃ h ∈ receiver.handled,
      h.delivery.counter = counter ∧ (receiver.blockOnError = true → h.result.isOk = true) ∧
        (log.length < UInt64.size →
          h.delivery.payload = payload ∧ h ∈ receiver.handled.drop (p.handedOver i))

/-- What is handed over with a counter that is given out later is handed over later. -/
theorem mem_drop_handedOver {p p' : Exchange} {log : Ledger} (h : p.Reliable log)
    (hR : GrowAll p.peers p'.peers) {i : Nat} {receiver : Receiver}
    (hreceiver : p'.peers[i]? = some receiver) {d : Handled} (hd : d ∈ receiver.handled)
    (hnew : d.delivery ∉ log.deliveries) : d ∈ receiver.handled.drop (p.handedOver i) := by
  rw [handedOver]
  cases hr : p.peers[i]? with
  | none => exact hd
  | some r =>
    obtain ⟨r', hr', hgrows⟩ := hR i r hr
    obtain rfl := Option.some.inj (hreceiver.symm.trans hr')
    obtain ⟨more, hmore⟩ := hgrows.handled
    rw [← hmore] at hd ⊢
    rw [Option.elim_some, List.drop_left]
    rcases List.mem_append.mp hd with hold | hd
    · have hdel : d.delivery ∈ r.deliveries := List.mem_map_of_mem hold
      exact absurd (h.sound.audited.handled r (List.mem_of_getElem? hr) _ hdel) hnew
    · exact hd

theorem Reliable.deliveredSince {p p' : Exchange} {log more : Ledger} {payload : Bytes}
    (h : p.Reliable log) (h' : p'.Reliable (log ++ more)) (hR : GrowAll p.peers p'.peers)
    (placed : ∀ a ∈ log, a.place < p.activities.length)
    (hs : p'.callAt? p.activities.length = some ⟨payload, .done (.ok ())⟩) :
    DeliveredSince p p' (log ++ more) payload := by
  have hacc : ClientSend.Accounted p'.peers (log ++ more) p.activities.length
      ⟨payload, .done (.ok ())⟩ := h'.activities _ _ (callAt?_eq_some.mp hs)
  obtain ⟨counter, hmem, receiver, hreceiver, d, hd, hcounter, hresult⟩ := hacc rfl
  obtain ⟨i, hi⟩ := List.mem_iff_getElem?.mp hreceiver
  refine ⟨counter, hmem, i, receiver, hi, d, hd, hcounter, hresult, ?_⟩
  intro few
  -- whoever has the counter of the payload that was handed over is the call itself
  have hcall {a : Assignment} (ha : a ∈ log ++ more) (heq : a.delivery = d.delivery) :
      a = ⟨p.activities.length, payload, counter⟩ := by
    refine h'.sound.audited.numbered.eq_of_counter few ha hmem ?_
    rw [← hcounter, ← heq]
    rfl
  constructor
  · have hdel : d.delivery ∈ receiver.deliveries := List.mem_map_of_mem hd
    have hassigned := h'.sound.audited.handled receiver hreceiver _ hdel
    obtain ⟨a, ha, heq⟩ := List.mem_map.mp hassigned
    rw [← heq, hcall ha heq]
    rfl
  · refine mem_drop_handedOver h hR hi hd fun hold => ?_
    obtain ⟨a, ha, heq⟩ := List.mem_map.mp hold
    have hplace := placed a ha
    rw [hcall (List.mem_append_left more ha) heq] at hplace
    exact Nat.lt_irrefl _ hplace

/-- If a send of a client that asks for acknowledgments returns with success before the client is
closed, while the peers put nothing but acknowledgments on the links, then a receiver of a peer was
handed its payload in the course of the call, and has not refused it if it blocks on errors. -/
theorem delivered_of_sent_ok {config : Config} {handler : Handler} {client : Client}
    (made : Client.ofConfig config handler = .ok client) (acks : config.withAcknowledge = true)
    (before after : List Event) (payload : Bytes)
    (quiet : ∀ e ∈ before ++ .send payload :: after, e.Quiet)
    (ok : ((start client).applyAll (before ++ .send payload :: after)).sent?
      ((start client).applyAll before).activities.length = some (.ok ()))
    (isOpen : ((start client).applyAll
      (before ++ .send payload :: after)).client.cancel.closed = false) :
    DeliveredSince ((start client).applyAll before)
      ((start client).applyAll (before ++ .send payload :: after))
      ((start client).ledger (before ++ .send payload :: after)) payload := by
  have hreliable {events : List Event} (hquiet : ∀ e ∈ events, e.Quiet)
      (hopen : ((start client).applyAll events).client.cancel.closed = false) :
      ((start client).applyAll events).Reliable ((start client).ledger events) := by
    refine collect_invariant
      (fun (p : Exchange) log => p.client.cancel.closed = false → p.Reliable log)
      (fun p log e he h => reliable_apply he h) (along_of_forall apply hquiet _)
      (fun _ => reliable_start made acks) hopen
  have hfinal := hreliable quiet isOpen
  have hbefore : ((start client).applyAll before).client.cancel.closed = false := by
    cases hclosed : ((start client).applyAll before).client.cancel.closed with
    | false => rfl
    | true =>
      have hlater := closed_applyAll hclosed (.send payload :: after)
      rw [← applyAll_append, isOpen] at hlater
      cases hlater
  have hfirst := hreliable (fun e he => quiet e (List.mem_append_left _ he)) hbefore
  obtain ⟨s, hs, hdone⟩ := sent?_eq_some.mp ok
  rw [ledger, collect_append] at hfinal ⊢
  rw [applyAll_append] at hfinal hs ⊢
  have hpayload : s.payload = payload := payload_of_callAt? hs
  obtain rfl : s = ⟨payload, .done (.ok ())⟩ := by rw [← hpayload, ← hdone]
  exact hfirst.deliveredSince hfinal (grow_applyAll _ _).2 (fun _ => place_lt_of_mem_ledger) hs

/-- A client with the settings that hold unless others are given. -/
def plain : Client where
  address := "localhost:22111"
  retry := 5000
  sender := { withAcknowledge := true }
  receiver := { handler := .accepting, blockOnError := false, retry := 5000 }

def attached : List Event :=
  [.attach { handler := .accepting, blockOnError := true, retry := 1000 }]

/-- The first connection takes the frame and is lost; the client dials again, and the receiver
reads the second connection. -/
def redial : List Event :=
  [.move 0 0, .move 0 0, .move 0 0, .move 0 0, .move 0 0,
    .answer 0 (some ({ id := "near", isOpen := true }, { id := "far", isOpen := true })),
    .move 0 0, .move 0 0, .move 0 0, .move 0 0, .disconnect 1,
    .occur 0 (.arrive [.failure .closedByPeer]), .move 0 0, .move 0 0, .move 0 0, .move 0 0,
    .move 0 0, .move 0 0, .move 0 0, .move 0 0,
    .answer 0 (some ({ id := "near2", isOpen := true }, { id := "far2", isOpen := true })),
    .move 0 0, .move 0 0, .move 0 0, .move 0 0, .listen 0 3, .move 1 0, .move 1 0, .move 1 0,
    .move 1 0, .move 0 0]

/-- What is sent again is delivered. -/
theorem delivered_redial :
    ((start plain).applyAll (attached ++ .send [120] :: redial)).sent? 0 = some (.ok ()) ∧
      DeliveredSince ((start plain).applyAll attached)
        ((start plain).applyAll (attached ++ .send [120] :: redial))
        ((start plain).ledger (attached ++ .send [120] :: redial)) [120] := by
  have made : Client.ofConfig {} .accepting = .ok plain := rfl
  refine ⟨rfl, delivered_of_sent_ok made rfl attached redial [120] ?_ rfl rfl⟩
  simp [attached, redial, Event.Quiet, Occurrence.Quiet, Inbound.message?, Connection.messages]

end Exchange

end BlockFeed
