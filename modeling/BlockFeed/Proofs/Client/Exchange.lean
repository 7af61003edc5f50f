import BlockFeed.Proofs.Client.Moves
import BlockFeed.Proofs.Run
import BlockFeed.Proofs.Sender.Ledger

/-!
# Exchanges

A client and the peers that it reaches by dialing, with everything that may happen to them in any
order.

## Main definitions

* `Exchange`: the client, the receivers of the peers, the wire, the clock and the activities.
* `Exchange.Event`, `Exchange.apply`: everything that may happen.
* `Exchange.ledger`: what the sender of the client assigns in the course of a run.

## Design notes

A dial that is out comes to its end at any time: with a new connection, whose other end is a new
connection for the peers, or with none. Both ends may be in any state; a peer may read any
connection, and may also leave it unread. Nothing keeps connections from failing, closing or
opening again.
-/

namespace BlockFeed

/-- An activity of an exchange. -/
inductive ExchangeActivity where
  | client (a : ClientActivity)
  /-- A receiver of a peer reads a connection. -/
  | peer (receiver : Nat) (l : Listen)

/-- A client and its peers. -/
structure Exchange where
  client : Client
  peers : List Receiver := []
  wire : Wire := {}
  /-- The time, in milliseconds. -/
  now : Nat := 0
  /-- The activities, from the first that began to the last. -/
  activities : List ExchangeActivity := []

namespace ClientSend

/-- What a send of a client has in hand of the sender. -/
def send? (s : ClientSend) : Option Send :=
  match s.phase with
  | .sending _ x => some x
  | _ => none

variable {me now pick : Nat} {c c' : Client} {w w' : Wire} {s s' : ClientSend}

theorem taken_between (h : s.send? = none ∨ s'.send? = none) :
    Ledger.taken me s.send? s'.send? = [] := by
  rcases h with h | h
  · rw [h]
    rfl
  · rw [h, Ledger.taken_none]

/-- What a step of an attempt takes is what the send of the client takes in it. -/
theorem taken_afterSend {r : Ref} {x x' : Send} (hp : s.phase = .sending r x) (retry : Nat) :
    Ledger.taken me s.send? (send? { s with phase := afterSend now retry r x' })
      = Ledger.taken me (some x) (some x') := by
  have hx : s.send? = some x := by rw [send?, hp]
  rcases afterSend_cases now retry r x' with heq | ⟨hdone, heq⟩ | ⟨e, hdone, heq | heq | heq⟩
  · rw [heq, hx]
    rfl
  all_goals
    rw [heq, Ledger.taken_of_done hdone]
    exact Ledger.taken_none me _

/-- What a step of a send assigns carries the next number. -/
theorem Move.numbered {log : Ledger} (h : Move me now pick c w s c' w' s')
    (numbered : log.Numbered) (last : c.sender.lastCounter = UInt64.ofNat log.length) :
    (log ++ Ledger.taken me s.send? s'.send?).Numbered ∧
      c'.sender.lastCounter = UInt64.ofNat (log ++ Ledger.taken me s.send? s'.send?).length := by
  cases h with
  | refuse | attempt | call =>
    rw [taken_between (.inr (by rfl)), List.append_nil]
    exact ⟨numbered, last⟩
  | obtain hp htends | discard hp htends =>
    rw [taken_between (.inl (by rw [send?, hp])), List.append_nil]
    exact ⟨numbered, htends.lastCounter.trans last⟩
  | send hp hmove =>
    rw [taken_afterSend hp]
    exact hmove.numbered numbered last

end ClientSend

namespace Exchange

/-- Everything that may happen in an exchange. -/
inductive Event where
  /-- An activity takes a step, if it can. -/
  | move (place pick : Nat)
  /-- A dial of an activity comes to its end, with both ends of a new link or without. -/
  | answer (place : Nat) (link : Option (Connection × Connection))
  | elapse (duration : Nat)
  | occur (r : Ref) (o : Occurrence)
  | disconnect (r : Ref)
  | attach (r : Receiver)
  /-- A receiver of a peer is to read a connection. -/
  | listen (receiver : Nat) (r : Ref)
  /-- A receiver of a peer is closed. -/
  | closePeer (receiver : Nat)
  /-- The client is to send a payload. -/
  | send (payload : Bytes)
  | read
  | close

/-- One step of the activity at a place, doing the thing at `pick` where it may do several. -/
def move (p : Exchange) (place pick : Nat) : Option Exchange :=
  match p.activities[place]? with
  | some (.client a) =>
    (a.step place p.now pick p.client p.wire).map fun (client, wire, a) =>
      { p with client, wire, activities := p.activities.set place (.client a) }
  | some (.peer i l) =>
    match p.peers[i]? with
    | none => none
    | some r =>
      (l.step p.now pick r p.wire).map fun (r, wire, l) =>
        { p with
          peers := p.peers.set i r
          wire
          activities := p.activities.set place (.peer i l) }
  | none => none

/-- A new link: its near end, and the wire with both ends. -/
def link (w : Wire) (near far : Connection) : Ref × Wire :=
  let (w, r) := w.add near
  let (w, f) := w.add far
  (r, w.join r f)

/-- The end of the dial that the activity at a place has out, if it has. -/
def answer (p : Exchange) (place : Nat) (ends : Option (Connection × Connection)) : Exchange :=
  match p.activities[place]? with
  | some (.client a) =>
    if a.dialing then
      match ends with
      | some (near, far) =>
        let (r, wire) := link p.wire near far
        let (client, a) := a.answerDial p.now (some r) p.client wire
        { p with client, wire, activities := p.activities.set place (.client a) }
      | none =>
        let (client, a) := a.answerDial p.now none p.client p.wire
        { p with client, activities := p.activities.set place (.client a) }
    else p
  | _ => p

def begin (p : Exchange) (a : ExchangeActivity) : Exchange :=
  { p with activities := p.activities ++ [a] }

def apply (p : Exchange) : Event → Exchange
  | .move place pick => (p.move place pick).getD p
  | .answer place ends => p.answer place ends
  | .elapse duration => { p with now := p.now + duration }
  | .occur r o => { p with wire := p.wire.undergo r o }
  | .disconnect r => { p with wire := (p.wire.close r).2 }
  | .attach r => { p with peers := p.peers ++ [r] }
  | .listen receiver r => p.begin (.peer receiver ⟨r, .called⟩)
  | .closePeer receiver => { p with peers := p.peers.modify receiver (·.close) }
  | .send payload => p.begin (.client (.send ⟨payload, .called⟩))
  | .read => p.begin (.client (.listen (.obtaining .called)))
  | .close => p.begin (.client (.close .called))

def applyAll (p : Exchange) (events : List Event) : Exchange := events.foldl apply p

theorem applyAll_append (p : Exchange) (before after : List Event) :
    p.applyAll (before ++ after) = (p.applyAll before).applyAll after := List.foldl_append

def callAt? (p : Exchange) (place : Nat) : Option ClientSend :=
  match p.activities[place]? with
  | some (.client (.send s)) => some s
  | _ => none

/-- What the send of the client at a place has in hand of its sender. -/
def sendAt? (p : Exchange) (place : Nat) : Option Send := (p.callAt? place).bind (·.send?)

/-- The result of the send at a place, if it is done. -/
def sent? (p : Exchange) (place : Nat) : Option (Except SendError Unit) :=
  (p.callAt? place).bind (·.result?)

def assigned (p : Exchange) (e : Event) : Ledger :=
  match e with
  | .move place _ => Ledger.taken place (p.sendAt? place) ((p.apply e).sendAt? place)
  | _ => []

/-- What the sender of the client assigns in the course of a run. -/
def ledger (p : Exchange) (events : List Event) : Ledger := collect apply assigned p events

theorem callAt?_eq_some {p : Exchange} {place : Nat} {s : ClientSend} :
    p.callAt? place = some s ↔ p.activities[place]? = some (.client (.send s)) := by
  rw [callAt?]
  constructor
  · intro h
    split at h
    · next s' hs =>
      obtain rfl := Option.some.inj h
      exact hs
    · cases h
  · intro h
    rw [h]

/-- A move of a send of the client assigns what the send takes. -/
theorem assigned_send {p p' : Exchange} {place pick : Nat} {s s' : ClientSend}
    (happly : p.apply (.move place pick) = p') (hs : p.callAt? place = some s)
    (hs' : p'.callAt? place = some s') :
    p.assigned (.move place pick) = Ledger.taken place s.send? s'.send? := by
  rw [assigned, happly, sendAt?, sendAt?, hs, hs']
  rfl

theorem assigned_of_callAt?_none {p : Exchange} {place : Nat} (h : p.callAt? place = none)
    (pick : Nat) : p.assigned (.move place pick) = [] := by
  rw [assigned, sendAt?, h]
  rfl

theorem assigned_of_ne_move {p : Exchange} {e : Event} (he : ∀ place pick, e ≠ .move place pick) :
    p.assigned e = [] := by
  rw [assigned]
  exact he

/-- What is assigned is assigned to an activity that is there. -/
theorem place_lt_of_mem_assigned {p : Exchange} {e : Event} {a : Assignment}
    (h : a ∈ p.assigned e) : a.place < p.activities.length := by
  cases e with
  | move place pick =>
    obtain ⟨x, hx, -⟩ := Ledger.payload_of_mem_taken h
    obtain ⟨s, hs, -⟩ := Option.bind_eq_some_iff.mp hx
    rw [Ledger.place_of_mem_taken h]
    exact (List.getElem?_eq_some_iff.mp (callAt?_eq_some.mp hs)).1
  | _ => cases h

/-- What a move of the activity at a place does. -/
inductive Moved (p : Exchange) (place pick : Nat) : Exchange → Prop where
  /-- A send of the client takes a step. -/
  | send {s s' : ClientSend} {client : Client} {wire : Wire} :
      p.activities[place]? = some (.client (.send s)) →
      ClientSend.Move place p.now pick p.client p.wire s client wire s' →
      Moved p place pick
        { p with client, wire, activities := p.activities.set place (.client (.send s')) }
  /-- A reading of the client takes a step. -/
  | read {a a' : ClientListen} {client : Client} {wire : Wire} :
      p.activities[place]? = some (.client (.listen a)) →
      ClientListen.Move p.now p.client p.wire a client wire a' →
      Moved p place pick
        { p with client, wire, activities := p.activities.set place (.client (.listen a')) }
  /-- The client closes, or looks after its connection. -/
  | close {x x' : ClientClose} {client : Client} {wire : Wire} :
      p.activities[place]? = some (.client (.close x)) →
      (client.cancel.closed = true ∨ p.client.Tends p.wire client wire) →
      client.sender.withAcknowledge = p.client.sender.withAcknowledge ∧
        client.sender.lastCounter = p.client.sender.lastCounter →
      Moved p place pick
        { p with client, wire, activities := p.activities.set place (.client (.close x')) }
  /-- A reading of a peer takes a step. -/
  | peer {i : Nat} {l l' : Listen} {r r' : Receiver} {wire : Wire} :
      p.activities[place]? = some (.peer i l) → p.peers[i]? = some r →
      Listen.Move p.now r p.wire l r' wire l' →
      Moved p place pick
        { p with
          peers := p.peers.set i r'
          wire
          activities := p.activities.set place (.peer i l') }
  | stay : p.move place pick = none → Moved p place pick p

theorem moved_of_move {p p' : Exchange} {place pick : Nat} (h : p.move place pick = some p') :
    Moved p place pick p' := by
  rw [move] at h
  split at h
  · next a ha =>
    obtain ⟨⟨client, wire, a'⟩, hstep, rfl⟩ := Option.map_eq_some_iff.mp h
    cases a with
    | send s =>
      obtain ⟨⟨_, _, s'⟩, hs, heq⟩ := Option.map_eq_some_iff.mp hstep
      obtain ⟨rfl, rfl, rfl⟩ := heq
      exact .send ha (ClientSend.move_of_step hs)
    | listen l =>
      obtain ⟨⟨_, _, l'⟩, hl, heq⟩ := Option.map_eq_some_iff.mp hstep
      obtain ⟨rfl, rfl, rfl⟩ := heq
      exact .read ha (ClientListen.move_of_step hl)
    | close x =>
      obtain ⟨⟨_, _, x'⟩, hx, heq⟩ := Option.map_eq_some_iff.mp hstep
      obtain ⟨rfl, rfl, rfl⟩ := heq
      exact .close ha (ClientClose.tends_of_step hx) (ClientClose.sender_of_step hx)
  · next i l hl =>
    split at h
    · cases h
    next r hr =>
    obtain ⟨⟨r', wire, l'⟩, hstep, rfl⟩ := Option.map_eq_some_iff.mp h
    exact .peer hl hr (Listen.move_of_step hstep)
  · cases h

theorem moved_apply (p : Exchange) (place pick : Nat) :
    Moved p place pick (p.apply (.move place pick)) := by
  rw [apply]
  cases h : p.move place pick with
  | none => exact .stay h
  | some p' => exact moved_of_move h

/-- What the end of a dial does to the activity at a place. -/
inductive Answered (p : Exchange) (place : Nat) (ends : Option (Connection × Connection)) :
    Exchange → Prop where
  /-- The near end of a new link takes the slot, and the activity goes on with it. -/
  | linked {a a' : ClientActivity} {near far : Connection} {client : Client} :
      p.activities[place]? = some (.client a) → ends = some (near, far) →
      Client.Tends { p.client with slot := some (link p.wire near far).1 } (link p.wire near far).2
        client (link p.wire near far).2 →
      ((∃ payload, a = .send ⟨payload, .obtaining .dialing⟩ ∧
          a' = .send ⟨payload, .sending (link p.wire near far).1 ⟨payload, .called⟩⟩) ∨
        a = .listen (.obtaining .dialing) ∧
          a' = .listen (.listening (link p.wire near far).1 ⟨(link p.wire near far).1, .called⟩)) →
      Answered p place ends { p with
        client, wire := (link p.wire near far).2
        activities := p.activities.set place (.client a') }
  /-- The dial has failed, and there is a pause. -/
  | failed {a a' : ClientActivity} {deadline : Nat} : p.activities[place]? = some (.client a) →
      ((∃ payload, a = .send ⟨payload, .obtaining .dialing⟩ ∧
          a' = .send ⟨payload, .obtaining (.pausing deadline)⟩) ∨
        a = .listen (.obtaining .dialing) ∧ a' = .listen (.obtaining (.pausing deadline))) →
      Answered p place ends { p with activities := p.activities.set place (.client a') }
  | stay : Answered p place ends p

theorem answered_apply (p : Exchange) (place : Nat) (ends : Option (Connection × Connection)) :
    Answered p place ends (p.apply (.answer place ends)) := by
  rw [apply, answer]
  split
  · next a ha =>
    split
    · next hdialing =>
      rcases ClientActivity.eq_of_dialing hdialing with ⟨payload, rfl⟩ | rfl
      · split
        · exact .linked ha rfl (Obtain.tends_finish _ _ rfl) (.inl ⟨payload, rfl, rfl⟩)
        · exact .failed ha (.inl ⟨payload, rfl, rfl⟩)
      · split
        · exact .linked ha rfl (Obtain.tends_finish _ _ rfl) (.inr ⟨rfl, rfl⟩)
        · exact .failed ha (.inr ⟨rfl, rfl⟩)
    · exact .stay
  · exact .stay

/-- Only moves and ends of dials change an activity that is there, and only the one they are
about. -/
theorem activities_apply {p : Exchange} {place : Nat} {a : ExchangeActivity} {e : Event}
    (ha : p.activities[place]? = some a) (hmove : ∀ pick, e ≠ .move place pick)
    (hanswer : ∀ ends, e ≠ .answer place ends) : (p.apply e).activities[place]? = some a := by
  have hlt := (List.getElem?_eq_some_iff.mp ha).1
  cases e with
  | move q pick =>
    have hq : q ≠ place := fun heq => hmove pick (heq ▸ rfl)
    have hmoved := p.moved_apply q pick
    generalize p.apply (.move q pick) = p' at hmoved
    cases hmoved with
    | send | read | close | peer => exact (List.getElem?_set_ne hq).trans ha
    | stay => exact ha
  | answer q ends =>
    have hq : q ≠ place := fun heq => hanswer ends (heq ▸ rfl)
    have hanswered := p.answered_apply q ends
    generalize p.apply (.answer q ends) = p' at hanswered
    cases hanswered with
    | linked | failed => exact (List.getElem?_set_ne hq).trans ha
    | stay => exact ha
  | elapse | occur | disconnect | attach | closePeer => exact ha
  | listen | send | read | close => exact (List.getElem?_append_left hlt).trans ha

/-- What an event does to the send of the client at a place. -/
inductive Goes (p : Exchange) (place : Nat) (s : ClientSend) (e : Event) : ClientSend → Prop where
  | move {pick : Nat} {s' : ClientSend} {client : Client} {wire : Wire} : e = .move place pick →
      ClientSend.Move place p.now pick p.client p.wire s client wire s' → Goes p place s e s'
  /-- The connection that it has dialed is there. -/
  | linked (r : Ref) : (∀ pick, e ≠ .move place pick) → s.phase = .obtaining .dialing →
      Goes p place s e { s with phase := .sending r ⟨s.payload, .called⟩ }
  | failed (deadline : Nat) : (∀ pick, e ≠ .move place pick) → s.phase = .obtaining .dialing →
      Goes p place s e { s with phase := .obtaining (.pausing deadline) }
  | stay : (∀ pick, e = .move place pick → p.move place pick = none) → Goes p place s e s

theorem Goes.payload {p : Exchange} {place : Nat} {s s' : ClientSend} {e : Event}
    (h : p.Goes place s e s') : s'.payload = s.payload := by
  cases h with
  | move _ hmove => exact hmove.payload
  | linked | failed | stay => rfl

theorem goes_of_move {p : Exchange} {place : Nat} {s : ClientSend}
    (hs : p.activities[place]? = some (.client (.send s))) (pick : Nat) :
    ∃ s', (p.apply (.move place pick)).activities[place]? = some (.client (.send s')) ∧
      p.Goes place s (.move place pick) s' := by
  have hlt := (List.getElem?_eq_some_iff.mp hs).1
  have hmoved := p.moved_apply place pick
  generalize p.apply (.move place pick) = p' at hmoved
  cases hmoved with
  | @send t s' _ _ ht hmove =>
    obtain rfl : s = t := by
      have hboth := Option.some.inj (hs.symm.trans ht)
      exact ClientActivity.send.inj (ExchangeActivity.client.inj hboth)
    exact ⟨s', List.getElem?_set_self hlt, .move rfl hmove⟩
  | read ht | close ht | peer ht => cases Option.some.inj (hs.symm.trans ht)
  | stay hnone =>
    refine ⟨s, hs, .stay fun other heq => ?_⟩
    obtain ⟨-, rfl⟩ := Event.move.inj heq
    exact hnone

theorem goes_of_answer {p : Exchange} {place : Nat} {s : ClientSend}
    (hs : p.activities[place]? = some (.client (.send s)))
    (ends : Option (Connection × Connection)) :
    ∃ s', (p.apply (.answer place ends)).activities[place]? = some (.client (.send s')) ∧
      p.Goes place s (.answer place ends) s' := by
  have hlt := (List.getElem?_eq_some_iff.mp hs).1
  have hanswered := p.answered_apply place ends
  generalize p.apply (.answer place ends) = p' at hanswered
  cases hanswered with
  | stay => exact ⟨s, hs, .stay (by simp)⟩
  | linked ht _ _ hto =>
    have hboth := ExchangeActivity.client.inj (Option.some.inj (hs.symm.trans ht))
    rcases hto with ⟨payload, rfl, rfl⟩ | ⟨rfl, -⟩
    · obtain rfl := ClientActivity.send.inj hboth
      exact ⟨_, List.getElem?_set_self hlt, .linked _ (by simp) rfl⟩
    · cases hboth
  | failed ht hto =>
    have hboth := ExchangeActivity.client.inj (Option.some.inj (hs.symm.trans ht))
    rcases hto with ⟨payload, rfl, rfl⟩ | ⟨rfl, -⟩
    · obtain rfl := ClientActivity.send.inj hboth
      exact ⟨_, List.getElem?_set_self hlt, .failed _ (by simp) rfl⟩
    · cases hboth

/-- A send of the client stays in its place, whatever happens. -/
theorem goes_apply {p : Exchange} {place : Nat} {s : ClientSend} (hs : p.callAt? place = some s)
    (e : Event) : ∃ s', (p.apply e).callAt? place = some s' ∧ p.Goes place s e s' := by
  simp only [callAt?_eq_some] at hs ⊢
  by_cases hmove : ∃ pick, e = .move place pick
  · obtain ⟨pick, rfl⟩ := hmove
    exact goes_of_move hs pick
  have hmove : ∀ pick, e ≠ .move place pick := fun pick heq => hmove ⟨pick, heq⟩
  by_cases hanswer : ∃ ends, e = .answer place ends
  · obtain ⟨ends, rfl⟩ := hanswer
    exact goes_of_answer hs ends
  have hanswer : ∀ ends, e ≠ .answer place ends := fun ends heq => hanswer ⟨ends, heq⟩
  exact ⟨s, activities_apply hs hmove hanswer, .stay fun pick heq => absurd heq (hmove pick)⟩

theorem payload_applyAll {p : Exchange} {place : Nat} {s : ClientSend}
    (hs : p.callAt? place = some s) (events : List Event) :
    ∃ s', (p.applyAll events).callAt? place = some s' ∧ s'.payload = s.payload := by
  induction events generalizing p s with
  | nil => exact ⟨s, hs, rfl⟩
  | cons e rest ih =>
    obtain ⟨t, ht, hgoes⟩ := goes_apply hs e
    obtain ⟨s', hs', hpayload⟩ := ih ht
    exact ⟨s', hs', hpayload.trans hgoes.payload⟩

/-- A call goes on with the payload that it came with. -/
theorem payload_of_callAt? {p : Exchange} {payload : Bytes} {events : List Event} {s : ClientSend}
    (hs : (p.applyAll (.send payload :: events)).callAt? p.activities.length = some s) :
    s.payload = payload := by
  have hcall : (p.apply (.send payload)).callAt? p.activities.length = some ⟨payload, .called⟩ :=
    callAt?_eq_some.mpr List.getElem?_concat_length
  obtain ⟨t, ht, hpayload⟩ := payload_applyAll hcall events
  obtain rfl := Option.some.inj (hs.symm.trans ht)
  exact hpayload

/-- A send is done exactly if it has its result. -/
theorem sent?_eq_some {p : Exchange} {place : Nat} {result : Except SendError Unit} :
    p.sent? place = some result ↔ ∃ s, p.callAt? place = some s ∧ s.phase = .done result := by
  rw [sent?, Option.bind_eq_some_iff]
  refine exists_congr fun s => and_congr_right fun _ => ?_
  rw [ClientSend.result?]
  split
  · next hp => simp [hp]
  · next hnot =>
    constructor
    · intro h
      cases h
    · intro h
      exact absurd h (hnot result)

end Exchange

end BlockFeed
