import BlockFeed.Proofs.Client.Standing

/-!
# Progress of a client

Who can be held up in a client, and by what. Nothing but a dial that is out, a pause, an
acknowledgment or a message that has not arrived holds a client up.

## Main definitions

* `Send.Unheard`: a send waits for acknowledgments, and there is nothing to read.
* `ClientActivity.Held`: how an activity of a client can be held up.
* `Exchange.Ongoing`: an activity can take a step, or waits for something that comes from outside.
* `Exchange.Queues`: an activity is in a line whose first is ongoing.
* `Exchange.InOrder`: the lines of a client and its pauses.

## Main results

* `ClientActivity.held_of_stuck`: an activity that cannot take a step is held up in one of these
  ways.
* `Exchange.InOrder.goesOn`: an activity is over, or it goes on, or it is in a line whose first
  does, or it reads.

## Design notes

There are two lines, one for the slot and one for the sender, and nobody is in both. Whoever is the
first in one of them is not held up by it, nor by the other one. So however many are in line, there
is somebody who can go on or waits for something that comes from outside.
-/

namespace BlockFeed

/-- The send waits for acknowledgments that have not arrived, and its sender is not closed. -/
def Send.Unheard (s : Sender) (w : Wire) (x : Send) : Prop :=
  s.cancel.closed = false ∧ ∃ counter waits failures, x.phase = .waiting counter waits failures ∧
    (∃ a ∈ waits, a.outcome = none) ∧ ∀ a ∈ waits, a.outcome = none → w.read? a.conn = none

namespace ClientActivity

variable {me now pick : Nat} {c c' : Client} {w w' : Wire} {a a' : ClientActivity}

/-- The end of a pause after a dial or an attempt to send that has failed. -/
def pause? : ClientActivity → Option Nat
  | .send s => s.deadline?
  | .listen (.obtaining o) => o.deadline?
  | .listen (.listening _ _) | .listen (.discarding _ _) | .listen .done | .close _ => none

/-- An activity that stands in the line for the slot, or has it, has nothing in hand of the
sender. -/
theorem stance_of_send? {x : Send} (h : a.send? = some x) : a.stance = .aside := by
  cases a with
  | send s =>
    obtain ⟨payload, phase⟩ := s
    cases phase with
    | sending => rfl
    | called | attempting | obtaining | discarding | pausing | done => cases h
  | listen | close => cases h

theorem of_finished (h : a.finished = true) : a.stance = .aside ∧ a.send? = none := by
  cases a with
  | send s =>
    obtain ⟨payload, phase⟩ := s
    cases phase with
    | done => exact ⟨rfl, rfl⟩
    | called | attempting | obtaining | sending | discarding | pausing => cases h
  | listen l =>
    cases l with
    | done => exact ⟨rfl, rfl⟩
    | obtaining | listening | discarding => cases h
  | close x =>
    cases x with
    | done => exact ⟨rfl, rfl⟩
    | called | released | queued => cases h

/-- How an activity of a client can be held up. -/
inductive Held (me now : Nat) (c : Client) (w : Wire) (a : ClientActivity) : Prop where
  /-- It is over. -/
  | finished : a.finished = true → Held me now c w a
  /-- It is in line for the slot, and not the first. -/
  | slot : a.stance.InLine → c.line.head? ≠ some me → Held me now c w a
  /-- Its attempt is in the line of the sender, and not the first. -/
  | turn {x : Send} : a.send? = some x → x.InLine → c.sender.line.head? ≠ some me →
      Held me now c w a
  /-- Its dial is out. -/
  | dial : a.dialing = true → Held me now c w a
  /-- It pauses. -/
  | pause {deadline : Nat} : a.pause? = some deadline → now < deadline →
      c.cancel.closed = false → Held me now c w a
  /-- It waits for acknowledgments. -/
  | unheard {x : Send} : a.send? = some x → x.Unheard c.sender w → Held me now c w a
  /-- It waits for a message, or for the end of a pause of its receiver. -/
  | reads {r : Ref} {l : Listen} : a = .listen (.listening r l) →
      c.receiver.cancel.closed = false → Held me now c w a

theorem obtain_held {register : Bool} {o : Obtain} (proper : (∀ r, o ≠ .got r) ∧ o ≠ .refused)
    (h : o.step me now register c w = none) :
    (o.stance.InLine ∧ c.line.head? ≠ some me) ∨ o = .dialing ∨
      ∃ deadline, o = .pausing deadline ∧ now < deadline ∧ c.cancel.closed = false := by
  cases o with
  | queued =>
    refine .inl ⟨trivial, fun hhead => ?_⟩
    rw [Obtain.step, Client.holds, hhead] at h
    simp only [BEq.rfl, if_true] at h
    split at h
    · split at h <;> cases h
    · cases h
  | ready =>
    rw [Obtain.step] at h
    split at h <;> cases h
  | pausing deadline =>
    rw [Obtain.step] at h
    split at h
    · cases h
    · next hopen =>
      split at h
      · next hearly =>
        exact .inr (.inr ⟨deadline, rfl, hearly, Bool.eq_false_iff.mpr hopen⟩)
      · cases h
  | called => cases h
  | dialing => exact .inr (.inl rfl)
  | got r => exact absurd rfl (proper.1 r)
  | refused => exact absurd rfl proper.2

theorem discard_held {r : Ref} {d : Discard} (proper : d ≠ .done)
    (h : d.step me r c w = none) : (d.stance r).InLine ∧ c.line.head? ≠ some me := by
  cases d with
  | queued =>
    refine ⟨trivial, fun hhead => ?_⟩
    rw [Discard.step, Client.holds, hhead] at h
    simp only [BEq.rfl, if_true] at h
    cases h
  | called | cleared => cases h
  | done => exact absurd rfl proper

/-- A send that has nothing to do but to wait is not the first in line, or has not been heard. -/
theorem send_held {x : Send} {s : Sender} (proper : x.result? = none) (pends : x.Pends)
    (h : ∀ pick, x.step me pick s w = none) :
    (x.InLine ∧ s.line.head? ≠ some me) ∨ x.Unheard s w := by
  rcases Send.phase_of_step h with ⟨result, hp⟩ | ⟨hp, hhead⟩ |
    ⟨counter, waits, failures, hp, hwaits⟩
  · rw [Send.result?, hp] at proper
    cases proper
  · exact .inl ⟨by rw [Send.InLine, hp]; trivial, hhead⟩
  · obtain ⟨b, hb, hnone⟩ := pends counter waits failures hp
    have hopen : s.cancel.closed = false := by
      refine Bool.eq_false_iff.mpr fun hclosed => ?_
      cases (AckWait.step_of_closed hclosed hnone).symm.trans (hwaits b hb)
    refine .inr ⟨hopen, counter, waits, failures, hp, ⟨b, hb, hnone⟩, fun a ha hpending => ?_⟩
    exact AckWait.read?_eq_none_of_step (hwaits a ha) hpending hopen

theorem held_of_send {s : ClientSend} (proper : (send s).Proper)
    (pends : ∀ x ∈ s.send?, x.Pends) (h : ∀ pick, s.step me now pick c w = none) :
    (send s).Held me now c w := by
  obtain ⟨payload, phase⟩ := s
  have hzero := h 0
  cases phase with
  | called | attempting =>
    rw [ClientSend.step] at hzero
    dsimp only at hzero
    split at hzero <;> cases hzero
  | obtaining o =>
    rw [ClientSend.step] at hzero
    dsimp only at hzero
    split at hzero
    · next hnone =>
      rcases obtain_held proper hnone with
        ⟨hline, hhead⟩ | rfl | ⟨deadline, rfl, hearly, hopen⟩
      · exact .slot hline hhead
      · exact .dial rfl
      · exact .pause rfl hearly hopen
    · cases hzero
  | sending r x =>
    have hx (pick : Nat) : x.step me pick c.sender w = none := by
      have hpick := h pick
      rw [ClientSend.step] at hpick
      dsimp only at hpick
      split at hpick
      · assumption
      · cases hpick
    rcases send_held proper (pends x rfl) hx with ⟨hline, hhead⟩ | hunheard
    · exact .turn rfl hline hhead
    · exact .unheard rfl hunheard
  | discarding r d =>
    rw [ClientSend.step] at hzero
    dsimp only at hzero
    split at hzero
    · next hnone =>
      obtain ⟨hline, hhead⟩ := discard_held proper hnone
      exact .slot hline hhead
    · cases hzero
  | pausing deadline =>
    rw [ClientSend.step] at hzero
    dsimp only at hzero
    split at hzero
    · cases hzero
    · next hopen =>
      split at hzero
      · next hearly => exact .pause rfl hearly (Bool.eq_false_iff.mpr hopen)
      · cases hzero
  | done => exact .finished rfl

theorem held_of_listen {l : ClientListen} (proper : (listen l).Proper)
    (h : l.step me now pick c w = none) : (listen l).Held me now c w := by
  cases l with
  | obtaining o =>
    rw [ClientListen.step] at h
    split at h
    · next hnone =>
      rcases obtain_held proper hnone with
        ⟨hline, hhead⟩ | rfl | ⟨deadline, rfl, hearly, hopen⟩
      · exact .slot hline hhead
      · exact .dial rfl
      · exact .pause rfl hearly hopen
    · cases h
  | listening r l =>
    rw [ClientListen.step] at h
    split at h
    · next hnone =>
      rcases Listen.phase_of_step hnone with ⟨gone, hp⟩ | ⟨hopen, -⟩
      · simp [Proper, Listen.result?, hp] at proper
      · exact .reads rfl hopen
    · cases h
  | discarding r d =>
    rw [ClientListen.step] at h
    split at h
    · next hnone =>
      obtain ⟨hline, hhead⟩ := discard_held proper hnone
      exact .slot hline hhead
    · cases h
  | done => exact .finished rfl

theorem held_of_close {x : ClientClose} (h : x.step me c w = none) :
    (close x).Held me now c w := by
  cases x with
  | called =>
    rw [ClientClose.step] at h
    split at h <;> cases h
  | released => cases h
  | queued =>
    refine .slot trivial fun hhead => ?_
    rw [ClientClose.step, Client.holds, hhead] at h
    simp only [BEq.rfl, if_true] at h
    cases h
  | done => exact .finished rfl

/-- An activity of a client that cannot take a step is held up. -/
theorem held_of_stuck (proper : a.Proper) (pends : ∀ x ∈ a.send?, x.Pends)
    (h : ∀ pick, a.step me now pick c w = none) : a.Held me now c w := by
  cases a with
  | send s => exact held_of_send proper pends fun pick => Option.map_eq_none_iff.mp (h pick)
  | listen l => exact held_of_listen proper (Option.map_eq_none_iff.mp (h 0))
  | close x => exact held_of_close (Option.map_eq_none_iff.mp (h 0))

end ClientActivity

section Pauses

variable {me now pick : Nat} {c c' : Client} {w w' : Wire}

/-- No step leads to a pause while the connection is being obtained: a pause begins where a dial
has come to nothing. -/
theorem Obtain.deadline?_of_step {register : Bool} {o o' : Obtain}
    (h : o.step me now register c w = some (c', o')) : o'.deadline? = none := by
  cases o with
  | called =>
    obtain ⟨-, rfl⟩ := Option.some.inj h
    rfl
  | queued =>
    rw [step] at h
    split at h
    · split at h
      · split at h <;> obtain ⟨-, rfl⟩ := Prod.mk.inj (Option.some.inj h) <;> rfl
      · obtain ⟨-, rfl⟩ := Option.some.inj h
        rfl
    · cases h
  | ready =>
    rw [step] at h
    split at h <;> obtain ⟨-, rfl⟩ := Option.some.inj h <;> rfl
  | pausing deadline =>
    rw [step] at h
    split at h
    · obtain ⟨-, rfl⟩ := Option.some.inj h
      rfl
    · split at h
      · cases h
      · obtain ⟨-, rfl⟩ := Option.some.inj h
        rfl
  | dialing | got | refused => cases h

theorem ClientSend.deadline?_afterObtain (payload : Bytes) (o : Obtain) :
    deadline? ⟨payload, afterObtain payload o⟩ = o.deadline? := by
  cases o <;> rfl

theorem ClientListen.pause?_afterObtain (o : Obtain) :
    (ClientActivity.listen (afterObtain o)).pause? = o.deadline? := by
  cases o <;> rfl

/-- A pause that a step of a send leads to lasts for the retry interval. -/
theorem ClientSend.deadline?_of_step {s s' : ClientSend} {deadline : Nat}
    (h : s.step me now pick c w = some (c', w', s')) (hdeadline : s'.deadline? = some deadline) :
    deadline = now + c.retry := by
  obtain ⟨payload, phase⟩ := s
  cases phase with
  | called | attempting =>
    rw [step] at h
    dsimp only at h
    split at h <;> obtain ⟨-, -, rfl⟩ := Option.some.inj h <;> cases hdeadline
  | obtaining o =>
    rw [step] at h
    dsimp only at h
    split at h
    · cases h
    · next hstep =>
      obtain ⟨-, -, rfl⟩ := Option.some.inj h
      rw [deadline?_afterObtain, Obtain.deadline?_of_step hstep] at hdeadline
      cases hdeadline
  | sending r x =>
    rw [step] at h
    dsimp only at h
    split at h
    · cases h
    · next sender _ x' _ =>
      obtain ⟨-, -, rfl⟩ := Option.some.inj h
      rcases afterSend_cases now c.retry r x' with heq | ⟨-, heq⟩ | ⟨_, -, heq | heq | heq⟩ <;>
        rw [deadline?, heq] at hdeadline
      case inr.inr.inr.inr => exact (Option.some.inj hdeadline).symm
      all_goals cases hdeadline
  | discarding r d =>
    rw [step] at h
    dsimp only at h
    split at h
    · cases h
    · next d' _ =>
      obtain ⟨-, -, rfl⟩ := Option.some.inj h
      rcases afterDiscard_cases r d' with heq | heq <;> rw [deadline?, heq] at hdeadline <;>
        cases hdeadline
  | pausing =>
    rw [step] at h
    dsimp only at h
    split at h
    · obtain ⟨-, -, rfl⟩ := Option.some.inj h
      cases hdeadline
    · split at h
      · cases h
      · obtain ⟨-, -, rfl⟩ := Option.some.inj h
        cases hdeadline
  | done => cases h

/-- No step of the reading of a client leads to a pause of the client. -/
theorem ClientListen.pause?_of_step {l l' : ClientListen}
    (h : l.step me now pick c w = some (c', w', l')) :
    (ClientActivity.listen l').pause? = none := by
  cases l with
  | obtaining o =>
    rw [step] at h
    split at h
    · cases h
    · next hstep =>
      obtain ⟨-, -, rfl⟩ := Option.some.inj h
      rw [pause?_afterObtain, Obtain.deadline?_of_step hstep]
  | listening r l =>
    rw [step] at h
    split at h
    · cases h
    · obtain ⟨-, -, rfl⟩ := Option.some.inj h
      rw [afterListen]
      split
      · rfl
      · split <;> rfl
  | discarding r d =>
    rw [step] at h
    split at h
    · cases h
    · next d' _ =>
      obtain ⟨-, -, rfl⟩ := Option.some.inj h
      cases d' <;> rfl
  | done => cases h

/-- A pause begins with a step, or with the end of a dial, and lasts for the retry interval. -/
theorem ClientActivity.pause?_of_step {a a' : ClientActivity} {deadline : Nat}
    (h : a.step me now pick c w = some (c', w', a')) (hdeadline : a'.pause? = some deadline) :
    deadline = now + c.retry := by
  cases a with
  | send s =>
    obtain ⟨⟨_, _, s'⟩, hs, heq⟩ := Option.map_eq_some_iff.mp h
    obtain ⟨rfl, rfl, rfl⟩ := heq
    exact ClientSend.deadline?_of_step hs hdeadline
  | listen l =>
    obtain ⟨⟨_, _, l'⟩, hl, heq⟩ := Option.map_eq_some_iff.mp h
    obtain ⟨rfl, rfl, rfl⟩ := heq
    cases (ClientListen.pause?_of_step hl).symm.trans hdeadline
  | close x =>
    obtain ⟨⟨_, _, x'⟩, -, heq⟩ := Option.map_eq_some_iff.mp h
    obtain ⟨rfl, rfl, rfl⟩ := heq
    cases hdeadline

theorem ClientActivity.pause?_answerDial {a : ClientActivity} {dialed : Option Ref}
    {deadline : Nat} (hdialing : a.dialing = true)
    (hdeadline : (a.answerDial now dialed c w).2.pause? = some deadline) :
    deadline = now + c.retry := by
  rcases eq_of_dialing hdialing with ⟨payload, rfl⟩ | rfl <;> cases dialed with
  | none => exact (Option.some.inj hdeadline).symm
  | some r => cases hdeadline

/-- The end of a dial leaves the retry interval and, for whoever dials, the slot to the next. -/
theorem ClientActivity.frame_answerDial {a : ClientActivity} (hdialing : a.dialing = true)
    (now : Nat) (c : Client) (w : Wire) (r : Ref) :
    (a.answerDial now (some r) c w).1.retry = c.retry ∧
      (a.answerDial now (some r) c w).1.line = c.line.tail ∧
      (a.answerDial now (some r) c w).2.stance = .aside := by
  rcases eq_of_dialing hdialing with ⟨payload, rfl⟩ | rfl
  · obtain ⟨halike, -, hline⟩ := Obtain.finish_frame true r { c with slot := some r } w
    exact ⟨halike.retry, hline, rfl⟩
  · obtain ⟨halike, -, hline⟩ := Obtain.finish_frame false r { c with slot := some r } w
    exact ⟨halike.retry, hline, rfl⟩

end Pauses

namespace Exchange

variable {p p' : Exchange} {e : Event} {place : Nat} {a : ClientActivity}

theorem move_eq_none_iff (ha : p.clientAt? place = some a) {pick : Nat} :
    p.move place pick = none ↔ a.step place p.now pick p.client p.wire = none := by
  rw [move, clientAt?_eq_some.mp ha]
  exact Option.map_eq_none_iff

/-- The lines of the client hold those who stand in them, and no pause is longer than the retry
interval. -/
structure InOrder (p : Exchange) : Prop where
  slot : InTurn p.client.line p.stance Stance.InLine Stance.HasSlot
  standing : p.Standing
  pauses : ∀ place a, p.clientAt? place = some a →
    ∀ deadline ∈ a.pause?, deadline ≤ p.now + p.client.retry

/-- The activity at a place can take a step, or it waits for something that comes from outside: the
end of its dial, the end of a pause while the client is not closed, or acknowledgments. -/
inductive Ongoing (p : Exchange) (place : Nat) : Prop where
  | moves {a : ClientActivity} {pick : Nat} : p.clientAt? place = some a →
      p.move place pick ≠ none → Ongoing p place
  | dials {a : ClientActivity} : p.clientAt? place = some a → a.dialing = true → Ongoing p place
  | pauses {a : ClientActivity} {deadline : Nat} : p.clientAt? place = some a →
      a.pause? = some deadline → p.now < deadline → deadline ≤ p.now + p.client.retry →
      p.client.cancel.closed = false → Ongoing p place
  | unheard {x : Send} : p.sendAt? place = some x → x.Unheard p.client.sender p.wire →
      Ongoing p place

/-- The activity at a place is in a line, for the slot or for its turn with the sender, whose first
goes on. -/
def Queues (p : Exchange) (place : Nat) : Prop :=
  ∃ first, first ≠ place ∧ p.Ongoing first ∧
    (place ∈ p.client.line ∧ p.client.line.head? = some first ∨
      place ∈ p.client.sender.line ∧ p.client.sender.line.head? = some first)

theorem now_le_apply (p : Exchange) (e : Event) : p.now ≤ (p.apply e).now := by
  cases e with
  | move place pick =>
    have hmoved := p.moved_apply place pick
    generalize p.apply (.move place pick) = p' at hmoved
    cases hmoved <;> exact Nat.le_refl _
  | answer place ends =>
    have hanswered := p.answered_apply place ends
    generalize p.apply (.answer place ends) = p' at hanswered
    cases hanswered <;> exact Nat.le_refl _
  | elapse duration => exact Nat.le_add_right _ _
  | occur | disconnect | attach | listen | closePeer | send | read | close => exact Nat.le_refl _

/-- Nothing changes the retry interval of the client. -/
theorem Effect.retry (h : p.Effect e p') : p'.client.retry = p.client.retry := by
  cases h with
  | step _ _ hstep => exact (ClientActivity.client_step hstep).retry
  | link _ _ hdialing _ hclient =>
    rw [hclient]
    exact (ClientActivity.frame_answerDial hdialing _ _ _ _).1
  | fail _ _ _ _ hclient | begin _ hclient | around _ _ hclient => rw [hclient]

/-- Whatever happens, the line for the slot holds those who stand in it. -/
theorem Effect.inTurn (h : p.Effect e p')
    (slot : InTurn p.client.line p.stance Stance.InLine Stance.HasSlot) :
    InTurn p'.client.line p'.stance Stance.InLine Stance.HasSlot := by
  have hdials {q : Nat} {b : ClientActivity} (hb : p.clientAt? q = some b)
      (hdialing : b.dialing = true) : p.stance q = .dials :=
    (stance_of_clientAt? hb).trans (ClientActivity.stance_eq_dials_iff.mpr hdialing)
  cases h with
  | step _ ha hstep hset =>
    rw [stance_of_set ha hset]
    have hclient := ClientActivity.client_step hstep
    rw [← stance_of_clientAt? ha] at hclient
    exact hclient.inTurn slot
  | @link place near far a _ ha hdialing _ hclient hset =>
    obtain ⟨-, hline, haside⟩ := ClientActivity.frame_answerDial hdialing p.now p.client p'.wire
      (Exchange.link p.wire near far).1
    rw [stance_of_set ha hset, hclient, hline, haside]
    exact slot.leave (slot.first place (by rw [hdials ha hdialing]; trivial)) id id
  | @fail place a _ ha hdialing _ hclient hset =>
    have hst := hdials ha hdialing
    have hholds : (a.answerDial p.now none p.client p.wire).2.stance = .holds := by
      rcases ClientActivity.eq_of_dialing hdialing with ⟨payload, rfl⟩ | rfl <;> rfl
    rw [stance_of_set ha hset, hclient, hholds]
    exact slot.stay (by rw [hst]; exact Iff.rfl) fun _ => slot.first place (by rw [hst]; trivial)
  | begin hbegun hclient _ happend =>
    rw [stance_of_begin hbegun happend, hclient]
    exact slot
  | around _ _ hclient _ _ hclients =>
    have hsame : p'.stance = p.stance := by
      funext q
      rw [stance, hclients, stance]
    rw [hsame, hclient]
    exact slot

namespace InOrder

theorem apply (h : p.InOrder) (e : Event) : (p.apply e).InOrder where
  slot := (p.effect_apply e).inTurn h.slot
  standing := h.standing.apply e
  pauses place a ha deadline hdeadline := by
    have heffect := p.effect_apply e
    have hnow := p.now_le_apply e
    have hretry := heffect.retry
    refine heffect.forall_clientAt?
      (P := fun b => ∀ deadline ∈ b.pause?, deadline ≤ (p.apply e).now + (p.apply e).client.retry)
      ?_ ?_ ?_ ?_ ha deadline hdeadline
    · intro q b hb deadline hdeadline
      have := h.pauses q b hb deadline hdeadline
      omega
    · intro q pick b b' _ hstep deadline hdeadline
      have := ClientActivity.pause?_of_step hstep hdeadline
      omega
    · intro b hdialing dialed w deadline hdeadline
      have := ClientActivity.pause?_answerDial hdialing hdeadline
      omega
    · intro b hbegun deadline hdeadline
      cases e with
      | send | read | close =>
        obtain rfl := Option.some.inj hbegun
        cases hdeadline
      | move | answer | elapse | occur | disconnect | attach | listen | closePeer => cases hbegun

theorem applyAll (h : p.InOrder) (events : List Event) : (p.applyAll events).InOrder := by
  induction events generalizing p with
  | nil => exact h
  | cons e rest ih => exact ih (h.apply e)

/-- An activity is held up, or it can take a step. -/
theorem held_or_ongoing (h : p.InOrder) (ha : p.clientAt? place = some a) :
    a.Held place p.now p.client p.wire ∨ p.Ongoing place := by
  by_cases hstuck : ∀ pick, p.move place pick = none
  · refine .inl (ClientActivity.held_of_stuck (h.standing.proper place a ha)
      (fun x hx => h.standing.lined.pends place x ?_)
      fun pick => (move_eq_none_iff ha).mp (hstuck pick))
    rw [sendAt?_eq, ha]
    exact hx
  · obtain ⟨pick, hmoves⟩ := Classical.not_forall.mp hstuck
    exact .inr (.moves ha hmoves)

/-- Whoever is the first in line for the slot goes on. -/
theorem ongoing_of_slot (h : p.InOrder) (ha : p.clientAt? place = some a)
    (first : p.client.line.head? = some place) (hline : a.stance.InLine) : p.Ongoing place := by
  rcases h.held_or_ongoing ha with hheld | hongoing
  · cases hheld with
    | finished hdone =>
      rw [(ClientActivity.of_finished hdone).1] at hline
      exact hline.elim
    | slot _ hhead => exact absurd first hhead
    | dial hdialing => exact .dials ha hdialing
    | pause hpause hearly hopen =>
      exact .pauses ha hpause hearly (h.pauses place a ha _ hpause) hopen
    | turn hx | unheard hx =>
      rw [ClientActivity.stance_of_send? hx] at hline
      exact hline.elim
    | reads hlistens =>
      rw [hlistens] at hline
      exact hline.elim
  · exact hongoing

/-- Whoever has the turn with the sender goes on. -/
theorem ongoing_of_turn (h : p.InOrder) {x : Send} (hx : p.sendAt? place = some x)
    (first : p.client.sender.line.head? = some place) : p.Ongoing place := by
  obtain ⟨a, ha, hsend⟩ := Option.bind_eq_some_iff.mp ((p.sendAt?_eq place).symm.trans hx)
  rcases h.held_or_ongoing ha with hheld | hongoing
  · cases hheld with
    | finished hdone => cases (ClientActivity.of_finished hdone).2.symm.trans hsend
    | slot hslot =>
      rw [ClientActivity.stance_of_send? hsend] at hslot
      exact hslot.elim
    | turn _ _ hhead => exact absurd first hhead
    | dial hdialing => exact .dials ha hdialing
    | pause hpause hearly hopen =>
      exact .pauses ha hpause hearly (h.pauses place a ha _ hpause) hopen
    | unheard hy hunheard =>
      obtain rfl := Option.some.inj (hsend.symm.trans hy)
      exact .unheard hx hunheard
    | reads hlistens =>
      rw [hlistens] at hsend
      cases hsend
  · exact hongoing

/-- An activity is over, or it goes on, or it is in a line whose first does; or it reads, and its
receiver is not closed. -/
theorem goesOn (h : p.InOrder) (ha : p.clientAt? place = some a) :
    a.finished = true ∨ p.Ongoing place ∨ p.Queues place ∨
      ∃ r l, a = .listen (.listening r l) ∧ p.client.receiver.cancel.closed = false := by
  have hsend {x : Send} (hx : a.send? = some x) : p.sendAt? place = some x := by
    rw [sendAt?_eq, ha]
    exact hx
  rcases h.held_or_ongoing ha with hheld | hongoing
  · cases hheld with
    | finished hdone => exact .inl hdone
    | slot hline hhead =>
      rw [← stance_of_clientAt? ha] at hline
      obtain ⟨first, hfirst, hstands⟩ := h.slot.exists_first hline
      have hne : first ≠ place := fun heq => hhead (heq ▸ hfirst)
      refine .inr (.inr (.inl ⟨first, hne, ?_, .inl ⟨(h.slot.mem place).mpr hline, hfirst⟩⟩))
      cases hb : p.clientAt? first with
      | none =>
        rw [stance, hb] at hstands
        exact hstands.elim
      | some b =>
        rw [stance_of_clientAt? hb] at hstands
        exact h.ongoing_of_slot hb hfirst hstands
    | @turn x hx hline hhead =>
      have hlined := h.standing.lined.inTurn
      have hstands : ∃ y ∈ p.sendAt? place, y.InLine := ⟨x, hsend hx, hline⟩
      obtain ⟨first, hfirst, y, hy, -⟩ := hlined.exists_first hstands
      have hne : first ≠ place := fun heq => hhead (heq ▸ hfirst)
      exact .inr (.inr (.inl ⟨first, hne, h.ongoing_of_turn hy hfirst,
        .inr ⟨(hlined.mem place).mpr hstands, hfirst⟩⟩))
    | dial hdialing => exact .inr (.inl (.dials ha hdialing))
    | pause hpause hearly hopen =>
      exact .inr (.inl (.pauses ha hpause hearly (h.pauses place _ ha _ hpause) hopen))
    | unheard hx hunheard => exact .inr (.inl (.unheard (hsend hx) hunheard))
    | reads hlistens hopen => exact .inr (.inr (.inr ⟨_, _, hlistens, hopen⟩))
  · exact .inr (.inl hongoing)

end InOrder

end Exchange

end BlockFeed
