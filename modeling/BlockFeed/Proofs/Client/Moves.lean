import BlockFeed.Proofs.Receiver.Moves
import BlockFeed.Proofs.Sender.Moves
import BlockFeed.Role.Client

/-!
# Moves of a client

Everything that one step of an activity of a client can do. Statements about clients follow these
cases and do not open the step functions again.

## Main definitions

* `Client.Tends`: what obtaining a connection, or giving one up, does to a client.
* `ClientSend.Move`, `ClientListen.Move`: what a step of an activity does.
-/

namespace BlockFeed

/-- A client is made with the settings of its configuration, and has done nothing. -/
theorem Client.eq_of_ofConfig {config : Config} {handler : Handler} {client : Client}
    (made : ofConfig config handler = .ok client) :
    client =
      { address := config.url
        retry := 1000 * config.retryDurationSecs.toNat
        sender := { withAcknowledge := config.withAcknowledge }
        receiver :=
          { handler
            blockOnError := config.blockingAckOnError
            retry := 1000 * config.retryDurationSecs.toNat } } := by
  rw [ofConfig] at made
  cases hvalid : config.validate with
  | error e =>
    rw [hvalid] at made
    cases made
  | ok u =>
    rw [hvalid] at made
    exact (Except.ok.inj made).symm

/-- What looking after the connection of a client does: at most the connection in the slot is
registered, connections may be unregistered and closed, and the slot may be emptied. Nothing is
written or read. -/
structure Client.Tends (c : Client) (w : Wire) (c' : Client) (w' : Wire) : Prop where
  withAcknowledge : c'.sender.withAcknowledge = c.sender.withAcknowledge
  lastCounter : c'.sender.lastCounter = c.sender.lastCounter
  senderCancel : c'.sender.cancel = c.sender.cancel
  senderLine : c'.sender.line = c.sender.line
  cancel : c'.cancel = c.cancel
  slot : c'.slot = c.slot ∨ c'.slot = none
  entries : ∀ e ∈ c'.sender.registry.entries, e ∈ c.sender.registry.entries ∨ c.slot = some e.2
  wire : w.Mute → w.Keeps w'
  still : w.Still w'

namespace Client.Tends

variable {c c' : Client} {w w' : Wire}

theorem refl (c : Client) (w : Wire) : c.Tends w c w where
  withAcknowledge := rfl
  lastCounter := rfl
  senderCancel := rfl
  senderLine := rfl
  cancel := rfl
  slot := .inl rfl
  entries := fun _ he => .inl he
  wire := fun _ => .refl w
  still := .refl w

theorem line (h : c.Tends w c' w') (line : List Nat) : c.Tends w { c' with line } w' :=
  { h with }

theorem register (c : Client) (w : Wire) {r : Ref} (hr : c.slot = some r) :
    c.Tends w (c.register w r) w := by
  rw [Client.register]
  split
  · exact .refl c w
  · refine { refl c w with entries := fun e he => ?_ }
    rcases Registry.mem_add he with he | rfl
    · exact .inl he
    · exact .inr hr

theorem empty (h : c.Tends w c' w') : c.Tends w { c' with slot := none } w' :=
  { h with slot := .inr rfl }

end Client.Tends

namespace Obtain

variable {me now : Nat} {register : Bool} {c c' : Client} {w : Wire} {o o' : Obtain}

theorem tends_finish (register : Bool) (w : Wire) {r : Ref} (hr : c.slot = some r) :
    c.Tends w (finish register r c w).1 w := by
  rw [finish]
  split
  · exact (Client.Tends.register c w hr).line _
  · exact (Client.Tends.refl c w).line _

/-- A step of obtaining the connection looks after it. A connection obtained without a dial is the
one in the slot, and only a client that was closed refuses to dial. -/
theorem of_step (h : o.step me now register c w = some (c', o')) :
    c.Tends w c' w ∧ (∀ r, o' = .got r → c.slot = some r) ∧
      (o' = .refused → c.cancel.closed = true) := by
  have hsame (line : List Nat) : c.Tends w { c with line } w := (Client.Tends.refl c w).line line
  cases o with
  | called =>
    obtain ⟨rfl, rfl⟩ := Option.some.inj h
    exact ⟨hsame _, nofun, nofun⟩
  | queued =>
    rw [step] at h
    split at h
    · split at h
      · next r hr =>
        split at h
        · obtain ⟨hfst, hsnd⟩ := Prod.mk.inj (Option.some.inj h)
          subst hfst hsnd
          refine ⟨tends_finish register w hr, fun q hq => ?_, nofun⟩
          rw [hr, Obtain.got.inj hq]
        · obtain ⟨rfl, rfl⟩ := Option.some.inj h
          exact ⟨.refl c w, nofun, nofun⟩
      · obtain ⟨rfl, rfl⟩ := Option.some.inj h
        exact ⟨.refl c w, nofun, nofun⟩
    · cases h
  | ready =>
    rw [step] at h
    split at h
    · next hclosed =>
      obtain ⟨rfl, rfl⟩ := Option.some.inj h
      exact ⟨hsame _, nofun, fun _ => hclosed⟩
    · obtain ⟨rfl, rfl⟩ := Option.some.inj h
      exact ⟨.refl c w, nofun, nofun⟩
  | pausing deadline =>
    rw [step] at h
    split at h
    · next hclosed =>
      obtain ⟨rfl, rfl⟩ := Option.some.inj h
      exact ⟨hsame _, nofun, fun _ => hclosed⟩
    · split at h
      · cases h
      · obtain ⟨rfl, rfl⟩ := Option.some.inj h
        exact ⟨.refl c w, nofun, nofun⟩
  | dialing | got r | refused => cases h

end Obtain

namespace Discard

theorem tends_drop (r : Ref) (c : Client) (w : Wire) : c.Tends w (drop r c w).1 (drop r c w).2 := by
  rw [drop]
  split
  · split
    · exact { Client.Tends.refl c w with
        wire := fun mute => Wire.keeps_close mute r
        still := w.still_close r }
    · exact .refl c w
  · next result sender wire hne heq =>
    have hkeeps := c.sender.keeps_closeAndRemove w (w.conn r).id
    have hwire (mute : w.Mute) := Sender.wire_closeAndRemove (s := c.sender) mute (w.conn r).id
    have hstill : w.Still (c.sender.closeAndRemove w (w.conn r).id).2.2 :=
      Registry.still_closeAndRemove (w.conn r).id
    rw [heq] at hkeeps hwire hstill
    exact ⟨hkeeps.withAcknowledge, hkeeps.lastCounter, hkeeps.cancel, hkeeps.line, rfl, .inl rfl,
      fun e he => .inl (hkeeps.entries.subset he), hwire, hstill⟩

theorem tends_of_step {me : Nat} {r : Ref} {c c' : Client} {w w' : Wire} {d d' : Discard}
    (h : d.step me r c w = some (c', w', d')) : c.Tends w c' w' := by
  cases d with
  | called =>
    obtain ⟨rfl, rfl, rfl⟩ := Option.some.inj h
    exact (Client.Tends.refl c w).line _
  | queued =>
    rw [step] at h
    split at h
    · obtain ⟨rfl, rfl, rfl⟩ := Option.some.inj h
      split
      · exact (Client.Tends.refl c w).empty.line _
      · exact (Client.Tends.refl c w).line _
    · cases h
  | cleared =>
    obtain ⟨rfl, rfl, rfl⟩ := Option.some.inj h
    exact tends_drop r c w
  | done => cases h

end Discard

namespace ClientSend

/-- What a step of a send does at a time. -/
inductive Move (me now pick : Nat) (c : Client) (w : Wire) (s : ClientSend) :
    Client → Wire → ClientSend → Prop where
  /-- There is no payload, or the client was closed. -/
  | refuse {e : SendError} : (s.phase = .called ∧ e = .emptyPayload) ∨
      (((s.phase = .attempting ∨ ∃ deadline, s.phase = .pausing deadline) ∧
        c.cancel.closed = true) ∧ e = .closed) → (e = .emptyPayload → s.payload = []) →
      Move me now pick c w s c w { s with phase := .done (.error e) }
  /-- An attempt is due. -/
  | attempt : (s.phase = .called ∨ ∃ deadline, s.phase = .pausing deadline) →
      Move me now pick c w s c w { s with phase := .attempting }
  /-- The connection is to be obtained. -/
  | call : s.phase = .attempting → c.cancel.closed = false →
      Move me now pick c w s c w { s with phase := .obtaining .called }
  /-- The connection is being obtained. -/
  | obtain {o o' : Obtain} {c' : Client} : s.phase = .obtaining o → c.Tends w c' w →
      (∀ r, o' = .got r → c.slot = some r) → (o' = .refused → c.cancel.closed = true) →
      Move me now pick c w s c' w { s with phase := afterObtain s.payload o' }
  /-- The attempt goes on. -/
  | send {r : Ref} {x x' : Send} {sender : Sender} {w' : Wire} : s.phase = .sending r x →
      Send.Move me pick c.sender w x sender w' x' →
      Move me now pick c w s { c with sender } w' { s with phase := afterSend now c.retry r x' }
  /-- The connection is being given up. -/
  | discard {r : Ref} {d d' : Discard} {c' : Client} {w' : Wire} : s.phase = .discarding r d →
      c.Tends w c' w' → Move me now pick c w s c' w' { s with phase := afterDiscard r d' }

theorem move_of_step {me now pick : Nat} {c c' : Client} {w w' : Wire} {s s' : ClientSend}
    (h : s.step me now pick c w = some (c', w', s')) : Move me now pick c w s c' w' s' := by
  rw [step] at h
  split at h
  · next hp =>
    split at h
    · next hempty =>
      obtain ⟨rfl, rfl, rfl⟩ := Option.some.inj h
      exact .refuse (.inl ⟨hp, rfl⟩) fun _ => by simpa using hempty
    · obtain ⟨rfl, rfl, rfl⟩ := Option.some.inj h
      exact .attempt (.inl hp)
  · next hp =>
    split at h
    · next hclosed =>
      obtain ⟨rfl, rfl, rfl⟩ := Option.some.inj h
      exact .refuse (.inr ⟨⟨.inl hp, hclosed⟩, rfl⟩) nofun
    · next hopen =>
      obtain ⟨rfl, rfl, rfl⟩ := Option.some.inj h
      exact .call hp (by simpa using hopen)
  · next o hp =>
    split at h
    · cases h
    · next c₁ o' hstep =>
      obtain ⟨rfl, rfl, rfl⟩ := Option.some.inj h
      obtain ⟨htends, hslot, hclosed⟩ := Obtain.of_step hstep
      exact .obtain hp htends hslot hclosed
  · next r x hp =>
    split at h
    · cases h
    · next sender w₁ x' hstep =>
      obtain ⟨rfl, rfl, rfl⟩ := Option.some.inj h
      exact .send hp (Send.move_of_step hstep)
  · next r d hp =>
    split at h
    · cases h
    · next c₁ w₁ d' hstep =>
      obtain ⟨rfl, rfl, rfl⟩ := Option.some.inj h
      exact .discard hp (Discard.tends_of_step hstep)
  · next deadline hp =>
    split at h
    · next hclosed =>
      obtain ⟨rfl, rfl, rfl⟩ := Option.some.inj h
      exact .refuse (.inr ⟨⟨.inr ⟨deadline, hp⟩, hclosed⟩, rfl⟩) nofun
    · split at h
      · cases h
      · obtain ⟨rfl, rfl, rfl⟩ := Option.some.inj h
        exact .attempt (.inr ⟨deadline, hp⟩)
  · cases h

/-- What follows from obtaining the connection: an attempt to send over it, the end, or more of
the same. -/
theorem afterObtain_cases (payload : Bytes) (o : Obtain) :
    (∃ r, o = .got r ∧ afterObtain payload o = .sending r ⟨payload, .called⟩) ∨
      afterObtain payload o = .done (.error .closed) ∨ afterObtain payload o = .obtaining o := by
  cases o with
  | got r => exact .inl ⟨r, rfl, rfl⟩
  | refused => exact .inr (.inl rfl)
  | called | queued | ready | dialing | pausing _ => exact .inr (.inr rfl)

/-- What follows from an attempt: more of the same, success, or anything but the end by closing. -/
theorem afterSend_cases (now retry : Nat) (r : Ref) (x : Send) :
    afterSend now retry r x = .sending r x ∨
      (x.phase = .done (.ok ()) ∧ afterSend now retry r x = .done (.ok ())) ∨
      ∃ e, x.phase = .done (.error e) ∧ (afterSend now retry r x = .done (.error .emptyPayload) ∨
        afterSend now retry r x = .discarding r .called ∨
        afterSend now retry r x = .pausing (now + retry)) := by
  rw [afterSend, Send.result?]
  split
  · exact .inl rfl
  · next hr =>
    split at hr
    · next result hp =>
      obtain rfl := Option.some.inj hr
      exact .inr (.inl ⟨hp, rfl⟩)
    · cases hr
  · next hr =>
    split at hr
    · next result hp =>
      obtain rfl := Option.some.inj hr
      exact .inr (.inr ⟨_, hp, .inl rfl⟩)
    · cases hr
  · next e _ hr =>
    split at hr
    · next result hp =>
      obtain rfl := Option.some.inj hr
      refine .inr (.inr ⟨e, hp, .inr ?_⟩)
      split
      · exact .inl rfl
      · exact .inr rfl
    · cases hr

/-- After an attempt that has failed, the connection is given up, or there is a pause. -/
theorem afterSend_of_error (now retry : Nat) (r : Ref) {x : Send} {e : SendError}
    (hx : x.phase = .done (.error e)) (he : e ≠ .emptyPayload) :
    afterSend now retry r x
      = if e.isConnectionClosed then .discarding r .called else .pausing (now + retry) := by
  rw [afterSend, Send.result?, hx]
  cases e with
  | emptyPayload => exact absurd rfl he
  | noConnections | allWritesFailed | closed => rfl

theorem afterDiscard_cases (r : Ref) (d : Discard) :
    afterDiscard r d = .attempting ∨ afterDiscard r d = .discarding r d := by
  cases d with
  | done => exact .inl rfl
  | called | queued | cleared => exact .inr rfl

theorem Move.payload {me now pick : Nat} {c c' : Client} {w w' : Wire} {s s' : ClientSend}
    (h : Move me now pick c w s c' w' s') : s'.payload = s.payload := by
  cases h <;> rfl

theorem Move.cancel {me now pick : Nat} {c c' : Client} {w w' : Wire} {s s' : ClientSend}
    (h : Move me now pick c w s c' w' s') : c'.cancel = c.cancel := by
  cases h with
  | obtain _ htends | discard _ htends => exact htends.cancel
  | refuse | attempt | call | send => rfl

/-- Sends do not change what was asked of the sender of the client. -/
theorem Move.settings {me now pick : Nat} {c c' : Client} {w w' : Wire} {s s' : ClientSend}
    (h : Move me now pick c w s c' w' s') :
    c'.sender.withAcknowledge = c.sender.withAcknowledge ∧
      c'.sender.cancel = c.sender.cancel := by
  cases h with
  | obtain _ htends | discard _ htends => exact ⟨htends.withAcknowledge, htends.senderCancel⟩
  | send _ hmove => exact hmove.settings
  | refuse | attempt | call => exact ⟨rfl, rfl⟩

end ClientSend

namespace ClientListen

/-- What a step of the reading does at a time. -/
inductive Move (now : Nat) (c : Client) (w : Wire) (a : ClientListen) :
    Client → Wire → ClientListen → Prop where
  /-- The connection is being obtained or given up; one that is obtained is in the slot. -/
  | tend {c' : Client} {w' : Wire} {a' : ClientListen} : c.Tends w c' w' →
      (∀ r l, a' = .listening r l → l = ⟨r, .called⟩ ∧ c.slot = some r) →
      Move now c w a c' w' a'
  /-- The connection is being read. -/
  | read {r : Ref} {l l' : Listen} {receiver : Receiver} {w' : Wire} : a = .listening r l →
      Listen.Move now c.receiver w l receiver w' l' →
      Move now c w a { c with receiver } w' (afterListen c.cancel.closed r l')

theorem move_of_step {me now pick : Nat} {c c' : Client} {w w' : Wire} {a a' : ClientListen}
    (h : a.step me now pick c w = some (c', w', a')) : Move now c w a c' w' a' := by
  cases a with
  | obtaining o =>
    rw [step] at h
    split at h
    · cases h
    · next c₁ o' hstep =>
      obtain ⟨rfl, rfl, rfl⟩ := Option.some.inj h
      obtain ⟨htends, hslot, -⟩ := Obtain.of_step hstep
      refine .tend htends fun r l hl => ?_
      cases o' with
      | got q =>
        obtain ⟨rfl, rfl⟩ := ClientListen.listening.inj hl
        exact ⟨rfl, hslot _ rfl⟩
      | called | queued | ready | dialing | pausing _ | refused => cases hl
  | listening r l =>
    rw [step] at h
    split at h
    · cases h
    · next receiver w₁ l' hstep =>
      obtain ⟨rfl, rfl, rfl⟩ := Option.some.inj h
      exact .read rfl (Listen.move_of_step hstep)
  | discarding r d =>
    rw [step] at h
    split at h
    · cases h
    · next c₁ w₁ d' hstep =>
      obtain ⟨rfl, rfl, rfl⟩ := Option.some.inj h
      refine .tend (Discard.tends_of_step hstep) fun r l hl => ?_
      cases d' <;> cases hl
  | done => cases h

/-- A reading that has a step has one at every pick. -/
theorem step_eq_none_iff {me now pick : Nat} {c : Client} {w : Wire} {a : ClientListen}
    (pick' : Nat) : a.step me now pick c w = none ↔ a.step me now pick' c w = none := by
  have hlistening (r : Ref) (l : Listen) (pick : Nat) :
      (ClientListen.listening r l).step me now pick c w = none ↔
        l.step now pick c.receiver w = none := by
    rw [step]
    split <;> simp [*]
  cases a with
  | listening r l =>
    rw [hlistening, hlistening]
    exact Listen.step_eq_none_iff pick'
  | obtaining | discarding | done => rw [step, step]

theorem Move.cancel {now : Nat} {c c' : Client} {w w' : Wire} {a a' : ClientListen}
    (h : Move now c w a c' w' a') : c'.cancel = c.cancel := by
  cases h with
  | tend htends => exact htends.cancel
  | read => rfl

end ClientListen

namespace ClientClose

theorem tends_emptySlot (c : Client) (w : Wire) :
    c.Tends w (emptySlot c w).1 (emptySlot c w).2 := by
  refine { (Client.Tends.refl c w).empty with wire := fun mute => ?_, still := ?_ }
  all_goals
    rw [emptySlot]
    dsimp only
  · split
    · split
      · exact Wire.keeps_close mute _
      · exact .refl w
    · exact .refl w
  · split
    · split
      · exact w.still_close _
      · exact .refl w
    · exact .refl w

/-- A step of closing closes the client, or only looks after its connection. -/
theorem tends_of_step {me : Nat} {c c' : Client} {w w' : Wire} {x x' : ClientClose}
    (h : x.step me c w = some (c', w', x')) : c'.cancel.closed = true ∨ c.Tends w c' w' := by
  cases x with
  | called =>
    rw [step] at h
    split at h
    · obtain ⟨rfl, rfl, rfl⟩ := Option.some.inj h
      exact .inr (.refl c w)
    · obtain ⟨rfl, rfl, rfl⟩ := Option.some.inj h
      exact .inl rfl
  | released =>
    obtain ⟨rfl, rfl, rfl⟩ := Option.some.inj h
    exact .inr ((Client.Tends.refl c w).line _)
  | queued =>
    rw [step] at h
    split at h
    · obtain ⟨rfl, rfl, rfl⟩ := Option.some.inj h
      exact .inr (tends_emptySlot c w)
    · cases h
  | done => cases h

/-- Closing leaves the counter of the sender, and whether it asks for acknowledgments. -/
theorem sender_of_step {me : Nat} {c c' : Client} {w w' : Wire} {x x' : ClientClose}
    (h : x.step me c w = some (c', w', x')) :
    c'.sender.withAcknowledge = c.sender.withAcknowledge ∧
      c'.sender.lastCounter = c.sender.lastCounter := by
  cases x with
  | called =>
    rw [step] at h
    split at h <;> obtain ⟨rfl, rfl, rfl⟩ := Option.some.inj h <;> exact ⟨rfl, rfl⟩
  | released =>
    obtain ⟨rfl, rfl, rfl⟩ := Option.some.inj h
    exact ⟨rfl, rfl⟩
  | queued =>
    rw [step] at h
    split at h
    · obtain ⟨rfl, rfl, rfl⟩ := Option.some.inj h
      exact ⟨rfl, rfl⟩
    · cases h
  | done => cases h

end ClientClose

/-- Only a send or a reading that obtains the connection has a dial out. -/
theorem ClientActivity.eq_of_dialing {a : ClientActivity} (h : a.dialing = true) :
    (∃ payload, a = .send ⟨payload, .obtaining .dialing⟩) ∨ a = .listen (.obtaining .dialing) := by
  unfold dialing at h
  split at h
  · next payload => exact .inl ⟨payload, rfl⟩
  · exact .inr rfl
  · cases h

end BlockFeed
