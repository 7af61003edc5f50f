import BlockFeed.Proofs.Client.Outcome
import BlockFeed.Proofs.Client.Standing

/-!
# Results under closing

What the results of the activities of a client tell about whether it was closed, and what closing it
makes of the sends that go on.

## Main definitions

* `ClientActivity.Truthful`: an activity does not end without reason.
* `ClientSend.Assured`: a send waits for acknowledgments, or has succeeded.
* `ClientSend.Refused`: a send was refused, or is about to be.

## Main results

* `Exchange.truthful_apply`: every event leaves all activities truthful.
* `Exchange.assured_applyAll`: after closing, a send that waits for acknowledgments succeeds.
* `Exchange.refused_applyAll`: after closing, a send that begins is refused.
-/

namespace BlockFeed

/-- The send waits for acknowledgments. -/
def Send.Awaits (x : Send) : Prop :=
  ∃ counter waits failures, x.phase = .waiting counter waits failures

/-- A send of a closed sender that waits for acknowledgments goes on with that, or succeeds. -/
theorem Send.Move.awaits {me pick : Nat} {s s' : Sender} {w w' : Wire} {x x' : Send}
    (h : Move me pick s w x s' w' x') (closed : s.cancel.closed = true) (hx : x.Awaits) :
    x'.Awaits ∨ x'.phase = .done (.ok ()) := by
  obtain ⟨counter, waits, failures, hwaiting⟩ := hx
  cases h with
  | wait => exact .inl ⟨_, _, _, rfl⟩
  | @conclude _ waits failures a _ _ _ _ ha hstep =>
    obtain ⟨-, -, -, rfl⟩ := (AckWait.move_of_step hstep).of_closed closed
    have hmem : { a with outcome := some .cancelled } ∈
        waits.set pick { a with outcome := some .cancelled } :=
      List.mem_set (List.getElem?_eq_some_iff.mp ha).1 _
    exact .inr (congrArg SendPhase.done (verdict_of_mem hmem rfl failures))
  | refuse hp | enqueue hp | abandon hp | start hp | accept hp | reject hp | fail hp | succeed hp
  | await hp => cases hwaiting.symm.trans hp

section Activities

variable {me now pick : Nat} {c c' : Client} {w w' : Wire}

namespace ClientSend

/-- A send that is done has succeeded, or the client was closed, or there was nothing to send. -/
def Truthful (closed : Prop) (s : ClientSend) : Prop :=
  match s.phase with
  | .sending _ x => x.payload = s.payload
  | .done result => result = .ok () ∨ (result = .error .closed ∧ closed) ∨
      (result = .error .emptyPayload ∧ s.payload = [])
  | .called | .attempting | .obtaining _ | .discarding _ _ | .pausing _ => True

theorem Truthful.mono {closed closed' : Prop} {s : ClientSend} (h : s.Truthful closed)
    (himp : closed → closed') : s.Truthful closed' := by
  rw [Truthful] at h ⊢
  split
  · next hp =>
    rw [hp] at h
    exact h
  · next hp =>
    rw [hp] at h
    exact h.imp_right (Or.imp_left (And.imp_right himp))
  all_goals trivial

theorem truthful_afterObtain {closed : Prop} (payload : Bytes) {o : Obtain}
    (refused : o = .refused → closed) : Truthful closed ⟨payload, afterObtain payload o⟩ := by
  cases o with
  | got => rfl
  | refused => exact .inr (.inl ⟨rfl, refused rfl⟩)
  | called | queued | ready | dialing | pausing => trivial

theorem truthful_afterSend {closed : Prop} {payload : Bytes} (now retry : Nat) (r : Ref) {x : Send}
    (hpayload : x.payload = payload)
    (hempty : x.phase = .done (.error .emptyPayload) → payload = []) :
    Truthful closed ⟨payload, afterSend now retry r x⟩ := by
  rcases afterSend_cases now retry r x with heq | ⟨-, heq⟩ | ⟨e, hdone, -⟩
  · rw [Truthful, heq]
    exact hpayload
  · rw [Truthful, heq]
    exact .inl rfl
  · by_cases he : e = .emptyPayload
    · subst he
      have heq : afterSend now retry r x = .done (.error .emptyPayload) := by
        rw [afterSend, Send.result?, hdone]
      rw [Truthful, heq]
      exact .inr (.inr ⟨rfl, hempty hdone⟩)
    · rw [afterSend_of_error now retry r hdone he]
      cases e.isConnectionClosed <;> trivial

theorem Move.truthful {s s' : ClientSend} (h : Move me now pick c w s c' w' s')
    (hs : s.Truthful (c.cancel.closed = true)) : s'.Truthful (c'.cancel.closed = true) := by
  rw [h.cancel]
  cases h with
  | refuse hwhy hnil =>
    rcases hwhy with ⟨-, rfl⟩ | ⟨⟨-, hclosed⟩, rfl⟩
    · exact .inr (.inr ⟨rfl, hnil rfl⟩)
    · exact .inr (.inl ⟨rfl, hclosed⟩)
  | attempt | call => trivial
  | obtain _ _ _ hrefused => exact truthful_afterObtain s.payload hrefused
  | @send r x x' _ _ hp hmove =>
    rw [Truthful, hp] at hs
    refine truthful_afterSend now c.retry r (hmove.payload.trans hs) fun hdone => ?_
    by_contra hne
    exact hmove.ne_emptyPayload (hs ▸ hne) hdone
  | @discard r d d' =>
    rcases afterDiscard_cases r d' with heq | heq <;> rw [Truthful, heq] <;> trivial

/-- It waits for acknowledgments. -/
def Awaits (s : ClientSend) : Prop := ∃ r x, s.phase = .sending r x ∧ x.Awaits

/-- It waits for acknowledgments, or has succeeded. -/
def Assured (s : ClientSend) : Prop := s.Awaits ∨ s.phase = .done (.ok ())

theorem Move.assured {s s' : ClientSend} (h : Move me now pick c w s c' w' s')
    (closed : c.sender.cancel.closed = true) (hs : s.Assured) : s'.Assured := by
  rcases hs with ⟨r, x, hsending, hawaits⟩ | hdone
  · cases h with
    | @send _ _ x' _ _ hp hmove =>
      obtain ⟨rfl, rfl⟩ := ClientSendPhase.sending.inj (hsending.symm.trans hp)
      rcases hmove.awaits closed hawaits with hstill | hdone
      · refine .inl ⟨r, x', ?_, hstill⟩
        obtain ⟨counter, waits, failures, hp'⟩ := hstill
        dsimp only
        rw [afterSend, Send.result?, hp']
      · right
        dsimp only
        rw [afterSend, Send.result?, hdone]
    | refuse hp =>
      rcases hp with ⟨hp, -⟩ | ⟨⟨hp | ⟨_, hp⟩, -⟩, -⟩ <;> cases hsending.symm.trans hp
    | attempt hp => rcases hp with hp | ⟨_, hp⟩ <;> cases hsending.symm.trans hp
    | call hp | obtain hp | discard hp => cases hsending.symm.trans hp
  · cases h with
    | refuse hp =>
      rcases hp with ⟨hp, -⟩ | ⟨⟨hp | ⟨_, hp⟩, -⟩, -⟩ <;> cases hdone.symm.trans hp
    | attempt hp => rcases hp with hp | ⟨_, hp⟩ <;> cases hdone.symm.trans hp
    | call hp | obtain hp | send hp | discard hp => cases hdone.symm.trans hp

/-- It was refused, or is about to be. -/
def Refused (s : ClientSend) : Prop :=
  match s.phase with
  | .called | .attempting => True
  | .done result => s.payload ≠ [] → result = .error .closed
  | .obtaining _ | .sending _ _ | .discarding _ _ | .pausing _ => False

theorem Move.refused {s s' : ClientSend} (h : Move me now pick c w s c' w' s')
    (closed : c.cancel.closed = true) (hs : s.Refused) : s'.Refused := by
  rw [Refused] at hs
  cases h with
  | refuse hwhy hnil =>
    rcases hwhy with ⟨-, rfl⟩ | ⟨-, rfl⟩
    · exact fun hne => absurd (hnil rfl) hne
    · exact fun _ => rfl
  | attempt => trivial
  | call _ hopen => exact absurd closed (by simp [hopen])
  | obtain hp | send hp | discard hp =>
    rw [hp] at hs
    exact hs.elim

end ClientSend

namespace ClientActivity

variable {a a' : ClientActivity}

/-- An activity does not end without reason: a send as above, a reading and all of closing but its
first step only once the client was closed. -/
def Truthful (closed : Prop) : ClientActivity → Prop
  | send s => s.Truthful closed
  | listen l =>
    match l with
    | .done => closed
    | .obtaining _ | .listening _ _ | .discarding _ _ => True
  | close x => x ≠ .called → closed

theorem Truthful.mono {closed closed' : Prop} (h : a.Truthful closed) (himp : closed → closed') :
    a.Truthful closed' := by
  cases a with
  | send s => exact ClientSend.Truthful.mono h himp
  | listen l =>
    cases l with
    | done => exact himp h
    | obtaining | listening | discarding => trivial
  | close x => exact fun hx => himp (h hx)

theorem truthful_listen {l l' : ClientListen} (h : l.step me now pick c w = some (c', w', l'))
    (receiver : c.receiver.cancel.closed = c.cancel.closed) :
    (listen l').Truthful (c.cancel.closed = true) := by
  cases l with
  | obtaining o =>
    rw [ClientListen.step] at h
    split at h
    · cases h
    · next o' hstep =>
      obtain ⟨rfl, rfl, rfl⟩ := Option.some.inj h
      have hrefused := (Obtain.of_step hstep).2.2
      cases o' with
      | refused => exact hrefused rfl
      | called | queued | ready | dialing | pausing | got => trivial
  | listening r l =>
    rw [ClientListen.step] at h
    split at h
    · cases h
    · next l' hstep =>
      obtain ⟨rfl, rfl, rfl⟩ := Option.some.inj h
      have hcancelled := (Listen.move_of_step hstep).closed_of_cancelled
      rw [ClientListen.afterListen]
      split
      · trivial
      · next gone hresult =>
        split
        · trivial
        · next hends =>
          cases gone with
          | false => exact receiver.symm.trans (hcancelled hresult)
          | true =>
            have hclosed : c.cancel.closed = true := by simpa using hends
            exact hclosed
  | discarding r d =>
    rw [ClientListen.step] at h
    split at h
    · cases h
    · next d' hstep =>
      obtain ⟨rfl, rfl, rfl⟩ := Option.some.inj h
      cases d' <;> trivial
  | done => cases h

theorem truthful_close {x x' : ClientClose} (h : x.step me c w = some (c', w', x'))
    (hx : x ≠ .called → c.cancel.closed = true) : c'.cancel.closed = true := by
  cases x with
  | called =>
    rw [ClientClose.step] at h
    split at h
    · next hclosed =>
      obtain ⟨rfl, rfl, rfl⟩ := Option.some.inj h
      exact hclosed
    · obtain ⟨rfl, rfl, rfl⟩ := Option.some.inj h
      rfl
  | released =>
    obtain ⟨rfl, rfl, rfl⟩ := Option.some.inj h
    exact hx (by simp)
  | queued =>
    rw [ClientClose.step] at h
    split at h
    · obtain ⟨rfl, rfl, rfl⟩ := Option.some.inj h
      exact hx (by simp)
    · cases h
  | done => cases h

theorem truthful_step (h : a.step me now pick c w = some (c', w', a'))
    (ha : a.Truthful (c.cancel.closed = true))
    (receiver : c.receiver.cancel.closed = c.cancel.closed) :
    a'.Truthful (c'.cancel.closed = true) := by
  cases a with
  | send s =>
    obtain ⟨⟨_, _, s'⟩, hs, heq⟩ := Option.map_eq_some_iff.mp h
    obtain ⟨rfl, rfl, rfl⟩ := heq
    exact (ClientSend.move_of_step hs).truthful ha
  | listen l =>
    obtain ⟨⟨_, _, l'⟩, hl, heq⟩ := Option.map_eq_some_iff.mp h
    obtain ⟨rfl, rfl, rfl⟩ := heq
    rw [(ClientListen.move_of_step hl).cancel]
    exact truthful_listen hl receiver
  | close x =>
    obtain ⟨⟨_, _, x'⟩, hx, heq⟩ := Option.map_eq_some_iff.mp h
    obtain ⟨rfl, rfl, rfl⟩ := heq
    exact fun _ => truthful_close hx ha

theorem truthful_answerDial (hdialing : a.dialing = true) (closed : Prop) (now : Nat)
    (dialed : Option Ref) (c : Client) (w : Wire) :
    (a.answerDial now dialed c w).2.Truthful closed := by
  rcases eq_of_dialing hdialing with ⟨payload, rfl⟩ | rfl <;> cases dialed <;> trivial

end ClientActivity

end Activities

namespace Exchange

variable {p p' : Exchange} {e : Event} {place : Nat} {s : ClientSend}

/-- No activity of the client ends without reason. -/
def Truthful (p : Exchange) : Prop :=
  ∀ place a, p.clientAt? place = some a → a.Truthful (p.client.cancel.closed = true)

theorem truthful_apply (h : p.Truthful) (kept : p.client.Kept p.wire p.stance) (e : Event) :
    (p.apply e).Truthful := by
  have hclosed (hclosed : p.client.cancel.closed = true) := closed_apply hclosed e
  have heffect := p.effect_apply e
  generalize p.apply e = p' at heffect hclosed
  intro place a ha
  refine heffect.forall_clientAt? (P := fun b => b.Truthful (p'.client.cancel.closed = true))
    (fun q b hb => (h q b hb).mono hclosed) ?_ ?_ ?_ ha
  · exact fun q pick b b' hb hstep =>
      ClientActivity.truthful_step hstep (h q b hb) kept.closing.receiver
  · exact fun b hdialing dialed w => ClientActivity.truthful_answerDial hdialing _ _ _ _ _
  · intro b hbegun
    cases e with
    | send | read =>
      obtain rfl := Option.some.inj hbegun
      trivial
    | close =>
      obtain rfl := Option.some.inj hbegun
      exact fun hne => absurd rfl hne
    | move | answer | elapse | occur | disconnect | attach | listen | closePeer => cases hbegun

/-- While the client is closed, a send that waits for acknowledgments goes on with that, or
succeeds. -/
theorem assured_applyAll {events : List Event} (kept : p.client.Kept p.wire p.stance)
    (closed : p.client.cancel.closed = true) (provided : Along apply Provides p events)
    (hs : p.callAt? place = some s) (hassured : s.Assured) :
    ∃ s', (p.applyAll events).callAt? place = some s' ∧ s'.Assured := by
  induction events generalizing p s with
  | nil => exact ⟨s, hs, hassured⟩
  | cons e rest ih =>
    obtain ⟨hprovides, hrest⟩ := provided
    obtain ⟨t, ht, hgoes⟩ := goes_apply hs e
    refine ih (kept_apply kept hprovides) (closed_apply closed e) hrest ht ?_
    have hphase {o : Obtain} (hp : s.phase = .obtaining o) : t.Assured := by
      rcases hassured with ⟨r, x, hsending, -⟩ | hdone
      · cases hp.symm.trans hsending
      · cases hp.symm.trans hdone
    cases hgoes with
    | move _ hmove => exact hmove.assured (kept.closing.sender.trans closed) hassured
    | linked _ _ hp | failed _ _ hp => exact hphase hp
    | stay => exact hassured

/-- While the client is closed, a send that begins is refused. -/
theorem refused_applyAll {events : List Event} (closed : p.client.cancel.closed = true)
    (hs : p.callAt? place = some s) (hrefused : s.Refused) :
    ∃ s', (p.applyAll events).callAt? place = some s' ∧ s'.Refused := by
  induction events generalizing p s with
  | nil => exact ⟨s, hs, hrefused⟩
  | cons e rest ih =>
    obtain ⟨t, ht, hgoes⟩ := goes_apply hs e
    refine ih (closed_apply closed e) ht ?_
    cases hgoes with
    | move _ hmove => exact hmove.refused closed hrefused
    | linked _ _ hp | failed _ _ hp =>
      rw [ClientSend.Refused, hp] at hrefused
      exact hrefused.elim
    | stay => exact hrefused

end Exchange

end BlockFeed
