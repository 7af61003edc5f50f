import BlockFeed.Proofs.Client.Delivery
import BlockFeed.Proofs.Client.Pace
import BlockFeed.Proofs.Sender.Attested

/-!
# What a send of a client may return

An attempt of a send may fail in many ways: the connection is gone before it is used, no connection
takes the frame, no acknowledgment can be read, or no dial succeeds. None of that is what the send
returns: it tries again, under a new counter, until an attempt succeeds or the client is closed. As
long as it has not returned, it goes on, or somebody before it in a line does, and it soon attempts
something.

## Main definitions

* `ClientSend.Between`: the send is between two attempts.
* `ClientSend.Attested`, `ClientSend.Followed`: what is known of a send from what its steps have
  written and read.
* `Exchange.Fails`, `Exchange.Retries`: an attempt fails, and another is to come.
* `Exchange.Outcome`: what a send returns, and what it has done.

## Main results

* `Exchange.outcome_of_send`: every send of a payload has such an outcome.

## Design notes

What is known of a send starts anew wherever it is between two attempts, so an attempt that succeeds
after that has had a frame accepted after that, and the steps that it takes until the next attempt
are few, however many there were before.
-/

namespace BlockFeed

section Attempts

variable {me now pick : Nat} {log log' : Ledger} {closed closed' : Prop}
  {offered accepted read offered' accepted' read' : List (Ref × Bytes)}

/-- An attempt to send something does not find that there is nothing to send. -/
theorem Send.Move.ne_emptyPayload {s s' : Sender} {w w' : Wire} {x x' : Send}
    (h : Move me pick s w x s' w' x') (hne : x.payload ≠ []) :
    x'.phase ≠ .done (.error .emptyPayload) := by
  intro hdone
  cases h with
  | refuse _ hwhy =>
    rcases hwhy with ⟨-, rfl⟩ | ⟨hnil, -⟩
    · cases hdone
    · exact hne hnil
  | conclude =>
    have hverdict := SendPhase.done.inj hdone
    rcases verdict_cases _ _ with hok | ⟨lost, hlost⟩
    · cases hok.symm.trans hverdict
    · cases hlost.symm.trans hverdict
  | enqueue | abandon | start | accept | reject | fail | succeed | await | wait => cases hdone

/-- The write that an attempt calls for is that of its frame under a counter it was given. -/
theorem Send.Attested.offers {s : Sender} {x : Send} {o : Ref × Bytes}
    (hx : x.Attested s.withAcknowledge log accepted read closed me) (ho : o ∈ x.offers s) :
    ∃ counter, ⟨me, x.payload, counter⟩ ∈ log ∧
      o.2 = Frame.encode ⟨s.withAcknowledge, counter, x.payload⟩ := by
  rw [Send.offers] at ho
  split at ho
  · next counter _ _ _ _ _ hp =>
    rw [Send.Attested, hp] at hx
    obtain rfl := List.mem_singleton.mp ho
    exact ⟨counter, hx.1, rfl⟩
  · cases ho

namespace ClientSend

/-- The send has begun, is not done, and no attempt of it goes on. -/
def Between (s : ClientSend) : Prop :=
  match s.phase with
  | .attempting | .obtaining _ | .discarding _ _ | .pausing _ => True
  | .called | .sending _ _ | .done _ => False

/-- What is known of the send under a number, phase by phase: success is that of an attempt, and
what is no success tells that the client was closed. -/
def Attested (ack : Bool) (log : Ledger) (accepted read : List (Ref × Bytes)) (closed : Prop)
    (me : Nat) (s : ClientSend) : Prop :=
  match s.phase with
  | .sending _ x => x.payload = s.payload ∧ x.Attested ack log accepted read closed me
  | .done (.ok ()) =>
    Send.Attested ack log accepted read closed me ⟨s.payload, .done (.ok ())⟩
  | .done (.error e) => e = .closed ∧ closed
  | .called | .attempting | .obtaining _ | .discarding _ _ | .pausing _ => True

/-- What is known of a send, with every write that its steps have called for. -/
structure Followed (ack : Bool) (log : Ledger) (offered accepted read : List (Ref × Bytes))
    (closed : Prop) (me : Nat) (s : ClientSend) : Prop where
  offered : ∀ o ∈ offered, ∃ counter, ⟨me, s.payload, counter⟩ ∈ log ∧
    o.2 = Frame.encode ⟨ack, counter, s.payload⟩
  attested : s.Attested ack log accepted read closed me

variable {ack : Bool} {s s' : ClientSend}

theorem Attested.mono (h : s.Attested ack log accepted read closed me) (hlog : log ⊆ log')
    (haccepted : accepted ⊆ accepted') (hread : read ⊆ read') (hclosed : closed → closed') :
    s.Attested ack log' accepted' read' closed' me := by
  rw [Attested] at h ⊢
  cases hp : s.phase with
  | sending r x =>
    rw [hp] at h
    exact ⟨h.1, h.2.mono hlog haccepted hread hclosed⟩
  | done result =>
    rw [hp] at h
    cases result with
    | ok u => exact Send.Attested.mono h hlog haccepted hread hclosed
    | error e => exact ⟨h.1, hclosed h.2⟩
  | called | attempting | obtaining | discarding | pausing => trivial

/-- A send that is done has succeeded, or tells that the client was closed. -/
theorem Attested.of_done {result : Except SendError Unit}
    (h : s.Attested ack log accepted read closed me) (hp : s.phase = .done result) :
    (result = .ok () ∧ Send.Attested ack log accepted read closed me ⟨s.payload, .done (.ok ())⟩) ∨
      (result = .error .closed ∧ closed) := by
  rw [Attested, hp] at h
  cases result with
  | ok u => exact .inl ⟨rfl, h⟩
  | error e => exact .inr ⟨by rw [h.1], h.2⟩

theorem Between.slack_le (h : s.Between) : s.slack ≤ 10 := by
  rw [Between] at h
  rw [slack]
  cases hp : s.phase with
  | obtaining o =>
    cases o with
    | called | queued | ready | dialing | pausing | got | refused => simp [Obtain.slack]
  | discarding r d =>
    cases d with
    | called | queued | cleared | done => simp [Discard.slack]
  | attempting | pausing => simp
  | called | sending | done =>
    rw [hp] at h
    exact h.elim

theorem Between.attested (h : s.Between) : s.Attested ack log accepted read closed me := by
  rw [Between] at h
  rw [Attested]
  cases hp : s.phase with
  | called | attempting | obtaining | discarding | pausing => trivial
  | sending | done =>
    rw [hp] at h
    exact h.elim

/-- After an attempt that has failed, the send is between attempts. -/
theorem between_afterSend (now retry : Nat) (r : Ref) {x : Send} {e : SendError}
    (hx : x.phase = .done (.error e)) (he : e ≠ .emptyPayload) :
    Between { s with phase := afterSend now retry r x } := by
  rw [Between, afterSend_of_error now retry r hx he]
  cases e.isConnectionClosed with
  | true => trivial
  | false => trivial

variable {c c' : Client} {w w' : Wire}

/-- What is known of a send after one of its steps, in which its sender assigns what the ledger
says, and the connections gain what was written and read. -/
theorem Move.attested (h : Move me now pick c w s c' w' s') (hne : s.payload ≠ [])
    (fired : c.cancel.closed = true ∨ c.sender.cancel.closed = true → closed)
    (hs : s.Attested c.sender.withAcknowledge log accepted read closed me) :
    s'.Attested c.sender.withAcknowledge (log ++ Ledger.taken me s.send? s'.send?)
      (accepted ++ w.news Connection.written w') (read ++ w.news Connection.consumed w') closed
      me := by
  cases h with
  | refuse hwhy hnil =>
    rcases hwhy with ⟨-, rfl⟩ | ⟨⟨-, hclosed⟩, rfl⟩
    · exact absurd (hnil rfl) hne
    · exact ⟨rfl, fired (.inl hclosed)⟩
  | attempt | call => trivial
  | @obtain o o' _ _ _ _ hrefused =>
    cases o' with
    | got => exact ⟨rfl, trivial⟩
    | refused => exact ⟨rfl, fired (.inl (hrefused rfl))⟩
    | called | queued | ready | dialing | pausing => trivial
  | @discard r d d' =>
    cases d' with
    | done | called | queued | cleared => trivial
  | @send r x x' _ _ hp hmove =>
    rw [Attested, hp] at hs
    obtain ⟨hpayload, hx⟩ := hs
    rw [taken_afterSend hp]
    have hpayload' : x'.payload = s.payload := hmove.payload.trans hpayload
    have hx' := (hmove.attested hx).mono (List.Subset.refl _) (List.Subset.refl _)
      (List.Subset.refl _) (fun hor => hor.elim id fun hclosed => fired (.inr hclosed))
    -- the attempt goes on, or it has succeeded, or another is to come
    rcases afterSend_cases now c.retry r x' with heq | ⟨hdone, heq⟩ | ⟨e, hdone, -⟩
    · rw [Attested, heq]
      exact ⟨hpayload', hx'⟩
    · rw [Send.Attested, hdone, hpayload'] at hx'
      rw [Attested, heq]
      exact hx'
    · have he : e ≠ .emptyPayload := fun heq =>
        hmove.ne_emptyPayload (hpayload ▸ hne) (heq ▸ hdone)
      exact (between_afterSend now c.retry r hdone he).attested

/-- What a step of a send calls for to be written is its frame under a counter it was given. -/
theorem Move.frame_of_offered {o : Ref × Bytes} (h : Move me now pick c w s c' w' s')
    (hs : s.Attested c.sender.withAcknowledge log accepted read closed me)
    (ho : o ∈ w.news Connection.offered w') : ∃ counter, ⟨me, s.payload, counter⟩ ∈ log ∧
      o.2 = Frame.encode ⟨c.sender.withAcknowledge, counter, s.payload⟩ := by
  have hstill (hw : w.Still w') : w.news Connection.offered w' = [] :=
    Wire.news_eq_nil hw.size fun r => (hw.conn r).offered.trans (List.append_nil _)
  cases h with
  | refuse | attempt | call | obtain =>
    rw [hstill (.refl w)] at ho
    cases ho
  | discard _ htends =>
    rw [hstill htends.still] at ho
    cases ho
  | send hp hmove =>
    rw [Attested, hp] at hs
    rw [hmove.news_offered_eq] at ho
    rw [← hs.1]
    exact hs.2.offers (List.mem_filter.mp ho).1

end ClientSend

end Attempts

namespace Exchange

variable {p : Exchange} {place : Nat} {s : ClientSend} {ack : Bool} {log : Ledger}

/-- An attempt of the send at a place fails. -/
inductive Fails (place : Nat) (p : Exchange) : Event → Prop where
  /-- A dial has come to nothing. -/
  | dial {s : ClientSend} : p.callAt? place = some s → s.phase = .obtaining .dialing →
      Fails place p (.answer place none)
  /-- The sender has returned an error. -/
  | send {pick : Nat} {s : ClientSend} {r : Ref} {x x' : Send} {sender : Sender} {wire : Wire}
      {e : SendError} : p.callAt? place = some s → s.phase = .sending r x →
      x.step place pick p.client.sender p.wire = some (sender, wire, x') →
      x'.phase = .done (.error e) → Fails place p (.move place pick)

/-- The send at a place is between two attempts. -/
def Retries (place : Nat) (p : Exchange) : Prop := ∃ s, p.callAt? place = some s ∧ s.Between

/-- In the course of a run, the send at a place has a frame with its payload accepted and, if
acknowledgments are asked for, reads the acknowledgment of that frame from the connection that has
accepted it, unless the client was closed. -/
def Succeeds (ack : Bool) (payload : Bytes) (closed : Prop) (place : Nat) (p : Exchange)
    (events : List Event) : Prop :=
  ∃ r counter,
    (r, Frame.encode ⟨ack, counter, payload⟩) ∈ gained Connection.written place p events ∧
    (ack = true → (r, Ack.encode counter) ∈ gained Connection.consumed place p events ∨ closed)

/-- What is known of the send at a place after one of its moves. -/
theorem followed_move (hne : s.payload ≠ []) (regular : p.Regular ack log) {taken : Ledger}
    {offered accepted read : List (Ref × Bytes)}
    (h : s.Followed ack taken offered accepted read p.Shut place) {pick : Nat} {s' : ClientSend}
    {client : Client} {wire : Wire}
    (hmove : ClientSend.Move place p.now pick p.client p.wire s client wire s') {closed : Prop}
    (hclosed : p.Shut → closed) :
    s'.Followed ack (taken ++ Ledger.taken place s.send? s'.send?)
      (offered ++ p.wire.news Connection.offered wire)
      (accepted ++ p.wire.news Connection.written wire)
      (read ++ p.wire.news Connection.consumed wire) closed place := by
  have hatt := h.attested
  have hoffered := h.offered
  rw [← regular.withAcknowledge] at hatt hoffered ⊢
  refine ⟨fun o ho => ?_, hmove.attested hne (hclosed ∘ regular.shut) (hatt.mono
    (List.Subset.refl _) (List.Subset.refl _) (List.Subset.refl _) hclosed)⟩
  have hknown : ∃ counter, ⟨place, s.payload, counter⟩ ∈ taken ∧
      o.2 = Frame.encode ⟨p.client.sender.withAcknowledge, counter, s.payload⟩ := by
    rcases List.mem_append.mp ho with hold | hnew
    · exact hoffered o hold
    · exact hmove.frame_of_offered hatt hnew
  rw [hmove.payload]
  exact hknown.imp fun _ hcounter => ⟨List.mem_append_left _ hcounter.1, hcounter.2⟩

/-- What is known of the send at a place after anything that may happen. -/
theorem followed_apply (hs : p.callAt? place = some s) (hne : s.payload ≠ [])
    (regular : p.Regular ack log) {taken : Ledger} {offered accepted read : List (Ref × Bytes)}
    (h : s.Followed ack taken offered accepted read p.Shut place) (e : Event) :
    ∃ s', (p.apply e).callAt? place = some s' ∧ s'.payload = s.payload ∧
      s'.Followed ack (taken ++ p.assigned e)
        (offered ++ gainedAt Connection.offered place p e)
        (accepted ++ gainedAt Connection.written place p e)
        (read ++ gainedAt Connection.consumed place p e) (p.apply e).Shut place := by
  have hshut (hp : p.Shut) : (p.apply e).Shut := shut_apply.mpr (.inl hp)
  -- where the send calls for no write, it is enough to know how far it has got
  have hstay {t : ClientSend} (hnone : gainedAt Connection.offered place p e = [])
      (hpayload : t.payload = s.payload)
      (ht : t.Attested ack taken accepted read p.Shut place) :
      t.Followed ack (taken ++ p.assigned e) (offered ++ gainedAt Connection.offered place p e)
        (accepted ++ gainedAt Connection.written place p e)
        (read ++ gainedAt Connection.consumed place p e) (p.apply e).Shut place := by
    refine ⟨?_, ht.mono (List.subset_append_left _ _) (List.subset_append_left _ _)
      (List.subset_append_left _ _) hshut⟩
    rw [hnone, List.append_nil, hpayload]
    exact fun o ho => (h.offered o ho).imp fun _ hcounter =>
      ⟨List.mem_append_left _ hcounter.1, hcounter.2⟩
  by_cases he : ∃ pick, e = .move place pick
  · obtain ⟨pick, rfl⟩ := he
    have hact := callAt?_eq_some.mp hs
    have hlt := (List.getElem?_eq_some_iff.mp hact).1
    have hmoved := p.moved_apply place pick
    generalize happly : p.apply (.move place pick) = p' at hmoved hshut hstay ⊢
    cases hmoved with
    | @send t s' client wire ht hmove =>
      obtain rfl : s = t :=
        ClientActivity.send.inj (ExchangeActivity.client.inj (Option.some.inj (hact.symm.trans ht)))
      have hs' : callAt? { p with
            client, wire, activities := p.activities.set place (.client (.send s')) } place
          = some s' := callAt?_eq_some.mpr (List.getElem?_set_self hlt)
      refine ⟨s', hs', hmove.payload, ?_⟩
      rw [assigned_send happly hs hs']
      simp only [gainedAt, if_pos, happly]
      exact followed_move hne regular h hmove hshut
    | read ht | close ht | peer ht => cases Option.some.inj (hact.symm.trans ht)
    | stay =>
      have hnone : gainedAt Connection.offered place p (.move place pick) = [] := by
        rw [gainedAt, if_pos rfl, happly]
        exact Wire.news_eq_nil rfl fun _ => rfl
      exact ⟨s, hs, rfl, hstay hnone rfl h.attested⟩
  · have he : ∀ pick, e ≠ .move place pick := fun pick heq => he ⟨pick, heq⟩
    have hnone := gainedAt_eq_nil Connection.offered p he
    obtain ⟨s', hs', hgoes⟩ := goes_apply hs e
    refine ⟨s', hs', hgoes.payload, hstay hnone hgoes.payload ?_⟩
    cases hgoes with
    | move heq => exact absurd heq (he _)
    | linked => exact ⟨rfl, trivial⟩
    | failed => trivial
    | stay => exact h.attested

/-- After an attempt that has failed, the send is between two attempts. -/
theorem retries_of_fails (hs : p.callAt? place = some s) (hne : s.payload ≠ []) {taken : Ledger}
    {accepted read : List (Ref × Bytes)} {closed : Prop}
    (h : s.Attested ack taken accepted read closed place) {e : Event} (fails : Fails place p e) :
    Retries place (p.apply e) := by
  have hact := callAt?_eq_some.mp hs
  have hlt := (List.getElem?_eq_some_iff.mp hact).1
  cases fails with
  | dial ht hp =>
    obtain rfl := Option.some.inj (hs.symm.trans ht)
    have hanswer : p.apply (.answer place none) = { p with
        activities := p.activities.set place (.client (.send { s with
          phase := .obtaining (.pausing (p.now + p.client.retry)) })) } := by
      obtain ⟨payload, phase⟩ := s
      subst hp
      simp [apply, answer, hact, ClientActivity.dialing, ClientActivity.answerDial, Obtain.answer,
        ClientSend.afterObtain]
    rw [hanswer]
    exact ⟨_, callAt?_eq_some.mpr (List.getElem?_set_self hlt), trivial⟩
  | @send pick _ r x x' sender wire error ht hp hstep hdone =>
    obtain rfl := Option.some.inj (hs.symm.trans ht)
    rw [ClientSend.Attested, hp] at h
    have herror : error ≠ .emptyPayload := fun heq =>
      (Send.move_of_step hstep).ne_emptyPayload (h.1 ▸ hne) (heq ▸ hdone)
    have hmove : p.apply (.move place pick) = { p with
        client := { p.client with sender }
        wire
        activities := p.activities.set place (.client (.send { s with
          phase := ClientSend.afterSend p.now p.client.retry r x' })) } := by
      simp [apply, move, hact, ClientActivity.step, ClientSend.step, hp, hstep]
    rw [hmove]
    exact ⟨_, callAt?_eq_some.mpr (List.getElem?_set_self hlt),
      ClientSend.between_afterSend p.now p.client.retry r hdone herror⟩

/-- A send of a payload in a regular exchange, of which nothing is known yet. -/
structure Fresh (p : Exchange) (ack : Bool) (log : Ledger) (place : Nat) (payload : Bytes) :
    Prop where
  regular : p.Regular ack log
  inOrder : p.InOrder
  extant : p.Extant
  nonempty : payload ≠ []
  call : ∃ s, p.callAt? place = some s ∧ s.payload = payload ∧
    s.Attested ack [] [] [] p.Shut place ∧ s.slack ≤ 10

namespace Fresh

variable {payload : Bytes}

/-- What is known of the send after a run, from what its steps have done in the run. -/
theorem followed (h : p.Fresh ack log place payload) (events : List Event) :
    ∃ s, (p.applyAll events).callAt? place = some s ∧ s.payload = payload ∧
      s.Followed ack (p.ledger events) (gained Connection.offered place p events)
        (gained Connection.written place p events) (gained Connection.consumed place p events)
        (p.applyAll events).Shut place := by
  induction events using List.reverseRecOn with
  | nil =>
    obtain ⟨s, hs, hpayload, hattested, -⟩ := h.call
    exact ⟨s, hs, hpayload, nofun, hattested⟩
  | append_singleton events e ih =>
    obtain ⟨s, hs, hpayload, hfollowed⟩ := ih
    obtain ⟨s', hs', hpayload', hfollowed'⟩ :=
      followed_apply hs (hpayload ▸ h.nonempty) (h.regular.applyAll events) hfollowed e
    refine ⟨s', ?_, hpayload'.trans hpayload, ?_⟩
    · rw [applyAll_append]
      exact hs'
    · rw [ledger, collect_concat, gained, gained, gained, collect_concat, collect_concat,
        collect_concat, applyAll_append]
      exact hfollowed'

/-- What is known of a send starts anew where it is between two attempts. -/
theorem anew (h : p.Fresh ack log place payload) {events : List Event}
    (retries : Retries place (p.applyAll events)) :
    (p.applyAll events).Fresh ack (log ++ p.ledger events) place payload := by
  obtain ⟨s, hs, hbetween⟩ := retries
  obtain ⟨t, ht, hpayload, -⟩ := h.followed events
  obtain rfl := Option.some.inj (hs.symm.trans ht)
  exact ⟨h.regular.applyAll events, h.inOrder.applyAll events, h.extant.applyAll events,
    h.nonempty, s, hs, hpayload, hbetween.attested, hbetween.slack_le⟩

/-- If the send is done, it has succeeded in the course of the run, or the client was closed. -/
theorem of_sent (h : p.Fresh ack log place payload) {events : List Event}
    {result : Except SendError Unit} (sent : (p.applyAll events).sent? place = some result) :
    (result = .ok () ∧ Succeeds ack payload (p.applyAll events).Shut place p events) ∨
      (result = .error .closed ∧ (p.applyAll events).Shut) := by
  obtain ⟨s, hs, hpayload, hfollowed⟩ := h.followed events
  obtain ⟨t, ht, hdone⟩ := sent?_eq_some.mp sent
  obtain rfl := Option.some.inj (hs.symm.trans ht)
  refine (hfollowed.attested.of_done hdone).imp_left fun hok => ?_
  obtain ⟨heq, r, counter, -, hframe, hack⟩ := hok
  rw [hpayload] at hframe
  exact ⟨heq, r, counter, hframe, hack⟩

/-- A write that the send calls for is that of its frame, under a counter assigned in the run. -/
theorem frame_of_offered (h : p.Fresh ack log place payload) {events : List Event}
    {o : Ref × Bytes} (ho : o ∈ gained Connection.offered place p events) :
    ∃ counter, ⟨place, payload, counter⟩ ∈ p.ledger events ∧
      o.2 = Frame.encode ⟨ack, counter, payload⟩ := by
  obtain ⟨s, -, rfl, hfollowed⟩ := h.followed events
  exact hfollowed.offered o ho

/-- The send has returned, or it goes on, or it is in a line whose first does. -/
theorem goesOn (h : p.Fresh ack log place payload) (events : List Event) :
    (∃ result, (p.applyAll events).sent? place = some result) ∨
      (p.applyAll events).Ongoing place ∨ (p.applyAll events).Queues place := by
  obtain ⟨s, hs, -, -⟩ := h.followed events
  have ha : (p.applyAll events).clientAt? place = some (.send s) :=
    clientAt?_eq_some.mpr (callAt?_eq_some.mp hs)
  rcases (h.inOrder.applyAll events).goesOn ha with hdone | hongoing | hqueues | ⟨_, _, hlistens, -⟩
  · obtain ⟨spayload, phase⟩ := s
    cases phase with
    | done result => exact .inl ⟨result, sent?_eq_some.mpr ⟨_, hs, rfl⟩⟩
    | called | attempting | obtaining | sending | discarding | pausing => cases hdone
  · exact .inr (.inl hongoing)
  · exact .inr (.inr hqueues)
  · cases hlistens

/-- The steps of the send in a run are few for what it attempts, writes and reads. -/
theorem steps_le (h : p.Fresh ack log place payload) (events : List Event) :
    p.steps place events ≤ 11 * p.tries place events
      + 2 * (gained Connection.offered place p events).length
      + (gained Connection.consumed place p events).length + 10 := by
  obtain ⟨s, hs, -, -, hslack⟩ := h.call
  obtain ⟨s', -, hsteps⟩ := Exchange.steps_le h.extant hs events
  omega

/-- While 64 bits are enough for the counters, an attempt writes a larger one than every attempt
before it. -/
theorem counter_lt (h : p.Fresh ack log place payload) {first rest : List Event}
    (few : (log ++ p.ledger (first ++ rest)).length < UInt64.size)
    (retries : Retries place (p.applyAll first)) {o o' : Ref × Bytes} {counter counter' : UInt64}
    (ho : o ∈ gained Connection.offered place p first)
    (ho' : o' ∈ gained Connection.offered place (p.applyAll first) rest)
    (hframe : o.2 = Frame.encode ⟨ack, counter, payload⟩)
    (hframe' : o'.2 = Frame.encode ⟨ack, counter', payload⟩) : counter < counter' := by
  obtain ⟨c, hmem, heq⟩ := h.frame_of_offered ho
  obtain ⟨c', hmem', heq'⟩ := (h.anew retries).frame_of_offered ho'
  obtain ⟨-, rfl, -⟩ := Frame.mk.inj (Frame.encode_injective (hframe.symm.trans heq))
  obtain ⟨-, rfl, -⟩ := Frame.mk.inj (Frame.encode_injective (hframe'.symm.trans heq'))
  have hpairwise := (h.regular.applyAll (first ++ rest)).numbered.pairwise few
  rw [ledger, collect_append] at hpairwise
  have hrun := (List.pairwise_append.mp hpairwise).2.1
  exact (List.pairwise_append.mp hrun).2.2 _ hmem _ hmem'

end Fresh

/-- What the send at a place returns and has done in the course of a run, given what was assigned
before and whether closing was asked for. -/
structure Outcome (ack : Bool) (past : Ledger) (asked : Prop) (place : Nat) (payload : Bytes)
    (p : Exchange) (events : List Event) : Prop where
  /-- It does not return that an attempt has failed. -/
  result : ∀ result, (p.applyAll events).sent? place = some result →
    result = .ok () ∨ result = .error .closed
  closed : (p.applyAll events).sent? place = some (.error .closed) → asked
  ok : (p.applyAll events).sent? place = some (.ok ()) → Succeeds ack payload asked place p events
  /-- After an attempt that has failed, another is to come. -/
  failed : ∀ first e rest, events = first ++ e :: rest → Fails place (p.applyAll first) e →
    Retries place (p.applyAll (first ++ [e]))
  /-- As long as it has not returned, it goes on: it can take a step, or waits for a dial, a pause
  or an acknowledgment, or is in a line whose first does. -/
  goesOn : (∃ result, (p.applyAll events).sent? place = some result) ∨
    (p.applyAll events).Ongoing place ∨ (p.applyAll events).Queues place
  /-- It soon attempts something, from its beginning on and after every attempt that has failed: but
  for a few steps, those it takes are paid for by its dials and calls on the sender and by what it
  writes and reads. -/
  brisk : ∀ first rest, events = first ++ rest → first = [] ∨ Retries place (p.applyAll first) →
    (p.applyAll first).steps place rest ≤ 11 * (p.applyAll first).tries place rest
      + 2 * (gained Connection.offered place (p.applyAll first) rest).length
      + (gained Connection.consumed place (p.applyAll first) rest).length + 10
  /-- Nothing that came before that attempt counts for its success. -/
  again : ∀ first rest, events = first ++ rest → Retries place (p.applyAll first) →
    (p.applyAll events).sent? place = some (.ok ()) →
      Succeeds ack payload asked place (p.applyAll first) rest
  /-- Every attempt writes the payload. -/
  frames : ∀ o ∈ gained Connection.offered place p events,
    ∃ counter, o.2 = Frame.encode ⟨ack, counter, payload⟩
  /-- While 64 bits are enough for the counters, later attempts write larger ones. -/
  later : (past ++ p.ledger events).length < UInt64.size →
    ∀ first rest, events = first ++ rest → Retries place (p.applyAll first) →
      ∀ o ∈ gained Connection.offered place p first,
      ∀ o' ∈ gained Connection.offered place (p.applyAll first) rest,
      ∀ counter counter', o.2 = Frame.encode ⟨ack, counter, payload⟩ →
        o'.2 = Frame.encode ⟨ack, counter', payload⟩ → counter < counter'

theorem Fresh.outcome {payload : Bytes} (h : p.Fresh ack log place payload)
    (events : List Event) : Outcome ack log (p.applyAll events).Shut place payload p events where
  result := fun _ hsent => (h.of_sent hsent).imp And.left And.left
  closed := by
    intro hsent
    rcases h.of_sent hsent with ⟨heq, -⟩ | ⟨-, hshut⟩
    · cases heq
    · exact hshut
  ok := by
    intro hsent
    rcases h.of_sent hsent with ⟨-, hsucceeds⟩ | ⟨heq, -⟩
    · exact hsucceeds
    · cases heq
  failed := by
    rintro first e rest - hfails
    obtain ⟨s, hs, hpayload, hfollowed⟩ := h.followed first
    rw [applyAll_append]
    exact retries_of_fails hs (hpayload ▸ h.nonempty) hfollowed.attested hfails
  goesOn := h.goesOn events
  brisk := by
    rintro first rest - (rfl | hretries)
    · exact h.steps_le rest
    · exact (h.anew hretries).steps_le rest
  again := by
    rintro first rest rfl hretries hsent
    rw [applyAll_append] at hsent ⊢
    rcases (h.anew hretries).of_sent hsent with ⟨-, hsucceeds⟩ | ⟨heq, -⟩
    · exact hsucceeds
    · cases heq
  frames := fun _ ho => (h.frame_of_offered ho).imp fun _ hcounter => hcounter.2
  later := by
    rintro few first rest rfl hretries o ho o' ho' counter counter'
    exact h.counter_lt few hretries ho ho'

theorem regular_start {config : Config} {handler : Handler} {client : Client}
    (made : Client.ofConfig config handler = .ok client) :
    (start client).Regular config.withAcknowledge [] := by
  obtain rfl := Client.eq_of_ofConfig made
  exact ⟨rfl, Ledger.numbered_nil, rfl, fun hfired => by rcases hfired with h | h <;> cases h⟩

theorem inOrder_start {config : Config} {handler : Handler} {client : Client}
    (made : Client.ofConfig config handler = .ok client) : (start client).InOrder := by
  obtain rfl := Client.eq_of_ofConfig made
  refine ⟨⟨List.nodup_nil, fun q => iff_of_false List.not_mem_nil id, nofun⟩,
    ⟨⟨⟨List.nodup_nil, ?_, nofun⟩, nofun⟩, nofun⟩, nofun⟩
  exact fun q => iff_of_false List.not_mem_nil nofun

theorem extant_start {config : Config} {handler : Handler} {client : Client}
    (made : Client.ofConfig config handler = .ok client) : (start client).Extant := by
  obtain rfl := Client.eq_of_ofConfig made
  exact ⟨nofun, nofun, nofun⟩

/-- Whatever becomes of its attempts, a send of a payload never returns that one has failed. It
returns success after an attempt that has succeeded, and otherwise goes on and tries again until the
client is closed. -/
theorem outcome_of_send {config : Config} {handler : Handler} {client : Client}
    (made : Client.ofConfig config handler = .ok client) (before : List Event) {payload : Bytes}
    (hne : payload ≠ []) (after : List Event) :
    Outcome config.withAcknowledge ((start client).ledger before) (.close ∈ before ++ after)
      ((start client).applyAll before).activities.length payload
      (((start client).applyAll before).apply (.send payload)) after := by
  have hregular := ((regular_start made).applyAll before).apply (.send payload)
  rw [assigned_of_ne_move (e := .send payload) nofun, List.append_nil, List.nil_append] at hregular
  have hcall : (((start client).applyAll before).apply (.send payload)).callAt?
      ((start client).applyAll before).activities.length = some ⟨payload, .called⟩ :=
    callAt?_eq_some.mpr List.getElem?_concat_length
  have hinOrder := ((inOrder_start made).applyAll before).apply (.send payload)
  have hextant := ((extant_start made).applyAll before).apply (.send payload)
  have houtcome := Fresh.outcome
    ⟨hregular, hinOrder, hextant, hne, _, hcall, rfl, trivial, Nat.le_add_right 5 5⟩ after
  have hshut : ((((start client).applyAll before).apply (.send payload)).applyAll after).Shut =
      (.close ∈ before ++ after) := by
    simp [shut_applyAll, shut_apply, show ¬(start client).Shut by simp [Shut, start]]
  rwa [hshut] at houtcome

/-- The acknowledgment of the first attempt is lost, and the second attempt succeeds. -/
theorem outcome_redial :
    Fails 0 ((((start plain).applyAll attached).apply (.send [120])).applyAll (redial.take 12))
      (.move 0 0) ∧
    Succeeds true [120] (.close ∈ attached ++ redial) 0
      ((((start plain).applyAll attached).apply (.send [120])).applyAll (redial.take 13))
      (redial.drop 13) := by
  have made : Client.ofConfig {} .accepting = .ok plain := rfl
  have houtcome := outcome_of_send made attached (List.cons_ne_nil 120 []) redial
  have hfails : Fails 0
      ((((start plain).applyAll attached).apply (.send [120])).applyAll (redial.take 12))
      (.move 0 0) := .send rfl rfl rfl rfl
  have hretries := houtcome.failed (redial.take 12) _ (redial.drop 13) rfl hfails
  exact ⟨hfails, houtcome.again _ _ rfl hretries rfl⟩

end Exchange

end BlockFeed
