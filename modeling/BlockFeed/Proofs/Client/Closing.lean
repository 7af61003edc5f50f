import BlockFeed.Proofs.Client.Exchange

/-!
# Sends that end by closing

When a send of a client tells that the client was closed, has its payload been written? It has
exactly if an attempt of it lost an acknowledgment on the way: a connection accepted the frame, no
acknowledgment could be read, and the client was closed before the next attempt came to an end.

## Main definitions

* `Send.Accepts`, `Send.LosesAck`: what the next step of a send does.
* `Send.Traced`, `ClientSend.Traced`: what is known of a send, phase by phase, from whether its
  payload was accepted and whether an acknowledgment of it was lost so far.

## Main results

* `Exchange.accepted_iff_lost_of_closed`: the exact condition.
-/

namespace BlockFeed

namespace Send

def Accepts (s : Sender) (w : Wire) (x : Send) : Prop :=
  ∃ counter id r rest written failures wire,
    x.phase = .writing counter ((id, r) :: rest) written failures ∧
      w.write r (x.frame s counter) = (.ok (), wire)

/-- The wait at `pick` reads for its acknowledgment, and fails. -/
def LosesAck (pick : Nat) (s : Sender) (w : Wire) (x : Send) : Prop :=
  ∃ counter waits failures a error wire, x.phase = .waiting counter waits failures ∧
    waits[pick]? = some a ∧ a.outcome = none ∧ s.cancel.closed = false ∧
      w.read? a.conn = some (.error error, wire)

/-- What is known of a send if `A` tells that its payload was accepted so far, and `L` that an
acknowledgment was lost: once the frame is written somewhere, there will be success unless every
acknowledgment is lost. -/
def Traced (A L : Prop) (x : Send) : Prop :=
  match x.phase with
  | .called | .queued | .done (.error _) => A → L
  | .writing _ _ written _ => (written = [] → A → L) ∧ (written ≠ [] → A)
  | .waiting _ waits _ =>
    A ∧ waits ≠ [] ∧ ∀ a ∈ waits, ∀ error, a.outcome = some (.failed error) → L
  | .done (.ok ()) => True

variable {A L : Prop} {me pick : Nat} {s s' : Sender} {w w' : Wire} {x x' : Send}

theorem not_accepts (h : ∀ counter c rest written failures,
    x.phase ≠ .writing counter (c :: rest) written failures) : ¬x.Accepts s w := by
  rintro ⟨counter, id, r, rest, written, failures, _, hp, _⟩
  exact h counter (id, r) rest written failures hp

/-- A send of which the payload was not written in this attempt knows as much as before. -/
theorem traced_imp (h : A → L) (hnot : ¬x.Accepts s w) :
    (A ∨ x.Accepts s w) → (L ∨ x.LosesAck pick s w) := by
  rintro (ha | hx)
  · exact .inl (h ha)
  · exact absurd hx hnot

/-- A wait that fails in a step has lost its acknowledgment in that step. -/
theorem losesAck_of_failed {counter : UInt64} {waits : List AckWait} {failures : List Failure}
    {a a' : AckWait} {error : ConnectionError} (hp : x.phase = .waiting counter waits failures)
    (ha : waits[pick]? = some a) (hstep : a.step counter s w = some (s', w', a'))
    (hfailed : a'.outcome = some (.failed error)) : x.LosesAck pick s w := by
  have hmove := AckWait.move_of_step hstep
  cases hmove with
  | cancel => cases hfailed
  | acknowledge => cases hfailed
  | ignore hnone =>
    rw [hnone] at hfailed
    cases hfailed
  | fail hnone hopen hread => exact ⟨counter, waits, failures, a, _, _, hp, ha, hnone, hopen, hread⟩

/-- If all waits have ended and that is no success, one of them has failed. -/
theorem failed_of_verdict {waits : List AckWait} {failures : List Failure} {e : SendError}
    (hne : waits ≠ []) (hall : waits.all (·.outcome.isSome) = true)
    (hverdict : verdict waits failures = .error e) :
    ∃ a ∈ waits, ∃ error, a.outcome = some (.failed error) := by
  obtain ⟨a, ha⟩ := List.exists_mem_of_ne_nil waits hne
  have hsome := List.all_eq_true.mp hall a ha
  have hnot : a.delivered = false := by
    rw [verdict] at hverdict
    split at hverdict
    · cases hverdict
    · next hany =>
      cases hd : a.delivered with
      | false => rfl
      | true => exact absurd (List.any_eq_true.mpr ⟨a, ha, hd⟩) hany
  refine ⟨a, ha, ?_⟩
  rw [AckWait.delivered] at hnot
  cases hout : a.outcome with
  | none =>
    rw [hout] at hsome
    cases hsome
  | some outcome =>
    cases outcome with
    | failed error => exact ⟨error, rfl⟩
    | acknowledged | cancelled =>
      rw [hout] at hnot
      cases hnot

/-- What is known of a send after one of its steps. -/
theorem Move.traced (h : Move me pick s w x s' w' x') (hx : x.Traced A L) :
    x'.Traced (A ∨ x.Accepts s w) (L ∨ x.LosesAck pick s w) := by
  have hwaits {counter : UInt64} {waits : List AckWait} {failures : List Failure}
      {a a' : AckWait} {s₁ : Sender} {w₁ : Wire} (hp : x.phase = .waiting counter waits failures)
      (ha : waits[pick]? = some a) (hstep : a.step counter s w = some (s₁, w₁, a')) :
      waits.set pick a' ≠ [] ∧ ∀ b ∈ waits.set pick a', ∀ error,
        b.outcome = some (.failed error) → L ∨ x.LosesAck pick s w := by
    rw [Traced, hp] at hx
    refine ⟨?_, fun b hb error hfailed => ?_⟩
    · intro hnil
      exact hx.2.1 (by simpa using hnil)
    · rcases List.mem_or_eq_of_mem_set hb with hb | rfl
      · exact .inl (hx.2.2 b hb error hfailed)
      · exact .inr (losesAck_of_failed hp ha hstep hfailed)
  cases h with
  | refuse hp | enqueue hp | abandon hp =>
    rw [Traced, hp] at hx
    exact traced_imp hx (not_accepts (by simp [hp]))
  | start hp =>
    rw [Traced, hp] at hx
    -- nothing is written yet in this attempt, so all there is to know is about attempts before
    exact ⟨fun _ => traced_imp hx (not_accepts (by simp [hp])), fun hne => absurd rfl hne⟩
  | accept hp hw =>
    exact ⟨fun hnil => by simp at hnil, fun _ => .inr ⟨_, _, _, _, _, _, _, hp, hw⟩⟩
  | reject hp hw =>
    rw [Traced, hp] at hx
    have hnot : ¬x.Accepts s w := by
      rintro ⟨counter, id, r, rest, written, failures, wire, hp', hw'⟩
      obtain ⟨rfl, hcons, -, -⟩ := SendPhase.writing.inj (hp.symm.trans hp')
      obtain ⟨heq, -⟩ := List.cons.inj hcons
      cases heq
      rw [hw] at hw'
      cases hw'
    exact ⟨fun hnil => traced_imp (hx.1 hnil) hnot, fun hne => .inl (hx.2 hne)⟩
  | fail hp =>
    rw [Traced, hp] at hx
    exact traced_imp (hx.1 rfl) (not_accepts (by simp [hp]))
  | succeed => trivial
  | await hp hwritten =>
    rw [Traced, hp] at hx
    refine ⟨.inl (hx.2 hwritten), by simpa using hwritten, fun a ha error hfailed => ?_⟩
    obtain ⟨c, -, rfl⟩ := List.mem_map.mp ha
    cases hfailed
  | wait hp ha hstep =>
    have hafter := hwaits hp ha hstep
    rw [Traced, hp] at hx
    exact ⟨.inl hx.1, hafter⟩
  | conclude hp ha hstep hall =>
    obtain ⟨hne, hafter⟩ := hwaits hp ha hstep
    rw [Traced]
    split
    · cases ‹_›
    · cases ‹_›
    · -- all waits have ended without success, so the acknowledgments are all lost
      next e heq =>
      intro _
      obtain ⟨b, hb, error, hfailed⟩ := failed_of_verdict hne hall (SendPhase.done.inj heq)
      exact hafter b hb error hfailed
    · cases ‹_›
    · cases ‹_›
    · trivial

end Send

namespace ClientSend

/-- A connection accepts the frame of the attempt that goes on. -/
def Accepts (c : Client) (w : Wire) (s : ClientSend) : Prop :=
  ∃ r x, s.phase = .sending r x ∧ x.payload = s.payload ∧ x.Accepts c.sender w

/-- An acknowledgment of the attempt that goes on is lost. -/
def LosesAck (pick : Nat) (c : Client) (w : Wire) (s : ClientSend) : Prop :=
  ∃ r x, s.phase = .sending r x ∧ x.LosesAck pick c.sender w

/-- What is known of a send over all its attempts so far. -/
def Traced (A L : Prop) (s : ClientSend) : Prop :=
  match s.phase with
  | .sending _ x => x.payload = s.payload ∧ x.Traced A L
  | .done (.ok ()) => True
  | .called | .attempting | .obtaining _ | .discarding _ _ | .pausing _ | .done (.error _) => A → L

variable {A L : Prop} {me now pick : Nat} {c c' : Client} {w w' : Wire} {s s' : ClientSend}

theorem Traced.congr (h : s.Traced A L) {A' L' : Prop} (hA : A ↔ A') (hL : L ↔ L') :
    s.Traced A' L' := by
  rwa [← propext hA, ← propext hL]

theorem between_imp (h : A → L) (hnot : ∀ r x, s.phase ≠ .sending r x) :
    (A ∨ s.Accepts c w) → (L ∨ s.LosesAck pick c w) := by
  rintro (ha | ⟨r, x, hp, -⟩)
  · exact .inl (h ha)
  · exact absurd hp (hnot r x)

theorem Traced.accepted (h : s.Traced A L) (hlost : s.LosesAck pick c w) : A := by
  obtain ⟨r, x, hp, counter, waits, failures, _, _, _, hwaiting, _⟩ := hlost
  rw [Traced, hp] at h
  have hx := h.2
  rw [Send.Traced, hwaiting] at hx
  exact hx.1

/-- An attempt has the payload of its send, so what it has accepted counts. -/
theorem accepts_iff {r : Ref} {x : Send} (hp : s.phase = .sending r x)
    (hpayload : x.payload = s.payload) : x.Accepts c.sender w ↔ s.Accepts c w := by
  constructor
  · intro haccepts
    exact ⟨r, x, hp, hpayload, haccepts⟩
  · rintro ⟨r', x', hp', -, haccepts⟩
    obtain ⟨-, rfl⟩ := ClientSendPhase.sending.inj (hp.symm.trans hp')
    exact haccepts

theorem losesAck_iff {r : Ref} {x : Send} (hp : s.phase = .sending r x) :
    x.LosesAck pick c.sender w ↔ s.LosesAck pick c w := by
  constructor
  · intro hloses
    exact ⟨r, x, hp, hloses⟩
  · rintro ⟨r', x', hp', hloses⟩
    obtain ⟨-, rfl⟩ := ClientSendPhase.sending.inj (hp.symm.trans hp')
    exact hloses

/-- What is known of a send after one of its steps. -/
theorem Move.traced (h : Move me now pick c w s c' w' s') (hs : s.Traced A L) :
    s'.Traced (A ∨ s.Accepts c w) (L ∨ s.LosesAck pick c w) := by
  cases h with
  | refuse hp =>
    rcases hp with ⟨hp, rfl⟩ | ⟨⟨hp | ⟨_, hp⟩, _⟩, rfl⟩
    all_goals
      rw [Traced, hp] at hs
      exact between_imp hs (by simp [hp])
  | attempt hp =>
    rcases hp with hp | ⟨_, hp⟩
    all_goals
      rw [Traced, hp] at hs
      exact between_imp hs (by simp [hp])
  | call hp =>
    rw [Traced, hp] at hs
    exact between_imp hs (by simp [hp])
  | @obtain o o' _ hp =>
    rw [Traced, hp] at hs
    have himp : (A ∨ s.Accepts c w) → (L ∨ s.LosesAck pick c w) := between_imp hs (by simp [hp])
    rcases afterObtain_cases s.payload o' with ⟨r, -, heq⟩ | heq | heq
    · rw [Traced, heq]
      exact ⟨rfl, himp⟩
    · rw [Traced, heq]
      exact himp
    · rw [Traced, heq]
      exact himp
  | @discard r d d' _ _ hp =>
    rw [Traced, hp] at hs
    have himp : (A ∨ s.Accepts c w) → (L ∨ s.LosesAck pick c w) := between_imp hs (by simp [hp])
    rcases afterDiscard_cases r d' with heq | heq
    · rw [Traced, heq]
      exact himp
    · rw [Traced, heq]
      exact himp
  | @send r x x' sender _ hp hmove =>
    rw [Traced, hp] at hs
    obtain ⟨hpayload, hx⟩ := hs
    have hx' := hmove.traced hx
    rw [propext (accepts_iff hp hpayload), propext (losesAck_iff hp)] at hx'
    rcases afterSend_cases now c.retry r x' with heq | ⟨-, heq⟩ | ⟨e, hdone, heq | heq | heq⟩
    · rw [Traced, heq]
      exact ⟨hmove.payload.trans hpayload, hx'⟩
    · rw [Traced, heq]
      trivial
    all_goals
      rw [Send.Traced, hdone] at hx'
      rw [Traced, heq]
      exact hx'

end ClientSend

namespace Exchange

/-- In a step of the send at a place, a connection accepts a frame with a payload. -/
def Accepts (place : Nat) (payload : Bytes) (p : Exchange) (e : Event) : Prop :=
  ∃ pick s, e = .move place pick ∧ p.callAt? place = some s ∧ s.payload = payload ∧
    s.Accepts p.client p.wire

/-- In a step of the send at a place, reading an acknowledgment fails. -/
def LosesAck (place : Nat) (p : Exchange) (e : Event) : Prop :=
  ∃ pick s, e = .move place pick ∧ p.callAt? place = some s ∧ s.LosesAck pick p.client p.wire

theorem accepts_move_iff {p : Exchange} {place : Nat} {s : ClientSend}
    (hs : p.callAt? place = some s) (pick : Nat) :
    s.Accepts p.client p.wire ↔ Accepts place s.payload p (.move place pick) := by
  constructor
  · intro haccepts
    exact ⟨pick, s, rfl, hs, rfl, haccepts⟩
  · rintro ⟨_, t, -, ht, -, haccepts⟩
    obtain rfl := Option.some.inj (hs.symm.trans ht)
    exact haccepts

theorem losesAck_move_iff {p : Exchange} {place : Nat} {s : ClientSend}
    (hs : p.callAt? place = some s) (pick : Nat) :
    s.LosesAck pick p.client p.wire ↔ LosesAck place p (.move place pick) := by
  constructor
  · intro hloses
    exact ⟨pick, s, rfl, hs, hloses⟩
  · rintro ⟨other, t, heq, ht, hloses⟩
    obtain ⟨-, rfl⟩ := Event.move.inj heq
    obtain rfl := Option.some.inj (hs.symm.trans ht)
    exact hloses

/-- A step in which a frame is accepted, or an acknowledgment lost, is one. -/
theorem move_ne_none {p : Exchange} {place pick : Nat} {s : ClientSend}
    (hs : p.callAt? place = some s)
    (h : s.Accepts p.client p.wire ∨ s.LosesAck pick p.client p.wire) :
    p.move place pick ≠ none := by
  have hact := callAt?_eq_some.mp hs
  rcases h with ⟨r, x, hp, -, _, _, _, _, _, _, _, hwriting, hw⟩ |
    ⟨r, x, hp, counter, _, _, a, _, _, hwaiting, ha, hnone, hopen, hread⟩
  · simp [move, hact, ClientActivity.step, ClientSend.step, hp, Send.step, hwriting, hw]
  · have hack : ∃ t, a.step counter p.client.sender p.wire = some t := by
      simp [AckWait.step, hnone, hopen, hread]
    obtain ⟨t, ht⟩ := hack
    have hstep : (x.step place pick p.client.sender p.wire).isSome = true := by
      rw [Send.step, hwaiting]
      simp only [ha, ht]
      split <;> rfl
    obtain ⟨y, hy⟩ := Option.isSome_iff_exists.mp hstep
    simp [move, hact, ClientActivity.step, ClientSend.step, hp, hy]

/-- What is known of the send at a place after anything that may happen. -/
theorem Goes.traced {p : Exchange} {place : Nat} {s s' : ClientSend} {e : Event} {A L : Prop}
    (hs : p.callAt? place = some s) (hgoes : p.Goes place s e s') (h : s.Traced A L) :
    s'.Traced (A ∨ Accepts place s.payload p e) (L ∨ LosesAck place p e) := by
  -- what is not a step of the send neither has a frame accepted nor loses an acknowledgment
  have hstill {t : ClientSend} (hnone : ∀ pick, e = .move place pick → p.move place pick = none)
      (ht : t.Traced A L) :
      t.Traced (A ∨ Accepts place s.payload p e) (L ∨ LosesAck place p e) := by
    refine ht.congr (or_iff_left ?_).symm (or_iff_left ?_).symm
    · rintro ⟨pick, _, rfl, haccepts⟩
      exact move_ne_none hs (.inl ((accepts_move_iff hs pick).mpr ⟨pick, _, rfl, haccepts⟩))
        (hnone pick rfl)
    · rintro ⟨pick, _, rfl, hloses⟩
      exact move_ne_none hs (.inr ((losesAck_move_iff hs pick).mpr ⟨pick, _, rfl, hloses⟩))
        (hnone pick rfl)
  cases hgoes with
  | @move pick _ _ _ he hmove =>
    subst he
    exact (hmove.traced h).congr (or_congr_right (accepts_move_iff hs pick))
      (or_congr_right (losesAck_move_iff hs pick))
  | linked r hne hp =>
    rw [ClientSend.Traced, hp] at h
    exact hstill (fun pick heq => absurd heq (hne pick)) ⟨rfl, h⟩
  | failed deadline hne hp =>
    rw [ClientSend.Traced, hp] at h
    exact hstill (fun pick heq => absurd heq (hne pick)) h
  | stay hnone => exact hstill hnone h

/-- What is lost in a step had been accepted before. -/
theorem accepted_of_losesAck {p : Exchange} {place : Nat} {s : ClientSend} {A L : Prop}
    (hs : p.callAt? place = some s) (h : s.Traced A L) {e : Event} (hlost : LosesAck place p e) :
    A := by
  obtain ⟨pick, t, -, ht, hloses⟩ := hlost
  obtain rfl := Option.some.inj (hs.symm.trans ht)
  exact h.accepted hloses

/-- What is known of the send at a place after a run. -/
theorem traced_applyAll {p : Exchange} {place : Nat} {s : ClientSend} {A L : Prop}
    (hs : p.callAt? place = some s) (h : s.Traced A L) (hLA : L → A) (events : List Event) :
    ∃ s', (p.applyAll events).callAt? place = some s' ∧
      s'.Traced (A ∨ Sometime apply (Accepts place s.payload) p events)
        (L ∨ Sometime apply (LosesAck place) p events) ∧
      ((L ∨ Sometime apply (LosesAck place) p events) →
        A ∨ Sometime apply (Accepts place s.payload) p events) := by
  induction events generalizing p s A L with
  | nil =>
    refine ⟨s, hs, h.congr (or_iff_left id).symm (or_iff_left id).symm, ?_⟩
    exact Or.imp hLA id
  | cons e rest ih =>
    obtain ⟨t, ht, hgoes⟩ := goes_apply hs e
    have htraced := hgoes.traced hs h
    have hLA' : (L ∨ LosesAck place p e) → (A ∨ Accepts place s.payload p e) := by
      rintro (hL | hlost)
      · exact .inl (hLA hL)
      · exact .inl (accepted_of_losesAck hs h hlost)
    obtain ⟨s', hs', htraced', hLA''⟩ := ih ht htraced hLA'
    rw [hgoes.payload] at htraced' hLA''
    refine ⟨s', hs', htraced'.congr or_assoc or_assoc, ?_⟩
    intro hL
    exact or_assoc.mp (hLA'' (or_assoc.mpr hL))

/-- If a send of the client returns that the client was closed, then a connection has accepted a
frame with its payload in the course of the call exactly if reading an acknowledgment has failed in
the course of the call. So its payload was never written if no acknowledgment was lost, and was
written otherwise. -/
theorem accepted_iff_lost_of_closed (p : Exchange) (payload : Bytes) (events : List Event)
    (closed : ((p.apply (.send payload)).applyAll events).sent? p.activities.length
      = some (.error .closed)) :
    Sometime apply (Accepts p.activities.length payload) (p.apply (.send payload)) events ↔
      Sometime apply (LosesAck p.activities.length) (p.apply (.send payload)) events := by
  have hcall : (p.apply (.send payload)).callAt? p.activities.length = some ⟨payload, .called⟩ :=
    callAt?_eq_some.mpr List.getElem?_concat_length
  -- before the first attempt nothing was accepted and nothing was lost
  have hfresh : ClientSend.Traced False False ⟨payload, .called⟩ := id
  obtain ⟨s, hs, htraced, hlost⟩ := traced_applyAll hcall hfresh id events
  obtain ⟨t, ht, hdone⟩ := sent?_eq_some.mp closed
  obtain rfl := Option.some.inj (hs.symm.trans ht)
  rw [ClientSend.Traced, hdone] at htraced
  rw [false_or, false_or] at htraced hlost
  exact ⟨htraced, hlost⟩

/-- A client that asks for acknowledgments and has not begun anything. -/
def lone : Exchange where
  client :=
    { address := "127.0.0.1:22111"
      retry := 5000
      sender := { withAcknowledge := true }
      receiver := { handler := .accepting, blockOnError := false, retry := 5000 } }

/-- A dial succeeds, the frame is accepted, the connection ends before an acknowledgment arrives,
and the client is closed before the next attempt. -/
def lostRun : List Event :=
  [.move 0 0, .move 0 0, .move 0 0, .move 0 0, .move 0 0,
    .answer 0 (some ({ id := "near", isOpen := true }, { id := "far", isOpen := true })),
    .move 0 0, .move 0 0, .move 0 0, .move 0 0, .occur 0 (.arrive [.failure .closedByPeer]),
    .move 0 0, .move 0 0, .move 0 0, .move 0 0, .close, .move 1 0, .move 0 0]

/-- A payload has been written, and still its send returns that the client was closed. -/
theorem accepted_lostRun : ((lone.apply (.send [120])).applyAll lostRun).sent? 0
      = some (.error .closed) ∧
    Sometime apply (Accepts 0 [120]) (lone.apply (.send [120])) lostRun := by
  have hclosed : ((lone.apply (.send [120])).applyAll lostRun).sent? lone.activities.length
      = some (.error .closed) := rfl
  have hlost : Sometime apply (LosesAck 0) (lone.apply (.send [120])) lostRun := by
    -- the acknowledgment is lost in the twelfth event of the run
    iterate 11 refine .inr ?_
    exact .inl ⟨0, _, rfl, rfl, _, _, rfl, _, _, _, _, _, _, rfl, rfl, rfl, rfl, rfl⟩
  exact ⟨hclosed, (accepted_iff_lost_of_closed lone [120] lostRun hclosed).mpr hlost⟩

end Exchange

end BlockFeed
