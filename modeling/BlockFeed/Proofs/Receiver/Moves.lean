import BlockFeed.Proofs.Link.Sturdy
import BlockFeed.Proofs.Link.Usage
import BlockFeed.Receiver

/-!
# Moves of a reading

Everything that one step of a reading can do. Statements about receivers follow these cases and do
not open the step function again.

## Main definitions

* `Receiver.Grows`, `GrowAll`: receivers may have handed over more in between.
* `Listen.Move`: what a step of a reading does.
-/

namespace BlockFeed

namespace Receiver

/-- The receiver is as it was set up, and may have handed over more. -/
structure Grows (r r' : Receiver) : Prop where
  blockOnError : r'.blockOnError = r.blockOnError
  handled : r.handled <+: r'.handled

theorem Grows.refl (r : Receiver) : r.Grows r := ⟨rfl, List.prefix_refl _⟩

theorem Grows.trans {r r' r'' : Receiver} (h : r.Grows r') (h' : r'.Grows r'') : r.Grows r'' :=
  ⟨h'.blockOnError.trans h.blockOnError, h.handled.trans h'.handled⟩

theorem grows_close (r : Receiver) : r.Grows r.close := ⟨rfl, List.prefix_refl _⟩

theorem handled_handOver (r : Receiver) (d : Delivery) :
    (r.handOver d).handled = r.handled ++ [⟨d, r.answer d⟩] := by
  rw [handOver]
  split <;> rfl

theorem grows_handOver (r : Receiver) (d : Delivery) : r.Grows (r.handOver d) := by
  constructor
  · rw [handOver]
    split <;> rfl
  · rw [handled_handOver]
    exact List.prefix_append _ _

end Receiver

/-- There may be more receivers, and those that were there have grown. -/
def GrowAll (R R' : List Receiver) : Prop :=
  ∀ (i : Nat) (r : Receiver), R[i]? = some r → ∃ r', R'[i]? = some r' ∧ r.Grows r'

namespace GrowAll

theorem refl (R : List Receiver) : GrowAll R R := fun _ r h => ⟨r, h, .refl r⟩

theorem trans {R R' R'' : List Receiver} (h : GrowAll R R') (h' : GrowAll R' R'') :
    GrowAll R R'' := by
  intro i r hr
  obtain ⟨r', hr', hgrows⟩ := h i r hr
  obtain ⟨r'', hr'', hgrows'⟩ := h' i r' hr'
  exact ⟨r'', hr'', hgrows.trans hgrows'⟩

theorem append (R more : List Receiver) : GrowAll R (R ++ more) := by
  intro i r hr
  have hlt : i < R.length := (List.getElem?_eq_some_iff.mp hr).1
  exact ⟨r, (List.getElem?_append_left hlt).trans hr, .refl r⟩

theorem set {R : List Receiver} {i : Nat} {r r' : Receiver} (hr : R[i]? = some r)
    (h : r.Grows r') : GrowAll R (R.set i r') := by
  intro j q hq
  by_cases hij : i = j
  · subst hij
    obtain rfl : r = q := Option.some.inj (hr.symm.trans hq)
    have hlt : i < R.length := (List.getElem?_eq_some_iff.mp hr).1
    exact ⟨r', by rw [List.getElem?_set_self hlt], h⟩
  · exact ⟨q, by rw [List.getElem?_set_ne hij, hq], .refl q⟩

theorem close (R : List Receiver) (i : Nat) : GrowAll R (R.modify i (·.close)) := by
  intro j q hq
  rw [List.getElem?_modify, hq]
  by_cases hij : i = j
  · exact ⟨q.close, by simp [hij], q.grows_close⟩
  · exact ⟨q, by simp [hij], .refl q⟩

/-- A receiver that is closed hands nothing over by that. -/
theorem deliveries_close {R : List Receiver} {i j : Nat} {q : Receiver}
    (hq : (R.modify i (·.close))[j]? = some q) :
    ∃ r, R[j]? = some r ∧ q.deliveries = r.deliveries := by
  rw [List.getElem?_modify] at hq
  obtain ⟨r, hr, rfl⟩ := Option.map_eq_some_iff.mp hq
  refine ⟨r, hr, ?_⟩
  split <;> rfl

end GrowAll

namespace Listen

/-- What a step of a reading does at a time. -/
inductive Move (now : Nat) (r : Receiver) (w : Wire) (l : Listen) :
    Receiver → Wire → Listen → Prop where
  /-- It begins. -/
  | begin : l.phase = .called →
      Move now r w l { r with state := .listening } w { l with phase := .reading }
  /-- The receiver was closed. -/
  | cancel : l.phase = .reading ∨ (∃ deadline resume, l.phase = .pausing deadline resume) →
      r.cancel.closed = true → Move now r w l { r with state := .cancelled } w
        { l with phase := .done false }
  /-- A frame was read, and its payload is handed over. -/
  | handOver {bytes : Bytes} {frame : Frame} {w' : Wire} : l.phase = .reading →
      w.read? l.conn = some (.ok bytes, w') → Frame.decode bytes = .ok frame →
      Move now r w l (r.handOver ⟨frame.payload, frame.counter⟩) w'
        { l with phase := .handling frame (r.answer ⟨frame.payload, frame.counter⟩) }
  /-- Something else was read, and is passed over. -/
  | skip {bytes : Bytes} {e : CodecError} {w' : Wire} : l.phase = .reading →
      w.read? l.conn = some (.ok bytes, w') → Frame.decode bytes = .error e →
      Move now r w l r w' { l with phase := .reading }
  /-- The connection was found to be gone, by a read or by the write of an acknowledgment. -/
  | lose {w' : Wire} {e : ConnectionError} : e.isClosed = true →
      (l.phase = .reading ∧ w.read? l.conn = some (.error e, w')) ∨
        (∃ counter, l.phase = .acknowledging counter ∧
          w.write l.conn (Ack.encode counter) = (.error e, w')) →
      Move now r w l { r with state := .closed } w' { l with phase := .done true }
  /-- A read or the write of an acknowledgment failed, and the receiver was closed: there is no
  pause. -/
  | giveUp {w' : Wire} {e : ConnectionError} : e.isClosed = false → r.cancel.closed = true →
      (l.phase = .reading ∧ w.read? l.conn = some (.error e, w')) ∨
        (∃ counter, l.phase = .acknowledging counter ∧
          w.write l.conn (Ack.encode counter) = (.error e, w')) →
      Move now r w l { r with state := .cancelled } w' { l with phase := .done false }
  /-- Reading failed, and is tried again later. -/
  | retryRead {w' : Wire} {e : ConnectionError} : l.phase = .reading →
      w.read? l.conn = some (.error e, w') → e.isClosed = false →
      (r.cancel.closed = true → r.retry = 0) →
      Move now r w l r w' { l with phase := .pausing (now + r.retry) .read }
  /-- The handler has answered, and the frame is to be acknowledged. -/
  | conclude {frame : Frame} {answer : Except HandlerError Unit} :
      l.phase = .handling frame answer → frame.ackRequested = true →
      (answer.isOk = true ∨ r.blockOnError = false) →
      Move now r w l r w { l with phase := .acknowledging frame.counter }
  /-- The handler has answered, and the frame is not to be acknowledged. -/
  | withhold {frame : Frame} {answer : Except HandlerError Unit} :
      l.phase = .handling frame answer →
      (frame.ackRequested = false ∨ answer.isOk = false ∧ r.blockOnError = true) →
      Move now r w l r w { l with phase := .reading }
  /-- The acknowledgment was written. -/
  | acknowledge {counter : UInt64} {w' : Wire} : l.phase = .acknowledging counter →
      w.write l.conn (Ack.encode counter) = (.ok (), w') →
      Move now r w l r w' { l with phase := .reading }
  /-- The acknowledgment could not be written, and is tried again later. -/
  | retryAcknowledge {counter : UInt64} {w' : Wire} {e : ConnectionError} :
      l.phase = .acknowledging counter →
      w.write l.conn (Ack.encode counter) = (.error e, w') → e.isClosed = false →
      (r.cancel.closed = true → r.retry = 0) →
      Move now r w l r w' { l with phase := .pausing (now + r.retry) (.acknowledge counter) }
  /-- A pause before a read is over. -/
  | resumeRead {deadline : Nat} : l.phase = .pausing deadline .read → deadline ≤ now →
      Move now r w l r w { l with phase := .reading }
  /-- A pause before the write of an acknowledgment is over. -/
  | resumeAcknowledge {deadline : Nat} {counter : UInt64} :
      l.phase = .pausing deadline (.acknowledge counter) → deadline ≤ now →
      Move now r w l r w { l with phase := .acknowledging counter }

variable {now pick : Nat} {r r' : Receiver} {w w' : Wire} {l l' : Listen}

/-- A reading that waits returns because its receiver was closed, or goes on. -/
theorem unlessClosed_eq_some {ready : Option (Receiver × Wire × Listen)}
    {after : Receiver × Wire × Listen} (h : unlessClosed pick r w l ready = some after) :
    (r.cancel.closed = true ∧ after = finish false r w l) ∨ ready = some after := by
  rw [unlessClosed] at h
  split at h
  · next hclosed =>
    rw [Bool.and_eq_true] at hclosed
    exact .inl ⟨hclosed.1, (Option.some.inj h).symm⟩
  · exact .inr h

theorem unlessClosed_eq_none {ready : Option (Receiver × Wire × Listen)} :
    unlessClosed pick r w l ready = none ↔ r.cancel.closed = false ∧ ready = none := by
  rw [unlessClosed]
  cases r.cancel.closed <;> cases ready
  case true.some => cases pick == 0 <;> simp
  all_goals simp

/-- A receiver that was closed does not pause, unless the pause is over at once. -/
theorem pause_cases (now : Nat) (resume : Resume) (r : Receiver) (w : Wire) (l : Listen) :
    (r.cancel.closed = true ∧ pause now resume r w l = finish false r w l) ∨
      ((r.cancel.closed = true → r.retry = 0) ∧
        pause now resume r w l = (r, w, { l with phase := .pausing (now + r.retry) resume })) := by
  rw [pause]
  split
  · next hclosed =>
    rw [Bool.and_eq_true] at hclosed
    exact .inl ⟨hclosed.1, rfl⟩
  · next hopen =>
    refine .inr ⟨fun hclosed => ?_, rfl⟩
    simpa [hclosed] using hopen

theorem move_of_take {result : Except ConnectionError Bytes} (hp : l.phase = .reading)
    (hread : w.read? l.conn = some (result, w')) (h : take now r l (result, w') = (r', w₁, l')) :
    Move now r w l r' w₁ l' := by
  cases result with
  | ok bytes =>
    rw [take, receive] at h
    split at h
    · next frame hdec =>
      obtain ⟨rfl, rfl, rfl⟩ := h
      exact .handOver hp hread hdec
    · next e hdec =>
      obtain ⟨rfl, rfl, rfl⟩ := h
      exact .skip hp hread hdec
  | error e =>
    rw [take] at h
    split at h
    · next hclosed =>
      obtain ⟨rfl, rfl, rfl⟩ := h
      exact .lose hclosed (.inl ⟨hp, hread⟩)
    · next htransient =>
      have htransient := Bool.eq_false_iff.mpr htransient
      rcases pause_cases now .read r w' l with ⟨hclosed, heq⟩ | ⟨hopen, heq⟩
      · obtain ⟨rfl, rfl, rfl⟩ := heq.symm.trans h
        exact .giveUp htransient hclosed (.inl ⟨hp, hread⟩)
      · obtain ⟨rfl, rfl, rfl⟩ := heq.symm.trans h
        exact .retryRead hp hread htransient hopen

theorem move_of_read (hp : l.phase = .reading)
    (h : l.step now pick r w = some (r', w', l')) : Move now r w l r' w' l' := by
  rw [step, hp] at h
  rcases unlessClosed_eq_some h with ⟨hclosed, heq⟩ | hready
  · obtain ⟨rfl, rfl, rfl⟩ := heq
    exact .cancel (.inl hp) hclosed
  · obtain ⟨⟨result, w₁⟩, hread, htake⟩ := Option.map_eq_some_iff.mp hready
    exact move_of_take hp hread htake

theorem move_of_conclude {frame : Frame} {answer : Except HandlerError Unit}
    (hp : l.phase = .handling frame answer) :
    Move now r w l r w (conclude frame answer r l) := by
  rw [Listen.conclude]
  split
  · next hack =>
    simp only [Bool.and_eq_true, Bool.or_eq_true, Bool.not_eq_true'] at hack
    exact .conclude hp hack.1 hack.2
  · next hack =>
    refine .withhold hp ?_
    cases hreq : frame.ackRequested with
    | false => exact .inl rfl
    | true =>
      refine .inr ?_
      simpa [hreq] using hack

theorem move_of_acknowledge {counter : UInt64} (hp : l.phase = .acknowledging counter)
    (h : l.step now pick r w = some (r', w', l')) : Move now r w l r' w' l' := by
  rw [step, hp] at h
  dsimp only at h
  split at h
  · next w₁ hw =>
    obtain ⟨rfl, rfl, rfl⟩ := Option.some.inj h
    exact .acknowledge hp hw
  · next e w₁ hw =>
    split at h
    · next hclosed =>
      obtain ⟨rfl, rfl, rfl⟩ := Option.some.inj h
      exact .lose hclosed (.inr ⟨counter, hp, hw⟩)
    · next htransient =>
      have htransient := Bool.eq_false_iff.mpr htransient
      rcases pause_cases now (.acknowledge counter) r w₁ l with ⟨hclosed, heq⟩ | ⟨hopen, heq⟩
      · obtain ⟨rfl, rfl, rfl⟩ := heq.symm.trans (Option.some.inj h)
        exact .giveUp htransient hclosed (.inr ⟨counter, hp, hw⟩)
      · obtain ⟨rfl, rfl, rfl⟩ := heq.symm.trans (Option.some.inj h)
        exact .retryAcknowledge hp hw htransient hopen

theorem move_of_pause {deadline : Nat} {resume : Resume} (hp : l.phase = .pausing deadline resume)
    (h : l.step now pick r w = some (r', w', l')) : Move now r w l r' w' l' := by
  rw [step, hp] at h
  rcases unlessClosed_eq_some h with ⟨hclosed, heq⟩ | hready
  · obtain ⟨rfl, rfl, rfl⟩ := heq
    exact .cancel (.inr ⟨deadline, resume, hp⟩) hclosed
  split at hready
  · cases hready
  next hdue =>
  have hdue : deadline ≤ now := by omega
  obtain ⟨rfl, rfl, rfl⟩ := Option.some.inj hready
  cases resume with
  | read => exact .resumeRead hp hdue
  | acknowledge counter => exact .resumeAcknowledge hp hdue

theorem move_of_step (h : l.step now pick r w = some (r', w', l')) : Move now r w l r' w' l' := by
  cases hp : l.phase with
  | called =>
    rw [step, hp] at h
    obtain ⟨rfl, rfl, rfl⟩ := Option.some.inj h
    exact .begin hp
  | reading => exact move_of_read hp h
  | handling frame answer =>
    rw [step, hp] at h
    obtain ⟨rfl, rfl, rfl⟩ := Option.some.inj h
    exact move_of_conclude hp
  | acknowledging counter => exact move_of_acknowledge hp h
  | pausing deadline resume => exact move_of_pause hp h
  | done gone =>
    rw [step, hp] at h
    cases h

/-- A reading that has no step is done, or it waits for a message or for the end of a pause. -/
theorem phase_of_step (h : l.step now pick r w = none) :
    (∃ gone, l.phase = .done gone) ∨ r.cancel.closed = false ∧
      (l.phase = .reading ∧ w.read? l.conn = none ∨
        ∃ deadline resume, l.phase = .pausing deadline resume ∧ now < deadline) := by
  cases hp : l.phase with
  | called | handling => simp [step, hp] at h
  | acknowledging counter =>
    simp only [step, hp] at h
    split at h
    · cases h
    · split at h <;> cases h
  | done gone => exact .inl ⟨gone, rfl⟩
  | reading =>
    rw [step, hp] at h
    obtain ⟨hopen, hnone⟩ := unlessClosed_eq_none.mp h
    exact .inr ⟨hopen, .inl ⟨rfl, Option.map_eq_none_iff.mp hnone⟩⟩
  | pausing deadline resume =>
    rw [step, hp] at h
    obtain ⟨hopen, hnone⟩ := unlessClosed_eq_none.mp h
    split at hnone
    · next hearly => exact .inr ⟨hopen, .inr ⟨deadline, resume, rfl, hearly⟩⟩
    · cases hnone

/-- A reading that has a step has one at every pick. -/
theorem step_eq_none_iff (pick' : Nat) :
    l.step now pick r w = none ↔ l.step now pick' r w = none := by
  rw [step, step]
  split
  case h_2 | h_5 => rw [unlessClosed_eq_none, unlessClosed_eq_none]
  all_goals rfl

theorem Move.conn (h : Move now r w l r' w' l') : l'.conn = l.conn := by
  cases h <;> rfl

theorem Move.grows (h : Move now r w l r' w' l') : r.Grows r' := by
  cases h with
  | handOver => exact r.grows_handOver _
  | begin | cancel | lose | giveUp => exact ⟨rfl, List.prefix_refl _⟩
  | skip | retryRead | conclude | withhold | acknowledge | retryAcknowledge | resumeRead
  | resumeAcknowledge => exact .refl r

theorem Move.retry (h : Move now r w l r' w' l') : r'.retry = r.retry := by
  cases h with
  | handOver =>
    rw [Receiver.handOver]
    split <;> rfl
  | begin | cancel | skip | lose | giveUp | retryRead | conclude | withhold | acknowledge
  | retryAcknowledge | resumeRead | resumeAcknowledge => rfl

/-- A reading closes its receiver only if the handler does. -/
theorem Move.cancel_of_stays (h : Move now r w l r' w' l')
    (stays : ∀ past d, (r.handler past d).closes = false) :
    r'.cancel = r.cancel ∧ r'.handler = r.handler := by
  cases h with
  | handOver =>
    rw [Receiver.handOver, stays]
    exact ⟨rfl, rfl⟩
  | begin | cancel | skip | lose | giveUp | retryRead | conclude | withhold | acknowledge
  | retryAcknowledge | resumeRead | resumeAcknowledge => exact ⟨rfl, rfl⟩

/-- A reading is not cancelled unless its receiver is closed. -/
theorem Move.closed_of_cancelled (h : Move now r w l r' w' l') (hresult : l'.result? = some false) :
    r.cancel.closed = true := by
  cases h with
  | cancel _ hclosed | giveUp _ hclosed => exact hclosed
  | begin | handOver | skip | lose | retryRead | conclude | withhold | acknowledge
  | retryAcknowledge | resumeRead | resumeAcknowledge => cases hresult

/-- A step of a reading brings no message but an acknowledgment to the other end. -/
theorem Move.brings (h : Move now r w l r' w' l') (mute : w.Mute) :
    ∃ news, w.Brings news w' ∧ ∀ f, ∀ bytes ∈ news f,
      w.peer? l.conn = some f ∧ ∃ counter, l.phase = .acknowledging counter ∧
        bytes = Ack.encode counter := by
  cases h with
  | begin | cancel | conclude | withhold | resumeRead | resumeAcknowledge =>
    exact ⟨_, Wire.Keeps.refl w, by simp⟩
  | handOver _ hread | skip _ hread | retryRead _ hread =>
    exact ⟨_, Wire.keeps_read hread, by simp⟩
  | lose _ hfail | giveUp _ _ hfail =>
    rcases hfail with ⟨_, hread⟩ | ⟨_, _, hw⟩
    · exact ⟨_, Wire.keeps_read hread, by simp⟩
    · exact ⟨_, Wire.keeps_of_write_error mute hw, by simp⟩
  | acknowledge hp hw =>
    refine ⟨_, Wire.brings_of_write mute hw, ?_⟩
    intro f bytes hb
    obtain ⟨hpeer, heq⟩ := Wire.mem_arrivals hb
    exact ⟨hpeer, _, hp, heq⟩
  | retryAcknowledge _ hw => exact ⟨_, Wire.keeps_of_write_error mute hw, by simp⟩

/-- A step of a reading reads and writes its own connection only, and writes nothing but an
acknowledgment. -/
theorem Move.logs (h : Move now r w l r' w' l') :
    ∃ calls read, w.Logs (w.only l.conn calls) (w.only l.conn read) w' ∧
      ∀ call ∈ calls, ∃ counter, l.phase = .acknowledging counter ∧
        call.bytes = Ack.encode counter := by
  have hstill : ∃ calls read, w.Logs (w.only l.conn calls) (w.only l.conn read) w ∧
      ∀ call ∈ calls, ∃ counter, l.phase = .acknowledging counter ∧
        call.bytes = Ack.encode counter :=
    ⟨[], [], by simpa using Wire.Still.refl w, nofun⟩
  have hreads {result : Except ConnectionError Bytes} {w' : Wire}
      (hread : w.read? l.conn = some (result, w')) :
      ∃ calls read, w.Logs (w.only l.conn calls) (w.only l.conn read) w' ∧
        ∀ call ∈ calls, ∃ counter, l.phase = .acknowledging counter ∧
          call.bytes = Ack.encode counter :=
    ⟨[], result.toOption.toList, by rw [Wire.only_nil]; exact Wire.logs_read hread, nofun⟩
  have hwrites {counter : UInt64} {result : Except ConnectionError Unit} {w' : Wire}
      (hp : l.phase = .acknowledging counter)
      (hw : w.write l.conn (Ack.encode counter) = (result, w')) :
      ∃ calls read, w.Logs (w.only l.conn calls) (w.only l.conn read) w' ∧
        ∀ call ∈ calls, ∃ counter, l.phase = .acknowledging counter ∧
          call.bytes = Ack.encode counter := by
    refine ⟨[⟨Ack.encode counter, (w.conn l.conn).isOpen, Connection.refusal result⟩], [], ?_,
      fun call hcall => ⟨counter, hp, by rw [List.mem_singleton.mp hcall]⟩⟩
    rw [Wire.only_nil (α := Bytes)]
    exact Wire.logs_write hw
  cases h with
  | begin | cancel | conclude | withhold | resumeRead | resumeAcknowledge => exact hstill
  | handOver _ hread | skip _ hread | retryRead _ hread => exact hreads hread
  | lose _ hfail | giveUp _ _ hfail =>
    rcases hfail with ⟨_, hread⟩ | ⟨_, hp, hw⟩
    · exact hreads hread
    · exact hwrites hp hw
  | acknowledge hp hw | retryAcknowledge hp hw => exact hwrites hp hw

/-- A step of a reading leaves every sturdy connection sturdy. -/
theorem Move.sturdy (h : Move now r w l r' w' l') {f : Ref} (hf : (w.conn f).Sturdy) :
    (w'.conn f).Sturdy := by
  cases h with
  | begin | cancel | conclude | withhold | resumeRead | resumeAcknowledge => exact hf
  | handOver _ hread | skip _ hread | retryRead _ hread => exact Wire.sturdy_read hf hread
  | lose _ hfail | giveUp _ _ hfail =>
    rcases hfail with ⟨_, hread⟩ | ⟨_, _, hw⟩
    · exact Wire.sturdy_read hf hread
    · exact Wire.sturdy_write hf hw
  | acknowledge _ hw | retryAcknowledge _ hw => exact Wire.sturdy_write hf hw

theorem Move.used (h : Move now r w l r' w' l') : w.Used w' := by
  cases h with
  | begin | cancel | conclude | withhold | resumeRead | resumeAcknowledge => exact .refl w
  | handOver _ hread | skip _ hread | retryRead _ hread => exact Wire.used_read hread
  | lose _ hfail | giveUp _ _ hfail =>
    rcases hfail with ⟨_, hread⟩ | ⟨_, _, hw⟩
    · exact Wire.used_read hread
    · exact Wire.used_write hw
  | acknowledge _ hw | retryAcknowledge _ hw => exact Wire.used_write hw

/-- A step of a reading hands over nothing, or the payload of the frame that it reads. -/
theorem Move.deliveries (h : Move now r w l r' w' l') :
    r'.deliveries = r.deliveries ∨ ∃ bytes frame, Frame.decode bytes = .ok frame ∧
      r'.deliveries = r.deliveries ++ [⟨frame.payload, frame.counter⟩] ∧
      (w'.conn l.conn).consumed = (w.conn l.conn).consumed ++ [bytes] := by
  cases h with
  | handOver _ hread hdec =>
    refine .inr ⟨_, _, hdec, ?_, (Wire.consumed_of_read hread).2⟩
    rw [Receiver.deliveries, Receiver.handled_handOver, List.map_append]
    rfl
  | begin | cancel | skip | lose | giveUp | retryRead | conclude | withhold | acknowledge
  | retryAcknowledge | resumeRead | resumeAcknowledge => exact .inl rfl

end Listen

end BlockFeed
