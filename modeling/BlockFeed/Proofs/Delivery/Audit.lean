import BlockFeed.Proofs.Codec.Messages
import BlockFeed.Proofs.Link.Traffic
import BlockFeed.Proofs.Receiver.Moves
import BlockFeed.Proofs.Sender.Ledger

/-!
# Audits of delivery

Why an acknowledgment can be relied on: whatever travels between a sender and receivers is either
the frame of an assignment, or the acknowledgment of a counter that a receiver has handed over.

## Main definitions

* `Receiver.Vouches`: a receiver has handed over the payload of a counter, and may say so.
* `Genuine`: a message that an assignment or a receiver answers for.
* `Audited`: everything on the wire and everything handed over is accounted for by the ledger.
* `Send.Accounted`, `Listen.Accounted`: what a send and a reading contribute, phase by phase.

## Design notes

The audit does not know which connection leads where. A counter is acknowledged nowhere before
it was handed over somewhere, so it does not matter who reads the acknowledgment or when, as long
as counters are not used twice.
-/

namespace BlockFeed

namespace Receiver

/-- The payload of a counter has been handed over, and not been refused if that matters. -/
def Vouches (r : Receiver) (counter : UInt64) : Prop :=
  ∃ h ∈ r.handled, h.delivery.counter = counter ∧ (r.blockOnError = true → h.result.isOk = true)

theorem Grows.vouches {r r' : Receiver} (h : r.Grows r') {counter : UInt64}
    (hv : r.Vouches counter) : r'.Vouches counter := by
  obtain ⟨d, hd, hcounter, hok⟩ := hv
  exact ⟨d, h.handled.subset hd, hcounter, fun hblock => hok (h.blockOnError ▸ hblock)⟩

end Receiver

def Vouched (R : List Receiver) (counter : UInt64) : Prop := ∃ r ∈ R, r.Vouches counter

theorem GrowAll.vouched {R R' : List Receiver} (h : GrowAll R R') {counter : UInt64}
    (hv : Vouched R counter) : Vouched R' counter := by
  obtain ⟨r, hr, hvouch⟩ := hv
  obtain ⟨i, hi⟩ := List.mem_iff_getElem?.mp hr
  obtain ⟨r', hr', hgrows⟩ := h i r hi
  exact ⟨r', List.mem_of_getElem? hr', hgrows.vouches hvouch⟩

/-- Messages that are answered for. -/
inductive Genuine (log : Ledger) (R : List Receiver) : Bytes → Prop where
  /-- The frame of an assignment. -/
  | frame {a : Assignment} (ackRequested : Bool) : a ∈ log →
      Genuine log R (Frame.encode ⟨ackRequested, a.counter, a.payload⟩)
  /-- An acknowledgment that a receiver stands behind. -/
  | ack {counter : UInt64} : Vouched R counter → Genuine log R (Ack.encode counter)

namespace Genuine

variable {log : Ledger} {R : List Receiver} {bytes : Bytes}

theorem mono {log' : Ledger} {R' : List Receiver} (h : Genuine log R bytes) (hlog : log ⊆ log')
    (hR : GrowAll R R') : Genuine log' R' bytes := by
  cases h with
  | frame ackRequested ha => exact .frame ackRequested (hlog ha)
  | ack hv => exact .ack (hR.vouched hv)

/-- What is read as a frame is that of an assignment. -/
theorem mem_of_decode (h : Genuine log R bytes) {f : Frame} (hf : Frame.decode bytes = .ok f) :
    ⟨f.payload, f.counter⟩ ∈ log.deliveries := by
  cases h with
  | @frame a ackRequested ha =>
    rw [Frame.decode_encode] at hf
    obtain rfl := Except.ok.inj hf
    exact List.mem_map_of_mem ha
  | ack _ =>
    rw [Frame.decode_ack] at hf
    cases hf

/-- What is read as an acknowledgment is that of a counter that was handed over. -/
theorem vouched_of_decode (h : Genuine log R bytes) {counter : UInt64}
    (hc : Ack.decode bytes = .ok counter) : Vouched R counter := by
  cases h with
  | frame _ _ =>
    rw [Ack.decode_frame] at hc
    cases hc
  | ack hv =>
    rw [Ack.decode_encode] at hc
    exact Except.ok.inj hc ▸ hv

end Genuine

/-- Between a sender and receivers, everything is accounted for by the ledger. -/
structure Audited (s : Sender) (R : List Receiver) (w : Wire) (log : Ledger) : Prop where
  /-- The counters are 1, 2, 3, and so on. -/
  numbered : log.Numbered
  /-- The sender stands at the last of them. -/
  last : s.lastCounter = UInt64.ofNat log.length
  /-- No connection answers of itself. -/
  mute : w.Mute
  /-- Every message that has arrived anywhere is answered for. -/
  genuine : ∀ r, ∀ bytes ∈ (w.conn r).messages, Genuine log R bytes
  /-- What was handed over was assigned. -/
  handled : ∀ r ∈ R, ∀ d ∈ r.deliveries, d ∈ log.deliveries

namespace Audited

variable {s s' : Sender} {R R' : List Receiver} {w w' : Wire} {log : Ledger}

theorem empty {s : Sender} (h : s.lastCounter = 0) : Audited s [] {} [] where
  numbered := Ledger.numbered_nil
  last := h
  mute := fun _ => rfl
  genuine := fun _ _ hm => nomatch hm
  handled := fun _ hr => nomatch hr

theorem brings (h : Audited s R w log) {news : Ref → List Bytes} (hw : w.Brings news w')
    (hnews : ∀ r, ∀ bytes ∈ news r, Genuine log R bytes) : Audited s R w' log where
  numbered := h.numbered
  last := h.last
  mute := hw.mute h.mute
  genuine := by
    intro r bytes hm
    rw [(hw.conn r).messages] at hm
    rcases List.mem_append.mp hm with hm | hm
    · exact h.genuine r bytes hm
    · exact hnews r bytes hm
  handled := h.handled

theorem keeps (h : Audited s R w log) (hw : w.Keeps w') : Audited s R w' log :=
  h.brings hw fun _ _ hm => nomatch hm

/-- A message that is answered for is accepted by a connection. -/
theorem writes (h : Audited s R w log) {r : Ref} {bytes : Bytes}
    (hw : w.write r bytes = (.ok (), w')) (hbytes : Genuine log R bytes) : Audited s R w' log := by
  refine h.brings (Wire.brings_of_write h.mute hw) ?_
  intro f b hb
  exact (Wire.mem_arrivals hb).2 ▸ hbytes

theorem fails (h : Audited s R w log) {r : Ref} {bytes : Bytes} {e : ConnectionError}
    (hw : w.write r bytes = (.error e, w')) : Audited s R w' log :=
  h.keeps (Wire.keeps_of_write_error h.mute hw)

/-- There is one more connection, at which nothing has arrived. -/
theorem add (h : Audited s R w log) {c : Connection} (hecho : c.echo = none)
    (hnone : c.messages = []) : Audited s R (w.add c).1 log where
  numbered := h.numbered
  last := h.last
  mute := by
    intro r
    rw [Wire.conn_add]
    split
    · exact hecho
    · exact h.mute r
  genuine := by
    intro r bytes hm
    rw [Wire.messages_add w hnone] at hm
    exact h.genuine r bytes hm
  handled := h.handled

theorem join (h : Audited s R w log) (a b : Ref) : Audited s R (w.join a b) log :=
  ⟨h.numbered, h.last, h.mute, h.genuine, h.handled⟩

theorem sender (h : Audited s R w log) (hs : s'.lastCounter = s.lastCounter) :
    Audited s' R w log :=
  ⟨h.numbered, hs.trans h.last, h.mute, h.genuine, h.handled⟩

theorem grow (h : Audited s R w log) (hR : GrowAll R R')
    (hhandled : ∀ r ∈ R', ∀ d ∈ r.deliveries, d ∈ log.deliveries) : Audited s R' w log where
  numbered := h.numbered
  last := h.last
  mute := h.mute
  genuine := fun r bytes hm => (h.genuine r bytes hm).mono (List.Subset.refl _) hR
  handled := hhandled

theorem set (h : Audited s R w log) {i : Nat} {r r' : Receiver} (hr : R[i]? = some r)
    (hgrows : r.Grows r') (hnew : ∀ d ∈ r'.deliveries, d ∈ log.deliveries) :
    Audited s (R.set i r') w log := by
  refine h.grow (GrowAll.set hr hgrows) ?_
  intro q hq d hd
  rcases List.mem_or_eq_of_mem_set hq with hq | rfl
  · exact h.handled q hq d hd
  · exact hnew d hd

theorem extend (h : Audited s R w log) {more : Ledger} (numbered : (log ++ more).Numbered)
    (last : s'.lastCounter = UInt64.ofNat (log ++ more).length) :
    Audited s' R w (log ++ more) where
  numbered := numbered
  last := last
  mute := h.mute
  genuine := fun r bytes hm =>
    (h.genuine r bytes hm).mono (List.subset_append_left log more) (.refl R)
  handled := by
    intro r hr d hd
    have hold := h.handled r hr d hd
    rw [Ledger.deliveries, List.map_append]
    exact List.mem_append_left _ hold

end Audited

section Waits

variable {log : Ledger} {R : List Receiver} {counter : UInt64} {s s' : Sender} {w w' : Wire}
  {a a' : AckWait}

/-- While the sender is open, a wait that ends without a failure has read an acknowledgment, so its
counter was handed over. -/
theorem AckWait.Move.vouched (h : Move counter s w a s' w' a') (audit : Audited s R w log)
    (isOpen : s.cancel.closed = false) (ha : a.delivered = true → Vouched R counter) :
    a'.delivered = true → Vouched R counter := by
  cases h with
  | cancel _ hclosed =>
    -- the one way to end without a failure and without an acknowledgment
    rw [isOpen] at hclosed
    cases hclosed
  | acknowledge _ _ hread hack =>
    intro _
    have hmem := (Wire.consumed_of_read hread).1
    exact (audit.genuine a.conn _ hmem).vouched_of_decode hack
  | ignore => exact ha
  | fail =>
    intro hfail
    cases hfail

end Waits

namespace Send

/-- What is known of a send under its number: since it writes, its payload has a counter, and a
wait that did not fail, or success, means that the counter was handed over. -/
def Accounted (R : List Receiver) (log : Ledger) (me : Nat) (x : Send) : Prop :=
  match x.phase with
  | .called | .queued => True
  | .writing counter _ _ _ => ⟨me, x.payload, counter⟩ ∈ log
  | .waiting counter waits _ =>
    ⟨me, x.payload, counter⟩ ∈ log ∧ ∀ a ∈ waits, a.delivered = true → Vouched R counter
  | .done result =>
    result = .ok () → ∃ counter, ⟨me, x.payload, counter⟩ ∈ log ∧ Vouched R counter

variable {R R' : List Receiver} {log log' : Ledger} {me pick : Nat} {s s' : Sender} {w w' : Wire}
  {x x' : Send}

theorem Accounted.mono (h : x.Accounted R log me) (hlog : log ⊆ log') (hR : GrowAll R R') :
    x.Accounted R' log' me := by
  rw [Accounted] at h ⊢
  split
  · trivial
  · trivial
  · next hp =>
    rw [hp] at h
    exact hlog h
  · next hp =>
    rw [hp] at h
    exact ⟨hlog h.1, fun a ha hd => hR.vouched (h.2 a ha hd)⟩
  · next hp =>
    rw [hp] at h
    intro hok
    obtain ⟨counter, hmem, hv⟩ := h hok
    exact ⟨counter, hlog hmem, hR.vouched hv⟩

/-- A frame that is being written is that of an assignment. -/
theorem Accounted.genuine {counter : UInt64} {rest written : List (String × Ref)}
    {failures : List Failure} (h : x.Accounted R log me)
    (hp : x.phase = .writing counter rest written failures) :
    Genuine log R (x.frame s counter) := by
  rw [Accounted, hp] at h
  exact .frame (a := ⟨me, x.payload, counter⟩) s.withAcknowledge h

/-- The audit is kept by every step of a send. -/
theorem Move.audited (h : Move me pick s w x s' w' x') (audit : Audited s R w log)
    (hx : x.Accounted R log me) :
    Audited s' R w' (log ++ Ledger.taken me (some x) (some x')) := by
  obtain ⟨numbered, last⟩ := h.numbered audit.numbered audit.last
  cases h with
  | refuse | enqueue | abandon | start | fail | succeed | await =>
    exact audit.extend numbered last
  | accept hp hw => exact (audit.writes hw (hx.genuine hp)).extend numbered last
  | reject hp hw => exact (audit.fails hw).extend numbered last
  | wait _ _ hstep | conclude _ _ hstep =>
    have hkeeps := (AckWait.move_of_step hstep).wire audit.mute
    exact (audit.keeps hkeeps).extend numbered last

/-- While the sender asks for acknowledgments and is open, every step of a send leaves it with what
is to be known of it. -/
theorem Move.accounted (h : Move me pick s w x s' w' x') (audit : Audited s R w log)
    (acks : s.withAcknowledge = true) (isOpen : s.cancel.closed = false)
    (hx : x.Accounted R log me) :
    x'.Accounted R (log ++ Ledger.taken me (some x) (some x')) me := by
  have hold : x.Accounted R (log ++ Ledger.taken me (some x) (some x')) me :=
    hx.mono (List.subset_append_left _ _) (.refl R)
  have hwaits {counter : UInt64} {waits : List AckWait} {a a' : AckWait} {s₁ : Sender} {w₁ : Wire}
      (ha : waits[pick]? = some a) (hstep : a.step counter s w = some (s₁, w₁, a'))
      (hall : ∀ a ∈ waits, a.delivered = true → Vouched R counter) :
      ∀ b ∈ waits.set pick a', b.delivered = true → Vouched R counter := by
    intro b hb
    rcases List.mem_or_eq_of_mem_set hb with hb | rfl
    · exact hall b hb
    · exact (AckWait.move_of_step hstep).vouched audit isOpen (hall a (List.mem_of_getElem? ha))
  cases h with
  | refuse | abandon | fail =>
    intro hok
    cases hok
  | enqueue => trivial
  | start hp =>
    rw [Accounted, Ledger.taken_of_writing hp rfl]
    exact List.mem_append_right log (List.mem_singleton_self _)
  | accept hp | reject hp =>
    rw [Accounted, hp] at hold
    exact hold
  | succeed _ _ hack =>
    -- without acknowledgments success would mean nothing
    rw [acks] at hack
    cases hack
  | await hp =>
    rw [Accounted, hp] at hold
    refine ⟨hold, ?_⟩
    intro a ha hd
    obtain ⟨c, -, rfl⟩ := List.mem_map.mp ha
    cases hd
  | wait hp ha hstep =>
    rw [Accounted, hp] at hx hold
    exact ⟨hold.1, hwaits ha hstep hx.2⟩
  | conclude hp ha hstep =>
    rw [Accounted, hp] at hx hold
    intro hok
    rw [verdict] at hok
    split at hok
    · next hany =>
      obtain ⟨b, hb, hd⟩ := List.any_eq_true.mp hany
      exact ⟨_, hold.1, hwaits ha hstep hx.2 b hb hd⟩
    · cases hok

end Send

namespace Listen

/-- What is known of a reading of a receiver: a payload that is being handled was handed over, and
the receiver vouches for a counter that it acknowledges. -/
def Accounted (r : Receiver) (l : Listen) : Prop :=
  match l.phase with
  | .handling frame answer => ⟨⟨frame.payload, frame.counter⟩, answer⟩ ∈ r.handled
  | .acknowledging counter | .pausing _ (.acknowledge counter) => r.Vouches counter
  | .called | .reading | .pausing _ .read | .done _ => True

variable {R : List Receiver} {log : Ledger} {now i : Nat} {s : Sender} {r r' : Receiver}
  {w w' : Wire} {l l' : Listen}

theorem Accounted.mono (h : l.Accounted r) (hr : r.Grows r') : l.Accounted r' := by
  rw [Accounted] at h ⊢
  split
  · next hp =>
    rw [hp] at h
    exact hr.handled.subset h
  · next hp =>
    rw [hp] at h
    exact hr.vouches h
  · next hp =>
    rw [hp] at h
    exact hr.vouches h
  all_goals trivial

/-- Every step of a reading leaves it with what is to be known of it. -/
theorem Move.accounted (h : Move now r w l r' w' l') (hl : l.Accounted r) : l'.Accounted r' := by
  cases h with
  | handOver =>
    rw [Accounted, Receiver.handled_handOver]
    exact List.mem_append_right _ (List.mem_singleton_self _)
  | conclude hp _ hok =>
    rw [Accounted, hp] at hl
    refine ⟨_, hl, rfl, ?_⟩
    intro hblock
    rcases hok with hok | hok
    · exact hok
    · rw [hok] at hblock
      cases hblock
  | retryAcknowledge hp | resumeAcknowledge hp =>
    rw [Accounted, hp] at hl
    exact hl
  | begin | cancel | skip | lose | giveUp | retryRead | withhold | acknowledge | resumeRead =>
    trivial

/-- The audit is kept by every step of a reading. -/
theorem Move.audited (h : Move now r w l r' w' l') (audit : Audited s R w log)
    (hr : R[i]? = some r) (hl : l.Accounted r) : Audited s (R.set i r') w' log := by
  have hgrows := h.grows
  have hmem := List.mem_of_getElem? hr
  cases h with
  | begin | cancel => exact audit.set hr hgrows (audit.handled r hmem)
  | handOver _ hread hdec =>
    refine (audit.keeps (Wire.keeps_read hread)).set hr hgrows ?_
    intro d hd
    rw [Receiver.deliveries, Receiver.handled_handOver, List.map_append] at hd
    rcases List.mem_append.mp hd with hd | hd
    · exact audit.handled r hmem d hd
    · obtain rfl := List.mem_singleton.mp hd
      exact (audit.genuine l.conn _ (Wire.consumed_of_read hread).1).mem_of_decode hdec
  | skip _ hread | retryRead _ hread =>
    exact (audit.keeps (Wire.keeps_read hread)).set hr hgrows (audit.handled r hmem)
  | lose _ hfail | giveUp _ _ hfail =>
    rcases hfail with ⟨_, hread⟩ | ⟨_, _, hw⟩
    · exact (audit.keeps (Wire.keeps_read hread)).set hr hgrows (audit.handled r hmem)
    · exact (audit.fails hw).set hr hgrows (audit.handled r hmem)
  | acknowledge hp hw =>
    rw [Accounted, hp] at hl
    exact (audit.writes hw (.ack ⟨r, hmem, hl⟩)).set hr hgrows (audit.handled r hmem)
  | retryAcknowledge _ hw =>
    exact (audit.fails hw).set hr hgrows (audit.handled r hmem)
  | conclude | withhold | resumeRead | resumeAcknowledge =>
    exact audit.set hr hgrows (audit.handled r hmem)

/-- What is known of a reading by one of many receivers; nobody has read in the name of a receiver
that is not there. -/
def AccountedBy (R : List Receiver) (i : Nat) (l : Listen) : Prop :=
  match R[i]? with
  | some r => l.Accounted r
  | none => l.phase = .called

theorem accountedBy_called (R : List Receiver) (i : Nat) (c : Ref) :
    AccountedBy R i ⟨c, .called⟩ := by
  rw [AccountedBy]
  split
  · trivial
  · rfl

theorem AccountedBy.accounted (h : l.AccountedBy R i) (hr : R[i]? = some r) : l.Accounted r := by
  rw [AccountedBy, hr] at h
  exact h

theorem AccountedBy.mono {R' : List Receiver} (h : l.AccountedBy R i) (hR : GrowAll R R') :
    l.AccountedBy R' i := by
  cases hr : R[i]? with
  | some r =>
    obtain ⟨r', hr', hgrows⟩ := hR i r hr
    rw [AccountedBy, hr']
    exact (h.accounted hr).mono hgrows
  | none =>
    rw [AccountedBy, hr] at h
    rw [AccountedBy]
    cases R'[i]? with
    | none => exact h
    | some r' => simp [Listen.Accounted, show l.phase = .called from h]

/-- After a step of a reading, all that is known is known of it among all receivers. -/
theorem Move.accountedBy (h : Move now r w l r' w' l') (hr : R[i]? = some r)
    (hl : l.Accounted r) : l'.AccountedBy (R.set i r') i := by
  rw [AccountedBy, List.getElem?_set_self (List.getElem?_eq_some_iff.mp hr).1]
  exact h.accounted hl

end Listen

end BlockFeed
