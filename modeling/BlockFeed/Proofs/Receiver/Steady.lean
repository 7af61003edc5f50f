import BlockFeed.Proofs.Codec.Messages
import BlockFeed.Proofs.Receiver.Moves

/-!
# Steady readings

What readings do while their receiver stays open and their connection brings nothing but frames and
does not fail.

## Main definitions

* `Delivery.frame`: the frame of a payload under its counter.
* `Receiver.Willing`: a receiver that stays open and acknowledges whatever asks for it.
* `Listen.Steady`: how far a reading can have got.
* `Listen.Advance`: what a step of it can do, out of all that a step of a reading can do.
* `Listen.pending`: what a reading has still to acknowledge.
-/

namespace BlockFeed

/-- The frame of a payload under its counter. -/
def Delivery.frame (withAcknowledge : Bool) (d : Delivery) : Bytes :=
  Frame.encode ⟨withAcknowledge, d.counter, d.payload⟩

theorem Delivery.frame_injective (withAcknowledge : Bool) :
    Function.Injective (Delivery.frame withAcknowledge) := by
  intro d e heq
  obtain ⟨-, hcounter, hpayload⟩ := Frame.mk.inj (Frame.encode_injective heq)
  exact congrArg₂ Delivery.mk hpayload hcounter

/-- The receiver is open, its handler does not close it, and if acknowledgments are asked for it
does not withhold any. -/
structure Receiver.Willing (withAcknowledge : Bool) (r : Receiver) : Prop where
  isOpen : r.cancel.closed = false
  stays : ∀ past d, (r.handler past d).closes = false
  acknowledges : withAcknowledge = true →
    r.blockOnError = false ∨ ∀ past d, (r.handler past d).result.isOk = true

namespace Receiver.Willing

variable {ack : Bool} {r : Receiver}

theorem handOver (h : r.Willing ack) (d : Delivery) : (r.handOver d).Willing ack := by
  rw [Receiver.handOver, h.stays]
  exact ⟨h.isOpen, h.stays, h.acknowledges⟩

theorem answer (h : r.Willing ack) (hack : ack = true) (d : Delivery) :
    (r.answer d).isOk = true ∨ (r.handOver d).blockOnError = false := by
  rw [(r.grows_handOver d).blockOnError]
  exact (h.acknowledges hack).symm.imp_left fun hall => hall _ d

end Receiver.Willing

namespace Listen

/-- What a reading has still to acknowledge. -/
def pending (l : Listen) : List Bytes :=
  match l.phase with
  | .handling frame _ => if frame.ackRequested then [Ack.encode frame.counter] else []
  | .acknowledging counter => [Ack.encode counter]
  | .called | .reading | .pausing .. | .done _ => []

/-- How far a reading can have got, over a connection that does not fail. -/
def Steady (withAcknowledge blocks : Bool) (l : Listen) : Prop :=
  match l.phase with
  | .called | .reading => True
  | .handling frame answer => frame.ackRequested = withAcknowledge ∧
    (withAcknowledge = true → answer.isOk = true ∨ blocks = false)
  | .acknowledging _ => withAcknowledge = true
  | .pausing .. | .done _ => False

/-- What a step of a steady reading can do. -/
inductive Advance (withAcknowledge : Bool) (r : Receiver) (w : Wire) (l : Listen) :
    Receiver → Wire → Listen → Prop where
  | begin : l.phase = .called →
      Advance withAcknowledge r w l { r with state := .listening } w { l with phase := .reading }
  | handOver {d : Delivery} {w' : Wire} : l.phase = .reading →
      w.read? l.conn = some (.ok (d.frame withAcknowledge), w') →
      Advance withAcknowledge r w l (r.handOver d) w'
        { l with phase := .handling ⟨withAcknowledge, d.counter, d.payload⟩ (r.answer d) }
  | conclude {frame : Frame} {answer : Except HandlerError Unit} :
      l.phase = .handling frame answer → withAcknowledge = true →
      Advance withAcknowledge r w l r w { l with phase := .acknowledging frame.counter }
  | withhold {frame : Frame} {answer : Except HandlerError Unit} :
      l.phase = .handling frame answer → withAcknowledge = false →
      Advance withAcknowledge r w l r w { l with phase := .reading }
  | acknowledge {counter : UInt64} {w' : Wire} : l.phase = .acknowledging counter →
      w.write l.conn (Ack.encode counter) = (.ok (), w') →
      Advance withAcknowledge r w l r w' { l with phase := .reading }

variable {now : Nat} {ack : Bool} {r r' : Receiver} {w w' : Wire} {l l' : Listen}

theorem Move.advance (h : Move now r w l r' w' l') (hl : l.Steady ack r.blockOnError)
    (willing : r.Willing ack) (sturdy : (w.conn l.conn).Sturdy)
    (frames : ∀ bytes ∈ (w.conn l.conn).messages, ∃ d : Delivery, bytes = d.frame ack) :
    Advance ack r w l r' w' l' := by
  rw [Steady] at hl
  cases h with
  | begin hp => exact .begin hp
  | cancel _ hclosed | giveUp _ hclosed => cases willing.isOpen.symm.trans hclosed
  | handOver hp hread hdec =>
    -- what is read is a frame, and decoding gives back what was encoded
    obtain ⟨d, rfl⟩ := frames _ (Wire.consumed_of_read hread).1
    rw [Delivery.frame, Frame.decode_encode] at hdec
    obtain rfl := Except.ok.inj hdec
    exact .handOver hp hread
  | skip _ hread hdec =>
    obtain ⟨d, rfl⟩ := frames _ (Wire.consumed_of_read hread).1
    rw [Delivery.frame, Frame.decode_encode] at hdec
    cases hdec
  | lose _ hfail =>
    rcases hfail with ⟨_, hread⟩ | ⟨_, _, hw⟩
    · obtain ⟨_, heq⟩ := Wire.ok_of_read sturdy hread
      cases heq
    · cases Wire.ok_of_write sturdy hw
  | retryRead _ hread =>
    obtain ⟨_, heq⟩ := Wire.ok_of_read sturdy hread
    cases heq
  | conclude hp hreq =>
    rw [hp] at hl
    exact .conclude hp (hl.1.symm.trans hreq)
  | withhold hp hnot =>
    rw [hp] at hl
    refine .withhold hp ?_
    rcases hnot with hreq | ⟨hfailed, hblocks⟩
    · exact hl.1.symm.trans hreq
    · -- a receiver that may not acknowledge would not be willing
      refine Bool.eq_false_iff.mpr fun hack => ?_
      rcases hl.2 hack with hok | hno
      · cases hfailed.symm.trans hok
      · cases hblocks.symm.trans hno
  | acknowledge hp hw => exact .acknowledge hp hw
  | retryAcknowledge _ hw => cases Wire.ok_of_write sturdy hw
  | resumeRead hp | resumeAcknowledge hp =>
    rw [hp] at hl
    exact hl.elim

/-- A steady reading goes on to be steady, and its receiver to be willing. -/
theorem Advance.steady (h : Advance ack r w l r' w' l') (willing : r.Willing ack) :
    l'.Steady ack r'.blockOnError ∧ r'.Willing ack := by
  cases h with
  | begin => exact ⟨trivial, willing.isOpen, willing.stays, willing.acknowledges⟩
  | @handOver d => exact ⟨⟨rfl, fun hack => willing.answer hack d⟩, willing.handOver d⟩
  | conclude _ hack => exact ⟨hack, willing⟩
  | withhold | acknowledge => exact ⟨trivial, willing⟩

/-- A steady reading can move, unless there is nothing to read. -/
theorem read?_eq_none_of_step {pick : Nat} (h : l.step now pick r w = none)
    (hl : l.Steady ack r.blockOnError) : l.pending = [] ∧ w.read? l.conn = none := by
  rw [Steady] at hl
  rw [pending]
  rcases phase_of_step h with ⟨gone, hp⟩ | ⟨-, ⟨hp, hread⟩ | ⟨deadline, resume, hp, -⟩⟩
  · rw [hp] at hl
    exact hl.elim
  · rw [hp]
    exact ⟨rfl, hread⟩
  · rw [hp] at hl
    exact hl.elim

end Listen

end BlockFeed
