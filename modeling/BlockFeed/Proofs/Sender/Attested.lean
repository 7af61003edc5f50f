import BlockFeed.Proofs.Codec.Messages
import BlockFeed.Proofs.Link.Histories
import BlockFeed.Proofs.Sender.Ledger

/-!
# What success stands for

What a send that succeeds has done in its own steps: a connection has accepted its frame, and if
acknowledgments are asked for, the acknowledgment of its own counter has been read from that
connection, or the sender was closed.

## Main definitions

* `AckWait.Attested`, `Send.Attested`: what is known of a wait and of a send, phase by phase, from
  what was accepted and what was read in the steps of the send.

## Design notes

Nothing is assumed about the connections: they may fail, and anything may arrive at them.
-/

namespace BlockFeed

/-- What is known of the wait for the acknowledgment of a frame from what the steps of the send have
had accepted and have read, and from whether the sender was closed. -/
structure AckWait.Attested (frame : Bytes) (counter : UInt64) (accepted read : List (Ref × Bytes))
    (closed : Prop) (a : AckWait) : Prop where
  accepted : (a.conn, frame) ∈ accepted
  acknowledged : a.outcome = some .acknowledged → (a.conn, Ack.encode counter) ∈ read
  cancelled : a.outcome = some .cancelled → closed

theorem AckWait.Attested.mono {frame : Bytes} {counter : UInt64}
    {accepted read accepted' read' : List (Ref × Bytes)} {closed closed' : Prop} {a : AckWait}
    (h : a.Attested frame counter accepted read closed) (haccepted : accepted ⊆ accepted')
    (hread : read ⊆ read') (hclosed : closed → closed') :
    a.Attested frame counter accepted' read' closed' :=
  ⟨haccepted h.accepted, fun hout => hread (h.acknowledged hout),
    fun hout => hclosed (h.cancelled hout)⟩

theorem AckWait.Move.attested {counter : UInt64} {s s' : Sender} {w w' : Wire} {a a' : AckWait}
    (h : Move counter s w a s' w' a') {frame : Bytes} {accepted read : List (Ref × Bytes)}
    {closed : Prop} (ha : a.Attested frame counter accepted read closed) :
    a'.Attested frame counter (accepted ++ w.news Connection.written w')
      (read ++ w.news Connection.consumed w') (closed ∨ s.cancel.closed = true) := by
  have hmore := ha.mono (List.subset_append_left accepted (w.news Connection.written w'))
    (List.subset_append_left read (w.news Connection.consumed w'))
    (Or.inl : closed → closed ∨ s.cancel.closed = true)
  cases h with
  | cancel _ hclosed => exact ⟨hmore.accepted, nofun, fun _ => .inr hclosed⟩
  | @acknowledge bytes _ _ _ hread hdec =>
    refine ⟨hmore.accepted, fun _ => ?_, nofun⟩
    rw [Wire.news_consumed hread, Ack.eq_encode_of_decode hdec]
    exact List.mem_append_right _ (List.mem_singleton_self _)
  | ignore => exact hmore
  | fail => exact ⟨hmore.accepted, nofun, nofun⟩

namespace Send

/-- What is known of the send under a number from what its steps have had accepted and have read,
from what was assigned, and from whether the sender was closed. -/
def Attested (withAcknowledge : Bool) (log : Ledger) (accepted read : List (Ref × Bytes))
    (closed : Prop) (me : Nat) (x : Send) : Prop :=
  match x.phase with
  | .writing counter _ written _ => ⟨me, x.payload, counter⟩ ∈ log ∧
    ∀ c ∈ written, (c.2, Frame.encode ⟨withAcknowledge, counter, x.payload⟩) ∈ accepted
  | .waiting counter waits _ => ⟨me, x.payload, counter⟩ ∈ log ∧
    ∀ a ∈ waits, a.Attested (Frame.encode ⟨withAcknowledge, counter, x.payload⟩) counter accepted
      read closed
  | .done (.ok ()) => ∃ r counter, ⟨me, x.payload, counter⟩ ∈ log ∧
    (r, Frame.encode ⟨withAcknowledge, counter, x.payload⟩) ∈ accepted ∧
    (withAcknowledge = true → (r, Ack.encode counter) ∈ read ∨ closed)
  | .called | .queued | .done (.error _) => True

/-- Waits that amount to success have not all failed. -/
theorem delivered_of_verdict {waits : List AckWait} {failures : List Failure}
    (h : verdict waits failures = .ok ()) :
    ∃ a ∈ waits, a.outcome = some .acknowledged ∨ a.outcome = some .cancelled := by
  rw [verdict] at h
  split at h
  · next hany =>
    obtain ⟨a, ha, hdelivered⟩ := List.any_eq_true.mp hany
    refine ⟨a, ha, ?_⟩
    rw [AckWait.delivered] at hdelivered
    split at hdelivered
    · next hout => exact .inl hout
    · next hout => exact .inr hout
    · cases hdelivered
  · cases h

variable {me pick : Nat} {s s' : Sender} {w w' : Wire} {x x' : Send} {log log' : Ledger}
  {accepted read accepted' read' : List (Ref × Bytes)} {closed closed' : Prop}

theorem Attested.mono {ack : Bool} (h : x.Attested ack log accepted read closed me)
    (hlog : log ⊆ log') (haccepted : accepted ⊆ accepted') (hread : read ⊆ read')
    (hclosed : closed → closed') : x.Attested ack log' accepted' read' closed' me := by
  rw [Attested] at h ⊢
  cases hp : x.phase with
  | called | queued => trivial
  | writing counter rest written failures =>
    rw [hp] at h
    exact ⟨hlog h.1, fun c hc => haccepted (h.2 c hc)⟩
  | waiting counter waits failures =>
    rw [hp] at h
    exact ⟨hlog h.1, fun a ha => (h.2 a ha).mono haccepted hread hclosed⟩
  | done result =>
    rw [hp] at h
    cases result with
    | error e => trivial
    | ok u =>
      obtain ⟨r, counter, hown, hframe, hack⟩ := h
      exact ⟨r, counter, hlog hown, haccepted hframe, fun hasked =>
        (hack hasked).imp (fun hmem => hread hmem) hclosed⟩

/-- What is known of a send after one of its steps, which takes what the ledger says, has accepted
what the connections have gained, and reads what is read. -/
theorem Move.attested (h : Move me pick s w x s' w' x')
    (hx : x.Attested s.withAcknowledge log accepted read closed me) :
    x'.Attested s.withAcknowledge (log ++ Ledger.taken me (some x) (some x'))
      (accepted ++ w.news Connection.written w') (read ++ w.news Connection.consumed w')
      (closed ∨ s.cancel.closed = true) me := by
  have hmore : x.Attested s.withAcknowledge (log ++ Ledger.taken me (some x) (some x'))
      (accepted ++ w.news Connection.written w') (read ++ w.news Connection.consumed w')
      (closed ∨ s.cancel.closed = true) me :=
    hx.mono (List.subset_append_left _ _) (List.subset_append_left _ _)
      (List.subset_append_left _ _) .inl
  have hwaits {counter : UInt64} {waits : List AckWait} {failures : List Failure} {a a' : AckWait}
      {s₁ : Sender} (hp : x.phase = .waiting counter waits failures)
      (ha : waits[pick]? = some a) (hstep : a.step counter s w = some (s₁, w', a')) :
      ∀ b ∈ waits.set pick a', b.Attested (Frame.encode ⟨s.withAcknowledge, counter, x.payload⟩)
        counter (accepted ++ w.news Connection.written w')
        (read ++ w.news Connection.consumed w') (closed ∨ s.cancel.closed = true) := by
    rw [Attested, hp] at hx hmore
    intro b hb
    rcases List.mem_or_eq_of_mem_set hb with hb | rfl
    · exact hmore.2 b hb
    · exact (AckWait.move_of_step hstep).attested (hx.2 a (List.mem_of_getElem? ha))
  cases h with
  | refuse | enqueue | abandon | fail => trivial
  | start hp =>
    -- the counter is assigned in this step, and no connection has accepted anything under it
    rw [Ledger.taken_of_writing hp rfl]
    exact ⟨List.mem_append_right _ (List.mem_singleton_self _), nofun⟩
  | @accept counter id r rest written failures _ hp hw =>
    rw [Attested, hp] at hmore
    refine ⟨hmore.1, fun c hc => ?_⟩
    rcases List.mem_append.mp hc with hold | hnew
    · exact hmore.2 c hold
    · obtain rfl := List.mem_singleton.mp hnew
      rw [Wire.news_written hw]
      exact List.mem_append_right _ (List.mem_singleton_self _)
  | reject hp =>
    rw [Attested, hp] at hmore
    exact hmore
  | @succeed counter written failures hp hwritten hack =>
    rw [Attested, hp] at hmore
    obtain ⟨c, hc⟩ := List.exists_mem_of_ne_nil _ hwritten
    refine ⟨c.2, counter, hmore.1, hmore.2 c hc, fun hasked => ?_⟩
    rw [hack] at hasked
    cases hasked
  | await hp =>
    rw [Attested, hp] at hmore
    refine ⟨hmore.1, fun a ha => ?_⟩
    obtain ⟨c, hc, rfl⟩ := List.mem_map.mp ha
    exact ⟨hmore.2 c hc, nofun, nofun⟩
  | wait hp ha hstep =>
    have hafter := hwaits hp ha hstep
    rw [Attested, hp] at hmore
    exact ⟨hmore.1, hafter⟩
  | @conclude counter waits failures a a' s₁ _ hp ha hstep =>
    have hafter := hwaits hp ha hstep
    rw [Attested, hp] at hmore
    rw [Attested]
    -- success is the verdict of a wait that has not failed
    split
    · cases ‹_›
    · cases ‹_›
    · next hok =>
      obtain ⟨b, hb, hout⟩ := delivered_of_verdict (SendPhase.done.inj hok)
      have hb := hafter b hb
      exact ⟨b.conn, counter, hmore.1, hb.accepted, fun _ =>
        hout.imp hb.acknowledged hb.cancelled⟩
    all_goals trivial

end Send

end BlockFeed
