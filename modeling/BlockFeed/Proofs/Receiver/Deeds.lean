import BlockFeed.Proofs.Codec.Messages
import BlockFeed.Receiver
import Mathlib.Data.List.Chain

/-!
# Deeds of a reading

In which order a reading may do what it does: it reads, hands over, acknowledges, tries again what
has failed, and returns.

## Main definitions

* `handed`: what messages hand over, if they are read one after the other.
* `Deed`, `Entry`: something that a reading does, and when.
* `Entry.Follows`: the deeds that may come right after a deed.
* `Entry.Orderly`: every deed may come where it does.

## Main results

* `Entry.Orderly.exists_owed`: every write has a message that it acknowledges, with nothing in
  between but failed writes of the same acknowledgment.
* `Entry.Orderly.owed_eq`: what is owed has been acknowledged in order, up to one acknowledgment
  that is open.

## Design notes

An error that does not tell that the connection is gone leaves the deed to be done again, but not
before the retry interval has passed. A read and the call of the handler are one deed, since they
are one step of a reading.
-/

namespace BlockFeed

/-- What messages hand over: the payloads of those that are frames. -/
def handed (messages : List Bytes) : List Delivery :=
  messages.filterMap fun bytes =>
    match Frame.decode bytes with
    | .ok frame => some ⟨frame.payload, frame.counter⟩
    | .error _ => none

@[simp] theorem handed_append (messages more : List Bytes) :
    handed (messages ++ more) = handed messages ++ handed more := List.filterMap_append

theorem handed_singleton {bytes : Bytes} {frame : Frame} (h : Frame.decode bytes = .ok frame) :
    handed [bytes] = [⟨frame.payload, frame.counter⟩] := by
  simp [handed, h]

theorem handed_acks {messages : List Bytes} (h : ∀ bytes ∈ messages, ∃ counter,
    bytes = Ack.encode counter) : handed messages = [] := by
  refine List.filterMap_eq_nil_iff.mpr fun bytes hb => ?_
  obtain ⟨counter, rfl⟩ := h bytes hb
  rw [Frame.decode_ack]

theorem handed_mono {messages more : List Bytes} (h : messages <+: more) :
    (handed messages).Sublist (handed more) := h.sublist.filterMap _

/-- Something that a reading does, with what comes of it. -/
inductive Deed where
  /-- It reads, and hands over what it has read. -/
  | read (answer : Except ConnectionError Bytes) (handled : List Handled)
  | write (call : WriteCall)
  /-- It returns; whether the connection was gone. -/
  | stop (gone : Bool)

/-- A deed and the time at which it was done. -/
structure Entry where
  time : Nat
  deed : Deed

namespace Deed

/-- What was handed to the handler. -/
def handled : Deed → List Handled
  | read _ handled => handled
  | write _ | stop _ => []

/-- The message that was read. -/
def message? : Deed → Option Bytes
  | read answer _ => answer.toOption
  | write _ | stop _ => none

/-- The write that was called for. -/
def call? : Deed → Option WriteCall
  | write call => some call
  | read .. | stop _ => none

/-- Why a read or a write failed. -/
def error? : Deed → Option ConnectionError
  | read (.error e) _ => some e
  | read (.ok _) _ => none
  | write call => call.error
  | stop _ => none

/-- The message was handed over if it is a frame, and nothing else was. -/
def HandsOver : Deed → Prop
  | read answer handled => handled.map (·.delivery) = handed answer.toOption.toList
  | write _ | stop _ => True

/-- The counter to acknowledge: the frame that was read asks for it, and the handler did not refuse
the payload, or that does not matter. -/
def owed? (blocks : Bool) : Deed → Option UInt64
  | read (.ok bytes) handled =>
    match Frame.decode bytes with
    | .ok f =>
      if f.ackRequested && (handled.all (·.result.isOk) || !blocks) then some f.counter else none
    | .error _ => none
  | read (.error _) _ | write _ | stop _ => none

/-- The acknowledgment that was accepted. -/
def acked? : Deed → Option Bytes
  | write call => if call.error.isNone then some call.bytes else none
  | read .. | stop _ => none

/-- It is done, with nothing left to do about it. -/
def Settled (blocks : Bool) (d : Deed) : Prop :=
  d.error? = none ∧ d.owed? blocks = none ∧ ∀ gone, d ≠ .stop gone

/-- It found that the connection is gone. -/
def FindsGone (d : Deed) : Prop := ∃ e, d.error? = some e ∧ e.isClosed = true

/-- What a reading goes on with: it reads, or it writes an acknowledgment. -/
def Attempts : Resume → Deed → Prop
  | .read, d => ∃ answer handled, d = .read answer handled
  | .acknowledge counter, d => ∃ call, d = .write call ∧ call.bytes = Ack.encode counter

/-- An attempt that failed and may be made again. -/
def Failed (resume : Resume) (d : Deed) : Prop :=
  d.Attempts resume ∧ ∃ e, d.error? = some e ∧ e.isClosed = false

/-- What is still to be written after a deed, whether or not the reading gets to it. -/
def open? (blocks : Bool) : Deed → Option Bytes
  | read answer handled => ((read answer handled).owed? blocks).map Ack.encode
  | write call => if call.error.isNone then none else some call.bytes
  | stop _ => none

end Deed

namespace Entry

/-- What may come right after a deed, when acknowledgments are withheld from refused payloads or
not, and with the retry interval. -/
inductive Follows (blocks : Bool) (retry : Nat) (a b : Entry) : Prop where
  /-- With nothing left to do, the next message is read. -/
  | next : a.deed.Settled blocks → b.deed.Attempts .read → Follows blocks retry a b
  /-- An acknowledgment that is owed is written. -/
  | acknowledge {counter : UInt64} : a.deed.owed? blocks = some counter →
      b.deed.Attempts (.acknowledge counter) → Follows blocks retry a b
  /-- What has failed is attempted again after the retry interval. -/
  | again {resume : Resume} : a.deed.Failed resume → a.time + retry ≤ b.time →
      b.deed.Attempts resume → Follows blocks retry a b
  /-- The connection was found to be gone. -/
  | gone : a.deed.FindsGone → b.deed = .stop true → Follows blocks retry a b
  /-- The receiver was closed. -/
  | cancelled : a.deed.Settled blocks ∨ (∃ resume, a.deed.Failed resume) → b.deed = .stop false →
      Follows blocks retry a b

/-- What may come after what was done last; a reading begins with a read, or it finds its receiver
closed. -/
def Next (blocks : Bool) (retry : Nat) (last : Option Entry) (b : Entry) : Prop :=
  match last with
  | none => b.deed.Attempts .read ∨ b.deed = .stop false
  | some a => a.Follows blocks retry b

/-- Every deed may come where it does, and every read hands over what it should. -/
structure Orderly (blocks : Bool) (retry : Nat) (log : List Entry) : Prop where
  first : ∀ a ∈ log.head?, a.deed.Attempts .read ∨ a.deed = .stop false
  chain : log.IsChain (Follows blocks retry)
  handsOver : ∀ a ∈ log, a.deed.HandsOver

/-- What is owed for the messages that were read. -/
def owed (blocks : Bool) (log : List Entry) : List UInt64 := log.filterMap (·.deed.owed? blocks)

/-- The acknowledgments that were accepted. -/
def acked (log : List Entry) : List Bytes := log.filterMap (·.deed.acked?)

end Entry

namespace Deed

variable {blocks : Bool}

theorem settled_skipped {bytes : Bytes} {e : CodecError} (h : Frame.decode bytes = .error e)
    (handled : List Handled) : (Deed.read (.ok bytes) handled).Settled blocks :=
  ⟨rfl, by simp [owed?, h], nofun⟩

theorem owed?_handled {bytes : Bytes} {frame : Frame} (h : Frame.decode bytes = .ok frame)
    (d : Delivery) (answer : Except HandlerError Unit) :
    (Deed.read (.ok bytes) [⟨d, answer⟩]).owed? blocks
      = if frame.ackRequested && (answer.isOk || !blocks) then some frame.counter else none := by
  simp [owed?, h]

theorem handsOver_frame {bytes : Bytes} {frame : Frame} (h : Frame.decode bytes = .ok frame)
    (answer : Except HandlerError Unit) :
    (Deed.read (.ok bytes) [⟨⟨frame.payload, frame.counter⟩, answer⟩]).HandsOver :=
  (handed_singleton h).symm

theorem handsOver_skipped {bytes : Bytes} {e : CodecError} (h : Frame.decode bytes = .error e) :
    (Deed.read (.ok bytes) []).HandsOver := by
  simp [HandsOver, handed, h, Except.toOption]

theorem handsOver_failed (e : ConnectionError) : (Deed.read (.error e) []).HandsOver := rfl

theorem handsOver_write (call : WriteCall) : (Deed.write call).HandsOver := trivial

variable {d : Deed}

theorem exists_read_of_owed? {counter : UInt64} (h : d.owed? blocks = some counter) :
    ∃ bytes handled, d = .read (.ok bytes) handled := by
  cases d with
  | read answer handled =>
    cases answer with
    | ok bytes => exact ⟨bytes, handled, rfl⟩
    | error e => cases h
  | write | stop => cases h

/-- What is owed is the acknowledgment of the frame that was read and handed over, if the frame asks
for it and the handler did not refuse the payload, or that does not matter. -/
theorem owed?_eq_some (h : d.HandsOver) {counter : UInt64} : d.owed? blocks = some counter ↔
    ∃ bytes frame result, d = .read (.ok bytes) [⟨⟨frame.payload, frame.counter⟩, result⟩] ∧
      Frame.decode bytes = .ok frame ∧ frame.counter = counter ∧ frame.ackRequested = true ∧
      (result.isOk = true ∨ blocks = false) := by
  constructor
  · intro howed
    obtain ⟨bytes, handled, rfl⟩ := exists_read_of_owed? howed
    cases hdec : Frame.decode bytes with
    | error e => simp [owed?, hdec] at howed
    | ok frame =>
      -- Exactly the frame was handed over.
      obtain ⟨⟨delivery, result⟩, rfl, rfl⟩ : ∃ x, handled = [x] ∧
          x.delivery = ⟨frame.payload, frame.counter⟩ := by
        exact List.map_eq_singleton_iff.mp (Eq.trans h (handed_singleton hdec))
      rw [owed?_handled hdec] at howed
      split at howed
      · next hcond =>
        obtain rfl := Option.some.inj howed
        simp only [Bool.and_eq_true, Bool.or_eq_true, Bool.not_eq_true'] at hcond
        exact ⟨bytes, frame, result, rfl, hdec, rfl, hcond.1, hcond.2⟩
      · cases howed
  · rintro ⟨bytes, frame, result, rfl, hdec, rfl, hreq, hanswer⟩
    rw [owed?_handled hdec, if_pos]
    simpa [hreq] using hanswer

/-- A deed attempts one thing only. -/
theorem Attempts.unique {resume resume' : Resume} (h : d.Attempts resume)
    (h' : d.Attempts resume') : resume = resume' := by
  cases resume with
  | read =>
    obtain ⟨_, _, rfl⟩ := h
    cases resume' with
    | read => rfl
    | acknowledge => obtain ⟨_, heq, -⟩ := h'; cases heq
  | acknowledge counter =>
    obtain ⟨call, rfl, hbytes⟩ := h
    cases resume' with
    | read => obtain ⟨_, _, heq⟩ := h'; cases heq
    | acknowledge counter' =>
      obtain ⟨_, heq, hbytes'⟩ := h'
      cases heq
      rw [Ack.encode_injective (hbytes.symm.trans hbytes')]

theorem Attempts.ne_stop {resume : Resume} (h : d.Attempts resume) (gone : Bool) :
    d ≠ .stop gone := by
  rintro rfl
  cases resume with
  | read => obtain ⟨_, _, heq⟩ := h; cases heq
  | acknowledge => obtain ⟨_, heq, -⟩ := h; cases heq

theorem ne_stop_of_owed? {counter : UInt64} (h : d.owed? blocks = some counter) (gone : Bool) :
    d ≠ .stop gone := by
  obtain ⟨_, _, rfl⟩ := exists_read_of_owed? h
  exact nofun

theorem FindsGone.ne_stop (h : d.FindsGone) (gone : Bool) : d ≠ .stop gone := by
  obtain ⟨e, herror, -⟩ := h
  rintro rfl
  cases herror

theorem Failed.elim {P : Prop} {resume : Resume} (h : d.Failed resume)
    (herror : d.error? = none) : P := by
  obtain ⟨-, e, hsome, -⟩ := h
  cases herror.symm.trans hsome

/-- A deed that finds the connection gone is neither settled nor to be done again. -/
theorem FindsGone.elim {P : Prop} (h : d.FindsGone)
    (hd : d.error? = none ∨ ∃ resume, d.Failed resume) : P := by
  obtain ⟨e, herror, hgone⟩ := h
  rcases hd with hnone | ⟨_, -, e', herror', hstays⟩
  · cases hnone.symm.trans herror
  · obtain rfl := Option.some.inj (herror.symm.trans herror')
    rw [hgone] at hstays
    cases hstays

theorem error?_of_owed? {counter : UInt64} (h : d.owed? blocks = some counter) :
    d.error? = none := by
  obtain ⟨_, _, rfl⟩ := exists_read_of_owed? h
  rfl

theorem open?_of_owed? {counter : UInt64} (h : d.owed? blocks = some counter) :
    d.open? blocks = some (Ack.encode counter) := by
  obtain ⟨bytes, handled, rfl⟩ := exists_read_of_owed? h
  rw [open?, h]
  rfl

theorem Settled.open? (h : d.Settled blocks) : d.open? blocks = none := by
  obtain ⟨herror, howed, -⟩ := h
  cases d with
  | read => rw [Deed.open?, howed]; rfl
  | stop => rfl
  | write call =>
    have hnone : call.error = none := herror
    simp [Deed.open?, hnone]

theorem Failed.open?_read (h : d.Failed .read) : d.open? blocks = none := by
  obtain ⟨⟨answer, handled, rfl⟩, e, herror, -⟩ := h
  cases answer with
  | ok bytes => cases herror
  | error e' => rfl

theorem Failed.open?_write {counter : UInt64} (h : d.Failed (.acknowledge counter)) :
    d.open? blocks = some (Ack.encode counter) := by
  obtain ⟨⟨call, rfl, hbytes⟩, e, herror, -⟩ := h
  have hsome : call.error = some e := herror
  simp [open?, hsome, hbytes]

end Deed

namespace Entry

variable {blocks : Bool} {retry : Nat} {log : List Entry}

theorem Orderly.concat (h : Orderly blocks retry log) {b : Entry}
    (next : Next blocks retry log.getLast? b) (handsOver : b.deed.HandsOver) :
    Orderly blocks retry (log ++ [b]) where
  first := by
    intro a ha
    cases hlog : log with
    | nil =>
      rw [hlog] at ha next
      obtain rfl := Option.some.inj ha
      exact next
    | cons c rest =>
      rw [hlog] at ha
      exact h.first a (hlog ▸ ha)
  chain := by
    refine List.isChain_append.mpr ⟨h.chain, List.isChain_singleton b, ?_⟩
    intro a ha c hc
    obtain rfl := Option.some.inj hc
    rw [Option.mem_def.mp ha] at next
    exact next
  handsOver := List.forall_mem_append.mpr ⟨h.handsOver, List.forall_mem_singleton.mpr handsOver⟩

/-- What came before is in order. -/
theorem Orderly.left {before after : List Entry} (h : Orderly blocks retry (before ++ after)) :
    Orderly blocks retry before where
  first := fun a ha => h.first a (by
    rw [Option.mem_def] at ha ⊢
    rw [List.head?_append, ha]
    rfl)
  chain := h.chain.left_of_append
  handsOver := fun a ha => h.handsOver a (List.mem_append_left _ ha)

theorem Orderly.next {before after : List Entry} {b : Entry}
    (h : Orderly blocks retry (before ++ b :: after)) :
    Next blocks retry before.getLast? b := by
  cases hlast : before.getLast? with
  | none =>
    obtain rfl := List.getLast?_eq_none_iff.mp hlast
    exact h.first b rfl
  | some a => exact (List.isChain_append.mp h.chain).2.2 a hlast b rfl

/-- All that was handed over are the frames that were read. -/
theorem Orderly.deliveries (h : Orderly blocks retry log) :
    (log.flatMap (·.deed.handled)).map (·.delivery) = handed (log.filterMap (·.deed.message?)) := by
  have hall := h.handsOver
  clear h
  induction log with
  | nil => rfl
  | cons a rest ih =>
    obtain ⟨ha, hrest⟩ := List.forall_mem_cons.mp hall
    rw [List.flatMap_cons, List.map_append, ih hrest]
    cases hd : a.deed with
    | read answer handled =>
      rw [hd] at ha
      have hsplit : (a :: rest).filterMap (·.deed.message?)
          = answer.toOption.toList ++ rest.filterMap (·.deed.message?) := by
        cases answer <;> simp [hd, Deed.message?, Except.toOption]
      rw [hsplit, handed_append]
      exact congrArg (· ++ _) ha
    | write | stop => simp [hd, Deed.message?, Deed.handled]

theorem Orderly.follows {a b : Entry} (h : Orderly blocks retry log) (hab : [a, b] <:+: log) :
    a.Follows blocks retry b := List.isChain_pair.mp <| List.IsChain.infix h.chain hab

/-- Whatever is written acknowledges the message that was read last and owes it, and since then
nothing was done but to fail to write the same. -/
theorem Orderly.exists_owed {before after : List Entry} {b : Entry} {counter : UInt64}
    (h : Orderly blocks retry (before ++ b :: after))
    (hb : b.deed.Attempts (.acknowledge counter)) :
    ∃ earlier a tries, before = earlier ++ a :: tries ∧ a.deed.owed? blocks = some counter ∧
      ∀ x ∈ tries, x.deed.Failed (.acknowledge counter) := by
  -- Backwards from the write: before it comes the message that owes it, or a try that failed.
  induction before using List.reverseRecOn generalizing b after with
  | nil =>
    rcases h.next with hread | hstop
    · cases hread.unique hb
    · exact absurd hstop (hb.ne_stop false)
  | append_singleton before x ih =>
    have hnext := h.next
    rw [List.getLast?_concat] at hnext
    cases hnext with
    | next _ hread => cases hread.unique hb
    | acknowledge howed hwrite =>
      cases hwrite.unique hb
      exact ⟨before, x, [], rfl, howed, by simp⟩
    | again hfailed _ hagain =>
      cases hagain.unique hb
      rw [List.append_assoc] at h
      obtain ⟨earlier, a, tries, rfl, howed, htries⟩ := ih h hfailed.1
      exact ⟨earlier, a, tries ++ [x], by simp, howed,
        List.forall_mem_append.mpr ⟨htries, List.forall_mem_singleton.mpr hfailed⟩⟩
    | gone _ hstop | cancelled _ hstop => exact absurd hstop (hb.ne_stop _)

/-- Before a read nothing is open. -/
theorem Follows.open?_of_read {a b : Entry} (h : a.Follows blocks retry b)
    (hb : b.deed.Attempts .read) : a.deed.open? blocks = none := by
  cases h with
  | next hsettled => exact hsettled.open?
  | acknowledge _ hwrite => cases hwrite.unique hb
  | again hfailed _ hagain =>
    cases hagain.unique hb
    exact hfailed.open?_read
  | gone _ hstop | cancelled _ hstop => exact absurd hstop (hb.ne_stop _)

/-- What is written is what was open. -/
theorem Follows.open?_of_write {a b : Entry} {counter : UInt64} (h : a.Follows blocks retry b)
    (hb : b.deed.Attempts (.acknowledge counter)) :
    a.deed.open? blocks = some (Ack.encode counter) := by
  cases h with
  | next _ hread => cases hread.unique hb
  | acknowledge howed hwrite =>
    cases hwrite.unique hb
    exact Deed.open?_of_owed? howed
  | again hfailed _ hagain =>
    cases hagain.unique hb
    exact hfailed.open?_write
  | gone _ hstop | cancelled _ hstop => exact absurd hstop (hb.ne_stop _)

theorem Next.open?_of_read {last : Option Entry} {b : Entry} (h : Next blocks retry last b)
    (hb : b.deed.Attempts .read) : last.bind (·.deed.open? blocks) = none := by
  cases last with
  | none => rfl
  | some a => exact Follows.open?_of_read h hb

theorem Next.open?_of_write {last : Option Entry} {b : Entry} {counter : UInt64}
    (h : Next blocks retry last b) (hb : b.deed.Attempts (.acknowledge counter)) :
    last.bind (·.deed.open? blocks) = some (Ack.encode counter) := by
  cases last with
  | none =>
    rcases h with hread | hstop
    · cases hread.unique hb
    · exact absurd hstop (hb.ne_stop false)
  | some a => exact Follows.open?_of_write h hb

/-- Only acknowledgments are written. -/
theorem Next.exists_counter {last : Option Entry} {b : Entry} {call : WriteCall}
    (h : Next blocks retry last b) (hd : b.deed = .write call) :
    ∃ counter, b.deed.Attempts (.acknowledge counter) := by
  have hread (hb : b.deed.Attempts .read) : False := by
    obtain ⟨_, _, heq⟩ := hb
    cases hd.symm.trans heq
  have hstop {gone : Bool} (hb : b.deed = .stop gone) : False := by
    cases hd.symm.trans hb
  cases last with
  | none => exact h.elim (fun hb => (hread hb).elim) fun hb => (hstop hb).elim
  | some a =>
    cases h with
    | next _ hb => exact (hread hb).elim
    | acknowledge _ hb => exact ⟨_, hb⟩
    | @again resume _ _ hb =>
      cases resume with
      | read => exact (hread hb).elim
      | acknowledge counter => exact ⟨counter, hb⟩
    | gone _ hb | cancelled _ hb => exact (hstop hb).elim

/-- Nothing comes after a return. -/
theorem Follows.ne_stop {a b : Entry} (h : a.Follows blocks retry b) (gone : Bool) :
    a.deed ≠ .stop gone := by
  cases h with
  | next hsettled => exact hsettled.2.2 gone
  | acknowledge howed => exact Deed.ne_stop_of_owed? howed gone
  | again hfailed => exact hfailed.1.ne_stop gone
  | gone hgone => exact hgone.ne_stop gone
  | cancelled hstays =>
    rcases hstays with hsettled | ⟨_, hfailed⟩
    · exact hsettled.2.2 gone
    · exact hfailed.1.ne_stop gone

/-- With nothing left to do, the next message is read. -/
theorem Follows.of_settled {a b : Entry} (h : a.Follows blocks retry b)
    (ha : a.deed.Settled blocks) : b.deed.Attempts .read ∨ b.deed = .stop false := by
  cases h with
  | next _ hread => exact .inl hread
  | acknowledge howed => cases ha.2.1.symm.trans howed
  | again hfailed => exact hfailed.elim ha.1
  | gone hgone => exact hgone.elim (.inl ha.1)
  | cancelled _ hstop => exact .inr hstop

/-- What is owed is written next. -/
theorem Follows.of_owed {a b : Entry} {counter : UInt64} (h : a.Follows blocks retry b)
    (ha : a.deed.owed? blocks = some counter) : b.deed.Attempts (.acknowledge counter) := by
  have herror := Deed.error?_of_owed? ha
  cases h with
  | next hsettled => cases hsettled.2.1.symm.trans ha
  | acknowledge howed hwrite =>
    obtain rfl := Option.some.inj (howed.symm.trans ha)
    exact hwrite
  | again hfailed => exact hfailed.elim herror
  | gone hgone => exact hgone.elim (.inl herror)
  | cancelled hstays =>
    rcases hstays with hsettled | ⟨_, hfailed⟩
    · cases hsettled.2.1.symm.trans ha
    · exact hfailed.elim herror

/-- What has failed is attempted again after the retry interval. -/
theorem Follows.of_failed {a b : Entry} {resume : Resume} (h : a.Follows blocks retry b)
    (ha : a.deed.Failed resume) :
    b.deed.Attempts resume ∧ a.time + retry ≤ b.time ∨ b.deed = .stop false := by
  cases h with
  | next hsettled => exact ha.elim hsettled.1
  | acknowledge howed => exact ha.elim (Deed.error?_of_owed? howed)
  | again hfailed hdue hagain =>
    cases hfailed.1.unique ha.1
    exact .inl ⟨hagain, hdue⟩
  | gone hgone => exact hgone.elim (.inr ⟨_, ha⟩)
  | cancelled _ hstop => exact .inr hstop

/-- Right after a deed that finds the connection gone the reading returns. -/
theorem Follows.of_findsGone {a b : Entry} (h : a.Follows blocks retry b)
    (ha : a.deed.FindsGone) : b.deed = .stop true := by
  cases h with
  | next hsettled => exact ha.elim (.inl hsettled.1)
  | acknowledge howed => exact ha.elim (.inl (Deed.error?_of_owed? howed))
  | again hfailed => exact ha.elim (.inr ⟨_, hfailed⟩)
  | gone _ hstop => exact hstop
  | cancelled hstays => exact ha.elim (hstays.imp_left (·.1))

/-- What is owed has been acknowledged in order, up to one acknowledgment that is open; unless the
reading has returned, it is that of the last deed. -/
theorem Orderly.owed_eq (h : Orderly blocks retry log) :
    ∃ left : Option Bytes, (owed blocks log).map Ack.encode = acked log ++ left.toList ∧
      ((∀ a ∈ log.getLast?, ∀ gone, a.deed ≠ .stop gone) →
        left = log.getLast?.bind (·.deed.open? blocks)) := by
  induction log using List.reverseRecOn with
  | nil => exact ⟨none, rfl, fun _ => rfl⟩
  | append_singleton log b ih =>
    obtain ⟨left, heq, hleft⟩ := ih h.left
    have hnext := h.next
    have hleft : left = log.getLast?.bind (·.deed.open? blocks) := by
      refine hleft fun a ha => ?_
      rw [Option.mem_def.mp ha] at hnext
      exact Follows.ne_stop hnext
    rw [owed, acked, List.filterMap_append, List.filterMap_append, List.getLast?_concat,
      Option.bind_some, List.map_append, ← owed, ← acked, heq]
    cases hd : b.deed with
    | read answer handled =>
      rw [hnext.open?_of_read ⟨_, _, hd⟩] at hleft
      refine ⟨b.deed.open? blocks, ?_, fun _ => by rw [hd]⟩
      rw [hleft, hd, Deed.open?]
      cases howed : (Deed.read answer handled).owed? blocks <;> simp [hd, howed, Deed.acked?]
    | write call =>
      obtain ⟨counter, hb⟩ := hnext.exists_counter hd
      have hopen := hnext.open?_of_write hb
      obtain ⟨call', heq', hbytes⟩ := hb
      obtain rfl := Deed.write.inj (hd.symm.trans heq')
      rw [hopen, ← hbytes] at hleft
      refine ⟨b.deed.open? blocks, ?_, fun _ => by rw [hd]⟩
      rw [hleft, hd, Deed.open?]
      cases herror : call.error <;> simp [hd, herror, Deed.owed?, Deed.acked?]
    | stop gone =>
      refine ⟨left, by simp [hd, Deed.owed?, Deed.acked?], fun hlast => ?_⟩
      exact absurd hd (hlast b rfl gone)

/-- When a message is read, what was owed before has been acknowledged, once each and in order. -/
theorem Orderly.acked_eq {before after : List Entry} {a : Entry}
    (h : Orderly blocks retry (before ++ a :: after)) (ha : a.deed.Attempts .read) :
    acked before = (owed blocks before).map Ack.encode := by
  obtain ⟨left, heq, hleft⟩ := h.left.owed_eq
  have hnext := h.next
  have hnone : left = none := by
    rw [hleft fun b hb => ?_, hnext.open?_of_read ha]
    rw [Option.mem_def.mp hb] at hnext
    exact Follows.ne_stop hnext
  rw [heq, hnone, Option.toList_none, List.append_nil]

/-- A write that fails, but not because the connection is gone, may be made again. -/
theorem Orderly.failed_of_write {before after : List Entry} {a : Entry} {call : WriteCall}
    {e : ConnectionError} (h : Orderly blocks retry (before ++ a :: after))
    (hwrite : a.deed = .write call) (herror : call.error = some e) (hstays : e.isClosed = false) :
    ∃ counter, call.bytes = Ack.encode counter ∧ a.deed.Failed (.acknowledge counter) := by
  obtain ⟨counter, hattempts⟩ := h.next.exists_counter hwrite
  obtain ⟨call', heq, hbytes⟩ := hattempts
  obtain rfl := Deed.write.inj (hwrite.symm.trans heq)
  exact ⟨counter, hbytes, ⟨call, hwrite, hbytes⟩, e, by rw [hwrite]; exact herror, hstays⟩

end Entry

end BlockFeed
