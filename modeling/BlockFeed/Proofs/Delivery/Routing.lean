import BlockFeed.Dispatcher
import BlockFeed.Proofs.Codec.Exact
import BlockFeed.Report

/-!
# Routing

A payload that reports raw data of an operation is routed to the handler that was registered last
for this operation, with the data as they were, and nothing else is routed anywhere.

## Main definitions

* `Registration`: the choice of a handler, for one operation or for all.
* `Dispatcher.after`: a dispatcher after a history of registrations.
* `Registration.last?`: the handler that a history chose last for an operation.
* `Report.recording`: a transport that keeps a list of the payloads it was given.

## Main results

* `Dispatcher.routed_of_raw`.
-/

namespace BlockFeed

/-- The choice of a handler. -/
inductive Registration (H : Type) where
  | one (operation : Operation) (handler : H)
  | all (handler : H)

namespace Registration

variable {H : Type}

/-- The handler that a registration chooses for an operation. -/
def handler? (op : Operation) : Registration H → Option H
  | one o h => if op = o then some h else none
  | all h => some h

def applyTo (d : Dispatcher H) : Registration H → Dispatcher H
  | one op h => d.register op h
  | all h => d.registerAll h

/-- The handler that a history chose last for an operation. -/
def last? (history : List (Registration H)) (op : Operation) : Option H :=
  (history.filterMap (handler? op)).getLast?

theorem last?_concat (history : List (Registration H)) (r : Registration H) (op : Operation) :
    last? (history ++ [r]) op = (r.handler? op).or (last? history op) := by
  cases h : r.handler? op with
  | none => simp [last?, h]
  | some handler => simp [last?, h]

end Registration

namespace Dispatcher

variable {H : Type}

/-- A dispatcher after a history of registrations. -/
def after (history : List (Registration H)) : Dispatcher H :=
  history.foldl Registration.applyTo {}

theorem handler?_registerEach (ops : List Operation) (h : H) (d : Dispatcher H)
    (op : Operation) :
    (ops.foldl (fun d o => d.register o h) d).handler? op
      = if op ∈ ops then some h else d.handler? op := by
  induction ops generalizing d with
  | nil => simp
  | cons o rest ih =>
    rw [List.foldl_cons, ih]
    by_cases hrest : op ∈ rest
    · simp [hrest]
    · simp [hrest, register]

/-- A registration changes the handlers of the operations that it chooses one for. -/
theorem handler?_applyTo (d : Dispatcher H) (r : Registration H) (op : Operation) :
    (r.applyTo d).handler? op = (r.handler? op).or (d.handler? op) := by
  cases r with
  | one o h => by_cases ho : op = o <;> simp [Registration.applyTo, Registration.handler?,
      register, ho]
  | all h =>
    rw [Registration.applyTo, registerAll, handler?_registerEach, if_pos (Operation.mem_all op)]
    rfl

/-- What a dispatcher holds is what the history chose last. -/
theorem handler?_after (history : List (Registration H)) (op : Operation) :
    (after history).handler? op = Registration.last? history op := by
  induction history using List.reverseRecOn with
  | nil => rfl
  | append_singleton history r ih =>
    rw [after, List.foldl_append, List.foldl_cons, List.foldl_nil, handler?_applyTo,
      Registration.last?_concat]
    exact congrArg _ ih

variable (d : Dispatcher H) (act : OperationCall H → Except HandlerError Unit)

/-- The payload of a known operation leads to the call of its handler, if it has one. -/
theorem process_of_encode {op : Operation} {data payload : Bytes}
    (h : Envelope.encode ⟨op.tag, data⟩ = .ok payload) :
    d.process act payload = match d.handler? op with
      | some handler => ([⟨handler, op, data⟩], act ⟨handler, op, data⟩)
      | none => ([], .ok ()) := by
  have hop : Operation.ofTag op.tag = .ok op := by
    rw [Operation.ofTag, Operation.ofTag?_tag]
  have hroute : d.route payload
      = .ok ((d.handler? op).map fun handler => ⟨handler, op, data⟩) := by
    simp only [route, Envelope.decode_of_encode h, hop]
  rw [process, hroute]
  cases d.handler? op <;> rfl

theorem process_of_not_envelope {payload : Bytes} {e : CodecError}
    (h : Envelope.decode payload = .error e) :
    d.process act payload = ([], .error (.feed (.envelope e))) := by
  simp only [process, route, h]

theorem process_of_unknown {envelope : Envelope} {payload : Bytes}
    (h : envelope.encode = .ok payload) (htag : ∀ op : Operation, op.tag ≠ envelope.tag) :
    d.process act payload = ([], .error (.feed (.operation (.unknownTag envelope.tag)))) := by
  have hnone : Operation.ofTag? envelope.tag = none := by
    rw [Operation.ofTag?, List.find?_eq_none]
    intro op _
    simpa using htag op
  simp only [process, route, Envelope.decode_of_encode h, Operation.ofTag, hnone]

theorem tag_of_ofTag {t : UInt32} {op : Operation} (h : Operation.ofTag t = .ok op) :
    op.tag = t := by
  rw [Operation.ofTag] at h
  split at h
  · next found =>
    cases h
    simpa using List.find?_some found
  · cases h

/-- Only the payload of a registered operation leads to a call. -/
theorem encode_of_mem_process {payload : Bytes} {call : OperationCall H}
    (h : call ∈ (d.process act payload).1) :
    Envelope.encode ⟨call.operation.tag, call.data⟩ = .ok payload ∧
      d.handler? call.operation = some call.handler := by
  rw [process, route] at h
  cases hdecode : Envelope.decode payload with
  | error e => simp [hdecode] at h
  | ok envelope =>
    cases hop : Operation.ofTag envelope.tag with
    | error e => simp [hdecode, hop] at h
    | ok op =>
      cases hhandler : d.handler? op with
      | none => simp [hdecode, hop, hhandler] at h
      | some handler =>
        have hcall : call = ⟨handler, op, envelope.data⟩ := by
          simpa [hdecode, hop, hhandler] using h
        subst hcall
        refine ⟨?_, hhandler⟩
        rw [tag_of_ofTag hop]
        exact Envelope.encode_of_decode hdecode

end Dispatcher

namespace Report

variable {S : Type}

/-- A transport that keeps a list of the payloads it was given. -/
def recording (send : Bytes → S → Except SendError Unit × S) :
    Bytes → S × List Bytes → Except SendError Unit × (S × List Bytes) :=
  fun payload (s, log) => ((send payload s).1, (send payload s).2, log ++ [payload])

/-- Raw data that can be declared reach the transport as one payload, and its answer is the answer
to the report. -/
theorem submit_raw (m : Marshaler) (send : Bytes → S → Except SendError Unit × S) (s : S)
    {op : Operation} {data payload : Bytes}
    (h : Envelope.encode ⟨op.tag, data⟩ = .ok payload) :
    submit m send (.raw op data) s
      = ((send payload s).1.mapError FeedError.send, (send payload s).2) := by
  have hpayload : Report.payload m (.raw op data) = .ok payload := by
    simp only [Report.payload, Report.data, operation, h]
  simp only [submit, hpayload]
  rcases send payload s with ⟨_ | _, s'⟩ <;> rfl

end Report

open Registration (last?)

/-- Raw data of an operation go to the transport in exactly one payload, and a dispatcher makes of
this payload one call of the handler registered last for the operation, with the same data, or none
if there is no such handler. Any other payload is no envelope or bears the tag of no operation, and
is refused without a call. -/
theorem Dispatcher.routed_of_raw {H S : Type} (history : List (Registration H))
    (act : OperationCall H → Except HandlerError Unit) (m : Marshaler)
    (send : Bytes → S → Except SendError Unit × S) (s : S) (log : List Bytes) (op : Operation)
    (data : Bytes) (hdata : data.length ≤ 2 ^ 32 - 1) :
    (∃ payload,
      Report.submit m (Report.recording send) (.raw op data) (s, log)
        = ((send payload s).1.mapError .send, (send payload s).2, log ++ [payload]) ∧
      (after history).process act payload = match last? history op with
        | some handler => ([⟨handler, op, data⟩], act ⟨handler, op, data⟩)
        | none => ([], .ok ())) ∧
    ∀ payload,
      (∀ call ∈ ((after history).process act payload).1,
        Envelope.encode ⟨call.operation.tag, call.data⟩ = .ok payload ∧
          last? history call.operation = some call.handler) ∧
      ((∀ envelope, Envelope.encode envelope ≠ .ok payload) →
        ∃ e, Envelope.decode payload = .error e ∧
          (after history).process act payload = ([], .error (.feed (.envelope e)))) ∧
      ∀ envelope, Envelope.encode envelope = .ok payload →
        (∀ op : Operation, op.tag ≠ envelope.tag) →
        (after history).process act payload
          = ([], .error (.feed (.operation (.unknownTag envelope.tag)))) := by
  refine ⟨?_, fun payload => ⟨fun call hcall => ?_, fun hno => ?_, fun envelope henc htag => ?_⟩⟩
  · have hfit : data.length < UInt32.size := Nat.lt_of_le_pred (by decide) hdata
    obtain ⟨payload, hpayload⟩ : ∃ payload, Envelope.encode ⟨op.tag, data⟩ = .ok payload :=
      ⟨_, Envelope.encode_of_lt hfit⟩
    refine ⟨payload, Report.submit_raw m _ _ hpayload, ?_⟩
    rw [process_of_encode _ act hpayload, handler?_after]
  · obtain ⟨henc, hhandler⟩ := encode_of_mem_process _ act hcall
    rw [handler?_after] at hhandler
    exact ⟨henc, hhandler⟩
  · cases hdecode : Envelope.decode payload with
    | ok envelope => exact absurd (Envelope.encode_of_decode hdecode) (hno envelope)
    | error e => exact ⟨e, rfl, process_of_not_envelope _ act hdecode⟩
  · exact process_of_unknown _ act henc htag

/-- A handler for everything is replaced for one operation: a block goes to the new one, an empty
payload and an envelope under the tag 99 go to nobody. -/
theorem Dispatcher.routed_replaced :
    let history : List (Registration String) := [.all "archive", .one .saveBlock "index"]
    let act : OperationCall String → Except HandlerError Unit := fun _ => .ok ()
    let send : Bytes → Unit → Except SendError Unit × Unit := fun _ _ => (.ok (), ())
    ([1, 2] : Bytes).length ≤ 2 ^ 32 - 1 ∧
    (∃ payload, Report.submit .json (Report.recording send) (.raw .saveBlock [1, 2]) ((), [])
        = (.ok (), (), [payload]) ∧
      (after history).process act payload = ([⟨"index", .saveBlock, [1, 2]⟩], .ok ())) ∧
    (after history).process act [] = ([], .error (.feed (.envelope (.tooShort 0 8)))) ∧
    (after history).process act [0, 0, 0, 99, 0, 0, 0, 0]
      = ([], .error (.feed (.operation (.unknownTag 99)))) := by
  intro history act send
  have hdata : ([1, 2] : Bytes).length ≤ 2 ^ 32 - 1 := by decide
  obtain ⟨⟨payload, hsubmit, hprocess⟩, hother⟩ :=
    routed_of_raw history act .json send () [] .saveBlock [1, 2] hdata
  have hempty : ∀ envelope, Envelope.encode envelope ≠ .ok [] := by
    intro envelope h
    cases Envelope.decode_of_encode h
  have htag : ∀ op : Operation, op.tag ≠ 99 := by
    intro op
    cases op <;> decide
  obtain ⟨e, hdecode, hrefused⟩ := (hother []).2.1 hempty
  cases hdecode
  refine ⟨hdata, ⟨payload, hsubmit, hprocess⟩, hrefused, ?_⟩
  exact (hother [0, 0, 0, 99, 0, 0, 0, 0]).2.2 ⟨99, []⟩ rfl htag

end BlockFeed
