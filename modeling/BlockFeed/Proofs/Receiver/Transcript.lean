import BlockFeed.Proofs.Link.Queues
import BlockFeed.Proofs.Receiver.Closing
import BlockFeed.Proofs.Receiver.Deeds

/-!
# Transcripts of a reading

What a reading does in its steps, and that it does one thing after the other in order.

## Main definitions

* `Listen.entries`: what a reading does in a step, told from what the step changes and from the
  answer to its read.
* `Listen.quiet`: how many steps a reading may take before it does something.
* `Listen.Stage`: how far a reading has got after what it did last.
* `Listen.Noted`: a transcript fits a reading.

## Main results

* `Listen.Move.noted`: whatever a reading does next may follow what it did last.
* `Listen.Noted.waits`: a reading waits for a message or for the end of a pause only.
* `Listen.Move.quiet_le`: of two steps of a reading in a row, one at least does something.
-/

namespace BlockFeed

namespace Listen

/-- The answer to the read that a reading calls for in a step from one state to another, if it calls
for one and does not have to wait for it. A reading that returns because its receiver was closed
calls for none, unless it has taken something. -/
def answer? (w w' : Wire) (l l' : Listen) : Option (Except ConnectionError Bytes) :=
  match l.phase with
  | .reading =>
    if l'.result? = some false ∧ (w'.conn l.conn).taken = (w.conn l.conn).taken then none
    else (w.read? l.conn).map (·.1)
  | _ => none

/-- What a reading does in a step from one state to another. -/
def entries (now : Nat) (r r' : Receiver) (w w' : Wire) (l l' : Listen) : List Entry :=
  ((l.answer? w w' l').toList.map (Deed.read · (r'.handled.drop r.handled.length))
    ++ (w.news Connection.writes w').map (fun c => Deed.write c.2)
    ++ (if l.result?.isNone then l'.result?.toList else []).map Deed.stop).map (⟨now, ·⟩)

/-- How many steps a reading may take before it does something. -/
def quiet (l : Listen) : Nat :=
  match l.phase with
  | .called | .handling .. | .pausing .. => 1
  | .reading | .acknowledging _ | .done _ => 0

/-- How far a reading has got after what it did last. -/
inductive Stage (blocks : Bool) (retry now : Nat) : ListenPhase → Option Entry → Prop where
  | called : Stage blocks retry now .called none
  | begun : Stage blocks retry now .reading none
  | settled {a : Entry} : a.deed.Settled blocks → Stage blocks retry now .reading (some a)
  | handling {a : Entry} {bytes : Bytes} {frame : Frame} {d : Delivery}
      {answer : Except HandlerError Unit} : a.deed = .read (.ok bytes) [⟨d, answer⟩] →
      Frame.decode bytes = .ok frame → Stage blocks retry now (.handling frame answer) (some a)
  | owing {a : Entry} {counter : UInt64} : a.deed.owed? blocks = some counter →
      Stage blocks retry now (.acknowledging counter) (some a)
  | pausing {a : Entry} {resume : Resume} : a.deed.Failed resume →
      Stage blocks retry now (.pausing (a.time + retry) resume) (some a)
  | readAgain {a : Entry} : a.deed.Failed .read → a.time + retry ≤ now →
      Stage blocks retry now .reading (some a)
  | writeAgain {a : Entry} {counter : UInt64} : a.deed.Failed (.acknowledge counter) →
      a.time + retry ≤ now → Stage blocks retry now (.acknowledging counter) (some a)
  | done {a : Entry} {gone : Bool} : a.deed = .stop gone →
      Stage blocks retry now (.done gone) (some a)

/-- A transcript fits a reading. -/
structure Noted (blocks : Bool) (retry now : Nat) (w : Wire) (l : Listen) (log : List Entry) :
    Prop extends Entry.Orderly blocks retry log where
  stage : Stage blocks retry now l.phase log.getLast?
  /-- A connection that a frame was read from exists. -/
  exist : l.counter?.isSome = true → l.conn < w.connections.length

section Stage

variable {blocks : Bool} {retry now : Nat} {last : Option Entry} {d : Deed} {l : Listen}

theorem Stage.read (h : Stage blocks retry now .reading last) (hd : d.Attempts .read) :
    Entry.Next blocks retry last ⟨now, d⟩ := by
  cases h with
  | begun => exact .inl hd
  | settled ha => exact .next ha hd
  | readAgain ha hdue => exact .again ha hdue hd

theorem Stage.write {counter : UInt64} (h : Stage blocks retry now (.acknowledging counter) last)
    (hd : d.Attempts (.acknowledge counter)) : Entry.Next blocks retry last ⟨now, d⟩ := by
  cases h with
  | owing ha => exact .acknowledge ha hd
  | writeAgain ha hdue => exact .again ha hdue hd

/-- A reading that looks at its receiver may find it closed. -/
theorem Stage.cancel (h : Stage blocks retry now l.phase last)
    (hp : l.phase = .reading ∨ ∃ deadline resume, l.phase = .pausing deadline resume) :
    Entry.Next blocks retry last ⟨now, .stop false⟩ := by
  rcases hp with hp | ⟨deadline, resume, hp⟩
  · rw [hp] at h
    cases h with
    | begun => exact .inr rfl
    | settled ha => exact .cancelled (.inl ha) rfl
    | readAgain ha => exact .cancelled (.inr ⟨_, ha⟩) rfl
  · rw [hp] at h
    cases h with
    | pausing ha => exact .cancelled (.inr ⟨_, ha⟩) rfl

theorem Stage.begin (h : Stage blocks retry now .called last) :
    Stage blocks retry now .reading last := by
  cases h with
  | called => exact .begun

/-- The handler has answered, and the frame is to be acknowledged. -/
theorem Stage.conclude {frame : Frame} {answer : Except HandlerError Unit}
    (h : Stage blocks retry now (.handling frame answer) last) (hreq : frame.ackRequested = true)
    (hanswer : answer.isOk = true ∨ blocks = false) :
    Stage blocks retry now (.acknowledging frame.counter) last := by
  cases h with
  | handling ha hdec =>
    refine .owing ?_
    rw [ha, Deed.owed?_handled hdec, if_pos]
    simpa [hreq] using hanswer

/-- The handler has answered, and the frame is not to be acknowledged. -/
theorem Stage.withhold {frame : Frame} {answer : Except HandlerError Unit}
    (h : Stage blocks retry now (.handling frame answer) last)
    (hwithheld : frame.ackRequested = false ∨ answer.isOk = false ∧ blocks = true) :
    Stage blocks retry now .reading last := by
  cases h with
  | handling ha hdec =>
    refine .settled ?_
    rw [ha]
    refine ⟨rfl, ?_, nofun⟩
    rw [Deed.owed?_handled hdec, if_neg]
    rcases hwithheld with hreq | ⟨herror, hblock⟩
    · simp [hreq]
    · simp [herror, hblock]

theorem Stage.resumeRead {deadline : Nat}
    (h : Stage blocks retry now (.pausing deadline .read) last) (hdue : deadline ≤ now) :
    Stage blocks retry now .reading last := by
  cases h with
  | pausing ha => exact .readAgain ha hdue

theorem Stage.resumeWrite {deadline : Nat} {counter : UInt64}
    (h : Stage blocks retry now (.pausing deadline (.acknowledge counter)) last)
    (hdue : deadline ≤ now) : Stage blocks retry now (.acknowledging counter) last := by
  cases h with
  | pausing ha => exact .writeAgain ha hdue

/-- Time may pass. -/
theorem Stage.later (h : Stage blocks retry now l.phase last) {later : Nat} (hle : now ≤ later) :
    Stage blocks retry later l.phase last := by
  generalize l.phase = phase at h ⊢
  cases h with
  | called => exact .called
  | begun => exact .begun
  | settled ha => exact .settled ha
  | handling ha hdec => exact .handling ha hdec
  | owing ha => exact .owing ha
  | pausing ha => exact .pausing ha
  | readAgain ha hdue => exact .readAgain ha (Nat.le_trans hdue hle)
  | writeAgain ha hdue => exact .writeAgain ha (Nat.le_trans hdue hle)
  | done ha => exact .done ha

end Stage

section Entries

variable {now : Nat} {r r' : Receiver} {w w' : Wire} {l l' : Listen}

/-- A read that fails, and may be tried again, has taken something. -/
theorem taken_ne_of_read {r : Ref} {e : ConnectionError} (hread : w.read? r = some (.error e, w'))
    (stays : e.isClosed = false) : (w'.conn r).taken ≠ (w.conn r).taken := by
  obtain ⟨i, -, htaken⟩ := Wire.takes_of_read hread fun _ heq => Except.error.inj heq ▸ stays
  rw [htaken]
  simp

/-- A step that neither reads, writes nor returns. -/
theorem entries_quiet (answer : l.answer? w w l' = none) (result : l'.result? = none) :
    entries now r r' w w l l' = [] := by
  simp [entries, answer, result, Wire.news_self]

/-- A step that only returns. -/
theorem entries_stop {gone : Bool} (unfinished : l.result? = none)
    (answer : l.answer? w w l' = none) (result : l'.result? = some gone) :
    entries now r r' w w l l' = [⟨now, .stop gone⟩] := by
  simp [entries, unfinished, answer, result, Wire.news_self]

/-- A step that reads, and may then return. -/
theorem entries_read {answer : Except ConnectionError Bytes} {more : List Handled}
    (hp : l.phase = .reading) (hread : w.read? l.conn = some (answer, w'))
    (takes : l'.result? = some false → (w'.conn l.conn).taken ≠ (w.conn l.conn).taken)
    (handled : r'.handled = r.handled ++ more) :
    entries now r r' w w' l l'
      = ⟨now, .read answer more⟩ :: (l'.result?.toList.map fun gone => ⟨now, .stop gone⟩) := by
  have hanswer : l.answer? w w' l' = some answer := by
    rw [answer?, hp, hread]
    exact if_neg fun hnone => takes hnone.1 hnone.2
  have hunfinished : l.result? = none := by rw [result?, hp]
  have hmore : r'.handled.drop r.handled.length = more := by rw [handled, List.drop_left]
  rw [entries, hanswer, hmore, Wire.news_writes_of_read hread, hunfinished]
  simp

/-- A step that writes an acknowledgment, and may then return. -/
theorem entries_write {counter : UInt64} {answer : Except ConnectionError Unit}
    (hp : l.phase = .acknowledging counter) (hr : l.conn < w.connections.length)
    (hw : w.write l.conn (Ack.encode counter) = (answer, w')) :
    entries now r r' w w' l l'
      = ⟨now, .write ⟨Ack.encode counter, (w.conn l.conn).isOpen, Connection.refusal answer⟩⟩ ::
        (l'.result?.toList.map fun gone => ⟨now, .stop gone⟩) := by
  have hanswer : l.answer? w w' l' = none := by rw [answer?, hp]
  have hunfinished : l.result? = none := by rw [result?, hp]
  rw [entries, hanswer, Wire.news_writes hr hw, hunfinished]
  simp

/-- A step that reads or returns does something. -/
theorem entries_pos (h : (l.answer? w w' l').isSome = true ∨
    l.result? = none ∧ l'.result?.isSome = true) :
    1 ≤ (entries now r r' w w' l l').length := by
  simp only [entries, List.length_map, List.length_append]
  rcases h with hanswer | ⟨hunfinished, hresult⟩
  · obtain ⟨answer, hanswer⟩ := Option.isSome_iff_exists.mp hanswer
    rw [hanswer, Option.toList_some, List.length_singleton]
    omega
  · obtain ⟨gone, hresult⟩ := Option.isSome_iff_exists.mp hresult
    rw [hunfinished, hresult, Option.isNone_none, if_pos rfl, Option.toList_some,
      List.length_singleton]
    omega

/-- A reading that cannot take a step does nothing. -/
theorem entries_self {pick : Nat} (stuck : l.step now pick r w = none) :
    entries now r r w w l l = [] := by
  have hanswer : l.answer? w w l = none := by
    rw [answer?]
    split
    · next hp =>
      rcases phase_of_step stuck with ⟨_, hq⟩ | ⟨-, ⟨-, hread⟩ | ⟨_, _, hq, -⟩⟩
      · cases hp.symm.trans hq
      · rw [hread, Option.map_none, ite_self]
      · cases hp.symm.trans hq
    · rfl
  rw [entries, hanswer, Wire.news_self]
  cases l.result? <;> rfl

theorem filterMap_call?_entries (now : Nat) (r r' : Receiver) (w w' : Wire) (l l' : Listen) :
    (entries now r r' w w' l l').filterMap (·.deed.call?)
      = (w.news Connection.writes w').map Prod.snd := by
  simp [entries, List.filterMap_map, Function.comp_def, Deed.call?]

theorem filterMap_message?_entries (now : Nat) (r r' : Receiver) (w w' : Wire) (l l' : Listen) :
    (entries now r r' w w' l l').filterMap (·.deed.message?)
      = (l.answer? w w' l').toList.filterMap Except.toOption := by
  simp [entries, List.filterMap_map, Function.comp_def, Deed.message?]

theorem flatMap_handled_entries (now : Nat) (r r' : Receiver) (w w' : Wire) (l l' : Listen) :
    (entries now r r' w w' l l').flatMap (·.deed.handled)
      = (l.answer? w w' l').toList.flatMap fun _ => r'.handled.drop r.handled.length := by
  simp [entries, List.flatMap_map, Function.comp_def, Deed.handled]

/-- A step reads what it gets an answer for, or it reads nothing and hands nothing over. -/
theorem Move.answer (h : Move now r w l r' w' l') :
    (∃ answer, l.answer? w w' l' = some answer ∧ w.read? l.conn = some (answer, w')) ∨
      l.answer? w w' l' = none ∧ r'.handled = r.handled ∧ w.news Connection.consumed w' = [] := by
  have hread {answer : Except ConnectionError Bytes} {l' : Listen} (hp : l.phase = .reading)
      (hread : w.read? l.conn = some (answer, w'))
      (takes : l'.result? = some false → (w'.conn l.conn).taken ≠ (w.conn l.conn).taken) :
      ∃ answer, l.answer? w w' l' = some answer ∧ w.read? l.conn = some (answer, w') := by
    refine ⟨answer, ?_, hread⟩
    rw [answer?, hp, hread]
    exact if_neg fun hnone => takes hnone.1 hnone.2
  have hwrite {counter : UInt64} {answer : Except ConnectionError Unit}
      (hw : w.write l.conn (Ack.encode counter) = (answer, w')) :
      w.news Connection.consumed w' = [] :=
    Wire.news_eq_nil (Wire.logs_write hw).size fun f =>
      ((Wire.logs_write hw).conn f).consumed.trans (List.append_nil _)
  cases h with
  | begin hp | conclude hp | withhold hp | resumeRead hp | resumeAcknowledge hp =>
    exact .inr ⟨by rw [answer?, hp], rfl, Wire.news_self _ _⟩
  | cancel hp =>
    refine .inr ⟨?_, rfl, Wire.news_self _ _⟩
    rcases hp with hp | ⟨_, _, hp⟩ <;> simp [answer?, hp, result?]
  | handOver hp hr | skip hp hr | retryRead hp hr =>
    exact .inl (hread hp hr (by simp [result?]))
  | lose _ hfail =>
    rcases hfail with ⟨hp, hr⟩ | ⟨counter, hp, hw⟩
    · exact .inl (hread hp hr (by simp [result?]))
    · exact .inr ⟨by rw [answer?, hp], rfl, hwrite hw⟩
  | giveUp hstays _ hfail =>
    rcases hfail with ⟨hp, hr⟩ | ⟨counter, hp, hw⟩
    · exact .inl (hread hp hr fun _ => taken_ne_of_read hr hstays)
    · exact .inr ⟨by rw [answer?, hp], rfl, hwrite hw⟩
  | acknowledge hp hw | retryAcknowledge hp hw =>
    exact .inr ⟨by rw [answer?, hp], rfl, hwrite hw⟩

/-- The messages of a step are those that it reads from its connection. -/
theorem Move.news_consumed (h : Move now r w l r' w' l') :
    w.news Connection.consumed w'
      = ((entries now r r' w w' l l').filterMap (·.deed.message?)).map (l.conn, ·) := by
  rw [filterMap_message?_entries]
  rcases h.answer with ⟨answer, hanswer, hread⟩ | ⟨hanswer, -, hnone⟩
  · rw [hanswer]
    cases answer with
    | ok bytes => exact Wire.news_consumed hread
    | error e =>
      exact Wire.news_eq_nil (Wire.logs_read hread).size fun f =>
        ((Wire.logs_read hread).conn f).consumed.trans (by simp [Except.toOption])
  · rw [hanswer, hnone]
    rfl

/-- What is read in a step is what its connection has read last. -/
theorem Move.consumed (h : Move now r w l r' w' l') :
    (w'.conn l.conn).consumed = (w.conn l.conn).consumed
      ++ (entries now r r' w w' l l').filterMap (·.deed.message?) := by
  obtain ⟨calls, read, hlogs, -⟩ := h.logs
  have hnews := Wire.news_only hlogs.size fun f => (hlogs.conn f).consumed
  rw [h.news_consumed] at hnews
  rw [(hlogs.conn l.conn).consumed, Wire.only]
  split at hnews
  · next hlt =>
    rw [if_pos ⟨rfl, hlt⟩, List.map_injective_iff.mpr (fun _ _ => congrArg Prod.snd) hnews]
  · next hge => rw [if_neg fun hr => hge hr.2, List.map_eq_nil_iff.mp hnews]

/-- The writes of a step are those that it calls for at its connection. -/
theorem Move.news_writes (h : Move now r w l r' w' l') :
    w.news Connection.writes w'
      = ((entries now r r' w w' l l').filterMap (·.deed.call?)).map (l.conn, ·) := by
  obtain ⟨calls, read, hlogs, -⟩ := h.logs
  rw [filterMap_call?_entries, Wire.news_only hlogs.size fun f => (hlogs.conn f).writes]
  split <;> simp [Function.comp_def]

/-- What is handed over in a step is handed over by its read. -/
theorem Move.drop_handled (h : Move now r w l r' w' l') :
    r'.handled.drop r.handled.length
      = (entries now r r' w w' l l').flatMap (·.deed.handled) := by
  rw [flatMap_handled_entries]
  rcases h.answer with ⟨answer, hanswer, -⟩ | ⟨hanswer, hsame, -⟩
  · rw [hanswer, Option.toList_some, List.flatMap_singleton]
  · rw [hanswer, hsame, List.drop_length]
    rfl

end Entries

section Noted

variable {blocks : Bool} {retry now : Nat} {r r' : Receiver} {w w' : Wire} {l l' : Listen}
  {log : List Entry}

theorem noted_called (c : Ref) : Noted blocks retry now w ⟨c, .called⟩ [] where
  first := by simp
  chain := .nil
  handsOver := by simp
  stage := .called
  exist := nofun

/-- Time may pass, and there may be more connections. -/
theorem Noted.later (h : l.Noted blocks retry now w log) {later : Nat} (hnow : now ≤ later)
    (size : w.connections.length ≤ w'.connections.length) : l.Noted blocks retry later w' log where
  toOrderly := h.toOrderly
  stage := h.stage.later hnow
  exist := fun hsome => Nat.lt_of_lt_of_le (h.exist hsome) size

/-- One more deed of a reading. -/
theorem Noted.concat (h : l.Noted blocks retry now w log) {d : Deed}
    (next : Entry.Next blocks retry log.getLast? ⟨now, d⟩) (handsOver : d.HandsOver)
    (stage : Stage blocks retry now l'.phase (some ⟨now, d⟩))
    (exist : l'.counter?.isSome = true → l'.conn < w'.connections.length) :
    l'.Noted blocks retry now w' (log ++ [⟨now, d⟩]) where
  toOrderly := h.toOrderly.concat next handsOver
  stage := by
    rw [List.getLast?_concat]
    exact stage
  exist := exist

/-- A deed, and the return after it. -/
theorem Noted.concat_stop (h : l.Noted blocks retry now w log) {d : Deed} {gone : Bool}
    (next : Entry.Next blocks retry log.getLast? ⟨now, d⟩) (handsOver : d.HandsOver)
    (follows : Entry.Follows blocks retry ⟨now, d⟩ ⟨now, .stop gone⟩) (w' : Wire) :
    Noted blocks retry now w' { l with phase := .done gone }
      (log ++ [⟨now, d⟩, ⟨now, .stop gone⟩]) := by
  have hfirst := h.toOrderly.concat next handsOver
  have hboth := hfirst.concat (b := ⟨now, .stop gone⟩)
    (by rw [List.getLast?_concat]; exact follows) trivial
  rw [List.append_assoc] at hboth
  exact {
    toOrderly := hboth
    stage := by
      rw [List.getLast?_append]
      exact .done rfl
    exist := nofun }

/-- A step that is no deed. -/
theorem Noted.quiet (h : l.Noted blocks retry now w log)
    (stage : Stage blocks retry now l'.phase log.getLast?)
    (exist : l'.counter?.isSome = true → l.counter?.isSome = true) (conn : l'.conn = l.conn) :
    l'.Noted blocks retry now w log where
  toOrderly := h.toOrderly
  stage := stage
  exist := fun hsome => conn ▸ h.exist (exist hsome)

/-- A deed that failed and may be done again, and the pause after it. -/
theorem Noted.concat_failed (h : l.Noted blocks retry now w log) {d : Deed} {resume : Resume}
    (next : Entry.Next blocks retry log.getLast? ⟨now, d⟩) (handsOver : d.HandsOver)
    (failed : d.Failed resume)
    (exist : ∀ counter, resume = .acknowledge counter → l.conn < w'.connections.length) :
    Noted blocks retry now w' { l with phase := .pausing (now + retry) resume }
      (log ++ [⟨now, d⟩]) := by
  refine h.concat next handsOver (.pausing (a := ⟨now, d⟩) failed) fun hsome => ?_
  cases resume with
  | read => cases hsome
  | acknowledge counter => exact exist counter rfl

/-- The write of an acknowledgment, before it is known what has come of it. -/
theorem attempts_write {counter : UInt64} {isOpen : Bool} {error : Option ConnectionError} :
    (Deed.write ⟨Ack.encode counter, isOpen, error⟩).Attempts (.acknowledge counter) :=
  ⟨_, rfl, rfl⟩

/-- Whatever a reading does next may follow what it did last. -/
theorem Move.noted (h : Move now r w l r' w' l')
    (noted : l.Noted r.blockOnError r.retry now w log) :
    l'.Noted r.blockOnError r.retry now w' (log ++ entries now r r' w w' l l') := by
  have hstage := noted.stage
  cases h with
  | begin hp =>
    rw [entries_quiet (by rw [answer?, hp]) rfl, List.append_nil]
    exact noted.quiet (hp ▸ hstage).begin (by simp [counter?]) rfl
  | cancel hp =>
    have hanswer : l.answer? w w { l with phase := .done false } = none := by
      rcases hp with hp | ⟨_, _, hp⟩ <;> simp [answer?, hp, result?]
    have hunfinished : l.result? = none := by
      rcases hp with hp | ⟨_, _, hp⟩ <;> rw [result?, hp]
    rw [entries_stop hunfinished hanswer rfl]
    exact noted.concat (hstage.cancel hp) trivial (.done rfl) (by simp [counter?])
  | handOver hp hread hdec =>
    rw [entries_read hp hread (by simp [result?]) (r.handled_handOver _)]
    refine noted.concat ((hp ▸ hstage).read ⟨_, _, rfl⟩) (Deed.handsOver_frame hdec _)
      (.handling rfl hdec) fun _ => ?_
    exact (Wire.logs_read hread).size ▸ Wire.lt_of_read hread
  | skip hp hread hdec =>
    rw [entries_read hp hread (by simp [result?]) (by rw [List.append_nil])]
    exact noted.concat ((hp ▸ hstage).read ⟨_, _, rfl⟩) (Deed.handsOver_skipped hdec)
      (.settled (Deed.settled_skipped hdec [])) (by simp [counter?])
  | @lose _ e hgone hfail =>
    rcases hfail with ⟨hp, hread⟩ | ⟨counter, hp, hw⟩
    · rw [entries_read hp hread (by simp [result?]) (by rw [List.append_nil])]
      exact noted.concat_stop ((hp ▸ hstage).read ⟨_, _, rfl⟩) (Deed.handsOver_failed e)
        (.gone ⟨e, rfl, hgone⟩ rfl) _
    · rw [entries_write hp (noted.exist (by rw [counter?, hp]; rfl)) hw]
      exact noted.concat_stop ((hp ▸ hstage).write attempts_write) (Deed.handsOver_write _)
        (.gone ⟨e, rfl, hgone⟩ rfl) _
  | @giveUp _ e hstays _ hfail =>
    rcases hfail with ⟨hp, hread⟩ | ⟨counter, hp, hw⟩
    · rw [entries_read hp hread (fun _ => taken_ne_of_read hread hstays) (by rw [List.append_nil])]
      exact noted.concat_stop ((hp ▸ hstage).read ⟨_, _, rfl⟩) (Deed.handsOver_failed e)
        (.cancelled (.inr ⟨.read, ⟨_, _, rfl⟩, e, rfl, hstays⟩) rfl) _
    · rw [entries_write hp (noted.exist (by rw [counter?, hp]; rfl)) hw]
      exact noted.concat_stop ((hp ▸ hstage).write attempts_write) (Deed.handsOver_write _)
        (.cancelled (.inr ⟨.acknowledge counter, attempts_write, e, rfl, hstays⟩) rfl) _
  | @retryRead _ e hp hread hstays =>
    rw [entries_read hp hread (by simp [result?]) (by rw [List.append_nil])]
    exact noted.concat_failed ((hp ▸ hstage).read ⟨_, _, rfl⟩) (Deed.handsOver_failed e)
      ⟨⟨_, _, rfl⟩, e, rfl, hstays⟩ (by simp)
  | conclude hp hreq hanswer =>
    rw [entries_quiet (by rw [answer?, hp]) rfl, List.append_nil]
    exact noted.quiet ((hp ▸ hstage).conclude hreq hanswer) (fun _ => by rw [counter?, hp]; rfl) rfl
  | withhold hp hwithheld =>
    rw [entries_quiet (by rw [answer?, hp]) rfl, List.append_nil]
    exact noted.quiet ((hp ▸ hstage).withhold hwithheld) (by simp [counter?]) rfl
  | acknowledge hp hw =>
    rw [entries_write hp (noted.exist (by rw [counter?, hp]; rfl)) hw]
    exact noted.concat ((hp ▸ hstage).write attempts_write) (Deed.handsOver_write _)
      (.settled ⟨rfl, rfl, by simp⟩) (by simp [counter?])
  | @retryAcknowledge counter _ e hp hw hstays =>
    have hr := noted.exist (by rw [counter?, hp]; rfl)
    rw [entries_write hp hr hw]
    exact noted.concat_failed ((hp ▸ hstage).write attempts_write) (Deed.handsOver_write _)
      ⟨attempts_write, e, rfl, hstays⟩ fun _ _ => (Wire.logs_write hw).size ▸ hr
  | resumeRead hp hdue =>
    rw [entries_quiet (by rw [answer?, hp]) rfl, List.append_nil]
    exact noted.quiet ((hp ▸ hstage).resumeRead hdue) (by simp [counter?]) rfl
  | resumeAcknowledge hp hdue =>
    rw [entries_quiet (by rw [answer?, hp]) rfl, List.append_nil]
    exact noted.quiet ((hp ▸ hstage).resumeWrite hdue) (fun _ => by rw [counter?, hp]; rfl) rfl

theorem quiet_le_one (l : Listen) : l.quiet ≤ 1 := by
  rw [quiet]
  split <;> decide

/-- Of two steps of a reading in a row, one at least does something. -/
theorem Move.quiet_le (h : Move now r w l r' w' l') (noted : l.Noted blocks retry now w log) :
    1 + l'.quiet ≤ 2 * (entries now r r' w w' l l').length + l.quiet := by
  have hdoes (hpos : 1 ≤ (entries now r r' w w' l l').length) :
      1 + l'.quiet ≤ 2 * (entries now r r' w w' l l').length + l.quiet := by
    have hone := l'.quiet_le_one
    omega
  have hrest (hq : l.quiet = 1) (hq' : l'.quiet = 0) :
      1 + l'.quiet ≤ 2 * (entries now r r' w w' l l').length + l.quiet := by omega
  cases h with
  | begin hp | resumeRead hp | resumeAcknowledge hp | conclude hp | withhold hp =>
    exact hrest (by rw [quiet, hp]) rfl
  | cancel hp =>
    refine hdoes (entries_pos (.inr ⟨?_, rfl⟩))
    rcases hp with hp | ⟨_, _, hp⟩ <;> rw [result?, hp]
  | handOver hp hread | skip hp hread | retryRead hp hread =>
    exact hdoes (entries_pos (.inl (by simp [answer?, hp, hread, result?])))
  | lose _ hfail | giveUp _ _ hfail =>
    refine hdoes (entries_pos (.inr ⟨?_, rfl⟩))
    rcases hfail with ⟨hp, -⟩ | ⟨_, hp, -⟩ <;> rw [result?, hp]
  | acknowledge hp hw | retryAcknowledge hp hw =>
    refine hdoes ?_
    rw [entries_write hp (noted.exist (by rw [counter?, hp]; rfl)) hw]
    simp

/-- A reading has returned when that is the last that it did. -/
theorem Noted.result?_eq_some (h : l.Noted blocks retry now w log) {gone : Bool} :
    l.result? = some gone ↔ ∃ a ∈ log.getLast?, a.deed = .stop gone := by
  have hstage := h.stage
  have hother {a : Entry} (ha : ∀ gone, a.deed ≠ .stop gone) :
      none = some gone ↔ ∃ b ∈ some a, b.deed = .stop gone := by
    refine iff_of_false (by simp) ?_
    rintro ⟨b, hb, hstop⟩
    obtain rfl := Option.some.inj hb
    exact ha gone hstop
  rw [result?]
  generalize l.phase = phase, log.getLast? = last at hstage ⊢
  cases hstage with
  | called | begun => simp
  | settled hsettled => exact hother hsettled.2.2
  | handling hread => exact hother (by simp [hread])
  | owing howed => exact hother (Deed.ne_stop_of_owed? howed)
  | pausing hfailed | readAgain hfailed | writeAgain hfailed => exact hother hfailed.1.ne_stop
  | done ha => simp [ha]

/-- What a reading returns it returns once and for all. -/
theorem Noted.of_stop (h : l.Noted blocks retry now w log) {a : Entry} {gone : Bool} (ha : a ∈ log)
    (stop : a.deed = .stop gone) : l.result? = some gone := by
  obtain ⟨before, after, rfl⟩ := List.append_of_mem ha
  cases after with
  | nil => exact h.result?_eq_some.mpr ⟨a, by simp, stop⟩
  | cons b rest =>
    have hab : [a, b] <:+: before ++ a :: b :: rest := ⟨before, rest, by simp⟩
    exact absurd stop ((h.follows hab).ne_stop gone)

/-- A reading returns at once when it finds that the connection is gone. -/
theorem Noted.of_findsGone (h : l.Noted blocks retry now w log) {a : Entry} (ha : a ∈ log)
    (gone : a.deed.FindsGone) : l.result? = some true := by
  obtain ⟨before, after, rfl⟩ := List.append_of_mem ha
  cases after with
  | nil =>
    have hstage := h.stage
    rw [List.getLast?_concat] at hstage
    generalize l.phase = phase at hstage
    cases hstage with
    | settled hsettled => exact gone.elim (.inl hsettled.1)
    | handling hread => exact gone.elim (.inl (by rw [hread]; rfl))
    | owing howed => exact gone.elim (.inl (Deed.error?_of_owed? howed))
    | pausing hfailed | readAgain hfailed | writeAgain hfailed =>
      exact gone.elim (.inr ⟨_, hfailed⟩)
    | done hstop => exact absurd hstop (gone.ne_stop _)
  | cons b rest =>
    have hab : [a, b] <:+: before ++ a :: b :: rest := ⟨before, rest, by simp⟩
    exact h.of_stop (by simp) ((h.follows hab).of_findsGone gone)

/-- A reading returns `true` exactly if a read or a write found that the connection is gone. -/
theorem Noted.result?_eq_true (h : l.Noted blocks retry now w log) :
    l.result? = some true ↔ ∃ a ∈ log, a.deed.FindsGone := by
  constructor
  · intro hresult
    obtain ⟨b, hb, hstop⟩ := h.result?_eq_some.mp hresult
    obtain ⟨before, rfl⟩ := List.getLast?_eq_some_iff.mp hb
    have hnext := h.next
    cases hlast : before.getLast? with
    | none =>
      rw [hlast] at hnext
      rcases hnext with hread | hfalse
      · exact absurd hstop (hread.ne_stop true)
      · cases hstop.symm.trans hfalse
    | some a =>
      rw [hlast] at hnext
      refine ⟨a, List.mem_append_left _ (List.mem_of_getLast? hlast), ?_⟩
      cases hnext with
      | gone hgone => exact hgone
      | next _ hd | acknowledge _ hd | again _ _ hd => exact absurd hstop (hd.ne_stop true)
      | cancelled _ hfalse => cases hstop.symm.trans hfalse
  · rintro ⟨a, ha, hgone⟩
    exact h.of_findsGone ha hgone

/-- A reading that cannot go on has returned, or its receiver is not closed and it waits for a
message, with nothing left to write, or for the end of a pause after a failure. -/
theorem Noted.waits {pick : Nat} (h : l.Noted blocks r.retry now w log)
    (stuck : l.step now pick r w = none) :
    l.result?.isSome = true ∨ r.cancel.closed = false ∧
      (w.read? l.conn = none ∧ log.getLast?.bind (·.deed.open? blocks) = none ∨
        ∃ a ∈ log.getLast?, (∃ resume, a.deed.Failed resume) ∧ now < a.time + r.retry) := by
  have hstage := h.stage
  rcases phase_of_step stuck with
    ⟨gone, hp⟩ | ⟨hopen, ⟨hp, hread⟩ | ⟨deadline, resume, hp, hearly⟩⟩
  · exact .inl (by simp [result?, hp])
  · rw [hp] at hstage
    exact .inr ⟨hopen, .inl
      ⟨hread, (hstage.read ⟨.ok [], [], rfl⟩).open?_of_read ⟨_, _, rfl⟩⟩⟩
  · rw [hp] at hstage
    generalize log.getLast? = last at hstage
    cases hstage with
    | pausing ha => exact .inr ⟨hopen, .inr ⟨_, rfl, ⟨_, ha⟩, hearly⟩⟩

end Noted

end Listen

end BlockFeed
