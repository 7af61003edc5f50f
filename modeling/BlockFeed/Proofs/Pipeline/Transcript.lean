import BlockFeed.Proofs.Pipeline.Flow
import BlockFeed.Proofs.Pipeline.Lifecycle
import BlockFeed.Proofs.Receiver.Transcript

/-!
# Transcripts of a run

What one reading does in the course of a run, from the call on, whatever else happens.

## Main definitions

* `Pipeline.transcript`: what the reading of a receiver at a place does in a run.
* `Pipeline.calls`: what the receiver is handed in the steps of that reading.
* `Pipeline.Transcribed`: the reading, its receiver and its connection fit the transcript.

## Main results

* `Pipeline.transcribed_applyAll`: they do after every run.
-/

namespace BlockFeed.Pipeline

/-- What the reading of a receiver at a place does in an event. -/
def entriesAt (i place : Nat) (p : Pipeline) (e : Event) : List Entry :=
  if e.moves place then
    match p.readingAt? i place, (p.apply e).readingAt? i place, p.receivers[i]?,
      (p.apply e).receivers[i]? with
    | some l, some l', some r, some r' =>
      Listen.entries p.now r r' p.wire (p.apply e).wire l l'
    | _, _, _, _ => []
  else []

/-- What the reading of a receiver at a place does in the course of a run. -/
def transcript (i place : Nat) (p : Pipeline) (events : List Event) : List Entry :=
  collect apply (entriesAt i place) p events

def handledBy (p : Pipeline) (i : Nat) : List Handled := (p.receivers[i]?).elim [] (·.handled)

/-- What a receiver is handed in an event, if that is a step of the activity at a place. -/
def callsAt (i place : Nat) (p : Pipeline) (e : Event) : List Handled :=
  if e.moves place then ((p.apply e).handledBy i).drop (p.handledBy i).length else []

/-- What a receiver is handed in the steps of the activity at a place. -/
def calls (i place : Nat) (p : Pipeline) (events : List Event) : List Handled :=
  collect apply (callsAt i place) p events

section

variable {p : Pipeline} {i place : Nat} {e : Event}

theorem now_le_apply (p : Pipeline) (e : Event) : p.now ≤ (p.apply e).now := by
  cases e with
  | move q pick =>
    have hmoved := p.moved_apply q pick
    generalize p.apply (.move q pick) = p' at hmoved
    cases hmoved <;> exact Nat.le_refl _
  | elapse duration => exact Nat.le_add_right _ _
  | report m r => rw [apply]; split <;> exact Nat.le_refl _
  | _ => exact Nat.le_refl _

/-- Whatever happens, the connections have gone on with their histories, or there is a new one. -/
theorem logs_apply (p : Pipeline) (e : Event) :
    (∃ calls reads, p.wire.Logs calls reads (p.apply e).wire) ∨
      ∃ d, (p.apply e).wire = (p.wire.add d).1 := by
  have heffect := p.effect_apply e
  generalize p.apply e = p', p.assigned e = more at heffect
  cases heffect with
  | send _ _ hmove => exact .inl hmove.logs
  | listen _ _ _ hmove =>
    obtain ⟨_, _, hlogs, -⟩ := hmove.logs
    exact .inl ⟨_, _, hlogs⟩
  | aside hp =>
    rcases hp.logs with hstill | ⟨d, -, hwire⟩
    · exact .inl ⟨_, _, hstill⟩
    · exact .inr ⟨d, hwire⟩

/-- What has been read from a connection stays read. -/
theorem consumed_apply (p : Pipeline) (e : Event) (c : Ref) :
    (p.wire.conn c).consumed.Sublist ((p.apply e).wire.conn c).consumed := by
  rcases p.logs_apply e with ⟨_, _, hlogs⟩ | ⟨d, hwire⟩
  · rw [(hlogs.conn c).consumed]
    exact List.sublist_append_left _ _
  · rw [hwire, Wire.conn_add]
    split
    · next hc => rw [Wire.conn_of_le (Nat.le_of_eq hc.symm)]; exact List.nil_sublist _
    · exact List.Sublist.refl _

theorem gainedAt_of_not_moves {α : Type} {history : Connection → List α}
    (h : e.moves place = false) : p.gainedAt history place e = [] := by
  rw [gainedAt_eq_flatMap, touchedAt_of_not_moves h]
  rfl

theorem gainedAt_of_moves {α : Type} {history : Connection → List α} (h : e.moves place = true) :
    p.gainedAt history place e = p.wire.news history (p.apply e).wire := by
  cases e with
  | move q pick => exact if_pos (beq_iff_eq.mp h)
  | _ => cases h

variable {l l' : Listen} {r r' : Receiver}

theorem entriesAt_of_moves (h : e.moves place = true) (hl : p.readingAt? i place = some l)
    (hl' : (p.apply e).readingAt? i place = some l') (hr : p.receivers[i]? = some r)
    (hr' : (p.apply e).receivers[i]? = some r') :
    p.entriesAt i place e = Listen.entries p.now r r' p.wire (p.apply e).wire l l' := by
  rw [entriesAt, if_pos h, hl, hl', hr, hr']

theorem callsAt_of_moves (h : e.moves place = true) (hr : p.receivers[i]? = some r)
    (hr' : (p.apply e).receivers[i]? = some r') :
    p.callsAt i place e = r'.handled.drop r.handled.length := by
  rw [callsAt, if_pos h, handledBy, handledBy, hr, hr']
  rfl

/-- Whatever happens, a receiver keeps its settings, and if it is closed it stays so. -/
theorem Regards.settings {p' : Pipeline} (h : Regards p i r e p' r') :
    r'.blockOnError = r.blockOnError ∧ r'.retry = r.retry ∧
      (r.cancel.closed = true → r'.cancel.closed = true) := by
  cases h with
  | step _ _ _ hmove =>
    exact ⟨hmove.grows.blockOnError, hmove.retry, fun hclosed => (hmove.stays_closed hclosed)⟩
  | call => exact ⟨rfl, rfl, id⟩
  | other hsame =>
    rcases hsame with rfl | rfl
    · exact ⟨rfl, rfl, id⟩
    · exact ⟨rfl, rfl, fun _ => rfl⟩

theorem Regards.size_le {p' : Pipeline} (h : Regards p i r e p' r') :
    p.wire.connections.length ≤ p'.wire.connections.length := by
  cases h with
  | step _ _ _ hmove =>
    obtain ⟨_, _, hlogs, -⟩ := hmove.logs
    exact Nat.le_of_eq hlogs.size.symm
  | call _ hwire => exact Nat.le_of_eq (by rw [hwire])
  | other _ _ _ _ hsize => exact hsize

/-- A reading takes a step in an event, or it stays as it is and the event is no deed of it. -/
theorem Regards.readingAt? (h : Regards p i r e (p.apply e) r') (hr : p.receivers[i]? = some r)
    (hr' : (p.apply e).receivers[i]? = some r') (hl : p.readingAt? i place = some l) :
    (∃ l', e.moves place = true ∧ (p.apply e).readingAt? i place = some l' ∧
      Listen.Move p.now r p.wire l r' (p.apply e).wire l') ∨
    (p.apply e).readingAt? i place = some l ∧ p.entriesAt i place e = [] ∧
      p.callsAt i place e = [] ∧ p.stepsAt place e = [] ∧
      ∀ {α : Type} (history : Connection → List α), p.gainedAt history place e = [] := by
  have hlt := (List.getElem?_eq_some_iff.mp (readingAt?_eq_some.mp hl)).1
  have hidle (hl' : (p.apply e).readingAt? i place = some l) (hmoves : e.moves place = false) :
      (p.apply e).readingAt? i place = some l ∧ p.entriesAt i place e = [] ∧
        p.callsAt i place e = [] ∧ p.stepsAt place e = [] ∧
        ∀ {α : Type} (history : Connection → List α), p.gainedAt history place e = [] :=
    ⟨hl', by simp [entriesAt, hmoves], by simp [callsAt, hmoves], stepsAt_of_not_moves hmoves,
      fun _ => gainedAt_of_not_moves hmoves⟩
  cases h with
  | @step q pick k k' _ he hk hp' hmove =>
    by_cases hq : q = place
    · subst hq
      obtain rfl : l = k := Option.some.inj (hl.symm.trans (readingAt?_eq_some.mpr hk))
      refine .inl ⟨k', by rw [he]; exact beq_self_eq_true q, ?_, hmove⟩
      rw [readingAt?_eq_some, hp', List.getElem?_set_self hlt]
    · refine .inr (hidle ?_ (by rw [he]; exact beq_false_of_ne hq))
      rw [Pipeline.readingAt?, hp', List.getElem?_set_ne hq]
      exact hl
  | call he _ hp' =>
    refine .inr (hidle ?_ (by rw [he]; rfl))
    rw [Pipeline.readingAt?, hp', List.getElem?_append_left hlt]
    exact hl
  | other _ _ hreading hstay _ =>
    have hl' := (hreading place).trans hl
    cases hmoves : e.moves place with
    | false => exact .inr (hidle hl' hmoves)
    | true =>
      cases e with
      | move q pick =>
        obtain rfl : q = place := beq_iff_eq.mp hmoves
        obtain ⟨hsame, hstuck⟩ := hstay q pick l rfl hl
        obtain rfl : r = r' := Option.some.inj (hr.symm.trans (hsame ▸ hr'))
        have hnone := (move_listen_eq_none_iff (readingAt?_eq_some.mp hl) hr).mpr hstuck
        refine .inr ⟨hl', ?_, ?_, ?_, fun history => ?_⟩
        · rw [entriesAt_of_moves hmoves hl hl' hr hr', hsame, Listen.entries_self hstuck]
        · rw [callsAt_of_moves hmoves hr hr', List.drop_length]
        · exact if_neg fun hmoved => by simp [hnone] at hmoved
        · rw [gainedAt_of_moves hmoves, hsame, Wire.news_self]
      | _ => cases hmoves

end

/-- The reading at a place, its receiver and its connection fit what the reading has done: `r₀` is
how the receiver was set up, `c` is the connection. -/
structure Transcribed (p : Pipeline) (i place : Nat) (r₀ : Receiver) (c : Ref) (events : List Event)
    (l : Listen) (r : Receiver) : Prop where
  reading : (p.applyAll events).readingAt? i place = some l
  receiver : (p.applyAll events).receivers[i]? = some r
  conn : l.conn = c
  blockOnError : r.blockOnError = r₀.blockOnError
  retry : r.retry = r₀.retry
  /-- A reading is not cancelled unless its receiver is closed. -/
  cancelled : l.result? = some false → r.cancel.closed = true
  noted : l.Noted r₀.blockOnError r₀.retry (p.applyAll events).now (p.applyAll events).wire
    (p.transcript i place events)
  consumed : p.gained Connection.consumed place events
    = ((p.transcript i place events).filterMap (·.deed.message?)).map (c, ·)
  arrived : ((p.transcript i place events).filterMap (·.deed.message?)).Sublist
    ((p.applyAll events).wire.conn c).consumed
  writes : p.gained Connection.writes place events
    = ((p.transcript i place events).filterMap (·.deed.call?)).map (c, ·)
  calls : p.calls i place events = (p.transcript i place events).flatMap (·.deed.handled)

namespace Transcribed

variable {p : Pipeline} {i place : Nat} {r₀ r : Receiver} {c : Ref} {events : List Event}
  {l : Listen}

theorem called (hl : p.readingAt? i place = some ⟨c, .called⟩) (hr : p.receivers[i]? = some r) :
    p.Transcribed i place r c [] ⟨c, .called⟩ r where
  reading := hl
  receiver := hr
  conn := rfl
  blockOnError := rfl
  retry := rfl
  cancelled := nofun
  noted := Listen.noted_called c
  consumed := rfl
  arrived := List.nil_sublist _
  writes := rfl
  calls := rfl

theorem concat (h : p.Transcribed i place r₀ c events l r) (e : Event) :
    ∃ l' r', p.Transcribed i place r₀ c (events ++ [e]) l' r' ∧
      ((p.applyAll events).stepsAt place e).length + l'.quiet
        ≤ 2 * ((p.applyAll events).entriesAt i place e).length + l.quiet := by
  obtain ⟨r', hr', hregards⟩ := regards_apply h.receiver e
  obtain ⟨hblock, hretry, hclosed⟩ := hregards.settings
  have hnow := (p.applyAll events).now_le_apply e
  have hsize := hregards.size_le
  have htranscript : p.transcript i place (events ++ [e])
      = p.transcript i place events ++ (p.applyAll events).entriesAt i place e :=
    collect_concat apply _ p events e
  have hcalls : p.calls i place (events ++ [e])
      = p.calls i place events ++ (p.applyAll events).callsAt i place e :=
    collect_concat apply _ p events e
  have hgained {α : Type} (history : Connection → List α) :
      p.gained history place (events ++ [e])
        = p.gained history place events ++ (p.applyAll events).gainedAt history place e :=
    collect_concat apply _ p events e
  rcases hregards.readingAt? h.receiver hr' h.reading with
    ⟨l', hmoves, hl', hmove⟩ | ⟨hl', hentries, hnone, hsteps, hgains⟩
  · have hentries := entriesAt_of_moves hmoves h.reading hl' h.receiver hr'
    have hnoted := hmove.noted (h.blockOnError ▸ h.retry ▸ h.noted)
    have hquiet := hmove.quiet_le h.noted
    have hone := (p.applyAll events).length_stepsAt_le place e
    refine ⟨l', r', ?_, by rw [hentries]; omega⟩
    constructor
    · rw [applyAll_concat]
      exact hl'
    · rw [applyAll_concat]
      exact hr'
    · rw [hmove.conn, h.conn]
    · rw [hblock, h.blockOnError]
    · rw [hretry, h.retry]
    · exact fun hresult => hmove.stays_closed (hmove.closed_of_cancelled hresult)
    · rw [applyAll_concat, htranscript, hentries, ← h.blockOnError, ← h.retry]
      exact hnoted.later hnow (Nat.le_refl _)
    · rw [hgained, htranscript, h.consumed, gainedAt_of_moves hmoves, hmove.news_consumed,
        hentries, h.conn, List.filterMap_append, List.map_append]
    · have hconsumed := hmove.consumed
      rw [h.conn] at hconsumed
      rw [applyAll_concat, htranscript, hentries, List.filterMap_append, hconsumed]
      exact h.arrived.append (List.Sublist.refl _)
    · rw [hgained, htranscript, h.writes, gainedAt_of_moves hmoves, hmove.news_writes,
        hentries, h.conn, List.filterMap_append, List.map_append]
    · rw [hcalls, htranscript, h.calls, callsAt_of_moves hmoves h.receiver hr',
        hmove.drop_handled, hentries, List.flatMap_append]
  · refine ⟨l, r', ?_, by rw [hsteps, hentries]; exact Nat.le_refl _⟩
    rw [hentries, List.append_nil] at htranscript
    rw [hnone, List.append_nil] at hcalls
    constructor
    · rw [applyAll_concat]
      exact hl'
    · rw [applyAll_concat]
      exact hr'
    · exact h.conn
    · rw [hblock, h.blockOnError]
    · rw [hretry, h.retry]
    · exact fun hresult => hclosed (h.cancelled hresult)
    · rw [applyAll_concat, htranscript]
      exact h.noted.later hnow hsize
    · rw [hgained, hgains, List.append_nil, htranscript, h.consumed]
    · rw [applyAll_concat, htranscript]
      exact h.arrived.trans ((p.applyAll events).consumed_apply e c)
    · rw [hgained, hgains, List.append_nil, htranscript, h.writes]
    · rw [hcalls, htranscript, h.calls]

end Transcribed

/-- Whatever happens after a receiver was asked to read, its reading fits its transcript. -/
theorem transcribed_applyAll {p : Pipeline} {i : Nat} {r : Receiver}
    (hr : p.receivers[i]? = some r) (c : Ref) (events : List Event) :
    ∃ l r', (p.apply (.listen i c)).Transcribed i p.activities.length r c events l r' := by
  induction events using List.reverseRecOn with
  | nil =>
    refine ⟨_, r, .called (readingAt?_eq_some.mpr ?_) hr⟩
    simp [apply, begin]
  | append_singleton events e ih =>
    obtain ⟨l, q, h⟩ := ih
    obtain ⟨l', q', h', -⟩ := h.concat e
    exact ⟨l', q', h'⟩

end BlockFeed.Pipeline
