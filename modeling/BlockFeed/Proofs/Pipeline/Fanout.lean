import BlockFeed.Proofs.Pipeline.Registrations
import BlockFeed.Proofs.Pipeline.Transcript
import BlockFeed.Proofs.Pipeline.Turns
import BlockFeed.Proofs.Sender.Tally

/-!
# Fan-outs in a run

What a send that has its turn comes to, on whatever connections are registered then and whatever
happens meanwhile.

## Main definitions

* `Pipeline.strides`: the pipeline before and after each step of an activity.
* `Pipeline.resolutions`: how the waits of a send end in the course of a run.
* `Pipeline.Fanning`: how far a send has got with its fan-out.
* `Pipeline.FansOut`: all that a send that has had its turn does and comes to.

## Main results

* `Pipeline.fansOut_of_turn`: whoever has its turn fans out.
-/

namespace BlockFeed

theorem Send.Move.of_turn {me pick : Nat} {s s' : Sender} {w w' : Wire} {x x' : Send} {t : Turn}
    (h : Move me pick s w x s' w' x') (turn : x.turn? me s = some t) :
    s.registry.isEmpty = false ∧ s' = { s with lastCounter := s.lastCounter + 1 } ∧ w' = w ∧
      x' = { x with phase := .writing (s.lastCounter + 1) s.registry.entries [] [] } := by
  have hqueued : x.phase = .queued := by
    rw [turn?] at turn
    split at turn
    · assumption
    · cases turn
  cases h with
  | abandon _ _ hempty => simp [turn?, hqueued, hempty] at turn
  | start _ _ hreg => exact ⟨hreg, rfl, rfl, rfl⟩
  | refuse hp | enqueue hp | accept hp | reject hp | fail hp | succeed hp | await hp | wait hp
  | conclude hp => cases hqueued.symm.trans hp

/-- A send that writes never has to wait. -/
theorem Send.step_ne_none_of_writing {x : Send} {counter : UInt64}
    {rest written : List (String × Ref)} {failures : List Failure}
    (h : x.phase = .writing counter rest written failures) (me pick : Nat) (s : Sender)
    (w : Wire) : x.step me pick s w ≠ none := by
  rw [step, h]
  cases rest with
  | nil => simp
  | cons c rest =>
    dsimp only
    split <;> simp

namespace Pipeline

/-- The pipeline before and after an event, if that is a step of the activity at a place. -/
def stridesAt (place : Nat) (p : Pipeline) (e : Event) : List (Pipeline × Pipeline) :=
  if e.moves place then [(p, p.apply e)] else []

/-- The pipeline before and after each step of the activity at a place in the course of a run. -/
def strides (place : Nat) (p : Pipeline) (events : List Event) : List (Pipeline × Pipeline) :=
  collect apply (stridesAt place) p events

/-- The wait of the send at a place that ends in an event, with how it does. -/
def resolutionsAt (place : Nat) (p : Pipeline) (e : Event) : List (Ref × AckOutcome) :=
  match e with
  | .move q pick =>
    if q = place then (p.sendAt? place).elim [] (·.resolves pick p.sender p.wire) else []
  | _ => []

/-- How the waits of the send at a place end in the course of a run, from the first that does. -/
def resolutions (place : Nat) (p : Pipeline) (events : List Event) : List (Ref × AckOutcome) :=
  collect apply (resolutionsAt place) p events

variable {p : Pipeline} {place : Nat} {e : Event} {events : List Event} {x : Send}

/-- Connections stay in their places, under their ids. -/
theorem keeps_apply (p : Pipeline) (e : Event) {r : Ref} (hr : r < p.wire.connections.length) :
    r < (p.apply e).wire.connections.length ∧
      ((p.apply e).wire.conn r).id = (p.wire.conn r).id := by
  rcases p.logs_apply e with ⟨_, _, hlogs⟩ | ⟨d, hwire⟩
  · exact ⟨hlogs.size ▸ hr, (hlogs.conn r).id⟩
  · rw [hwire, Wire.length_add, Wire.conn_add, if_neg (Nat.ne_of_lt hr)]
    exact ⟨Nat.lt_succ_of_lt hr, rfl⟩

/-- An activity that takes no step leaves everything as it is. -/
theorem eq_of_mem_stridesAt (h : p.stepsAt place e = []) {t : Pipeline × Pipeline}
    (ht : t ∈ p.stridesAt place e) : t = (p, p) := by
  cases e with
  | move q pick =>
    rw [stridesAt] at ht
    split at ht
    · next hmoves =>
      rw [stepsAt] at h
      have hnone : p.move q pick = none := by
        simpa [show q = place from beq_iff_eq.mp hmoves] using h
      rw [List.mem_singleton.mp ht, apply, hnone, Option.getD_none]
    · cases ht
  | _ => cases ht

theorem resolutionsAt_of_stay (hx : p.sendAt? place = some x) (h : p.stepsAt place e = []) :
    p.resolutionsAt place e = [] := by
  cases e with
  | move q pick =>
    rw [resolutionsAt]
    split
    · next hq =>
      subst hq
      have hnone : p.move q pick = none := by simpa [stepsAt] using h
      rw [hx, Option.elim_some]
      exact Send.resolves_of_step_eq_none
        ((move_send_eq_none_iff (sendAt?_eq_some.mp hx)).mp hnone)
    · rfl
  | _ => rfl

/-- Nothing has been unregistered, closed or taken from what has arrived. -/
structure Untouched (p p' : Pipeline) : Prop where
  registry : p'.sender.registry = p.sender.registry
  closes : ∀ r, (p'.wire.conn r).closes = (p.wire.conn r).closes
  taken : ∀ r, (p'.wire.conn r).taken = (p.wire.conn r).taken

/-- A connection has not been closed, and its id stands for the connection it stood for before. -/
structure Spared (c : String × Ref) (p p' : Pipeline) : Prop where
  entries : ∀ r, (c.1, r) ∈ p'.sender.registry.entries ↔ (c.1, r) ∈ p.sender.registry.entries
  closes : (p'.wire.conn c.2).closes = (p.wire.conn c.2).closes

/-- How far the send at a place has got with its fan-out, in a run from where it had its turn. -/
structure Fanning (p : Pipeline) (place : Nat) (withAcknowledge : Bool) (frame : Bytes)
    (counter : UInt64) (events : List Event) (f : Fanout) (x : Send) : Prop where
  send : (p.applyAll events).sendAt? place = some x
  asked : (p.applyAll events).sender.withAcknowledge = withAcknowledge
  writes : x.frame (p.applyAll events).sender counter = frame
  named : ∀ c ∈ f.snapshot, c.2 < (p.applyAll events).wire.connections.length ∧
    ((p.applyAll events).wire.conn c.2).id = c.1
  sound : f.Sound frame
  tally : x.Tally withAcknowledge frame counter f (p.steps place events).length
  calls : f.calls = p.gained Connection.writes place events
  ends : f.ends = p.resolutions place events
  acknowledged : ∀ r, (r, .acknowledged) ∈ f.ends ↔
    (r, Ack.encode counter) ∈ p.gained Connection.consumed place events
  cancelled : ∀ r, (r, .cancelled) ∈ f.ends → (p.applyAll events).sender.cancel.closed = true
  quiet : withAcknowledge = false → ∀ t ∈ p.strides place events, Untouched t.1 t.2
  spared : ∀ t ∈ p.strides place events, ∀ c ∈ f.snapshot, (∀ e, (c.2, .failed e) ∉ f.ends) →
    Spared c t.1 t.2

section

variable (p place events e)

theorem resolutions_concat : p.resolutions place (events ++ [e])
    = p.resolutions place events ++ (p.applyAll events).resolutionsAt place e :=
  collect_concat apply _ p events e

theorem strides_concat : p.strides place (events ++ [e])
    = p.strides place events ++ (p.applyAll events).stridesAt place e :=
  collect_concat apply _ p events e

end

namespace Fanning

variable {ack : Bool} {frame : Bytes} {counter : UInt64} {f : Fanout}

/-- A send that takes no step stays where it is with its fan-out. -/
theorem stay (h : p.Fanning place ack frame counter events f x)
    (hx : ((p.applyAll events).apply e).sendAt? place = some x)
    (untouched : (p.applyAll events).touchedAt place e = [])
    (hstay : (p.applyAll events).stepsAt place e = []) :
    p.Fanning place ack frame counter (events ++ [e]) f x := by
  have hasked := ((p.applyAll events).withAcknowledge_apply e).trans h.asked
  have hsteps : p.steps place (events ++ [e]) = p.steps place events := by
    rw [steps_append, steps_singleton, hstay, List.append_nil]
  have hgained {α : Type} (history : Connection → List α) :
      p.gained history place (events ++ [e]) = p.gained history place events := by
    rw [gained_append, gained_singleton, gainedAt_eq_flatMap, untouched, List.flatMap_nil,
      List.append_nil]
  have hstrides {t : Pipeline × Pipeline} (ht : t ∈ p.strides place (events ++ [e])) :
      t ∈ p.strides place events ∨ t = (p.applyAll events, p.applyAll events) := by
    rw [strides_concat] at ht
    exact (List.mem_append.mp ht).imp_right (eq_of_mem_stridesAt hstay)
  constructor
  · rwa [applyAll_concat]
  · rwa [applyAll_concat]
  · rw [applyAll_concat, ← h.writes, Send.frame, Send.frame, hasked, h.asked]
  · intro c hc
    obtain ⟨hlt, hid⟩ := (p.applyAll events).keeps_apply e (h.named c hc).1
    rw [applyAll_concat]
    exact ⟨hlt, hid.trans (h.named c hc).2⟩
  · exact h.sound
  · rw [hsteps]
    exact h.tally
  · rw [hgained, h.calls]
  · rw [resolutions_concat, resolutionsAt_of_stay h.send hstay, List.append_nil, h.ends]
  · intro r
    rw [hgained, h.acknowledged]
  · intro r hr
    rw [applyAll_concat]
    exact closed_apply (h.cancelled r hr) e
  · intro hnone t ht
    rcases hstrides ht with hold | rfl
    · exact h.quiet hnone t hold
    · exact ⟨rfl, fun _ => rfl, fun _ => rfl⟩
  · intro t ht c hc hkept
    rcases hstrides ht with hold | rfl
    · exact h.spared t hold c hc hkept
    · exact ⟨fun _ => Iff.rfl, rfl⟩

/-- A step of the send carries its fan-out on. -/
theorem step {pick : Nat} {x' : Send} (h : p.Fanning place ack frame counter events f x)
    (named : (p.applyAll events).Named)
    (hx' : ((p.applyAll events).apply (.move place pick)).sendAt? place = some x')
    (can : ((p.applyAll events).move place pick).isSome = true)
    (hmove : Send.Move place pick (p.applyAll events).sender (p.applyAll events).wire x
      ((p.applyAll events).apply (.move place pick)).sender
      ((p.applyAll events).apply (.move place pick)).wire x') :
    ∃ f', f'.snapshot = f.snapshot ∧
      p.Fanning place ack frame counter (events ++ [.move place pick]) f' x' := by
  have hasked := ((p.applyAll events).withAcknowledge_apply (.move place pick)).trans h.asked
  have hmoves : (Event.move place pick).moves place = true := beq_self_eq_true place
  have hsteps : (p.steps place (events ++ [.move place pick])).length
      = (p.steps place events).length + 1 := by
    have hone : (p.applyAll events).stepsAt place (.move place pick) = [pick] :=
      if_pos ⟨rfl, can⟩
    rw [steps_append, steps_singleton, hone, List.length_append, List.length_singleton]
  have hgained {α : Type} (history : Connection → List α) :
      p.gained history place (events ++ [.move place pick]) = p.gained history place events
        ++ (p.applyAll events).wire.news history
          ((p.applyAll events).apply (.move place pick)).wire := by
    rw [gained_append, gained_singleton, gainedAt_of_moves hmoves]
  have hresolves : (p.applyAll events).resolutionsAt place (.move place pick)
      = x.resolves pick (p.applyAll events).sender (p.applyAll events).wire := by
    rw [resolutionsAt, if_pos rfl, h.send, Option.elim_some]
  have hstrides {t : Pipeline × Pipeline}
      (ht : t ∈ p.strides place (events ++ [.move place pick])) : t ∈ p.strides place events ∨
        t = (p.applyAll events, (p.applyAll events).apply (.move place pick)) := by
    rw [strides_concat, stridesAt, if_pos hmoves] at ht
    exact (List.mem_append.mp ht).imp_right List.mem_singleton.mp
  obtain ⟨f', hsnapshot, hsound, htally, hcalls, hends⟩ := hmove.tally h.sound h.tally h.asked
    h.writes fun c hc => (h.named c hc).1
  refine ⟨f', hsnapshot, ?_⟩
  constructor
  · rwa [applyAll_concat]
  · rwa [applyAll_concat]
  · rw [applyAll_concat, ← h.writes, Send.frame, Send.frame, hmove.payload, hasked, h.asked]
  · intro c hc
    rw [hsnapshot] at hc
    obtain ⟨hlt, hid⟩ := (p.applyAll events).keeps_apply (.move place pick) (h.named c hc).1
    rw [applyAll_concat]
    exact ⟨hlt, hid.trans (h.named c hc).2⟩
  · exact hsound
  · rwa [hsteps]
  · rw [hcalls, h.calls, hgained]
  · rw [hends, h.ends, resolutions_concat, hresolves]
  · intro r
    rw [hends, hgained, List.mem_append, List.mem_append, h.acknowledged,
      hmove.acknowledges h.tally]
  · intro r hr
    rw [hends] at hr
    rw [applyAll_concat]
    refine closed_apply ?_ _
    rcases List.mem_append.mp hr with hold | hnew
    · exact h.cancelled r hold
    · exact Send.closed_of_cancelled hnew
  · intro hnone t ht
    rcases hstrides ht with hold | rfl
    · exact h.quiet hnone t hold
    · obtain ⟨hregistry, hconn⟩ := hmove.quiet (h.tally.ne_waiting hnone)
      exact ⟨hregistry, fun r => (hconn r).1, fun r => (hconn r).2⟩
  · intro t ht c hc hkept
    rw [hsnapshot] at hc
    rw [hends] at hkept
    rcases hstrides ht with hold | rfl
    · exact h.spared t hold c hc fun e he => hkept e (List.mem_append_left _ he)
    -- Only a wait that fails in this step could cost the connection its place.
    · have hnot := h.tally.not_loses h.sound hc fun e he => hkept e (List.mem_append_right _ he)
      obtain ⟨hentries, hcloses⟩ := hmove.spares named.entries (h.named c hc).2 hnot
      exact ⟨hentries, hcloses⟩

theorem concat (h : p.Fanning place ack frame counter events f x)
    (named : (p.applyAll events).Named) (e : Event) :
    ∃ f' x', f'.snapshot = f.snapshot ∧
      p.Fanning place ack frame counter (events ++ [e]) f' x' := by
  obtain ⟨x', hx'⟩ : ∃ x', ((p.applyAll events).apply e).sendAt? place = some x' :=
    exists_sendAt?_applyAll h.send [e]
  cases sends_apply hx' with
  | @step pick y he hy hcan hmove =>
    subst he
    obtain rfl : y = x := Option.some.inj (hy.symm.trans h.send)
    obtain ⟨f', hsnapshot, hafter⟩ := h.step named hx' hcan hmove
    exact ⟨f', x', hsnapshot, hafter⟩
  | same hsame htouched hstay =>
    obtain rfl : x' = x := Option.some.inj (hsame.symm.trans h.send)
    exact ⟨f, x', rfl, h.stay hx' htouched hstay⟩
  -- The send has its place already, and whoever begins now gets one behind it.
  | call hplace =>
    have hlt := (List.getElem?_eq_some_iff.mp (sendAt?_eq_some.mp h.send)).1
    exact absurd hlt (Nat.not_lt_of_le hplace)

/-- A send that has its turn begins with a fan-out to the connections that are registered, under
the counter that it takes. -/
theorem start {pick : Nat} {t : Turn} (named : p.Named)
    (turn : t ∈ p.turnsAt (.move place pick)) (ack_eq : p.sender.withAcknowledge = ack) :
    t.place = place ∧ t.snapshot ≠ [] ∧ ∃ x, (p.apply (.move place pick)).Fanning place ack
      (Frame.encode ⟨ack, (p.apply (.move place pick)).sender.lastCounter, t.payload⟩)
      (p.apply (.move place pick)).sender.lastCounter [] { snapshot := t.snapshot } x := by
  obtain ⟨y, hy, hturn⟩ := Option.bind_eq_some_iff.mp (Option.mem_toList.mp turn)
  obtain rfl := Send.eq_of_turn? hturn
  have hmoved := p.moved_apply place pick
  generalize p.apply (.move place pick) = p' at hmoved ⊢
  cases hmoved with
  | @send z x' sender wire hz hmove =>
    obtain rfl : z = y := Option.some.inj ((sendAt?_eq_some.mpr hz).symm.trans hy)
    obtain ⟨hreg, rfl, rfl, hx'⟩ := hmove.of_turn hturn
    refine ⟨rfl, List.isEmpty_eq_false_iff.mp hreg, x', ?_⟩
    subst hx'
    have hlt := (List.getElem?_eq_some_iff.mp hz).1
    exact {
      send := sendAt?_eq_some.mpr (List.getElem?_set_self hlt)
      asked := ack_eq
      writes := by rw [Send.frame, ← ack_eq]; rfl
      named := named.entries
      sound := Fanout.sound_start _ p.sender.registry.nodup named.nodup
      tally := Send.tally_start z _ _ _
      calls := rfl
      ends := rfl
      acknowledged := fun _ => iff_of_false List.not_mem_nil List.not_mem_nil
      cancelled := nofun
      quiet := fun _ _ ht => absurd ht List.not_mem_nil
      spared := fun _ ht => absurd ht List.not_mem_nil }
  | listen hl =>
    have hnone : p.sendAt? place = none := by rw [sendAt?, hl]
    cases hnone.symm.trans hy
  | stay hnone =>
    exact absurd ((move_send_eq_none_iff (sendAt?_eq_some.mp hy)).mp hnone)
      (Send.step_ne_none_of_turn? hturn)

theorem applyAll (h : p.Fanning place ack frame counter [] f x) (named : p.Named)
    (course : Along apply Provides p events) :
    ∃ f' x', f'.snapshot = f.snapshot ∧ p.Fanning place ack frame counter events f' x' := by
  have hboth : (p.applyAll events).Named ∧
      ∃ f' x', f'.snapshot = f.snapshot ∧ p.Fanning place ack frame counter events f' x' := by
    refine along_induction ⟨named, f, x, rfl, h⟩ (fun events e _ provides ih => ?_) course
    obtain ⟨hnamed, f', x', hsnapshot, hf⟩ := ih
    obtain ⟨f'', x'', hsnapshot', hf'⟩ := hf.concat hnamed e
    refine ⟨?_, f'', x'', hsnapshot'.trans hsnapshot, hf'⟩
    rw [applyAll_concat]
    exact hnamed.apply provides
  exact hboth.2

end Fanning

/-- What a turn comes to in a run from where it is taken: `f` is the fan-out. -/
structure FansOut (withAcknowledge : Bool) (t : Turn) (p : Pipeline) (events : List Event)
    (f : Fanout) : Prop where
  /-- It is for the connections that were registered. -/
  snapshot : f.snapshot = t.snapshot
  inhabited : t.snapshot ≠ []
  /-- They are different from each other, the frame of the counter that was taken is written to them
  one after the other, and each of their waits ends once. -/
  sound : f.Sound (Frame.encode ⟨withAcknowledge, p.sender.lastCounter, t.payload⟩)
  calls : f.calls = p.gained Connection.writes t.place events
  ends : f.ends = p.resolutions t.place events
  /-- A wait ends with an acknowledgment exactly if the one of the counter is read. -/
  acknowledged : ∀ r, (r, .acknowledged) ∈ f.ends ↔
    (r, Ack.encode p.sender.lastCounter) ∈ p.gained Connection.consumed t.place events
  /-- It is cancelled only if the sender is closed. -/
  cancelled : ∀ r, (r, .cancelled) ∈ f.ends → (p.applyAll events).sender.cancel.closed = true
  /-- If acknowledgments are not asked for, nothing is read, unregistered or closed. -/
  quiet : withAcknowledge = false → ∀ s ∈ p.strides t.place events, Untouched s.1 s.2
  /-- In that case it takes one step for each connection and one more, and has to wait for none. -/
  prompt : withAcknowledge = false → (p.applyAll events).sent? t.place = none →
    (p.steps t.place events).length ≤ t.snapshot.length ∧
      ∀ pick, ((p.applyAll events).move t.place pick).isSome = true
  /-- It is over only if it has been written to all connections, and if acknowledgments are asked
  for, only if each that took the frame is resolved. -/
  complete : ∀ result, (p.applyAll events).sent? t.place = some result →
    f.Complete withAcknowledge (Frame.encode ⟨withAcknowledge, p.sender.lastCounter, t.payload⟩)
  /-- It succeeds exactly if some connection has delivered. -/
  ok : ∀ result, (p.applyAll events).sent? t.place = some result →
    (result = .ok () ↔ ∃ c, f.Delivers withAcknowledge c)
  /-- Otherwise its failures name each connection once, with the reason why that one failed, and
  they mean that the connections are gone exactly if each of them is. -/
  failed : ∀ e, (p.applyAll events).sent? t.place = some (.error e) →
    ∃ failures, e = .allWritesFailed failures ∧ failures ≠ [] ∧
      (failures.map (·.id)).Perm (t.snapshot.map Prod.fst) ∧
      (∀ failure, failure ∈ failures ↔ ∃ c, failure.id = c.1 ∧ f.Fails c failure.error) ∧
      (e.isConnectionClosed = true ↔
        ∀ c ∈ t.snapshot, ∃ e, f.Fails c e ∧ e.isClosed = true)
  /-- No connection is unregistered or closed but those that took the frame and whose acknowledgment
  cannot be read. -/
  spared : ∀ s ∈ p.strides t.place events, ∀ c ∈ t.snapshot, ¬f.GivenUp c → Spared c s.1 s.2

theorem Fanning.fansOut {withAcknowledge : Bool} {t : Turn} {f : Fanout}
    (h : p.Fanning t.place withAcknowledge
      (Frame.encode ⟨withAcknowledge, p.sender.lastCounter, t.payload⟩) p.sender.lastCounter
      events f x)
    (snapshot : f.snapshot = t.snapshot) (inhabited : t.snapshot ≠ []) :
    FansOut withAcknowledge t p events f := by
  have hdone {result : Except SendError Unit}
      (hsent : (p.applyAll events).sent? t.place = some result) :
      f.Complete withAcknowledge
          (Frame.encode ⟨withAcknowledge, p.sender.lastCounter, t.payload⟩) ∧
        result = f.result withAcknowledge := by
    obtain ⟨y, hy, hp⟩ := sent?_eq_some.mp hsent
    obtain rfl : y = x := Option.some.inj (hy.symm.trans h.send)
    cases h.tally with
    | writing hq | waiting _ hq => cases hp.symm.trans hq
    | done hcomplete hq => exact ⟨hcomplete, SendPhase.done.inj (hp.symm.trans hq)⟩
  refine ⟨snapshot, inhabited, h.sound, h.calls, h.ends, h.acknowledged, h.cancelled, h.quiet, ?_,
    fun _ hsent => (hdone hsent).1, ?_, ?_, ?_⟩
  · intro hnone hsent
    cases h.tally with
    | @writing rest hp htried _ hsteps =>
      constructor
      · rw [← hsteps, ← snapshot, ← htried, List.length_append, List.length_map]
        exact Nat.le_add_right _ _
      · intro pick
        rw [Option.isSome_iff_ne_none, ne_eq, move_send_eq_none_iff (sendAt?_eq_some.mp h.send)]
        exact Send.step_ne_none_of_writing hp _ _ _ _
    | waiting hasked => cases hasked.symm.trans hnone
    | done _ hp => cases hsent.symm.trans (sent?_eq_some.mpr ⟨x, h.send, hp⟩)
  · intro result hsent
    obtain ⟨hcomplete, rfl⟩ := hdone hsent
    rcases hcomplete.result_eq with ⟨hok, hdelivered⟩ | ⟨herror, hlost⟩
    · exact iff_of_true hok hdelivered
    · exact iff_of_false (by rw [herror]; nofun) hlost
  · intro e hsent
    obtain ⟨hcomplete, hresult⟩ := hdone hsent
    rcases hcomplete.result_eq with ⟨hok, -⟩ | ⟨herror, hlost⟩
    · cases hresult.trans hok
    · obtain rfl := Except.error.inj (hresult.trans herror)
      refine ⟨_, rfl, hcomplete.failures_ne_nil hlost (snapshot ▸ inhabited), ?_,
        fun _ => hcomplete.mem_failures, ?_⟩
      · rw [← snapshot]
        exact hcomplete.ids_perm hlost
      · rw [← snapshot]
        exact hcomplete.isConnectionClosed_iff hlost
  · intro s hs c hc hkept
    have hmem : c ∈ f.snapshot := snapshot ▸ hc
    exact h.spared s hs c hmem fun e he => hkept ⟨h.sound.took_of_mem_ends hmem he, e, he⟩

/-- Whoever has its turn writes its frame to all connections that are registered, and comes to what
has become of them, whatever else happens meanwhile. -/
theorem fansOut_of_turn (withAcknowledge : Bool) (before after : List Event) (place pick : Nat)
    (t : Turn)
    (course :
      Along apply Provides (beginning withAcknowledge) (before ++ .move place pick :: after))
    (turn : t ∈ ((beginning withAcknowledge).applyAll before).turnsAt (.move place pick)) :
    ∃ f, FansOut withAcknowledge t
      (((beginning withAcknowledge).applyAll before).apply (.move place pick)) after f := by
  obtain ⟨hbefore, hmove, hafter⟩ := along_append.mp course
  have hnamed := named_applyAll withAcknowledge hbefore
  have hasked := withAcknowledge_applyAll (beginning withAcknowledge) before
  obtain ⟨rfl, hinhabited, x, hstart⟩ := Fanning.start hnamed turn hasked
  obtain ⟨f, x', hsnapshot, hrun⟩ := hstart.applyAll (hnamed.apply hmove) hafter
  exact ⟨f, hrun.fansOut hsnapshot hinhabited⟩

/-- A send has its turn on two connections, of which the first does not accept any message. -/
def rejecting : List Event :=
  [.connect { id := "a", isOpen := true, afterPlan := some .notOpen },
    .connect { id := "b", isOpen := true }, .register 0, .register 1, .send [1], .move 0 0]

/-- It writes to both, reads something that is no acknowledgment from the second, and then nothing
more can be read. -/
def losing : List Event :=
  [.move 0 0, .move 0 0, .move 0 0, .occur 1 (.arrive [.data [7], .failure .closedByPeer]),
    .move 0 0, .move 0 0]

/-- A fan-out fails at one connection that does not take the frame and at another that does not
acknowledge it. -/
theorem fansOut_losing :
    (∃ f, FansOut true ⟨0, [1], [("a", 0), ("b", 1)]⟩
      (((beginning true).applyAll rejecting).apply (.move 0 0)) losing f) ∧
    ((beginning true).applyAll (rejecting ++ .move 0 0 :: losing)).sent? 0
      = some (.error (.allWritesFailed [⟨"a", .notOpen⟩, ⟨"b", .closedByPeer⟩])) := by
  refine ⟨fansOut_of_turn true rejecting losing 0 0 ⟨0, [1], [("a", 0), ("b", 1)]⟩ ?_ ?_, rfl⟩
  · refine ⟨nofun, nofun, ?_, ?_, nofun, nofun, nofun, nofun, nofun, nofun, nofun, nofun, nofun,
      trivial⟩
    all_goals
      rintro r ⟨⟩
      decide
  · exact List.mem_singleton_self _

end Pipeline

end BlockFeed
