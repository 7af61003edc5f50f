import BlockFeed.Proofs.Client.Rest
import BlockFeed.Proofs.Client.Results
import BlockFeed.Proofs.Client.Winding

/-!
# Shutting a client down

Closing a client ends all that goes on, leaves no connection open, and is for good.

## Main definitions

* `Exchange.Upheld`: what an exchange keeps up from its beginning on.
* `Exchange.Over`: the client is shut down.
* `Exchange.Lasting`: it stays so.
* `Exchange.ShutDown`: all that closing the client does.

## Main results

* `Exchange.shutDown`: closing a client shuts it down.

## Design notes

That all activities come to their end is told in three parts, for it depends on who moves when:
whoever closes the client can do so at once, from then on only so many steps are taken, and as long
as an activity is not over, one can take a step or has a dial out. A dial that is out may end either
way, and a connection that comes of it is in the slot when the one who closes the client has its
turn to empty it.
-/

namespace BlockFeed

/-- The handler is told of the closing once more, or nothing changes about that. -/
theorem Client.Step.handlerCloses_le {me : Nat} {c c' : Client} {w w' : Wire} {a b : Stance}
    (h : c.Step me w a c' w' b) : c.handlerCloses ≤ c'.handlerCloses := by
  cases h with
  | spare hspares => exact hspares.handlerCloses.ge
  | @find r register => exact (Obtain.finish_frame register r c w).1.handlerCloses.ge
  | clear r =>
    split <;> exact Nat.le_refl _
  | drop r => exact (Discard.spares_drop r c w).handlerCloses.ge
  | empty => exact Nat.le_succ _
  | join | enter | pause | dial | refuse | close | queue => exact Nat.le_refl _

namespace Exchange

/-- What an exchange keeps up from its beginning on. -/
structure Upheld (p : Exchange) : Prop where
  kept : p.client.Kept p.wire p.stance
  inOrder : p.InOrder
  truthful : p.Truthful

/-- The client is shut down: nothing goes on, the slot is empty, no connection that was ever dialed
is open, and the handler was told once. -/
structure Over (p : Exchange) : Prop where
  finished : ∀ a ∈ p.clients, a.finished = true
  results : ∀ place s, p.callAt? place = some s → s.result? = some (.ok ()) ∨
    s.result? = some (.error .closed) ∨
    (s.result? = some (.error .emptyPayload) ∧ s.payload = [])
  slot : p.client.slot = none
  shut : ∀ r, Near r → (p.wire.conn r).isOpen = false
  told : p.client.handlerCloses = 1

/-- What was shut down stays so: no activity dials, no connection was made, and closing once more
changes nothing. -/
structure Lasting (p p' : Exchange) : Prop where
  dials : ∀ a ∈ p'.clients, a.dialing = false
  links : p'.wire.connections.length = p.wire.connections.length
  slot : p'.client.slot = none
  shut : ∀ r, Near r → (p'.wire.conn r).isOpen = false
  told : p'.client.handlerCloses = 1
  closes : ∀ place x pick q, p'.clientAt? place = some (.close x) → p'.move place pick = some q →
    q.client = p'.client ∧ q.wire = p'.wire

/-- All that closing the client does, told where events have led to. -/
structure ShutDown (events : List Event) (p : Exchange) : Prop where
  /-- No reading returns before closing was asked for. -/
  returned : .listen .done ∈ p.clients → .close ∈ events
  /-- Whoever is asked to close the client can do so at once. -/
  closes : .close ∈ events → p.client.cancel.closed = true ∨
    ∃ place, p.clientAt? place = some (.close .called) ∧
      ∀ pick, ∃ q, p.move place pick = some q ∧ q.client.cancel.closed = true
  /-- A send that waits for acknowledgments when the client is closed succeeds. -/
  acknowledged : ∀ place pick q, p.move place pick = some q → p.client.cancel.closed = false →
    q.client.cancel.closed = true → ∀ other s, p.callAt? other = some s → s.Awaits →
      ∀ more, Along apply Provides q more →
        ∃ s', (q.applyAll more).callAt? other = some s' ∧ s'.Assured
  /-- Once the client was closed, only so many steps are taken, and a few more whenever a reading
  goes on although it might return. -/
  settles : p.client.cancel.closed = true → ∀ more, Along apply Provides p more →
    p.advanced more ≤ p.left + 7 * calls more + 3 * p.overruns more
  /-- All that goes on can come to its end. -/
  completes : .close ∈ events →
    ∃ more, Along apply Provides p more ∧ calls more = 0 ∧ (p.applyAll more).Rests
  /-- When nothing can go on, the client is shut down. -/
  rested : .close ∈ events → p.Rests → p.Over
  /-- And so it stays, whatever is asked of it. -/
  lasting : .close ∈ events → p.Rests →
    ∀ more, Along apply Provides p more → p.Lasting (p.applyAll more)
  /-- What it is to send then is refused. -/
  refuses : .close ∈ events → p.Rests → ∀ first payload rest, payload ≠ [] → ∀ result,
    (p.applyAll (first ++ .send payload :: rest)).sent? (p.applyAll first).activities.length
      = some result → result = .error .closed

variable {p p' : Exchange} {e : Event} {place : Nat}

theorem Upheld.apply (h : p.Upheld) (provides : p.Provides e) : (p.apply e).Upheld where
  kept := kept_apply h.kept provides
  inOrder := h.inOrder.apply e
  truthful := truthful_apply h.truthful h.kept e

theorem Upheld.applyAll (h : p.Upheld) {events : List Event}
    (provided : Along Exchange.apply Provides p events) : (p.applyAll events).Upheld := by
  induction events generalizing p with
  | nil => exact h
  | cons e rest ih => exact ih (h.apply provided.1) provided.2

theorem upheld_start {config : Config} {handler : Handler} {client : Client}
    (made : Client.ofConfig config handler = .ok client)
    (stays : ∀ past d, (handler past d).closes = false) : (start client).Upheld := by
  have hinOrder := inOrder_start made
  obtain rfl := Client.eq_of_ofConfig made
  refine ⟨⟨⟨hinOrder.slot, nofun⟩,
    ⟨rfl, nofun, nofun, nofun⟩, fun r _ hopen => ?_,
    ⟨rfl, rfl, stays, fun _ => ⟨rfl, fun _ => id⟩, nofun⟩⟩, hinOrder, nofun⟩
  rw [Wire.conn_of_le (Nat.zero_le r)] at hopen
  cases hopen

/-- Once all is over, the slot has been emptied. -/
theorem vacated_of_finished (h : p.Upheld) (closed : p.client.cancel.closed = true)
    (finished : ∀ a ∈ p.clients, a.finished = true) : p.client.Vacated p.stance := by
  rcases h.kept.closing.after closed with ⟨-, q, hq, -⟩ | hvacated
  · rw [stance] at hq
    cases ha : p.clientAt? q with
    | none =>
      rw [ha] at hq
      exact hq.elim
    | some a =>
      have haside := (ClientActivity.of_finished (finished a (mem_clients.mpr ⟨q, ha⟩))).1
      rw [ha, Option.elim_some, haside] at hq
      exact hq.elim
  · exact hvacated

theorem over_of_rests (h : p.Upheld) (closed : p.client.cancel.closed = true) (rests : p.Rests) :
    p.Over := by
  have hfinished : ∀ a ∈ p.clients, a.finished = true := by
    intro a ha
    obtain ⟨place, ha⟩ := mem_clients.mp ha
    exact finished_of_rests h.inOrder closed (h.kept.closing.sender.trans closed)
      (h.kept.closing.receiver.trans closed) rests ha
  have hvacated := vacated_of_finished h closed hfinished
  refine ⟨hfinished, fun place s hs => ?_, hvacated.slot, fun r hr => ?_, hvacated.handlerCloses⟩
  · have ha : p.clientAt? place = some (.send s) := clientAt?_eq_some.mpr (callAt?_eq_some.mp hs)
    have hdone := hfinished _ (mem_clients.mpr ⟨place, ha⟩)
    have htruthful := h.truthful place _ ha
    obtain ⟨payload, phase⟩ := s
    cases phase with
    | done result =>
      rcases htruthful with rfl | ⟨rfl, -⟩ | ⟨rfl, hnil⟩
      · exact .inl rfl
      · exact .inr (.inl rfl)
      · exact .inr (.inr ⟨rfl, hnil⟩)
    | called | attempting | obtaining | sending | discarding | pausing => cases hdone
  · refine Bool.eq_false_iff.mpr fun hopen => ?_
    rcases h.kept.accounted r hr hopen with hslot | ⟨q, hq⟩
    · cases hvacated.slot.symm.trans hslot
    · -- whoever has still to close a connection is not over
      rw [stance] at hq
      cases ha : p.clientAt? q with
      | none =>
        rw [ha] at hq
        cases hq
      | some a =>
        have haside := (ClientActivity.of_finished (hfinished a (mem_clients.mpr ⟨q, ha⟩))).1
        rw [ha, Option.elim_some, haside] at hq
        cases hq

theorem handlerCloses_apply (p : Exchange) (e : Event) :
    p.client.handlerCloses ≤ (p.apply e).client.handlerCloses := by
  have heffect := p.effect_apply e
  generalize p.apply e = p' at heffect
  cases heffect with
  | step _ _ hstep => exact (ClientActivity.client_step hstep).handlerCloses_le
  | @link place near far a _ _ hdialing _ hclient =>
    rw [hclient]
    rcases ClientActivity.eq_of_dialing hdialing with ⟨payload, rfl⟩ | rfl
    · exact (Obtain.finish_frame true _
        { p.client with slot := some (Exchange.link p.wire near far).1 } p'.wire).1.handlerCloses.ge
    · exact (Obtain.finish_frame false _
        { p.client with slot := some (Exchange.link p.wire near far).1 } p'.wire).1.handlerCloses.ge
  | fail _ _ _ _ hclient | begin _ hclient | around _ _ hclient => exact hclient ▸ Nat.le_refl _

/-- Once the slot was emptied, it stays empty, and no connection is made any more. -/
theorem vacated_apply (h : p.Upheld) (closed : p.client.cancel.closed = true)
    (vacated : p.client.Vacated p.stance) (provides : p.Provides e) :
    (p.apply e).client.Vacated (p.apply e).stance ∧ p.wire.Wanes (p.apply e).wire := by
  have htold := p.handlerCloses_apply e
  refine ⟨?_, ?_⟩
  · rcases (h.apply provides).kept.closing.after (closed_apply closed e) with ⟨hzero, -⟩ | hvacated
    · rw [vacated.handlerCloses, hzero] at htold
      cases htold
    · exact hvacated
  · have heffect := p.effect_apply e
    generalize p.apply e = p' at heffect
    have hdials {place : Nat} {a : ClientActivity} (ha : p.clientAt? place = some a)
        (hdialing : a.dialing = true) : False := by
      refine (vacated.stances place).1 ?_
      rw [stance_of_clientAt? ha]
      exact ClientActivity.stance_eq_dials_iff.mpr hdialing
    cases heffect with
    | step _ _ hstep => exact (ClientActivity.client_step hstep).wanes
    | link _ ha hdialing | fail _ ha hdialing => exact (hdials ha hdialing).elim
    | begin _ _ hwire => exact hwire ▸ .refl _
    | around _ _ _ _ hwanes => exact hwanes provides

theorem vacated_applyAll (h : p.Upheld) (closed : p.client.cancel.closed = true)
    (vacated : p.client.Vacated p.stance) {events : List Event}
    (provided : Along Exchange.apply Provides p events) :
    (p.applyAll events).client.Vacated (p.applyAll events).stance ∧
      p.wire.Wanes (p.applyAll events).wire := by
  induction events generalizing p with
  | nil => exact ⟨vacated, .refl _⟩
  | cons e rest ih =>
    obtain ⟨hvacated, hwanes⟩ := vacated_apply h closed vacated provided.1
    obtain ⟨hlater, hmore⟩ := ih (h.apply provided.1) (closed_apply closed e) hvacated provided.2
    exact ⟨hlater, hwanes.trans hmore⟩

/-- A client that was shut down cannot be closed once more. -/
theorem close_still (closed : p.client.cancel.closed = true)
    (vacated : p.client.Vacated p.stance) {x : ClientClose} {pick : Nat}
    (hx : p.clientAt? place = some (.close x)) (hmove : p.move place pick = some p') :
    p'.client = p.client ∧ p'.wire = p.wire := by
  have hstance := (vacated.stances place).2
  rw [stance_of_clientAt? hx] at hstance
  rw [move, clientAt?_eq_some.mp hx] at hmove
  obtain ⟨⟨client, wire, a'⟩, hstep, rfl⟩ := Option.map_eq_some_iff.mp hmove
  obtain ⟨⟨_, _, x'⟩, hx', heq⟩ := Option.map_eq_some_iff.mp hstep
  obtain ⟨rfl, rfl, rfl⟩ := heq
  cases x with
  | called =>
    rw [ClientClose.step, if_pos closed] at hx'
    obtain ⟨rfl, rfl, rfl⟩ := Option.some.inj hx'
    exact ⟨rfl, rfl⟩
  | released | queued => exact absurd trivial hstance
  | done => cases hx'

theorem lasting_of_rests (h : p.Upheld) (closed : p.client.cancel.closed = true) (rests : p.Rests)
    {more : List Event} (provided : Along Exchange.apply Provides p more) :
    p.Lasting (p.applyAll more) := by
  have hover := over_of_rests h closed rests
  obtain ⟨hvacated, hwanes⟩ :=
    vacated_applyAll h closed (vacated_of_finished h closed hover.finished) provided
  refine ⟨fun a ha => ?_, hwanes.size, hvacated.slot, fun r hr => hwanes.shut (hover.shut r hr),
    hvacated.handlerCloses, fun place x pick q hx hmove => ?_⟩
  · obtain ⟨place, ha⟩ := mem_clients.mp ha
    refine Bool.eq_false_iff.mpr fun hdialing => (hvacated.stances place).1 ?_
    rw [stance_of_clientAt? ha]
    exact ClientActivity.stance_eq_dials_iff.mpr hdialing
  · exact close_still (closed_applyAll closed more) hvacated hx hmove

/-- Whoever is asked to close the client can do so at once. -/
theorem closes_of_shut (h : p.Truthful) (shut : p.Shut) : p.client.cancel.closed = true ∨
    ∃ place, p.clientAt? place = some (.close .called) ∧
      ∀ pick, ∃ q, p.move place pick = some q ∧ q.client.cancel.closed = true := by
  obtain ⟨b, hb, hclosing⟩ := List.mem_map.mp shut
  obtain ⟨place, hplace⟩ := List.mem_iff_getElem?.mp hb
  unfold ExchangeActivity.closing at hclosing
  split at hclosing
  · next x =>
    have hx : p.clientAt? place = some (.close x) := clientAt?_eq_some.mpr hplace
    by_cases hcalled : x = .called
    · subst hcalled
      cases hclosed : p.client.cancel.closed with
      | true => exact .inl rfl
      | false =>
        refine .inr ⟨place, hx, fun pick => ?_⟩
        rw [move, hplace]
        simp only [ClientActivity.step, ClientClose.step, hclosed, Bool.false_eq_true, if_false,
          Option.map_some]
        exact ⟨_, rfl, rfl⟩
    · exact .inl (h place _ hx hcalled)
  all_goals cases hclosing

theorem closed_of_rests (h : p.Truthful) (shut : p.Shut) (rests : p.Rests) :
    p.client.cancel.closed = true := by
  refine (closes_of_shut h shut).resolve_right ?_
  rintro ⟨place, hx, hmove⟩
  obtain ⟨q, hq, -⟩ := hmove 0
  cases ((rests place _ hx).1 0).symm.trans hq

/-- An activity that can move can do so without going on to read for longer than it has to. -/
theorem exists_move_of_stays {a : ClientActivity} (ha : p.clientAt? place = some a)
    (hmoves : ¬∀ pick, p.move place pick = none) :
    ∃ pick, p.move place pick ≠ none ∧ p.overrunsAt (.move place pick) = false := by
  obtain ⟨pick, hpick⟩ := Classical.not_forall.mp hmoves
  rw [move_eq_none_iff ha] at hpick
  have hover (pick : Nat) : p.overrunsAt (.move place pick) = a.goesOn pick := by
    rw [overrunsAt, ha, Option.any_some]
  cases a with
  | send | close => exact ⟨pick, by rwa [Ne, move_eq_none_iff ha], hover pick⟩
  | listen l =>
    rw [ClientActivity.step, Option.map_eq_none_iff, ClientListen.step_eq_none_iff 0] at hpick
    refine ⟨0, ?_, ?_⟩
    · rwa [Ne, move_eq_none_iff ha, ClientActivity.step, Option.map_eq_none_iff]
    · rw [hover]
      cases l <;> simp [ClientActivity.goesOn]

/-- A closed client can come to rest, whatever goes on. -/
theorem exists_rests_of_closed (h : p.Upheld) (closed : p.client.cancel.closed = true) :
    ∃ more, Along Exchange.apply Provides p more ∧ calls more = 0 ∧ (p.applyAll more).Rests := by
  induction hleft : p.left using Nat.strong_induction_on generalizing p with
  | _ n ih =>
    have hevent {e : Event} (provides : p.Provides e) (hadvances : p.advances e = true)
        (hbegun : e.begun? = none) (hover : p.overrunsAt e = false) :
        ∃ more, Along Exchange.apply Provides p more ∧ calls more = 0 ∧
          (p.applyAll more).Rests := by
      have hless := left_apply h.kept closed e
      rw [hadvances, hbegun, hover, Bool.toNat_true, Option.isSome_none, Bool.toNat_false] at hless
      obtain ⟨more, hmore, hcalls, hrests⟩ :=
        ih _ (by omega) (h.apply provides) (closed_apply closed e) rfl
      refine ⟨e :: more, ⟨provides, hmore⟩, ?_, hrests⟩
      rw [calls, List.countP_cons_of_neg (by simp [hbegun])]
      exact hcalls
    by_cases hrests : p.Rests
    · exact ⟨[], trivial, rfl, hrests⟩
    · obtain ⟨place, hplace⟩ := Classical.not_forall.mp hrests
      obtain ⟨a, ha⟩ := Classical.not_forall.mp hplace
      obtain ⟨ha, hnot⟩ := Classical.not_imp.mp ha
      by_cases hdialing : a.dialing = true
      · exact hevent (e := .answer place none) trivial (by simp [advances, ha, hdialing]) rfl rfl
      · have hmoves : ¬∀ pick, p.move place pick = none := fun hstuck =>
          hnot ⟨hstuck, Bool.eq_false_iff.mpr hdialing⟩
        obtain ⟨pick, hpick, hover⟩ := exists_move_of_stays ha hmoves
        refine hevent (e := .move place pick) trivial ?_ rfl hover
        rw [advances, ha, Option.isSome_some, Bool.true_and]
        exact Option.isSome_iff_ne_none.mpr hpick

theorem exists_rests (h : p.Upheld) (shut : p.Shut) :
    ∃ more, Along Exchange.apply Provides p more ∧ calls more = 0 ∧ (p.applyAll more).Rests := by
  rcases closes_of_shut h.truthful shut with hclosed | ⟨place, -, hmove⟩
  · exact exists_rests_of_closed h hclosed
  · obtain ⟨q, hq, hclosed⟩ := hmove 0
    have happly : p.apply (.move place 0) = q := by rw [apply, hq, Option.getD_some]
    have hprovides : p.Provides (.move place 0) := trivial
    obtain ⟨more, hmore, hcalls, hrests⟩ :=
      exists_rests_of_closed (happly ▸ h.apply hprovides) hclosed
    refine ⟨.move place 0 :: more, ⟨hprovides, happly.symm ▸ hmore⟩, ?_, ?_⟩
    · rw [calls, List.countP_cons_of_neg (by simp [Event.begun?])]
      exact hcalls
    · change ((p.apply (.move place 0)).applyAll more).Rests
      rw [happly]
      exact hrests

/-- The step that closes the client changes no send. -/
theorem callAt?_of_closes {pick other : Nat} {s : ClientSend} (hmove : p.move place pick = some p')
    (isOpen : p.client.cancel.closed = false) (closed : p'.client.cancel.closed = true)
    (hs : p.callAt? other = some s) : p'.callAt? other = some s := by
  rw [callAt?_eq_some] at hs ⊢
  cases moved_of_move hmove with
  | send _ hstep =>
    rw [hstep.cancel, isOpen] at closed
    cases closed
  | read _ hstep =>
    rw [hstep.cancel, isOpen] at closed
    cases closed
  | peer =>
    cases isOpen.symm.trans closed
  | stay hnone => cases hnone.symm.trans hmove
  | close hx =>
    have hne : place ≠ other := by
      rintro rfl
      cases hs.symm.trans hx
    exact (List.getElem?_set_ne hne).trans hs

/-- Closing a client shuts it down: in every run, whoever else is about to send or to read, wherever
they are, and however a dial ends. -/
theorem shutDown {config : Config} {handler : Handler} {client : Client}
    (made : Client.ofConfig config handler = .ok client)
    (stays : ∀ past d, (handler past d).closes = false) {events : List Event}
    (provided : Along apply Provides (start client) events) :
    ShutDown events ((start client).applyAll events) := by
  have h := (upheld_start made stays).applyAll provided
  have hregular := (regular_start made).applyAll events
  have hasked : ((start client).applyAll events).Shut ↔ .close ∈ events := by
    simp [shut_applyAll, show ¬(start client).Shut by simp [Shut, start]]
  generalize (start client).applyAll events = p at h hregular hasked
  have hclosed (hclose : .close ∈ events) (rests : p.Rests) : p.client.cancel.closed = true :=
    closed_of_rests h.truthful (hasked.mpr hclose) rests
  constructor
  case returned =>
    intro hmem
    obtain ⟨place, ha⟩ := mem_clients.mp hmem
    exact hasked.mp (hregular.shut (.inl (h.truthful place _ ha)))
  case closes => exact fun hclose => closes_of_shut h.truthful (hasked.mpr hclose)
  case acknowledged =>
    intro place pick q hmove isOpen closed other s hs hawaits more hmore
    have happly : p.apply (.move place pick) = q := by rw [apply, hmove, Option.getD_some]
    have hkept := happly ▸ kept_apply (e := .move place pick) h.kept trivial
    exact assured_applyAll hkept closed hmore (callAt?_of_closes hmove isOpen closed hs)
      (.inl hawaits)
  case settles =>
    intro closed more hmore
    exact (Nat.le_add_left _ _).trans (advanced_le_left h.kept closed hmore)
  case completes => exact fun hclose => exists_rests h (hasked.mpr hclose)
  case rested => exact fun hclose rests => over_of_rests h (hclosed hclose rests) rests
  case lasting =>
    exact fun hclose rests more hmore => lasting_of_rests h (hclosed hclose rests) rests hmore
  case refuses =>
    intro hclose rests first payload rest hne result hresult
    rw [applyAll_append] at hresult
    have hcall : ((p.applyAll first).apply (.send payload)).callAt?
        (p.applyAll first).activities.length = some ⟨payload, .called⟩ :=
      callAt?_eq_some.mpr List.getElem?_concat_length
    have hlater := closed_applyAll (hclosed hclose rests) first
    obtain ⟨s, hs, hrefused⟩ :
        ∃ s, (((p.applyAll first).apply (.send payload)).applyAll rest).callAt?
          (p.applyAll first).activities.length = some s ∧ s.Refused :=
      refused_applyAll (closed_apply hlater _) hcall trivial
    obtain ⟨t, ht, hdone⟩ := sent?_eq_some.mp hresult
    obtain rfl : t = s := Option.some.inj (ht.symm.trans hs)
    rw [ClientSend.Refused, hdone] at hrefused
    exact hrefused (payload_of_callAt? hs ▸ hne)

/-- One send waits for its acknowledgment over a connection that is lost, another one dials, and a
reading and a third send are in line for the slot. -/
def besieged : List Event :=
  .send [1] :: List.replicate 5 (.move 0 0) ++
    .answer 0 (some ({ id := "near", isOpen := true }, { id := "far", isOpen := true })) ::
    List.replicate 4 (.move 0 0) ++ .disconnect 0 ::
    .send [2] :: List.replicate 5 (.move 1 0) ++ .read :: List.replicate 2 (.move 2 0) ++
    .send [3] :: List.replicate 4 (.move 3 0)

/-- The client is closed, and only then the dial succeeds. -/
def winding : List Event :=
  .move 4 0 ::
    .answer 1 (some ({ id := "near2", isOpen := true }, { id := "far2", isOpen := true })) ::
    .move 0 0 :: List.replicate 6 (.move 1 0) ++ List.replicate 5 (.move 2 0) ++
    List.replicate 7 (.move 3 0) ++ List.replicate 3 (.move 4 0)

/-- All is asked of the client once more. -/
def belated : List Event :=
  .send [4] :: .read :: .close :: List.replicate 2 (.move 5 0) ++ List.replicate 3 (.move 6 0) ++
    [.move 7 0]

/-- The connection that was made last is closed as well, and nothing is made later. -/
theorem shutDown_besieged :
    Along apply Provides (start plain) (besieged ++ .close :: winding) ∧
    ((start plain).applyAll (besieged ++ .close :: winding)).Over ∧
    ((start plain).applyAll (besieged ++ .close :: winding)).Lasting
      (((start plain).applyAll (besieged ++ .close :: winding)).applyAll belated) := by
  have made : Client.ofConfig {} .accepting = .ok plain := rfl
  have hprovided : Along apply Provides (start plain) (besieged ++ .close :: winding) := by
    decide +kernel
  have hbelated : Along apply Provides ((start plain).applyAll (besieged ++ .close :: winding))
      belated := by
    decide +kernel
  have hrests : ((start plain).applyAll (besieged ++ .close :: winding)).Rests :=
    rests_of_finished (by decide +kernel)
  have hclose : Event.close ∈ besieged ++ .close :: winding :=
    List.mem_append_right _ List.mem_cons_self
  have hshut := shutDown made (fun _ _ => rfl) hprovided
  exact ⟨hprovided, hshut.rested hclose hrests, hshut.lasting hclose hrests belated hbelated⟩

end Exchange

end BlockFeed
