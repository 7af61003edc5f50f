import BlockFeed.Proofs.Pipeline.Acknowledged
import BlockFeed.Proofs.Pipeline.Flawless

/-!
# Completion

While nothing fails, every report that is made reaches every receiver exactly once, and no call is
left waiting.

## Main definitions

* `Pipeline.reports`: the calls of a run.
* `Pipeline.Assembled`: a sender and receivers, linked over connections that do not fail, before any
  call.
* `Pipeline.Completes`: what comes of the calls of a run.

## Main results

* `Pipeline.completes_of_routine`: nothing stalls, and nothing is lost or handed over twice.
-/

namespace BlockFeed.Pipeline

def Event.call? : Event → Option (Marshaler × Report)
  | .report m r => some (m, r)
  | _ => none

/-- The reports that are made in a run, from the first to the last. -/
def reports (events : List Event) : List (Marshaler × Report) := events.filterMap Event.call?

/-- The payloads of reports. -/
def envelopes (calls : List (Marshaler × Report)) : List Bytes :=
  calls.filterMap fun c => (c.2.payload c.1).toOption

theorem payload_of_routine {m : Marshaler} {r : Report} (h : (Event.report m r).Routine) :
    ∃ payload, r.payload m = .ok payload := by
  obtain ⟨data, hdata, hshort⟩ := h
  rw [Report.payload, hdata]
  dsimp only
  rw [Envelope.encode, if_pos hshort]
  exact ⟨_, rfl⟩

theorem lt_of_payloadAt? {p : Pipeline} {place : Nat} {payload : Bytes}
    (h : p.payloadAt? place = some payload) : place < p.activities.length := by
  obtain ⟨x, hx, -⟩ := Option.map_eq_some_iff.mp h
  exact (List.getElem?_eq_some_iff.mp (sendAt?_eq_some.mp hx)).1

theorem payloadAt?_keeps {p : Pipeline} {place : Nat} {payload : Bytes}
    (h : p.payloadAt? place = some payload) (e : Event) :
    (p.apply e).payloadAt? place = some payload :=
  (payloadAt?_apply (lt_of_payloadAt? h) e).2.trans h

/-- The calls of a run are the activities after so many others, in their order, and what is assigned
is for their payloads. -/
structure Enrolled (others : Nat) (p : Pipeline) (calls : List (Marshaler × Report))
    (log : Ledger) : Prop where
  length : p.activities.length = others + calls.length
  payloads : ∀ (i : Nat) (m : Marshaler) (r : Report), calls[i]? = some (m, r) →
    ∃ payload, r.payload m = .ok payload ∧ p.payloadAt? (others + i) = some payload
  assigned : ∀ a ∈ log, p.payloadAt? a.place = some a.payload

namespace Enrolled

variable {p : Pipeline} {others : Nat} {calls : List (Marshaler × Report)} {log : Ledger}

theorem apply (h : p.Enrolled others calls log) {e : Event} (routine : e.Routine) :
    Enrolled others (p.apply e) (calls ++ e.call?.toList) (log ++ p.assigned e) where
  length := by
    cases e with
    | move place pick =>
      have hmoved := p.moved_apply place pick
      generalize p.apply (.move place pick) = p' at hmoved
      cases hmoved with
      | send | listen => simpa [Event.call?] using h.length
      | stay => simpa [Event.call?] using h.length
    | elapse => simpa [Event.call?, Pipeline.apply] using h.length
    | report m r =>
      have hlength := h.length
      rw [Pipeline.apply]
      split <;> simp [begin, Event.call?] <;> omega
    | connect | join | occur | disconnect | register | unregister | removeClosed | closeAll
    | closeSender | send | attach | listen | closeReceiver => exact routine.elim
  payloads := by
    intro i m r hi
    rcases Nat.lt_or_ge i calls.length with hlt | hge
    · rw [List.getElem?_append_left hlt] at hi
      obtain ⟨payload, hok, hat⟩ := h.payloads i m r hi
      exact ⟨payload, hok, payloadAt?_keeps hat e⟩
    · -- the call that is made in this event is the last
      rw [List.getElem?_append_right hge] at hi
      have hcall := Option.mem_toList.mp (List.mem_of_getElem? hi)
      have hlast : i = calls.length := by
        have hlt := (List.getElem?_eq_some_iff.mp hi).1
        rw [hcall, Option.toList_some, List.length_singleton] at hlt
        omega
      cases e with
      | report m' r' =>
        obtain ⟨rfl, rfl⟩ := Prod.mk.inj (Option.some.inj hcall)
        obtain ⟨payload, hok⟩ := payload_of_routine routine
        refine ⟨payload, hok, ?_⟩
        rw [hlast, ← h.length, (p.payloadAt?_report m' r').2, hok]
        rfl
      | move | elapse | connect | join | occur | disconnect | register | unregister | removeClosed
      | closeAll | closeSender | send | attach | listen | closeReceiver => cases hcall
  assigned := by
    intro a ha
    rcases List.mem_append.mp ha with hold | hnew
    · exact payloadAt?_keeps (h.assigned a hold) e
    · obtain ⟨x, hx, hpayload⟩ := sendAt?_of_mem_assigned hnew
      exact payloadAt?_keeps (by rw [payloadAt?, hx, ← hpayload]; rfl) e

theorem applyAll (h : p.Enrolled others calls log) {events : List Event}
    (routine : ∀ e ∈ events, e.Routine) :
    Enrolled others (p.applyAll events) (calls ++ reports events) (log ++ p.ledger events) := by
  induction events generalizing p calls log with
  | nil =>
    rw [ledger, collect, reports, List.filterMap_nil, List.append_nil, List.append_nil]
    exact h
  | cons e rest ih =>
    obtain ⟨hroutine, hrest⟩ := List.forall_mem_cons.mp routine
    have hcalls : reports (e :: rest) = e.call?.toList ++ reports rest := by
      rw [reports, reports, List.filterMap_cons]
      cases e.call? <;> rfl
    rw [ledger, collect, hcalls, ← List.append_assoc, ← List.append_assoc]
    exact ih (h.apply hroutine) hrest

/-- If every call was assigned something, and nobody twice, the payloads that were assigned are
those of the calls, each once. -/
theorem perm (h : p.Enrolled others calls log) (single : p.Single log)
    (every : ∀ i < calls.length, ∃ a ∈ log, a.place = others + i)
    (nobody : ∀ place < others, p.payloadAt? place = none) :
    log.length = calls.length ∧ (log.map (·.payload)).Perm (envelopes calls) := by
  have hplaces : (log.map (·.place)).Perm (List.range' others calls.length) := by
    refine (List.perm_ext_iff_of_nodup ?_ List.nodup_range').mpr fun place => ?_
    · refine List.nodup_iff_count.mpr fun place => ?_
      rw [List.count, List.countP_map, List.countP_eq_length_filter]
      rcases single place with hnone | ⟨_, _, -, -, hone⟩
      · exact Nat.le_trans (Nat.le_of_eq (congrArg List.length hnone)) (Nat.zero_le 1)
      · exact Nat.le_of_eq (congrArg List.length hone)
    · rw [List.mem_range'_1, List.mem_map]
      constructor
      · rintro ⟨a, ha, rfl⟩
        have hat := h.assigned a ha
        refine ⟨Nat.le_of_not_lt fun hlt => ?_, h.length ▸ lt_of_payloadAt? hat⟩
        cases (nobody a.place hlt).symm.trans hat
      · rintro ⟨hge, hlt⟩
        obtain ⟨a, ha, hplace⟩ := every (place - others) (by omega)
        exact ⟨a, ha, by omega⟩
  refine ⟨by simpa using hplaces.length_eq, ?_⟩
  -- both sides are what is found at the places of the calls
  have hlog : (log.map (·.place)).map p.payloadAt? = (log.map (·.payload)).map some := by
    rw [List.map_map, List.map_map]
    exact List.map_congr_left h.assigned
  have hcalls : (List.range' others calls.length).map p.payloadAt?
      = calls.map fun c => (c.2.payload c.1).toOption := by
    refine List.ext_getElem (by simp) fun i hi _ => ?_
    have hlt : i < calls.length := by simpa using hi
    obtain ⟨payload, hok, hat⟩ :=
      h.payloads i calls[i].1 calls[i].2 (List.getElem?_eq_getElem hlt)
    simp [hat, hok, Except.toOption]
  have hperm := (hplaces.map p.payloadAt?).filterMap id
  rw [hlog, hcalls, List.filterMap_map, List.filterMap_map] at hperm
  simpa [envelopes, Function.comp_def] using hperm

end Enrolled

/-- Activities of a flawless pipeline run only so long, and come to where nothing can move. -/
theorem Flawless.settles {p : Pipeline} {links : List Link} {log : Ledger} {acc : List Acceptance}
    (h : p.Flawless links log acc) :
    (∀ ms p', p.moves ms = some p' → ms.length ≤ p.work) ∧
      ∃ ms p', p.moves ms = some p' ∧ Schedule.Blocked p' := by
  have hmove (q : Pipeline) (place pick : Nat) (q' : Pipeline)
      (h : ∃ log acc, q.Flawless links log acc) (hq : q.move place pick = some q') :
      ∃ log acc, q'.Flawless links log acc := by
    obtain ⟨log, acc, h⟩ := h
    have happly := h.apply (e := .move place pick) trivial
    rw [Pipeline.apply, hq] at happly
    exact ⟨_, _, happly⟩
  have hcalm (q : Pipeline) (place : Nat) (h : ∃ log acc, q.Flawless links log acc) :
      ¬q.Hurries place := by
    obtain ⟨_, _, h⟩ := h
    exact h.unhurried place
  refine ⟨fun ms p' hms => ?_, exists_blocked hmove hcalm ⟨_, _, h⟩⟩
  exact Nat.le_trans (Nat.le_add_left _ _) (length_le_work hmove hcalm hms ⟨_, _, h⟩)

/-- A sender and receivers that are linked over connections which do not fail, each receiver by one
link and listening on it, before any call. -/
structure Assembled (p : Pipeline) (links : List Link) : Prop extends p.Named where
  isOpen : p.sender.cancel.closed = false
  counter : p.sender.lastCounter = 0
  line : p.sender.line = []
  /-- The sender has registered the near ends of the links. -/
  nears : ∀ r, r ∈ p.sender.registry.entries.map Prod.snd ↔ r ∈ links.map Link.near
  nonempty : links ≠ []
  disjoint : links.Pairwise Link.Apart
  joined : ∀ c ∈ links, c.Joined p.wire
  sturdy : ∀ c ∈ links, (p.wire.conn c.near).Sturdy ∧ (p.wire.conn c.far).Sturdy
  /-- Nothing answers of itself. -/
  mute : p.wire.Mute
  unused : ∀ c ∈ links, (p.wire.conn c.near).written = [] ∧ (p.wire.conn c.near).messages = [] ∧
    (p.wire.conn c.far).messages = []
  receivers : ∀ c ∈ links, ∃ r, p.receivers[c.receiver]? = some r ∧ r.handled = [] ∧
    r.Willing p.sender.withAcknowledge
  listening : p.activities = links.map fun c => .listen c.receiver ⟨c.far, .called⟩

namespace Assembled

variable {p : Pipeline} {links : List Link}

theorem fresh (h : p.Assembled links) (place : Nat) : p.sendAt? place = none := by
  rw [sendAt?, h.listening, List.getElem?_map]
  cases links[place]? <;> rfl

theorem channel (h : p.Assembled links) {c : Link} (hc : c ∈ links) :
    ∃ r, p.receivers[c.receiver]? = some r ∧
      Channel p.wire p.sender.withAcknowledge c r ⟨c.far, .called⟩ := by
  obtain ⟨r, hr, hhandled, hwilling⟩ := h.receivers c hc
  obtain ⟨hwritten, hnear, hfar⟩ := h.unused c hc
  have hdeliveries : r.deliveries = [] := by rw [Receiver.deliveries, hhandled, List.map_nil]
  have hconsumed : (p.wire.conn c.far).consumed = [] :=
    List.sublist_nil.mp (hfar ▸ (p.wire.conn c.far).consumed_sublist)
  refine ⟨r, hr, { h.joined c hc with
    sturdy := (h.sturdy c hc).2
    conn := rfl
    steady := trivial
    willing := hwilling
    frames := by simp [hwritten]
    arrived := hfar.trans hwritten.symm
    read := by rw [hconsumed, hdeliveries, List.map_nil]
    answered := ?_ }⟩
  rw [hnear, hdeliveries, List.map_nil, ite_self]
  rfl

theorem flawless (h : p.Assembled links) : p.Flawless links [] [] where
  toNamed := h.toNamed
  toLined := .start h.line h.fresh
  isOpen := h.isOpen
  registered := by
    obtain ⟨c, hc⟩ := List.exists_mem_of_ne_nil _ h.nonempty
    have hmem := (h.nears c.near).mpr (List.mem_map_of_mem hc)
    intro hnone
    rw [hnone] at hmem
    cases hmem
  sturdy := by
    intro c hc
    obtain ⟨d, hd, heq⟩ := List.mem_map.mp ((h.nears c.2).mp (List.mem_map_of_mem hc))
    exact heq ▸ (h.sturdy d hd).1
  apart := by
    intro i l hl c hc
    rw [h.listening] at hl
    obtain ⟨d, hd, heq⟩ := List.mem_map.mp hl
    obtain ⟨rfl, rfl⟩ := Activity.listen.inj heq
    obtain ⟨b, hb, hnear⟩ := List.mem_map.mp ((h.nears c.2).mp (List.mem_map_of_mem hc))
    obtain ⟨i, hi⟩ := List.mem_iff_getElem?.mp hb
    obtain ⟨j, hj⟩ := List.mem_iff_getElem?.mp hd
    rw [← hnear]
    by_cases hij : i = j
    · obtain rfl := Option.some.inj ((hij ▸ hi).symm.trans hj)
      exact (h.joined b hb).ends
    · exact (Link.apart_of_ne h.disjoint hi hj hij).there
  steady := by simp [h.fresh]
  backed := by simp [h.fresh]
  even := by
    intro _ c hc
    obtain ⟨d, hd, heq⟩ := List.mem_map.mp ((h.nears c.2).mp (List.mem_map_of_mem hc))
    rw [← heq, (h.unused d hd).1]
    rfl
  spreads := by simp [h.fresh]
  mute := h.mute
  disjoint := h.disjoint
  nears := h.nears
  channels := by
    intro k c hk
    obtain ⟨r, hr, hchannel⟩ := h.channel (List.mem_of_getElem? hk)
    exact ⟨r, _, hr, by rw [h.listening, List.getElem?_map, hk]; rfl, hchannel⟩
  listens := by
    intro k i l hl
    rw [h.listening] at hl
    simpa using (List.getElem?_eq_some_iff.mp hl).1
  orderly := nofun

theorem enrolled (h : p.Assembled links) : p.Enrolled links.length [] [] where
  length := by simp [h.listening]
  payloads := by simp
  assigned := nofun

variable {events : List Event} (routine : ∀ e ∈ events, e.Routine)
include routine

theorem flawless_applyAll (h : p.Assembled links) :
    (p.applyAll events).Flawless links (p.ledger events) (p.acceptances events) := by
  simpa using h.flawless.applyAll routine

theorem enrolled_applyAll (h : p.Assembled links) :
    Enrolled links.length (p.applyAll events) (reports events) (p.ledger events) := by
  simpa using h.enrolled.applyAll routine

/-- When nothing can move, the send of every call has succeeded. -/
theorem exists_send_ok (h : p.Assembled links) (blocked : Schedule.Blocked (p.applyAll events))
    {i : Nat} (hi : i < (reports events).length) :
    ∃ x, (p.applyAll events).sendAt? (links.length + i) = some x ∧ x.phase = .done (.ok ()) := by
  obtain ⟨payload, -, hat⟩ :=
    (h.enrolled_applyAll routine).payloads i _ _ (List.getElem?_eq_getElem hi)
  obtain ⟨x, hx, -⟩ := Option.map_eq_some_iff.mp hat
  exact ⟨x, hx, ((h.flawless_applyAll routine).complete blocked).1 _ x hx⟩

/-- When nothing can move, every call was assigned a counter, once. -/
theorem ledger_perm (h : p.Assembled links) (blocked : Schedule.Blocked (p.applyAll events)) :
    (p.ledger events).length = (reports events).length ∧
      ((p.ledger events).map (·.payload)).Perm (envelopes (reports events)) := by
  refine (h.enrolled_applyAll routine).perm (p.single_applyAll events) (fun i hi => ?_)
    fun place hplace => ?_
  · obtain ⟨x, hx, hdone⟩ := h.exists_send_ok routine blocked hi
    have hopen : ∀ e ∈ events, e ≠ .closeSender := by
      rintro e he rfl
      exact routine _ he
    -- a send that has succeeded was assigned the counter of the frames it wrote
    have hattested := attested_applyAll h.fresh h.isOpen hopen hx
    rw [Send.Attested, hdone] at hattested
    obtain ⟨_, _, hmem, -⟩ := hattested
    exact ⟨_, hmem, rfl⟩
  · obtain ⟨_, _, -, hl, -⟩ :=
      (h.flawless_applyAll routine).channels place _ (List.getElem?_eq_getElem hplace)
    rw [payloadAt?, sendAt?, hl]
    rfl

end Assembled

/-- What comes of the calls of a run, over certain links. -/
structure Completes (p : Pipeline) (links : List Link) (events : List Event) : Prop where
  /-- Activities run only so long, and come to where nothing can move. -/
  settles : (∀ ms p', (p.applyAll events).moves ms = some p' →
      ms.length ≤ (p.applyAll events).work) ∧
    ∃ ms p', (p.applyAll events).moves ms = some p' ∧ Schedule.Blocked p'
  /-- When nothing can move any more, every call has succeeded. -/
  succeeds : Schedule.Blocked (p.applyAll events) → ∀ i < (reports events).length,
    (p.applyAll events).sent? (links.length + i) = some (.ok ())
  last : Schedule.Blocked (p.applyAll events) →
    (p.applyAll events).sender.lastCounter = UInt64.ofNat (reports events).length
  /-- Every receiver was handed the payloads of the calls, each once, under the counters from 1 on
  in order, and all receivers the same. -/
  handedOver : Schedule.Blocked (p.applyAll events) → ∀ c ∈ links, ∃ r,
    (p.applyAll events).receivers[c.receiver]? = some r ∧
    r.deliveries = (p.ledger events).deliveries ∧
    r.deliveries.map (·.counter)
      = (List.range (reports events).length).map (fun k => UInt64.ofNat (k + 1)) ∧
    (r.deliveries.map (·.payload)).Perm (envelopes (reports events))

/-- While nothing fails, no call is left waiting, however many are made at once, and every receiver
is handed the payload of every call exactly once, in the order of the counters. -/
theorem completes_of_routine {p : Pipeline} {links : List Link} (assembled : p.Assembled links)
    {events : List Event} (routine : ∀ e ∈ events, e.Routine) : p.Completes links events := by
  have hflawless := assembled.flawless_applyAll routine
  obtain ⟨hnumbered, hlast⟩ := numbered_applyAll assembled.counter events
  refine ⟨hflawless.settles,
    fun blocked i hi => sent?_eq_some.mpr (assembled.exists_send_ok routine blocked hi),
    fun blocked => ?_, fun blocked c hc => ?_⟩
  · rw [hlast, (assembled.ledger_perm routine blocked).1]
  · obtain ⟨hlength, hperm⟩ := assembled.ledger_perm routine blocked
    obtain ⟨r, hr, hdeliveries⟩ := (hflawless.complete blocked).2 c hc
    refine ⟨r, hr, hdeliveries, ?_, ?_⟩
    · rw [hdeliveries, ← hlength, ← hnumbered, Ledger.deliveries, List.map_map]
      rfl
    · rw [hdeliveries, Ledger.deliveries, List.map_map]
      exact hperm

/-- Two calls are made at once; the second waits for its turn until the first is acknowledged. -/
def together : List Event :=
  [.report .json (.raw .saveBlock [1]), .report .json (.raw .finalizedBlock [2])]
    ++ [.move 1 0, .move 2 0, .move 1 0, .move 1 0, .move 1 0, .move 0 0, .move 0 0, .move 0 0,
      .move 0 0, .move 1 0, .move 2 0, .move 2 0, .move 2 0, .move 0 0, .move 0 0, .move 0 0,
      .move 2 0]

/-- Both calls succeed, and the counter of the sender is 2. -/
theorem completes_together : ((beginning true).applyAll linked).Assembled [⟨0, 1, 0⟩] ∧
    (((beginning true).applyAll linked).applyAll together).sent? 1 = some (.ok ()) ∧
    (((beginning true).applyAll linked).applyAll together).sent? 2 = some (.ok ()) ∧
    (((beginning true).applyAll linked).applyAll together).sender.lastCounter = 2 := by
  have hassembled : ((beginning true).applyAll linked).Assembled [⟨0, 1, 0⟩] := by
    have hsturdy (id : String) : ({ id, isOpen := true } : Connection).Sturdy :=
      ⟨rfl, rfl, nofun, rfl, nofun⟩
    exact {
      entries := by decide
      isOpen := rfl
      counter := rfl
      line := rfl
      nears := fun r => Iff.rfl
      nonempty := by decide
      disjoint := List.pairwise_singleton _ _
      joined := fun c hc => by
        obtain rfl := List.mem_singleton.mp hc
        exact ⟨rfl, rfl, by decide, by decide, by decide⟩
      sturdy := fun c hc => by
        obtain rfl := List.mem_singleton.mp hc
        exact ⟨hsturdy "near", hsturdy "far"⟩
      mute := fun r => match r with
        | 0 | 1 | _ + 2 => rfl
      unused := by decide
      receivers := fun c hc => by
        obtain rfl := List.mem_singleton.mp hc
        exact ⟨_, rfl, rfl, rfl, fun _ _ => rfl, fun _ => .inr fun _ _ => rfl⟩
      listening := rfl }
  have hroutine : ∀ e ∈ together, e.Routine := by
    simp [together, Event.Routine, Report.data, UInt32.size]
  have hblocked : Schedule.Blocked (((beginning true).applyAll linked).applyAll together) := by
    have hnone : ∀ place < 3, Schedule.canMove
        (((beginning true).applyAll linked).applyAll together) place = false := by
      decide +kernel
    exact hnone
  have hcompletes := completes_of_routine hassembled hroutine
  exact ⟨hassembled, hcompletes.succeeds hblocked 0 (by decide),
    hcompletes.succeeds hblocked 1 (by decide), hcompletes.last hblocked⟩

end BlockFeed.Pipeline
