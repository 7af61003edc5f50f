import BlockFeed.Proofs.Pipeline.Footprint
import BlockFeed.Proofs.Receiver.Closing
import BlockFeed.Proofs.Sender.Writes

/-!
# Lifecycle of a receiver

What the state of a receiver tells while it reads one connection at a time, and what is left of
its readings once it is closed.

## Main definitions

* `Pipeline.readings`, `Pipeline.readingAt?`: the readings of a receiver, and the one at a place.
* `Pipeline.Singly`: a receiver reads one connection at a time.
* `Pipeline.Heeds`: it does not go on to read once it was closed.
* `Pipeline.late`: the pauses that a reading outlasts.
* `Pipeline.Regards`: what an event does as far as one receiver is concerned.
* `Pipeline.WindsDown`: what becomes of a receiver that was closed where a run starts.

## Main results

* `Pipeline.lifecycle`: the state of a receiver, and how it winds down once it is closed.

## Design notes

A handler that closes its receiver does so in the step that hands the payload over, so a run may
be cut behind that step as behind any other: where a receiver is found closed, what it still does
is told by the rest of the run, whoever closed it. Where the closing competes with a message that
has arrived, the closing is taken to win. Where it competes with the end of a pause, either may win,
and if the pause has won there is one more attempt to acknowledge.
-/

namespace BlockFeed

/-- The reading of a receiver that an activity is. -/
def Activity.reading? (i : Nat) : Activity → Option Listen
  | .listen j l => if j = i then some l else none
  | _ => none

theorem Activity.reading?_eq_some {i : Nat} {a : Activity} {l : Listen} :
    a.reading? i = some l ↔ a = .listen i l := by
  cases a with
  | send | refused => exact iff_of_false nofun nofun
  | listen j k =>
    rw [Activity.reading?, Activity.listen.injEq]
    split <;> simp [*]

namespace Pipeline

/-- The readings of a receiver, from the first that was called for to the last. -/
def readings (p : Pipeline) (i : Nat) : List Listen := p.activities.filterMap (·.reading? i)

/-- The reading of a receiver at a place. -/
def readingAt? (p : Pipeline) (i place : Nat) : Option Listen :=
  (p.activities[place]?).bind (·.reading? i)

/-- A receiver is asked to read only when its readings have returned, and a connection that
exists. -/
def Singly (i : Nat) (p : Pipeline) (e : Event) : Prop :=
  ∀ c, e = .listen i c →
    c < p.wire.connections.length ∧ ∀ l ∈ p.readings i, l.result?.isSome = true

/-- A reading of a receiver that was closed does not go on to read, even if a message has
arrived. -/
def Heeds (i : Nat) (p : Pipeline) (e : Event) : Prop :=
  ∀ place pick l r, e = .move place pick → p.readingAt? i place = some l → l.phase = .reading →
    p.receivers[i]? = some r → r.cancel.closed = true → pick = 0 ∨ p.wire.read? l.conn = none

/-- The pause that the reading of a receiver at a place outlasts in an event: until when it was to
last, and when the reading goes on to acknowledge. -/
def lateAt (i place : Nat) (p : Pipeline) (e : Event) : List (Nat × Nat) :=
  if e.moves place then
    match p.readingAt? i place, (p.apply e).readingAt? i place with
    | some l, some l' => if l.outlasts l' then l.deadline?.toList.map (·, p.now) else []
    | _, _ => []
  else []

/-- The pauses that the reading of a receiver at a place outlasts in the course of a run. -/
def late (i place : Nat) (p : Pipeline) (events : List Event) : List (Nat × Nat) :=
  collect apply (lateAt i place) p events

section Regards

variable {p p' : Pipeline} {i : Nat} {r : Receiver} {e : Event}

theorem readingAt?_eq_some {place : Nat} {l : Listen} :
    p.readingAt? i place = some l ↔ p.activities[place]? = some (.listen i l) := by
  simp [readingAt?, Option.bind_eq_some_iff, Activity.reading?_eq_some]

theorem mem_readings_of_readingAt? {place : Nat} {l : Listen} (h : p.readingAt? i place = some l) :
    l ∈ p.readings i := by
  obtain ⟨a, ha, hl⟩ := Option.bind_eq_some_iff.mp h
  exact List.mem_filterMap.mpr ⟨a, List.mem_of_getElem? ha, hl⟩

/-- What an event does as far as one receiver is concerned. -/
inductive Regards (p : Pipeline) (i : Nat) (r : Receiver) (e : Event) (p' : Pipeline) :
    Receiver → Prop where
  /-- One of its readings takes a step. -/
  | step {place pick : Nat} {l l' : Listen} {r' : Receiver} : e = .move place pick →
      p.activities[place]? = some (.listen i l) →
      p'.activities = p.activities.set place (.listen i l') →
      Listen.Move p.now r p.wire l r' p'.wire l' → Regards p i r e p' r'
  /-- It is asked to read. -/
  | call {c : Ref} : e = .listen i c → p'.wire = p.wire →
      p'.activities = p.activities ++ [.listen i ⟨c, .called⟩] → Regards p i r e p' r
  /-- Its readings stay as they are, and it may be closed; one that is to take a step cannot. -/
  | other {r' : Receiver} : r' = r ∨ r' = r.close → p'.readings i = p.readings i →
      (∀ place, p'.readingAt? i place = p.readingAt? i place) →
      (∀ place pick l, e = .move place pick → p.readingAt? i place = some l →
        p' = p ∧ l.step p.now pick r p.wire = none) →
      p.wire.connections.length ≤ p'.wire.connections.length → Regards p i r e p' r'

theorem Regards.of_set {place pick : Nat} {a b : Activity} (ha : p.activities[place]? = some a)
    (hp' : p'.activities = p.activities.set place b) (hnone : a.reading? i = none)
    (hnone' : b.reading? i = none)
    (size : p.wire.connections.length ≤ p'.wire.connections.length) :
    Regards p i r (.move place pick) p' r := by
  have hat (q : Nat) : p'.readingAt? i q = p.readingAt? i q := by
    rw [readingAt?, readingAt?, hp', List.getElem?_set]
    split
    · next hq =>
      subst hq
      rw [if_pos (List.getElem?_eq_some_iff.mp ha).1, ha]
      exact hnone'.trans hnone.symm
    · rfl
  refine .other (.inl rfl) ?_ hat ?_ size
  · rw [readings, readings, hp']
    exact filterMap_set_of_eq ha (hnone'.trans hnone.symm)
  · intro q pick' l heq hl
    obtain ⟨rfl, -⟩ := Event.move.inj heq
    rw [readingAt?, ha, Option.bind_some, hnone] at hl
    cases hl

theorem regards_moved {place pick : Nat} (h : Moved p place pick p')
    (hr : p.receivers[i]? = some r) :
    ∃ r', p'.receivers[i]? = some r' ∧ Regards p i r (.move place pick) p' r' := by
  cases h with
  | send hx hmove =>
    obtain ⟨calls, reads, hlogs⟩ := hmove.logs
    exact ⟨r, hr, .of_set hx rfl rfl rfl (Nat.le_of_eq hlogs.size.symm)⟩
  | @listen j l l' q q' _ hl hq hmove =>
    by_cases hji : j = i
    · subst hji
      obtain rfl : q = r := Option.some.inj (hq.symm.trans hr)
      have hlt := (List.getElem?_eq_some_iff.mp hr).1
      exact ⟨q', List.getElem?_set_self hlt, .step rfl hl rfl hmove⟩
    · obtain ⟨calls, reads, hlogs, -⟩ := hmove.logs
      refine ⟨r, (List.getElem?_set_ne hji).trans hr, ?_⟩
      exact .of_set hl rfl (if_neg hji) (if_neg hji) (Nat.le_of_eq hlogs.size.symm)
  | stay hstay =>
    refine ⟨r, hr, .other (.inl rfl) rfl (fun _ => rfl) ?_ (Nat.le_refl _)⟩
    intro q pick' l heq hl
    obtain ⟨rfl, rfl⟩ := Event.move.inj heq
    exact ⟨rfl, (move_listen_eq_none_iff (readingAt?_eq_some.mp hl) hr).mp hstay⟩

/-- An event that is no step of an activity changes a receiver only by closing it. -/
theorem receiver_apply (he : ∀ place pick, e ≠ .move place pick) (hr : p.receivers[i]? = some r) :
    ∃ r', (p.apply e).receivers[i]? = some r' ∧ (r' = r ∨ r' = r.close) := by
  cases e with
  | move place pick => exact absurd rfl (he place pick)
  | attach q =>
    have hlt := (List.getElem?_eq_some_iff.mp hr).1
    exact ⟨r, (List.getElem?_append_left hlt).trans hr, .inl rfl⟩
  | closeReceiver j =>
    by_cases hji : j = i
    · exact ⟨r.close, by simp [apply, hr, hji], .inr rfl⟩
    · exact ⟨r, by simp [apply, hr, hji], .inl rfl⟩
  | report m q =>
    rw [apply]
    split <;> exact ⟨r, hr, .inl rfl⟩
  | _ => exact ⟨r, hr, .inl rfl⟩

theorem Aside.size_le (h : p.Aside e p') :
    p.wire.connections.length ≤ p'.wire.connections.length := by
  rcases h.logs with hstill | ⟨c, -, hwire⟩
  · exact Nat.le_of_eq hstill.size.symm
  · rw [hwire, Wire.add]
    simp

theorem regards_aside (he : ∀ place pick, e ≠ .move place pick)
    (hr : p.receivers[i]? = some r) :
    ∃ r', (p.apply e).receivers[i]? = some r' ∧ Regards p i r e (p.apply e) r' := by
  by_cases hlisten : ∃ c, e = .listen i c
  · obtain ⟨c, rfl⟩ := hlisten
    exact ⟨r, hr, .call rfl rfl rfl⟩
  obtain ⟨r', hr', hsame⟩ := receiver_apply he hr
  have haside := aside_apply (p := p) he
  obtain ⟨more, hmore, hnew⟩ := haside.activities
  have hnone : ∀ a ∈ more, a.reading? i = none := by
    intro a ha
    rcases hnew a ha with ⟨_, rfl⟩ | ⟨_, rfl⟩ | ⟨j, c, rfl, rfl⟩
    · rfl
    · rfl
    · exact if_neg fun (hji : j = i) => hlisten ⟨c, hji ▸ rfl⟩
  refine ⟨r', hr', .other hsame ?_ ?_ (fun q pick _ heq => absurd heq (he q pick)) haside.size_le⟩
  · rw [readings, hmore, List.filterMap_append, List.filterMap_eq_nil_iff.mpr hnone,
      List.append_nil, readings]
  · intro place
    rw [readingAt?, readingAt?, hmore, List.getElem?_append]
    split
    · rfl
    · next hge =>
      rw [List.getElem?_eq_none (show p.activities.length ≤ place by omega), Option.bind_none]
      exact Option.bind_eq_none_iff.mpr fun a ha => hnone a (List.mem_of_getElem? ha)

theorem regards_apply (hr : p.receivers[i]? = some r) (e : Event) :
    ∃ r', (p.apply e).receivers[i]? = some r' ∧ Regards p i r e (p.apply e) r' := by
  by_cases he : ∃ place pick, e = .move place pick
  · obtain ⟨place, pick, rfl⟩ := he
    exact regards_moved (p.moved_apply place pick) hr
  · exact regards_aside (fun place pick heq => he ⟨place, pick, heq⟩) hr

/-- The readings of a receiver took place one after the other, and its state tells what has become
of them. -/
structure Alone (p : Pipeline) (i : Nat) (r : Receiver) : Prop where
  receiver : p.receivers[i]? = some r
  state : r.state = .after (p.readings i)
  returned : ∀ l ∈ (p.readings i).dropLast, l.result?.isSome = true
  occupied : ∀ l ∈ p.readings i, l.Occupied r
  exist : ∀ l ∈ p.readings i, l.conn < p.wire.connections.length

namespace Alone

variable {r' : Receiver}

theorem start (hr : p.receivers[i]? = some r) (idle : r.state = .idle)
    (fresh : p.readings i = []) : p.Alone i r where
  receiver := hr
  state := by rw [fresh, idle]; rfl
  returned := by rw [fresh]; exact nofun
  occupied := by rw [fresh]; exact nofun
  exist := by rw [fresh]; exact nofun

/-- A reading that has not returned is the last, also after it has changed. -/
theorem exists_earlier (h : p.Alone i r) {place : Nat} {l : Listen}
    (hl : p.activities[place]? = some (.listen i l)) (hnone : l.result? = none) :
    ∃ earlier, p.readings i = earlier ++ [l] ∧ (∀ k ∈ earlier, k.result?.isSome = true) ∧
      ∀ (p' : Pipeline) (l' : Listen), p'.activities = p.activities.set place (.listen i l') →
        p'.readings i = earlier ++ [l'] := by
  have hself (k : Listen) : (Activity.listen i k).reading? i = some k := if_pos rfl
  obtain ⟨before, behind, hsplit, hset⟩ := exists_around hl
  have hreadings : p.readings i
      = before.filterMap (·.reading? i) ++ l :: behind.filterMap (·.reading? i) := by
    rw [readings, hsplit, List.filterMap_append, List.filterMap_cons_some (hself l)]
  have hreturned := h.returned
  rw [hreadings] at hreturned
  have hbehind : behind.filterMap (·.reading? i) = [] := by
    cases hrest : behind.filterMap (·.reading? i) with
    | nil => rfl
    | cons k rest =>
      rw [hrest, List.dropLast_append_cons, List.dropLast_cons_cons] at hreturned
      have hl := hreturned l (List.mem_append_right _ List.mem_cons_self)
      rw [hnone] at hl
      cases hl
  rw [hbehind] at hreadings hreturned
  rw [List.dropLast_concat] at hreturned
  refine ⟨before.filterMap (·.reading? i), hreadings, hreturned, fun p' l' hp' => ?_⟩
  rw [readings, hp', hset, List.filterMap_append, List.filterMap_cons_some (hself l'), hbehind]

/-- A reading behind others that have all returned. -/
theorem of_concat {earlier : List Listen} {l : Listen} (hr : p.receivers[i]? = some r)
    (hreadings : p.readings i = earlier ++ [l]) (returned : ∀ k ∈ earlier, k.result?.isSome = true)
    (state : r.state = l.shows (.after earlier)) (occupied : l.Occupied r)
    (exist : ∀ k ∈ earlier ++ [l], k.conn < p.wire.connections.length) : p.Alone i r where
  receiver := hr
  state := by rw [hreadings, ReceiverState.after_concat returned, state]
  returned := by
    rw [hreadings, List.dropLast_concat]
    exact returned
  occupied := by
    rw [hreadings]
    exact List.forall_mem_append.mpr ⟨fun k hk => Listen.occupied_of_returned (returned k hk),
      List.forall_mem_singleton.mpr occupied⟩
  exist := hreadings ▸ exist

theorem step (h : p.Alone i r) {place : Nat} {l l' : Listen} (hr' : p'.receivers[i]? = some r')
    (hl : p.activities[place]? = some (.listen i l))
    (hp' : p'.activities = p.activities.set place (.listen i l'))
    (hmove : Listen.Move p.now r p.wire l r' p'.wire l') : p'.Alone i r' := by
  obtain ⟨earlier, hreadings, hreturned, hafter⟩ := h.exists_earlier hl hmove.result?_eq_none
  obtain ⟨calls, reads, hlogs, -⟩ := hmove.logs
  have hstate := h.state
  have hexist := h.exist
  rw [hreadings, ReceiverState.after_concat hreturned] at hstate
  rw [hreadings, List.forall_mem_append, List.forall_mem_singleton, ← hmove.conn] at hexist
  refine of_concat hr' (hafter p' l' hp') hreturned (hmove.shows hstate) ?_ ?_
  · exact hmove.occupied (h.occupied l (hreadings ▸ List.mem_concat_self))
  · rw [hlogs.size, List.forall_mem_append, List.forall_mem_singleton]
    exact hexist

theorem call (h : p.Alone i r) {c : Ref} (hr' : p'.receivers[i]? = some r)
    (hc : c < p.wire.connections.length) (returned : ∀ l ∈ p.readings i, l.result?.isSome = true)
    (hwire : p'.wire = p.wire)
    (hp' : p'.activities = p.activities ++ [.listen i ⟨c, .called⟩]) : p'.Alone i r := by
  have hreadings : p'.readings i = p.readings i ++ [⟨c, .called⟩] := by
    rw [readings, hp', List.filterMap_append, readings]
    simp [Activity.reading?]
  refine of_concat hr' hreadings returned h.state nofun ?_
  rw [hwire]
  exact List.forall_mem_append.mpr ⟨h.exist, List.forall_mem_singleton.mpr hc⟩

theorem regards (h : p.Alone i r) (singly : Singly i p e) (hr' : p'.receivers[i]? = some r')
    (hregards : Regards p i r e p' r') : p'.Alone i r' := by
  cases hregards with
  | step _ hl hp' hmove => exact h.step hr' hl hp' hmove
  | call he hwire hp' =>
    obtain ⟨hc, hreturned⟩ := singly _ he
    exact h.call hr' hc hreturned hwire hp'
  | other hsame hreadings _ _ hsize =>
    obtain ⟨hstate, hhandled⟩ : r'.state = r.state ∧ r'.handled = r.handled := by
      rcases hsame with rfl | rfl <;> exact ⟨rfl, rfl⟩
    exact {
      receiver := hr'
      state := by rw [hreadings, hstate, h.state]
      returned := hreadings ▸ h.returned
      occupied := hreadings ▸ fun l hl => (h.occupied l hl).mono hhandled
      exist := hreadings ▸ fun l hl => Nat.lt_of_lt_of_le (h.exist l hl) hsize }

end Alone

theorem alone_applyAll (h : p.Alone i r) {events : List Event}
    (course : Along apply (Singly i) p events) : ∃ r', (p.applyAll events).Alone i r' := by
  refine along_induction ⟨r, h⟩ (fun events e _ singly ih => ?_) course
  obtain ⟨q, hq⟩ := ih
  obtain ⟨r', hr', hregards⟩ := regards_apply hq.receiver e
  rw [applyAll_concat]
  exact ⟨r', hq.regards singly hr' hregards⟩

end Regards

section Late

variable {p : Pipeline} {i place pick : Nat} {r : Receiver} {l l' : Listen} {e : Event}

theorem late_append (i place : Nat) (p : Pipeline) (before after : List Event) :
    p.late i place (before ++ after)
      = p.late i place before ++ (p.applyAll before).late i place after :=
  collect_append apply _ p before after

theorem late_singleton (i place : Nat) (p : Pipeline) (e : Event) :
    p.late i place [e] = p.lateAt i place e := List.append_nil _

theorem lateAt_of_not_moves (h : e.moves place = false) : p.lateAt i place e = [] :=
  if_neg (by simp [h])

theorem late_of_le {events : List Event} (h : (p.applyAll events).activities.length ≤ place) :
    p.late i place events = [] := by
  induction events generalizing p with
  | nil => rfl
  | cons e rest ih =>
    have hlater := length_le_applyAll (p.apply e) rest
    have hnone : p.readingAt? i place = none := by
      have hle := Nat.le_trans (p.length_le_apply e) (Nat.le_trans hlater h)
      rw [readingAt?, List.getElem?_eq_none hle, Option.bind_none]
    have hfirst : p.lateAt i place e = [] := by
      rw [lateAt, hnone, ite_self]
    rw [late, collect, hfirst]
    exact ih h

theorem lateAt_of_moves (h : e.moves place = true) (hl : p.readingAt? i place = some l)
    (hl' : (p.apply e).readingAt? i place = some l') : p.lateAt i place e
      = if l.outlasts l' then l.deadline?.toList.map (·, p.now) else [] := by
  rw [lateAt, if_pos h, hl, hl']

theorem length_lateAt (h : e.moves place = true) (hl : p.readingAt? i place = some l)
    (hl' : (p.apply e).readingAt? i place = some l') :
    (p.lateAt i place e).length = (l.outlasts l').toNat := by
  rw [lateAt_of_moves h hl hl']
  cases hlate : l.outlasts l' with
  | false => rfl
  | true =>
    obtain ⟨deadline, hdeadline⟩ := Listen.deadline?_of_outlasts hlate
    rw [hdeadline]
    rfl

/-- A reading that was let take a step has taken it, or there was none. -/
theorem step_of_readingAt? (hl : p.readingAt? i place = some l) (hr : p.receivers[i]? = some r)
    (hl' : (p.apply (.move place pick)).readingAt? i place = some l') :
    (l.step p.now pick r p.wire = none ∧ l' = l) ∨
      ∃ r', l.step p.now pick r p.wire = some (r', (p.apply (.move place pick)).wire, l') := by
  have hact := readingAt?_eq_some.mp hl
  have hlt := (List.getElem?_eq_some_iff.mp hact).1
  rw [readingAt?_eq_some, apply, move, hact] at hl'
  rw [apply, move, hact]
  simp only [hr] at hl' ⊢
  split at hl'
  · next hstep =>
    rw [Option.getD_none, hact] at hl'
    exact .inl ⟨hstep, (Activity.listen.inj (Option.some.inj hl')).2.symm⟩
  · next r' wire k hstep =>
    rw [Option.getD_some, List.getElem?_set_self hlt] at hl'
    obtain ⟨-, rfl⟩ := Activity.listen.inj (Option.some.inj hl')
    refine .inr ⟨r', ?_⟩
    rw [hstep]
    rfl

/-- A reading that heeds the closing returns instead of reading. -/
theorem Heeds.returns (heeds : Heeds i p (.move place pick)) (hr : p.receivers[i]? = some r)
    (closed : r.cancel.closed = true) (hl : p.readingAt? i place = some l)
    (hl' : (p.apply (.move place pick)).readingAt? i place = some l') (hp : l.phase = .reading) :
    l'.result? = some false ∧ (p.apply (.move place pick)).wire = p.wire := by
  have hreturns : l.step p.now pick r p.wire = some (Listen.finish false r p.wire l) :=
    Listen.step_of_heeds closed hp (heeds place pick l r rfl hl hp hr closed)
  rcases step_of_readingAt? hl hr hl' with ⟨hnone, -⟩ | ⟨r', hstep⟩
  · cases hreturns.symm.trans hnone
  · obtain ⟨-, hrest⟩ := Prod.mk.inj (Option.some.inj (hstep.symm.trans hreturns))
    obtain ⟨hwire, rfl⟩ := Prod.mk.inj hrest
    exact ⟨rfl, hwire⟩

/-- A pause that was outlasted was over. -/
theorem due_of_mem_lateAt (hr : p.receivers[i]? = some r) {pause : Nat × Nat}
    (h : pause ∈ p.lateAt i place e) : pause.1 ≤ pause.2 := by
  rw [lateAt] at h
  split at h
  case isFalse => cases h
  next hmoves =>
  split at h
  case h_2 => cases h
  next l l' hl hl' =>
  split at h
  case isFalse => cases h
  next hlate =>
  cases e with
  | move q pick =>
    obtain rfl : q = place := beq_iff_eq.mp hmoves
    rcases step_of_readingAt? hl hr hl' with ⟨-, rfl⟩ | ⟨r', hstep⟩
    · cases (Listen.outlasts_self _).symm.trans hlate
    · obtain ⟨deadline, hdeadline, hdue⟩ := (Listen.move_of_step hstep).due_of_outlasts hlate
      rw [Option.mem_def.mp hdeadline] at h
      obtain rfl := List.mem_singleton.mp h
      exact hdue
  | _ => cases hmoves

/-- A reading that heeds the closing outlasts no pause. -/
theorem lateAt_of_heeds (hr : p.receivers[i]? = some r) (closed : r.cancel.closed = true) :
    p.lateAt i place (.move place 0) = [] := by
  rw [lateAt]
  split
  case isFalse => rfl
  split
  case h_2 => rfl
  next l l' hl hl' =>
  rcases step_of_readingAt? hl hr hl' with ⟨-, rfl⟩ | ⟨r', hstep⟩
  · rw [Listen.outlasts_self, if_neg nofun]
  · rw [Listen.outlasts_of_heeds closed hstep, if_neg nofun]

end Late

section Closed

variable {p : Pipeline} {i : Nat} {r : Receiver}

/-- What a closed receiver has done in a run that started with another state of it. -/
structure Winding (p : Pipeline) (i : Nat) (r : Receiver) (events : List Event) (r' : Receiver) :
    Prop where
  alone : (p.applyAll events).Alone i r'
  closed : r'.cancel.closed = true
  handled : r'.handled = r.handled
  blockOnError : r'.blockOnError = r.blockOnError
  retry : r'.retry = r.retry
  /-- Each reading has wound down from where it was, or from where it began. -/
  winds : ∀ place l', (p.applyAll events).readingAt? i place = some l' →
    ∃ l, (p.readingAt? i place = some l ∨ p.activities.length ≤ place ∧ l.phase = .called) ∧
      l'.conn = l.conn ∧
      l.Winds r.blockOnError r.retry (p.late i place events).length (p.touched place events) l'
  /-- The readings that there were are still there, nearer to their ends by every step that was
  theirs to take, unless they have outlasted a pause. -/
  left : ∀ place l, p.readingAt? i place = some l →
    ∃ l', (p.applyAll events).readingAt? i place = some l' ∧
      l'.left ≤ l.left + 2 * (p.late i place events).length - events.countP (·.moves place)
  due : ∀ place, ∀ pause ∈ p.late i place events, pause.1 ≤ pause.2
  heeded : ∀ place, (∀ pick, .move place pick ∈ events → pick = 0) → p.late i place events = []

namespace Winding

variable {r' r'' : Receiver} {events more : List Event} {e : Event}

theorem refl (h : p.Alone i r) (closed : r.cancel.closed = true) : p.Winding i r [] r where
  alone := h
  closed := closed
  handled := rfl
  blockOnError := rfl
  retry := rfl
  winds := fun _ l' hl' => ⟨l', .inl hl', rfl, .refl _ _ l'⟩
  left := fun _ l hl => ⟨l, hl, Nat.le_refl _⟩
  due := nofun
  heeded := fun _ _ => rfl

/-- A reading that has returned outlasts no pause. -/
theorem late_of_returned (h : p.Winding i r events r') {place : Nat} {l : Listen}
    (hl : p.readingAt? i place = some l) (returned : l.result?.isSome = true) :
    p.late i place events = [] := by
  obtain ⟨l', hl', -⟩ := h.left place l hl
  obtain ⟨k, hk, -, hwinds⟩ := h.winds place l' hl'
  rcases hk with hk | ⟨hplace, -⟩
  · obtain rfl : l = k := Option.some.inj (hl.symm.trans hk)
    exact List.length_eq_zero_iff.mp (hwinds.late_of_returned returned)
  · have hlt := (List.getElem?_eq_some_iff.mp (readingAt?_eq_some.mp hl)).1
    omega

theorem trans (h : p.Winding i r events r') (h' : (p.applyAll events).Winding i r' more r'') :
    p.Winding i r (events ++ more) r'' where
  alone := by
    rw [applyAll_append]
    exact h'.alone
  closed := h'.closed
  handled := h'.handled.trans h.handled
  blockOnError := h'.blockOnError.trans h.blockOnError
  retry := h'.retry.trans h.retry
  winds := by
    intro place l'' hl''
    rw [applyAll_append] at hl''
    obtain ⟨l', hl', hconn', hwinds'⟩ := h'.winds place l'' hl''
    rw [h.blockOnError, h.retry] at hwinds'
    rw [touched_append, late_append, List.length_append]
    rcases hl' with hl' | ⟨hplace, hp'⟩
    · obtain ⟨l, hl, hconn, hwinds⟩ := h.winds place l' hl'
      exact ⟨l, hl, hconn'.trans hconn, hwinds.trans hwinds' hconn⟩
    · -- a reading that began in the second part has done nothing in the first
      refine ⟨l', .inr ⟨Nat.le_trans (length_le_applyAll p events) hplace, hp'⟩, hconn', ?_⟩
      rw [touched_of_le hplace, late_of_le hplace, List.length_nil, Nat.zero_add]
      exact hwinds'
  left := by
    intro place l hl
    obtain ⟨l', hl', hleft⟩ := h.left place l hl
    obtain ⟨l'', hl'', hleft'⟩ := h'.left place l' hl'
    rw [applyAll_append]
    refine ⟨l'', hl'', ?_⟩
    rw [List.countP_append, late_append, List.length_append]
    rcases Nat.eq_zero_or_pos l'.left with hzero | hpos
    · -- a reading that has returned in the first part outlasts no pause in the second
      have hnone := h'.late_of_returned hl' (Listen.left_eq_zero_iff.mp hzero)
      rw [hnone, List.length_nil] at hleft'
      omega
    · omega
  due := by
    intro place pause hpause
    rw [late_append] at hpause
    exact (List.mem_append.mp hpause).elim (h.due place pause) (h'.due place pause)
  heeded := by
    intro place hpicks
    rw [late_append, h.heeded place fun pick hpick => hpicks pick (List.mem_append_left _ hpick),
      h'.heeded place fun pick hpick => hpicks pick (List.mem_append_right _ hpick),
      List.append_nil]

/-- What a step of a reading of a closed receiver does to the wire is an attempt, or nothing. -/
theorem winds_touchedAt (h : p.Alone i r) {place pick : Nat} {l l' : Listen}
    (hl : p.activities[place]? = some (.listen i l))
    (hmove : Listen.Move p.now r p.wire l r' (p.apply (.move place pick)).wire l')
    (closed : r.cancel.closed = true)
    (heeds : l.phase = .reading →
      l'.result? = some false ∧ (p.apply (.move place pick)).wire = p.wire) :
    l.Winds r.blockOnError r.retry (l.outlasts l').toNat
      (p.touchedAt place (.move place pick)) l' := by
  rcases hmove.winds heeds closed with ⟨hsame, hquiet⟩ | hattempt
  · rw [touchedAt_of_same hsame]
    exact hquiet
  · have hexists := h.exist l (mem_readings_of_readingAt? (readingAt?_eq_some.mpr hl))
    have hmoves : Event.moves place (.move place pick) = true := beq_self_eq_true place
    have hne : (p.apply (.move place pick)).wire ≠ p.wire := by
      obtain ⟨_, _, hcounter, hw⟩ := hattempt.attempts _ List.mem_cons_self
      exact Wire.write_ne hexists hw
    rw [touchedAt, if_pos ⟨hmoves, hne⟩]
    exact hattempt

/-- A reading of a closed receiver takes the step that is its to take. -/
theorem of_step (h : p.Alone i r) (closed : r.cancel.closed = true) {place pick : Nat}
    {l l' : Listen} (heeds : Heeds i p (.move place pick))
    (hl : p.activities[place]? = some (.listen i l))
    (hp' : (p.apply (.move place pick)).activities = p.activities.set place (.listen i l'))
    (hmove : Listen.Move p.now r p.wire l r' (p.apply (.move place pick)).wire l')
    (alone : (p.apply (.move place pick)).Alone i r') :
    p.Winding i r [.move place pick] r' := by
  have hreading := readingAt?_eq_some.mpr hl
  have hself : (p.apply (.move place pick)).readingAt? i place = some l' := by
    rw [readingAt?_eq_some, hp', List.getElem?_set_self (List.getElem?_eq_some_iff.mp hl).1]
  have hother {q : Nat} (hq : place ≠ q) :
      (p.apply (.move place pick)).readingAt? i q = p.readingAt? i q := by
    rw [readingAt?, hp', List.getElem?_set_ne hq, readingAt?]
  have hreturns (hp : l.phase = .reading) :
      l'.result? = some false ∧ (p.apply (.move place pick)).wire = p.wire :=
    heeds.returns h.receiver closed hreading hself hp
  have hlate : (p.lateAt i place (.move place pick)).length = (l.outlasts l').toNat :=
    length_lateAt (beq_self_eq_true place) hreading hself
  have hnone {q : Nat} (hq : place ≠ q) : p.lateAt i q (.move place pick) = [] :=
    lateAt_of_not_moves (beq_false_of_ne hq)
  constructor
  · exact alone
  · exact hmove.stays_closed closed
  · exact hmove.handled_of_heeds hreturns
  · exact hmove.grows.blockOnError
  · exact hmove.retry
  · intro q k hk
    rw [touched_singleton, late_singleton]
    by_cases hq : place = q
    · subst hq
      obtain rfl : l' = k := Option.some.inj (hself.symm.trans hk)
      rw [hlate]
      exact ⟨l, .inl hreading, hmove.conn, winds_touchedAt h hl hmove closed hreturns⟩
    · rw [touchedAt_of_not_moves (show Event.moves q (.move place pick) = false from
        beq_false_of_ne hq), hnone hq]
      exact ⟨k, .inl ((hother hq).symm.trans hk), rfl, .refl _ _ k⟩
  · intro q k hk
    rw [late_singleton]
    by_cases hq : place = q
    · subst hq
      obtain rfl : l = k := Option.some.inj (hreading.symm.trans hk)
      refine ⟨l', hself, ?_⟩
      have hlt := hmove.left_lt hreturns
      have hcount : [Event.move place pick].countP (·.moves place) ≤ 1 := List.countP_le_length
      rw [hlate]
      omega
    · exact ⟨k, (hother hq).trans hk, by simp [Event.moves, hq]⟩
  · intro q pause hpause
    rw [late_singleton] at hpause
    exact due_of_mem_lateAt h.receiver hpause
  · intro q hpicks
    rw [late_singleton]
    by_cases hq : place = q
    · subst hq
      obtain rfl := hpicks pick List.mem_cons_self
      exact lateAt_of_heeds h.receiver closed
    · exact hnone hq

/-- Readings that take no step stay as they are, and others may begin. -/
theorem of_still (closed : r.cancel.closed = true) (same : r' = r ∨ r' = r.close)
    (alone : (p.apply e).Alone i r')
    (still : ∀ place l', (p.apply e).readingAt? i place = some l' →
      p.readingAt? i place = some l' ∨ p.activities.length ≤ place ∧ l'.phase = .called)
    (stays : ∀ place l, p.readingAt? i place = some l →
      (p.apply e).readingAt? i place = some l ∧
        (e.moves place = true → p.apply e = p ∧ l.left = 0)) :
    p.Winding i r [e] r' := by
  have huntouched {place : Nat} {l : Listen} (hl : p.readingAt? i place = some l) :
      p.touchedAt place e = [] := by
    cases hmoves : e.moves place with
    | false => exact touchedAt_of_not_moves hmoves
    | true => exact touchedAt_of_same (by rw [((stays place l hl).2 hmoves).1])
  have hlate (place : Nat) : p.lateAt i place e = [] := by
    cases hl : p.readingAt? i place with
    | none => rw [lateAt, hl, ite_self]
    | some l =>
      cases hmoves : e.moves place with
      | false => exact lateAt_of_not_moves hmoves
      | true => rw [lateAt_of_moves hmoves hl (stays place l hl).1, Listen.outlasts_self,
          if_neg nofun]
  constructor
  · exact alone
  · rcases same with rfl | rfl
    · exact closed
    · rfl
  · rcases same with rfl | rfl <;> rfl
  · rcases same with rfl | rfl <;> rfl
  · rcases same with rfl | rfl <;> rfl
  · intro place l' hl'
    rw [touched_singleton, late_singleton, hlate]
    rcases still place l' hl' with hl | ⟨hplace, hp⟩
    · rw [huntouched hl]
      exact ⟨l', .inl hl, rfl, .refl _ _ l'⟩
    · rw [touchedAt_of_le hplace]
      exact ⟨l', .inr ⟨hplace, hp⟩, rfl, .refl _ _ l'⟩
  · intro place l hl
    obtain ⟨hl', hmoves⟩ := stays place l hl
    refine ⟨l, hl', ?_⟩
    rw [late_singleton, hlate]
    cases h : e.moves place with
    | false => simp [h]
    | true => simp [(hmoves h).2]
  · intro place pause hpause
    rw [late_singleton, hlate] at hpause
    cases hpause
  · intro place _
    rw [late_singleton, hlate]

theorem single (h : p.Alone i r) (closed : r.cancel.closed = true) (singly : Singly i p e)
    (heeds : Heeds i p e) : ∃ r', p.Winding i r [e] r' := by
  obtain ⟨r', hr', hregards⟩ := regards_apply h.receiver e
  have halone := h.regards singly hr' hregards
  refine ⟨r', ?_⟩
  cases hregards with
  | step he hl hp' hmove =>
    subst he
    exact of_step h closed heeds hl hp' hmove halone
  | @call c he _ hp' =>
    refine of_still closed (.inl rfl) halone ?_ ?_
    · intro place l' hl'
      rw [readingAt?_eq_some, hp'] at hl'
      rcases Nat.lt_or_ge place p.activities.length with hlt | hge
      · rw [List.getElem?_append_left hlt] at hl'
        exact .inl (readingAt?_eq_some.mpr hl')
      · rw [List.getElem?_append_right hge] at hl'
        obtain ⟨-, rfl⟩ :=
          Activity.listen.inj (List.mem_singleton.mp (List.mem_of_getElem? hl'))
        exact .inr ⟨hge, rfl⟩
    · intro place l hl
      rw [readingAt?_eq_some] at hl ⊢
      have hlt := (List.getElem?_eq_some_iff.mp hl).1
      refine ⟨by rw [hp', List.getElem?_append_left hlt, hl], ?_⟩
      rw [he]
      exact nofun
  | other hsame _ hreading hstay _ =>
    refine of_still closed hsame halone ?_ ?_
    · intro place l' hl'
      exact .inl ((hreading place).symm.trans hl')
    · intro place l hl
      refine ⟨(hreading place).trans hl, fun hmoves => ?_⟩
      cases e with
      | move q pick =>
        obtain rfl : q = place := beq_iff_eq.mp hmoves
        obtain ⟨hsame, hnone⟩ := hstay q pick l rfl hl
        refine ⟨hsame, ?_⟩
        -- a reading of a closed receiver that takes no step has returned
        rw [Listen.left_eq_zero_iff, ← Option.isNone_eq_false_iff, Bool.eq_false_iff]
        intro hresult
        have hsome := Listen.step_isSome_of_closed p.now pick p.wire closed
          (Option.isNone_iff_eq_none.mp hresult)
        rw [hnone] at hsome
        cases hsome
      | _ => cases hmoves

end Winding

namespace Winding

variable {r' : Receiver} {events : List Event}

/-- A reading that there was has wound down from where it was. -/
theorem present (h : p.Winding i r events r') {place : Nat} {l : Listen}
    (hl : p.readingAt? i place = some l) :
    ∃ l', (p.applyAll events).readingAt? i place = some l' ∧
      l.Winds r.blockOnError r.retry (p.late i place events).length (p.touched place events) l' ∧
      l'.left ≤ l.left + 2 * (p.late i place events).length - events.countP (·.moves place) := by
  obtain ⟨l', hl', hleft⟩ := h.left place l hl
  obtain ⟨k, hk, -, hwinds⟩ := h.winds place l' hl'
  rcases hk with hk | ⟨hplace, -⟩
  · obtain rfl : l = k := Option.some.inj (hl.symm.trans hk)
    exact ⟨l', hl', hwinds, hleft⟩
  · have hlt := (List.getElem?_eq_some_iff.mp (readingAt?_eq_some.mp hl)).1
    omega

end Winding

end Closed

end Pipeline

end BlockFeed
