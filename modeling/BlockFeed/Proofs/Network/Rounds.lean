import BlockFeed.Proofs.Link.Usage
import BlockFeed.Proofs.Network.Work
import BlockFeed.Proofs.Receiver.Closing

/-!
# Rounds of loops

What each loop of a network needs to go round once more: a message, or a pause.

## Main definitions

* `Network.heard`: the items that the reading at a place takes in a run.
* `Network.rounds`: when it comes round to its next read.
* `Network.Pauses`: the reading at a place does nothing before a point in time, unless it ends.
* `Network.SpinFree`: no loop of a network goes on for ever while nothing happens from outside.

## Main results

* `Network.length_heard`: a reading takes as many items as it goes round its loop.
* `Network.spinFree_of_reachable`: no loop of a network that is reachable spins.
-/

namespace BlockFeed

/-- Whether a reading has taken an item that it is not done with, as a number. -/
def Listen.held (l : Listen) : Nat :=
  match l.phase with
  | .called | .reading | .done _ => 0
  | .handling .. | .acknowledging _ | .pausing .. => 1

namespace Listen

variable {now : Nat} {r r' : Receiver} {w w' : Wire} {l l' : Listen}

/-- A step of a reading ends it, or it takes an item for each round that it begins. -/
theorem Move.takes (h : Move now r w l r' w' l') (begun : l.phase ≠ .called) :
    (∃ gone, l'.phase = .done gone) ∨ l'.phase ≠ .called ∧
      ((w'.conn l.conn).taken.drop (w.conn l.conn).taken.length).length + l.held
        = l'.looks.toNat + l'.held := by
  have hread {result : Except ConnectionError Bytes} {w' : Wire}
      (hr : w.read? l.conn = some (result, w'))
      (there : ∀ e, result = .error e → e.isClosed = false) :
      ((w'.conn l.conn).taken.drop (w.conn l.conn).taken.length).length = 1 := by
    obtain ⟨i, -, htaken⟩ := Wire.takes_of_read hr there
    rw [htaken, List.drop_left, List.length_singleton]
  cases h with
  | begin hp => exact absurd hp begun
  | cancel | lose | giveUp => exact .inl ⟨_, rfl⟩
  | handOver hp hr | skip hp hr =>
    refine .inr ⟨nofun, ?_⟩
    rw [hread hr nofun]
    simp [held, looks, hp]
  | retryRead hp hr he =>
    refine .inr ⟨nofun, ?_⟩
    rw [hread hr fun e heq => Except.error.inj heq ▸ he]
    simp [held, looks, hp]
  | conclude hp | withhold hp | resumeRead hp | resumeAcknowledge hp =>
    refine .inr ⟨nofun, ?_⟩
    rw [List.drop_length]
    simp [held, looks, hp]
  | @acknowledge counter w' hp hw =>
    have htaken := w.taken_write l.conn l.conn (Ack.encode counter)
    rw [hw] at htaken
    refine .inr ⟨nofun, ?_⟩
    rw [htaken, List.drop_length]
    simp [held, looks, hp]
  | @retryAcknowledge counter w' e hp hw =>
    have htaken := w.taken_write l.conn l.conn (Ack.encode counter)
    rw [hw] at htaken
    refine .inr ⟨nofun, ?_⟩
    rw [htaken, List.drop_length]
    simp [held, looks, hp]

theorem Move.phase_ne_done (h : Move now r w l r' w' l') (gone : Bool) : l.phase ≠ .done gone := by
  intro hp
  have hresult := h.result?_eq_none
  rw [result?, hp] at hresult
  cases hresult

/-- An attempt to acknowledge is the last, or a pause of the retry interval begins. -/
theorem Move.of_acknowledging (h : Move now r w l r' w' l') {counter : UInt64}
    (hp : l.phase = .acknowledging counter) :
    l'.phase = .reading ∨ (∃ gone, l'.phase = .done gone) ∨
      l'.phase = .pausing (now + r.retry) (.acknowledge counter) := by
  cases h with
  | lose | giveUp => exact .inr (.inl ⟨_, rfl⟩)
  | acknowledge => exact .inl rfl
  | retryAcknowledge hp' =>
    obtain rfl := ListenPhase.acknowledging.inj (hp'.symm.trans hp)
    exact .inr (.inr rfl)
  | cancel hor =>
    rcases hor with hp' | ⟨_, _, hp'⟩ <;> cases hp'.symm.trans hp
  | begin hp' | handOver hp' | skip hp' | retryRead hp' | conclude hp' | withhold hp'
  | resumeRead hp' | resumeAcknowledge hp' => cases hp'.symm.trans hp

/-- A pause is not left before its end, unless the reading ends. -/
theorem Move.of_pausing (h : Move now r w l r' w' l') {deadline : Nat} {resume : Resume}
    (hp : l.phase = .pausing deadline resume) :
    (∃ gone, l'.phase = .done gone) ∨ deadline ≤ now := by
  cases h with
  | cancel | lose | giveUp => exact .inl ⟨_, rfl⟩
  | resumeRead hp' hdue | resumeAcknowledge hp' hdue =>
    obtain ⟨rfl, -⟩ := ListenPhase.pausing.inj (hp'.symm.trans hp)
    exact .inr hdue
  | begin hp' | handOver hp' | skip hp' | retryRead hp' | conclude hp' | withhold hp'
  | acknowledge hp' | retryAcknowledge hp' => cases hp'.symm.trans hp

end Listen

namespace Network

/-- The event is a step of the job at a place. -/
def Event.moves (place : Nat) : Event → Bool
  | move q _ => q == place
  | _ => false

/-- The reading at a place. -/
def readingAt? (p : Network) (place : Nat) : Option Listen :=
  match p.jobs[place]? with
  | some (.listen _ l) => some l
  | _ => none

/-- The reading at a place is about to read. -/
def Looks (p : Network) (place : Nat) : Prop := (p.readingAt? place).any (·.looks) = true

instance (p : Network) (place : Nat) : Decidable (p.Looks place) :=
  inferInstanceAs (Decidable (_ = true))

/-- The items that the reading at a place takes in an event. -/
def heardAt (place : Nat) (p : Network) (e : Event) : List Inbound :=
  match p.readingAt? place with
  | some l =>
    if e.moves place then
      ((p.apply e).wire.conn l.conn).taken.drop (p.wire.conn l.conn).taken.length
    else []
  | none => []

/-- The items that the reading at a place takes in a run. -/
def heard (place : Nat) (p : Network) (events : List Event) : List Inbound :=
  collect apply (heardAt place) p events

/-- When the reading at a place comes round to its next read, if it does so in an event. -/
def roundsAt (place : Nat) (p : Network) : Event → List Nat
  | .move q pick =>
    match p.move q pick with
    | some p' => if q = place ∧ p'.Looks place then [p.now] else []
    | none => []
  | _ => []

/-- When the reading at a place comes round to its next read in a run. -/
def rounds (place : Nat) (p : Network) (events : List Event) : List Nat :=
  collect apply (roundsAt place) p events

/-- The reading at a place does nothing before a point in time, unless it ends. -/
def Pauses (p : Network) (place deadline : Nat) (resume : Resume) : Prop :=
  ∃ l, p.readingAt? place = some l ∧
    (l.phase = .pausing deadline resume ∨ (∃ gone, l.phase = .done gone) ∨ deadline ≤ p.now)

section Reading

variable {p : Network} {place : Nat} {l : Listen}

theorem readingAt?_of_listen {i : Nat} (h : p.jobs[place]? = some (.listen i l)) :
    p.readingAt? place = some l := by
  rw [readingAt?, h]

theorem exists_listen (h : p.readingAt? place = some l) :
    ∃ i, p.jobs[place]? = some (.listen i l) := by
  rw [readingAt?] at h
  split at h
  · next i k hk => exact ⟨i, Option.some.inj h ▸ hk⟩
  · cases h

theorem looks_of_reading (h : p.readingAt? place = some l) (hp : l.phase = .reading) :
    p.Looks place := by
  rw [Looks, h, Option.any_some, Listen.looks, hp]

theorem Looks.exists (h : p.Looks place) :
    ∃ l, p.readingAt? place = some l ∧ l.phase = .reading := by
  obtain ⟨l, hl, hlooks⟩ := (Option.any_eq_true _ _).mp h
  refine ⟨l, hl, ?_⟩
  rw [Listen.looks] at hlooks
  split at hlooks
  · assumption
  · cases hlooks

theorem readingAt?_begin (h : p.readingAt? place = some l) (job : Job) :
    (p.begin job).readingAt? place = some l := by
  obtain ⟨i, hl⟩ := exists_listen h
  refine readingAt?_of_listen (i := i) ?_
  rw [begin, List.getElem?_append_left (List.getElem?_eq_some_iff.mp hl).1, hl]

theorem heardAt_of_not_moves {e : Event} (h : e.moves place = false) : p.heardAt place e = [] := by
  rw [heardAt]
  split
  · rw [if_neg (by simp [h])]
  · rfl

/-- What a step of the job at another place leaves. -/
theorem readingAt?_set {q : Nat} (hq : q ≠ place) (h : p.readingAt? place = some l) {p' : Network}
    {job : Job} (hp' : p'.jobs = p.jobs.set q job) : p'.readingAt? place = some l := by
  rw [readingAt?, hp', List.getElem?_set_ne hq]
  exact h

/-- What a step of the job at a place is, where a reading is there. -/
theorem reading_move (h : p.readingAt? place = some l) {pick : Nat} {p' : Network}
    (hmove : p.move place pick = some p') : ∃ i r r' l',
      p.jobs[place]? = some (.listen i l) ∧ p.receivers[i]? = some r ∧
      p'.readingAt? place = some l' ∧ Listen.Move p.now r p.wire l r' p'.wire l' := by
  obtain ⟨i, hl⟩ := exists_listen h
  cases moved_of_move hmove with
  | send hx => cases hl.symm.trans hx
  | @listen j r r' wire k l' hk hr hstep =>
    obtain ⟨rfl, rfl⟩ := Job.listen.inj (Option.some.inj (hl.symm.trans hk))
    refine ⟨i, r, r', l', hl, hr, readingAt?_of_listen (i := i) ?_, hstep⟩
    exact List.getElem?_set_self (List.getElem?_eq_some_iff.mp hl).1

/-- In an event a reading takes a step, or it stays as it is and takes and begins nothing. -/
theorem reading_apply (h : p.readingAt? place = some l) (e : Event) :
    (∃ pick r r' l', e = .move place pick ∧ p.move place pick = some (p.apply e) ∧
      (p.apply e).readingAt? place = some l' ∧
      Listen.Move p.now r p.wire l r' (p.apply e).wire l') ∨
    (p.apply e).readingAt? place = some l ∧ p.heardAt place e = [] ∧ p.roundsAt place e = [] := by
  cases e with
  | move q pick =>
    have happly : p.apply (.move q pick) = (p.move q pick).getD p := rfl
    cases hmove : p.move q pick with
    | none =>
      rw [hmove, Option.getD_none] at happly
      refine .inr ⟨by rw [happly, h], ?_, by rw [roundsAt, hmove]⟩
      rw [heardAt, h, happly]
      dsimp only
      rw [List.drop_length, ite_self]
    | some p' =>
      rw [hmove, Option.getD_some] at happly
      rw [happly]
      by_cases hq : q = place
      · subst hq
        obtain ⟨i, r, r', l', -, -, hl', hstep⟩ := reading_move h hmove
        exact .inl ⟨pick, r, r', l', rfl, hmove, hl', hstep⟩
      · have hnot : (Event.move q pick).moves place = false := beq_false_of_ne hq
        refine .inr ⟨?_, heardAt_of_not_moves hnot, ?_⟩
        · cases moved_of_move hmove <;> exact readingAt?_set hq h rfl
        · rw [roundsAt, hmove]
          exact if_neg fun hand => hq hand.1
  | send i payload =>
    refine .inr ⟨?_, heardAt_of_not_moves rfl, rfl⟩
    rw [apply]
    split
    · exact readingAt?_begin h _
    · exact h
  | listen i r =>
    refine .inr ⟨?_, heardAt_of_not_moves rfl, rfl⟩
    rw [apply]
    split
    · exact readingAt?_begin h _
    · exact h
  | order i o =>
    refine .inr ⟨?_, heardAt_of_not_moves rfl, rfl⟩
    rw [apply]
    split <;> exact h
  | elapse | connect | join | occur | disconnect | employ | attach | closeReceiver =>
    exact .inr ⟨h, heardAt_of_not_moves rfl, rfl⟩

theorem now_le_apply (p : Network) (e : Event) : p.now ≤ (p.apply e).now := by
  cases e with
  | move place pick =>
    rw [apply]
    cases hmove : p.move place pick with
    | none => exact Nat.le_refl _
    | some p' => cases moved_of_move hmove <;> exact Nat.le_refl _
  | elapse duration => exact Nat.le_add_right _ _
  | order i o =>
    rw [apply]
    split <;> exact Nat.le_refl _
  | send | listen =>
    rw [apply]
    split <;> exact Nat.le_refl _
  | connect | join | occur | disconnect | employ | attach | closeReceiver => exact Nat.le_refl _

/-- In the course of a run a reading ends, or it has taken an item for each round, and one more if
it is not done with it. -/
theorem tally (h : p.Looks place) (events : List Event) :
    ∃ l, (p.applyAll events).readingAt? place = some l ∧ ((∃ gone, l.phase = .done gone) ∨
      l.phase ≠ .called ∧
        (p.heard place events).length = (p.rounds place events).length + l.held) := by
  induction events using List.reverseRecOn with
  | nil =>
    obtain ⟨l, hl, hp⟩ := h.exists
    exact ⟨l, hl, .inr (by simp [heard, rounds, collect, Listen.held, hp])⟩
  | append_singleton events e ih =>
    obtain ⟨l, hl, hcount⟩ := ih
    have happly : p.applyAll (events ++ [e]) = (p.applyAll events).apply e := by
      rw [applyAll, List.foldl_append]
      rfl
    have hheard : p.heard place (events ++ [e])
        = p.heard place events ++ (p.applyAll events).heardAt place e :=
      collect_concat apply _ p events e
    have hrounds : p.rounds place (events ++ [e])
        = p.rounds place events ++ (p.applyAll events).roundsAt place e :=
      collect_concat apply _ p events e
    rw [happly]
    rcases reading_apply hl e with ⟨pick, r, r', l', rfl, hmove, hl', hstep⟩ | ⟨hl', hnone, hno⟩
    · refine ⟨l', hl', ?_⟩
      rcases hcount with ⟨gone, hp⟩ | ⟨hbegun, hcount⟩
      · exact absurd hp (hstep.phase_ne_done gone)
      rcases hstep.takes hbegun with hdone | ⟨hbegun', htakes⟩
      · exact .inl hdone
      have hround : ((p.applyAll events).roundsAt place (.move place pick)).length
          = l'.looks.toNat := by
        rw [roundsAt, hmove]
        simp only [Looks, hl', Option.any_some]
        cases l'.looks <;> simp
      have hitem : (p.applyAll events).heardAt place (.move place pick)
          = (((p.applyAll events).apply (.move place pick)).wire.conn l.conn).taken.drop
            ((p.applyAll events).wire.conn l.conn).taken.length := by
        rw [heardAt, hl]
        exact if_pos (beq_self_eq_true place)
      refine .inr ⟨hbegun', ?_⟩
      rw [hheard, hrounds, List.length_append, List.length_append, hround, hitem]
      omega
    · rw [hnone, List.append_nil] at hheard
      rw [hno, List.append_nil] at hrounds
      rw [hheard, hrounds]
      exact ⟨l, hl', hcount⟩

/-- From one read to another, a reading takes as many items as it goes round its loop. -/
theorem length_heard (h : p.Looks place) {events : List Event}
    (hend : (p.applyAll events).Looks place) :
    (p.heard place events).length = (p.rounds place events).length := by
  obtain ⟨l, hl, hcount⟩ := tally h events
  obtain ⟨l', hl', hp⟩ := hend.exists
  obtain rfl := Option.some.inj (hl.symm.trans hl')
  rcases hcount with ⟨gone, hdone⟩ | ⟨-, hcount⟩
  · cases hp.symm.trans hdone
  · simpa [Listen.held, hp] using hcount

/-- A pause lasts until its end, unless the reading ends. -/
theorem Pauses.apply {deadline : Nat} {resume : Resume} (h : p.Pauses place deadline resume)
    (e : Event) : (p.apply e).Pauses place deadline resume := by
  obtain ⟨l, hl, hor⟩ := h
  have hnow := p.now_le_apply e
  rcases reading_apply hl e with ⟨_, r, r', l', rfl, -, hl', hstep⟩ | ⟨hl', -, -⟩
  · refine ⟨l', hl', ?_⟩
    rcases hor with hp | ⟨gone, hp⟩ | hdue
    · exact .inr ((hstep.of_pausing hp).imp_right fun hdue => Nat.le_trans hdue hnow)
    · exact absurd hp (hstep.phase_ne_done gone)
    · exact .inr (.inr (Nat.le_trans hdue hnow))
  · exact ⟨l, hl', hor.imp_right fun hor => hor.imp_right fun hdue => Nat.le_trans hdue hnow⟩

theorem Pauses.applyAll {deadline : Nat} {resume : Resume} (h : p.Pauses place deadline resume)
    (events : List Event) : (p.applyAll events).Pauses place deadline resume := by
  induction events generalizing p with
  | nil => exact h
  | cons e rest ih => exact ih (h.apply e)

end Reading

/-- While nothing happens from outside no loop of a network goes on for ever, and each needs a
message or a pause to go round once more. -/
structure SpinFree (p : Network) : Prop where
  /-- Only so many steps can be taken, and the clock stands still meanwhile. -/
  bounded : ∀ {ms : List (Nat × Nat)} {p' : Network}, p.moves ms = some p' →
    ms.length ≤ p.work ∧ p'.now = p.now
  /-- Whatever steps were taken, more lead to where no job can take one. -/
  settles : ∀ {ms : List (Nat × Nat)} {p' : Network}, p.moves ms = some p' →
    ∃ more p'', p'.moves more = some p'' ∧ p''.Blocked
  /-- Where no job can take a step, each has ended or waits. -/
  idle : ∀ {ms : List (Nat × Nat)} {p' : Network}, p.moves ms = some p' → p'.Blocked →
    ∀ {place : Nat} {job : Job}, p'.jobs[place]? = some job → p'.Idle place job
  /-- A wait for an acknowledgment goes on only after it has taken an item. -/
  waits : ∀ {place pick i : Nat} {x : Send} {s s' : Sender} {counter : UInt64}
    {waits : List AckWait} {failures : List Failure} {a a' : AckWait} {wire' : Wire},
    p.jobs[place]? = some (.send i x) → p.senders[i]? = some s →
    x.phase = .waiting counter waits failures → waits[pick]? = some a →
    a.step counter s p.wire = some (s', wire', a') → a'.outcome = none →
    ∃ item, (p.wire.conn a.conn).Takes item (wire'.conn a.conn)
  /-- From one read to another a reading takes one item for each round. -/
  rounds : ∀ {place : Nat} {events : List Event}, p.Looks place →
    (p.applyAll events).Looks place →
    (p.heard place events).length = (p.rounds place events).length
  /-- An attempt to acknowledge is the last, or the next comes after the retry interval. -/
  pauses : ∀ {place pick i : Nat} {l : Listen} {r : Receiver} {counter : UInt64} {p' : Network},
    p.jobs[place]? = some (.listen i l) → p.receivers[i]? = some r →
    l.phase = .acknowledging counter → p.move place pick = some p' →
    p'.Looks place ∨ (∃ l' gone, p'.readingAt? place = some l' ∧ l'.phase = .done gone) ∨
      p.now < p.now + r.retry ∧ ∀ events,
        (p'.applyAll events).Pauses place (p.now + r.retry) (.acknowledge counter)

theorem pauses_of_acknowledging {p p' : Network} (sound : p.Sound) {place pick i : Nat} {l : Listen}
    {r : Receiver} {counter : UInt64} (hl : p.jobs[place]? = some (.listen i l))
    (hr : p.receivers[i]? = some r) (hp : l.phase = .acknowledging counter)
    (hmove : p.move place pick = some p') :
    p'.Looks place ∨ (∃ l' gone, p'.readingAt? place = some l' ∧ l'.phase = .done gone) ∨
      p.now < p.now + r.retry ∧ ∀ events,
        (p'.applyAll events).Pauses place (p.now + r.retry) (.acknowledge counter) := by
  obtain ⟨j, q, q', l', hj, hq, hl', hstep⟩ := reading_move (readingAt?_of_listen hl) hmove
  obtain ⟨rfl, -⟩ := Job.listen.inj (Option.some.inj (hl.symm.trans hj))
  obtain rfl := Option.some.inj (hr.symm.trans hq)
  rcases hstep.of_acknowledging hp with hread | ⟨gone, hdone⟩ | hpause
  · exact .inl (looks_of_reading hl' hread)
  · exact .inr (.inl ⟨l', gone, hl', hdone⟩)
  · have hpos := sound.retry r (List.mem_of_getElem? hr)
    exact .inr (.inr ⟨Nat.lt_add_of_pos_right hpos,
      fun events => Pauses.applyAll ⟨l', hl', .inl hpause⟩ events⟩)

/-- No loop of a network that is reachable spins. -/
theorem spinFree_of_reachable {p : Network} (h : p.Reachable) : p.SpinFree where
  bounded hms :=
    have hmoves := (sound_of_reachable h).moves hms
    ⟨Nat.le_trans (Nat.le_add_left _ _) hmoves.2, hmoves.1.2⟩
  settles hms := ((sound_of_reachable h).moves hms).1.1.exists_blocked
  idle hms hblocked _ _ hjob := idle_of_blocked ((sound_of_reachable h).moves hms).1.1 hblocked hjob
  waits _ _ _ _ hstep hnone := AckWait.takes_of_step hstep hnone
  rounds hlooks hend := length_heard hlooks hend
  pauses hl hr hp hmove := pauses_of_acknowledging (sound_of_reachable h) hl hr hp hmove

/-- Two senders share a connection, and the frame of the first goes once round the loop of the
receiver at its other end. -/
theorem spinFree_of_reachable_sample :
    let r : Receiver := { handler := .accepting, blockOnError := false, retry := 10 }
    let start : List Event := [.attach r, .employ true, .employ false,
      .connect { id := "a", isOpen := true }, .connect { id := "b", isOpen := true }, .join 0 1,
      .order 0 (.register 0), .order 1 (.register 0), .listen 0 1, .move 0 0,
      .send 0 [7], .send 1 [8]]
    let p := ({} : Network).applyAll start
    let run : List Event := [.move 1 0, .move 1 0, .move 1 0, .move 1 0, .move 0 0, .move 0 0,
      .move 0 0, .move 1 0]
    p.Reachable ∧ p.SpinFree ∧ p.Looks 0 ∧ (p.applyAll run).Looks 0 ∧
      (p.heard 0 run).length = (p.rounds 0 run).length ∧ p.rounds 0 run = [0] := by
  intro r start p run
  have hreachable : p.Reachable := ⟨start, by simp [start, r, Event.Patient], rfl⟩
  have hfree : p.SpinFree := spinFree_of_reachable hreachable
  have hlooks : p.Looks 0 := by decide +kernel
  have hend : (p.applyAll run).Looks 0 := by decide +kernel
  have hrounds : p.rounds 0 run = [0] := by decide +kernel
  exact ⟨hreachable, hfree, hlooks, hend, hfree.rounds hlooks hend, hrounds⟩

end Network

end BlockFeed
