import BlockFeed.Proofs.Link.Histories
import BlockFeed.Proofs.Receiver.Moves

/-!
# Closing a receiver

What the state of a receiver tells about its readings, and what a reading still does once its
receiver is closed.

## Main definitions

* `ReceiverState.after`: the state of a receiver, told from its readings.
* `Listen.Occupied`: a reading deals with the frame that was handed over last.
* `Listen.owed?`: the acknowledgment that a reading attempts before it looks at whether its
  receiver is closed.
* `Listen.outlasts`: a reading goes on to acknowledge, its pause being over.
* `Listen.Winds`: what a reading of a closed receiver has done, step by step.

## Design notes

A reading looks at whether its receiver is closed when it reads and while it pauses, and nowhere
else. So it carries on with a frame that its handler has, up to one attempt to acknowledge it. If a
pause is over when the reading looks, it may go on for one attempt instead of returning; unless
pauses take no time this can be only the pause that it was in when its receiver was closed. What is
said here of a reading of a closed receiver assumes that it does not go on to read in that way.
-/

namespace BlockFeed

/-- Whether the answer to a write tells that the connection is gone. -/
def tellsGone : Except ConnectionError Unit → Bool
  | .ok () => false
  | .error e => e.isClosed

namespace Wire

/-- A write to a connection that exists leaves a trace, whatever becomes of it. -/
theorem write_ne {w w' : Wire} {r : Ref} {bytes : Bytes} {answer : Except ConnectionError Unit}
    (hr : r < w.connections.length) (h : w.write r bytes = (answer, w')) : w' ≠ w := by
  rintro rfl
  have hwrites := ((logs_write h).conn r).writes
  simp [only, hr] at hwrites

end Wire

namespace Listen

/-- Whether a reading has begun and has not returned. -/
def inProgress (l : Listen) : Bool :=
  match l.phase with
  | .called | .done _ => false
  | _ => true

/-- The state of the receiver while this is its last reading, given the state before. -/
def shows (l : Listen) (before : ReceiverState) : ReceiverState :=
  match l.phase with
  | .called => before
  | .done gone => if gone then .closed else .cancelled
  | _ => .listening

/-- The counter of the frame that a reading deals with. -/
def counter? (l : Listen) : Option UInt64 :=
  match l.phase with
  | .handling frame _ => some frame.counter
  | .acknowledging counter => some counter
  | .pausing _ (.acknowledge counter) => some counter
  | _ => none

/-- The frame that a reading deals with was the last to be handed over. -/
def Occupied (r : Receiver) (l : Listen) : Prop :=
  ∀ counter, l.counter? = some counter →
    ∃ last, r.handled.getLast? = some last ∧ last.delivery.counter = counter

/-- The acknowledgment that a reading attempts before it looks at its receiver again. -/
def owed? (blockOnError : Bool) (l : Listen) : Option UInt64 :=
  match l.phase with
  | .handling frame answer =>
    if frame.ackRequested && (answer.isOk || !blockOnError) then some frame.counter else none
  | .acknowledging counter => some counter
  | _ => none

/-- How many acknowledgments that are, one or none. -/
def owes (blockOnError : Bool) (l : Listen) : Nat := (l.owed? blockOnError).toList.length

/-- Whether a reading goes on to acknowledge in a step, its pause being over. -/
def outlasts (l l' : Listen) : Bool :=
  match l.phase, l'.phase with
  | .pausing _ _, .acknowledging _ => true
  | _, _ => false

/-- The steps that a reading takes at most once its receiver is closed, if it never outlasts a
pause. -/
def left (l : Listen) : Nat :=
  match l.phase with
  | .called | .acknowledging _ | .pausing _ .read => 2
  | .reading | .pausing _ (.acknowledge _) => 1
  | .handling _ _ => 3
  | .done _ => 0

/-- Whether a reading waits for something, and for the closing of its receiver. -/
def waits (l : Listen) : Bool :=
  match l.phase with
  | .reading | .pausing _ _ => true
  | _ => false

/-- What a reading of a closed receiver has done: how often it has outlasted a pause, how the wire
was before and after each of its steps that changed it, and what has become of the reading. -/
structure Winds (blockOnError : Bool) (retry : Nat) (l : Listen) (late : Nat)
    (touched : List (Wire × Wire)) (l' : Listen) : Prop where
  /-- It deals with no other frame. -/
  counter : ∀ counter, l'.counter? = some counter → l.counter? = some counter
  /-- All that it has done is to attempt the acknowledgment of that frame. -/
  attempts : ∀ t ∈ touched, ∃ counter answer, l.counter? = some counter ∧
    t.1.write l.conn (Ack.encode counter) = (answer, t.2)
  /-- It has attempted it once if it owed it, and once more for each pause that it outlasted. -/
  often : touched.length + l'.owes blockOnError = l.owes blockOnError + late
  /-- Unless pauses take no time, it outlasts none but the one that it was in. -/
  lone : 0 < retry → late + l'.deadline?.isSome.toNat ≤ l.deadline?.isSome.toNat
  /-- It returns `true` exactly if an attempt found the connection gone. -/
  gone : l'.result? = some true ↔ l.result? = some true ∨ ∃ t ∈ touched, ∃ counter e,
    l.counter? = some counter ∧ t.1.write l.conn (Ack.encode counter) = (.error e, t.2) ∧
      e.isClosed = true

variable {blockOnError : Bool} {retry : Nat}

theorem Winds.refl (blockOnError : Bool) (retry : Nat) (l : Listen) :
    Winds blockOnError retry l 0 [] l where
  counter := fun _ => id
  attempts := nofun
  often := by simp
  lone := by simp
  gone := by simp

theorem Winds.trans {l l' l'' : Listen} {late late' : Nat} {touched more : List (Wire × Wire)}
    (h : Winds blockOnError retry l late touched l')
    (h' : Winds blockOnError retry l' late' more l'') (conn : l'.conn = l.conn) :
    Winds blockOnError retry l (late + late') (touched ++ more) l'' where
  counter := fun counter hcounter => h.counter counter (h'.counter counter hcounter)
  attempts := by
    refine List.forall_mem_append.mpr ⟨h.attempts, fun t ht => ?_⟩
    obtain ⟨counter, answer, hcounter, hw⟩ := h'.attempts t ht
    exact ⟨counter, answer, h.counter counter hcounter, conn ▸ hw⟩
  often := by
    have hbefore := h.often
    have hafter := h'.often
    rw [List.length_append]
    omega
  lone := by
    intro hretry
    have hbefore := h.lone hretry
    have hafter := h'.lone hretry
    omega
  gone := by
    rw [h'.gone, h.gone, or_assoc]
    refine or_congr_right ⟨?_, ?_⟩
    · rintro (⟨t, ht, hgone⟩ | ⟨t, ht, counter, e, hcounter, hw, hgone⟩)
      · exact ⟨t, List.mem_append_left _ ht, hgone⟩
      · exact ⟨t, List.mem_append_right _ ht, counter, e, h.counter counter hcounter, conn ▸ hw,
          hgone⟩
    · rintro ⟨t, ht, counter, e, hcounter, hw, hgone⟩
      rcases List.mem_append.mp ht with ht | ht
      · exact .inl ⟨t, ht, counter, e, hcounter, hw, hgone⟩
      · obtain ⟨counter', answer, hcounter', -⟩ := h'.attempts t ht
        obtain rfl : counter = counter' :=
          Option.some.inj (hcounter.symm.trans (h.counter counter' hcounter'))
        exact .inr ⟨t, ht, counter, e, hcounter', conn.symm ▸ hw, hgone⟩

/-- No step of a reading of a closed receiver reads anything. -/
theorem Winds.consumed {l l' : Listen} {late : Nat} {touched : List (Wire × Wire)}
    (h : Winds blockOnError retry l late touched l') :
    ∀ t ∈ touched, t.1.news Connection.consumed t.2 = [] := by
  intro t ht
  obtain ⟨counter, answer, -, hw⟩ := h.attempts t ht
  have hlogs := Wire.logs_write hw
  exact Wire.news_eq_nil hlogs.size fun f => ((hlogs.conn f).consumed).trans (List.append_nil _)

theorem counter?_of_owed? {l : Listen} {counter : UInt64}
    (h : l.owed? blockOnError = some counter) : l.counter? = some counter := by
  rw [owed?] at h
  rw [counter?]
  split at h
  · next hp =>
    rw [hp]
    split at h
    · exact h
    · cases h
  · next hp =>
    rw [hp]
    exact h
  · cases h

theorem owes_of_counter? {l : Listen} (blockOnError : Bool) (h : l.counter? = none) :
    l.owes blockOnError = 0 := by
  cases howed : l.owed? blockOnError with
  | none => rw [owes, howed]; rfl
  | some counter => cases h.symm.trans (counter?_of_owed? howed)

/-- A reading that deals with no frame attempts nothing. -/
theorem Winds.of_counter? {l l' : Listen} {late : Nat} {touched : List (Wire × Wire)}
    (h : Winds blockOnError retry l late touched l')
    (hnone : l.counter? = none) : touched = [] ∧ late = 0 := by
  have hempty : touched = [] := by
    refine List.eq_nil_iff_forall_not_mem.mpr fun t ht => ?_
    obtain ⟨counter, _, hcounter, -⟩ := h.attempts t ht
    cases hnone.symm.trans hcounter
  have hafter : l'.counter? = none :=
    Option.eq_none_iff_forall_ne_some.mpr fun counter hcounter => by
      cases hnone.symm.trans (h.counter counter hcounter)
  have hoften := h.often
  rw [hempty, owes_of_counter? _ hnone, owes_of_counter? _ hafter] at hoften
  exact ⟨hempty, by simpa using hoften.symm⟩

/-- A reading that has returned outlasts no pause. -/
theorem Winds.late_of_returned {l l' : Listen} {late : Nat} {touched : List (Wire × Wire)}
    (h : Winds blockOnError retry l late touched l')
    (returned : l.result?.isSome = true) : late = 0 := by
  refine (h.of_counter? ?_).2
  rw [result?] at returned
  rw [counter?]
  split at returned
  · next hp => rw [hp]
  · cases returned

theorem left_eq_zero_iff {l : Listen} : l.left = 0 ↔ l.result?.isSome = true := by
  rw [left, result?]
  split <;> simp [*]

theorem left_le_three (l : Listen) : l.left ≤ 3 := by
  rw [left]
  split <;> omega

theorem Occupied.mono {r r' : Receiver} {l : Listen} (h : l.Occupied r)
    (handled : r'.handled = r.handled) : l.Occupied r' := by
  intro counter hcounter
  rw [handled]
  exact h counter hcounter

theorem occupied_of_returned {r : Receiver} {l : Listen} (h : l.result?.isSome = true) :
    l.Occupied r := by
  intro counter hcounter
  rw [result?] at h
  rw [counter?] at hcounter
  split at hcounter <;> simp_all

variable {now : Nat} {r r' : Receiver} {w w' : Wire} {l l' : Listen}

/-- A reading that has returned takes no step. -/
theorem Move.result?_eq_none (h : Move now r w l r' w' l') : l.result? = none := by
  rw [result?]
  split
  · next gone hp => cases h <;> simp_all
  · rfl

/-- The state of a receiver follows its reading. -/
theorem Move.shows (h : Move now r w l r' w' l') {before : ReceiverState}
    (hstate : r.state = l.shows before) : r'.state = l'.shows before := by
  have hlistening (hp : l.inProgress = true) : r.state = .listening := by
    rw [hstate, Listen.shows]
    rw [inProgress] at hp
    split at hp <;> simp_all
  cases h with
  | begin | cancel | lose | giveUp => rfl
  | @handOver bytes frame _ hp =>
    have hsame : (r.handOver ⟨frame.payload, frame.counter⟩).state = r.state := by
      rw [Receiver.handOver]
      split <;> rfl
    exact hsame.trans (hlistening (by rw [inProgress, hp]))
  | skip hp | retryRead hp | conclude hp | withhold hp | acknowledge hp | retryAcknowledge hp
  | resumeRead hp | resumeAcknowledge hp => exact hlistening (by rw [inProgress, hp])

/-- A reading takes up a frame only by handing it over. -/
theorem Move.occupied (h : Move now r w l r' w' l') (hl : l.Occupied r) : l'.Occupied r' := by
  intro counter hcounter
  cases h with
  | begin | cancel | skip | lose | giveUp | retryRead | withhold | acknowledge | resumeRead =>
    cases hcounter
  | handOver =>
    obtain rfl := Option.some.inj hcounter
    exact ⟨_, by rw [Receiver.handled_handOver, List.getLast?_concat], rfl⟩
  | conclude hp | retryAcknowledge hp | resumeAcknowledge hp =>
    exact hl counter (by rw [counter?, hp]; exact hcounter)

/-- A closed receiver stays closed. -/
theorem Move.stays_closed (h : Move now r w l r' w' l') (closed : r.cancel.closed = true) :
    r'.cancel.closed = true := by
  cases h with
  | handOver =>
    rw [Receiver.handOver]
    split
    · rfl
    · exact closed
  | begin | cancel | skip | lose | giveUp | retryRead | conclude | withhold | acknowledge
  | retryAcknowledge | resumeRead | resumeAcknowledge => exact closed

theorem outlasts_self (l : Listen) : l.outlasts l = false := by
  rw [outlasts]
  split
  · next hp hp' => cases hp.symm.trans hp'
  · rfl

theorem deadline?_of_outlasts (h : l.outlasts l' = true) :
    ∃ deadline, l.deadline? = some deadline := by
  rw [outlasts] at h
  split at h
  · next hp _ => exact ⟨_, by rw [deadline?, hp]⟩
  · cases h

/-- At the pick `0`, or with nothing to read, a reading of a closed receiver does not read. -/
theorem step_of_heeds {pick : Nat} (closed : r.cancel.closed = true) (hp : l.phase = .reading)
    (heeds : pick = 0 ∨ w.read? l.conn = none) :
    l.step now pick r w = some (finish false r w l) := by
  rw [step, hp]
  dsimp only
  rw [unlessClosed, if_pos]
  rcases heeds with rfl | hnone
  · simp [closed]
  · simp [closed, hnone]

/-- At the pick `0` a reading of a closed receiver does not outlast a pause. -/
theorem outlasts_of_heeds (closed : r.cancel.closed = true)
    (h : l.step now 0 r w = some (r', w', l')) : l.outlasts l' = false := by
  rw [outlasts]
  split
  · next hp hp' =>
    rw [step, hp] at h
    dsimp only at h
    rw [unlessClosed, if_pos (by simp [closed])] at h
    obtain ⟨rfl, rfl, rfl⟩ := Option.some.inj h
    cases hp'
  · rfl

/-- A pause that a reading outlasts was over. -/
theorem Move.due_of_outlasts (h : Move now r w l r' w' l') (late : l.outlasts l' = true) :
    ∃ deadline ∈ l.deadline?, deadline ≤ now := by
  rw [outlasts] at late
  split at late
  · next hp hp' =>
    cases h with
    | resumeAcknowledge hp hdue => exact ⟨_, by rw [deadline?, hp]; rfl, hdue⟩
    | begin | cancel | handOver | skip | lose | giveUp | retryRead | withhold | acknowledge
    | retryAcknowledge | resumeRead => cases hp'
    | conclude hq => cases hp.symm.trans hq
  · cases late

section Heeds

variable (h : Move now r w l r' w' l')
  (heeds : l.phase = .reading → l'.result? = some false ∧ w' = w)

include h heeds

/-- A receiver is handed nothing by a reading that does not read. -/
theorem Move.handled_of_heeds : r'.handled = r.handled := by
  cases h with
  | handOver hp => cases (heeds hp).1
  | begin | cancel | skip | lose | giveUp | retryRead | conclude | withhold | acknowledge
  | retryAcknowledge | resumeRead | resumeAcknowledge => rfl

theorem Move.left_lt : l'.left < l.left + 2 * (l.outlasts l').toNat := by
  cases h with
  | handOver hp | skip hp | retryRead hp => cases (heeds hp).1
  | begin hp | conclude hp | withhold hp | acknowledge hp | retryAcknowledge hp | resumeRead hp
  | resumeAcknowledge hp => simp [left, hp, outlasts]
  | cancel hp =>
    refine Nat.lt_add_right _ ?_
    rcases hp with hp | ⟨_, resume, hp⟩
    · simp [left, hp]
    · cases resume <;> simp [left, hp]
  | lose _ hfail | giveUp _ _ hfail =>
    refine Nat.lt_add_right _ ?_
    rcases hfail with ⟨hp, _⟩ | ⟨_, hp, _⟩ <;> simp [left, hp]

/-- Unless pauses take no time, a reading of a closed receiver begins none, and outlasts none but
the one that it was in. -/
theorem Move.lone (closed : r.cancel.closed = true) (hretry : 0 < r.retry) :
    (l.outlasts l').toNat + l'.deadline?.isSome.toNat ≤ l.deadline?.isSome.toNat := by
  cases h with
  | handOver hp | skip hp => cases (heeds hp).1
  | retryRead _ _ _ hopen | retryAcknowledge _ _ _ hopen =>
    rw [hopen closed] at hretry
    cases hretry
  | begin hp | conclude hp | withhold hp | acknowledge hp | resumeRead hp
  | resumeAcknowledge hp => simp [outlasts, deadline?, hp]
  | cancel hp | lose | giveUp => simp [outlasts, deadline?]

/-- A step of a reading of a closed receiver changes nothing of the wire, unless it is an attempt
to acknowledge. -/
theorem Move.winds (closed : r.cancel.closed = true) :
    (w' = w ∧ Winds r.blockOnError r.retry l (l.outlasts l').toNat [] l') ∨
      Winds r.blockOnError r.retry l (l.outlasts l').toNat [(w, w')] l' := by
  have hnone := h.result?_eq_none
  have hlone := h.lone heeds closed
  have hquiet {l' : Listen} {late : Nat}
      (counter : ∀ counter, l'.counter? = some counter → l.counter? = some counter)
      (often : l'.owes r.blockOnError = l.owes r.blockOnError + late)
      (lone : 0 < r.retry → late + l'.deadline?.isSome.toNat ≤ l.deadline?.isSome.toNat)
      (hresult : l'.result? ≠ some true) : Winds r.blockOnError r.retry l late [] l' := by
    refine ⟨counter, nofun, by rw [List.length_nil, Nat.zero_add, often], lone, ?_⟩
    exact iff_of_false hresult (by simp [hnone])
  have hattempt {l' : Listen} {counter : UInt64} {w' : Wire}
      {answer : Except ConnectionError Unit}
      (hp : l.phase = .acknowledging counter)
      (hw : w.write l.conn (Ack.encode counter) = (answer, w'))
      (stays : ∀ other, l'.counter? = some other → other = counter)
      (howes : l'.owes r.blockOnError = 0)
      (lone : 0 < r.retry → 0 + l'.deadline?.isSome.toNat ≤ l.deadline?.isSome.toNat)
      (hresult : l'.result? = some true ↔ tellsGone answer = true) :
      Winds r.blockOnError r.retry l 0 [(w, w')] l' := by
    have hcounter : l.counter? = some counter := by rw [counter?, hp]
    refine ⟨fun other hother => stays other hother ▸ hcounter,
      List.forall_mem_singleton.mpr ⟨counter, answer, hcounter, hw⟩, ?_, lone, ?_⟩
    · have hone : l.owes r.blockOnError = 1 := by simp [owes, owed?, hp]
      rw [howes, hone]
      rfl
    · rw [hresult, hnone]
      cases answer with
      | ok => simp [tellsGone, hcounter, hw]
      | error e => simp [tellsGone, hcounter, hw]
  cases h with
  | handOver hp | skip hp | retryRead hp => cases (heeds hp).1
  | begin hp | resumeRead hp =>
    exact .inl ⟨rfl, hquiet (by simp [counter?]) (by simp [owes, owed?, hp, outlasts]) hlone nofun⟩
  | cancel hp =>
    refine .inl ⟨rfl, hquiet (by simp [counter?]) ?_ hlone (by simp [result?])⟩
    rcases hp with hp | ⟨_, _, hp⟩ <;> simp [owes, owed?, hp, outlasts]
  | lose hgone hfail =>
    rcases hfail with ⟨hp, _⟩ | ⟨counter, hp, hw⟩
    · cases (heeds hp).1
    · have hlate : l.outlasts { l with phase := .done true } = false := by simp [outlasts, hp]
      rw [hlate] at hlone ⊢
      exact .inr (hattempt hp hw nofun rfl hlone (iff_of_true rfl hgone))
  | giveUp hstays _ hfail =>
    have hlate : l.outlasts { l with phase := .done false } = false := by simp [outlasts]
    rw [hlate] at hlone ⊢
    rcases hfail with ⟨hp, _⟩ | ⟨counter, hp, hw⟩
    · refine .inl ⟨(heeds hp).2, hquiet (by simp [counter?]) ?_ hlone (by simp [result?])⟩
      simp [owes, owed?, hp]
    · refine .inr (hattempt hp hw nofun rfl hlone (iff_of_false (by simp [result?]) ?_))
      rw [tellsGone, hstays]
      exact nofun
  | conclude hp hreq hanswer =>
    refine .inl ⟨rfl, hquiet (by simp [counter?, hp]) ?_ hlone nofun⟩
    rcases hanswer with hok | hfree
    · simp [owes, owed?, hp, hreq, hok, outlasts]
    · simp [owes, owed?, hp, hreq, hfree, outlasts]
  | withhold hp hwithheld =>
    refine .inl ⟨rfl, hquiet (by simp [counter?]) ?_ hlone nofun⟩
    rcases hwithheld with hreq | ⟨herror, hblock⟩
    · simp [owes, owed?, hp, hreq, outlasts]
    · simp [owes, owed?, hp, herror, hblock, outlasts]
  | acknowledge hp hw =>
    have hlate : l.outlasts { l with phase := .reading } = false := by simp [outlasts, hp]
    rw [hlate] at hlone ⊢
    exact .inr (hattempt hp hw nofun rfl hlone (iff_of_false nofun nofun))
  | @retryAcknowledge counter _ e hp hw hstays =>
    have hlate : l.outlasts
        { l with phase := .pausing (now + r.retry) (.acknowledge counter) } = false := by
      simp [outlasts, hp]
    rw [hlate] at hlone ⊢
    refine .inr (hattempt hp hw (fun other hother => (Option.some.inj hother).symm) rfl hlone ?_)
    exact iff_of_false nofun (by rw [tellsGone, hstays]; exact nofun)
  | resumeAcknowledge hp =>
    refine .inl ⟨rfl, hquiet (by simp [counter?, hp]) ?_ hlone nofun⟩
    simp [owes, owed?, hp, outlasts]

end Heeds

/-- A step of a reading of a closed receiver brings it nearer to its end, unless it goes on although
it might return. -/
theorem left_lt_of_step {pick : Nat} (h : l.step now pick r w = some (r', w', l'))
    (closed : r.cancel.closed = true) :
    l'.left < l.left + 3 * (l.waits && pick != 0).toNat := by
  have hmove := move_of_step h
  cases hgoes : l.waits && pick != 0 with
  | true =>
    have hpos : l.left ≠ 0 := fun hzero => by
      rw [left_eq_zero_iff, hmove.result?_eq_none] at hzero
      cases hzero
    have hthree := l'.left_le_three
    rw [Bool.toNat_true]
    omega
  | false =>
    have hheeds (hwaits : l.waits = true) : pick = 0 := by simpa [hwaits] using hgoes
    have hless := hmove.left_lt fun hp => by
      rw [step_of_heeds closed hp (.inl (hheeds (by rw [waits, hp])))] at h
      obtain ⟨-, rfl, rfl⟩ := Option.some.inj h
      exact ⟨rfl, rfl⟩
    have hlate : l.outlasts l' = false := by
      cases hwaits : l.waits with
      | true =>
        obtain rfl := hheeds hwaits
        exact outlasts_of_heeds closed h
      | false =>
        rw [outlasts]
        split
        · next hp _ => simp [waits, hp] at hwaits
        · rfl
    rwa [hlate] at hless

/-- A reading of a closed receiver never has to wait. -/
theorem step_isSome_of_closed (now pick : Nat) (w : Wire) (closed : r.cancel.closed = true)
    (hl : l.result? = none) : (l.step now pick r w).isSome = true := by
  refine Option.isSome_iff_ne_none.mpr fun hstuck => ?_
  rcases phase_of_step hstuck with ⟨gone, hp⟩ | ⟨hopen, -⟩
  · rw [result?, hp] at hl
    cases hl
  · cases closed.symm.trans hopen

end Listen

/-- The state of a receiver, told from its readings: `Idle` until the first begins, `Listening`
while one is in progress, and else what the last that returned has returned. -/
def ReceiverState.after (readings : List Listen) : ReceiverState :=
  if readings.any (·.inProgress) then .listening
  else
    match (readings.filterMap (·.result?)).getLast? with
    | none => .idle
    | some gone => if gone then .closed else .cancelled

/-- One more reading, when all others have returned. -/
theorem ReceiverState.after_concat {readings : List Listen}
    (returned : ∀ k ∈ readings, k.result?.isSome = true) (l : Listen) :
    after (readings ++ [l]) = l.shows (after readings) := by
  have hnone : readings.any (·.inProgress) = false := by
    refine List.any_eq_false.mpr fun k hk hprogress => ?_
    have hreturned := returned k hk
    rw [Listen.result?] at hreturned
    rw [Listen.inProgress] at hprogress
    split at hprogress <;> simp_all
  rw [after, List.any_append, hnone, List.filterMap_append, after, hnone]
  cases hp : l.phase <;> simp [Listen.shows, Listen.inProgress, Listen.result?, hp]

end BlockFeed
