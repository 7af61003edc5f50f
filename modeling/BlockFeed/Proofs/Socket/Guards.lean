import BlockFeed.Proofs.Socket.Generations

/-!
# Guards of a link

An operation that began on an old link of a socket does not touch the link that came after it, and
a read whose link was shut does not wait on.

## Main definitions

* `SocketActivity.Held`: how an operation can be held up.
* `Session.Unharmed`: a link is the current one, and is as it was.
* `Session.received`: what a read takes from its link in a run.
* `Session.Freed`: where a read stands whose link was shut, if it has received nothing since.
* `Session.Guards`: all that keeps the operations of different links apart.

## Main results

* `Session.Kept.unharmed`: an operation on another link leaves the current one as it is.
* `Session.Kept.freed`: a read whose link was shut does not wait on.
* `Session.guards_applyAll`: the operations of different links are kept apart in every run.

## Design notes

A read that waits has two steps at most before it. Once its link is shut it can take them whenever
it gets to, and unless it receives something they end in the error that the link is not open.
-/

namespace BlockFeed

namespace SocketRead

/-- The steps that a read takes at most once its link is shut. -/
def left : SocketRead → Nat
  | called => 3
  | queued _ => 2
  | reading _ => 1
  | done _ => 0

variable {me pick : Nat} {s s' : Socket} {w w' : Wire} {x x' : SocketRead} {r : Ref}

theorem left_of_link? (h : x.link? = some r) : 1 ≤ x.left ∧ x.left ≤ 2 := by
  cases x with
  | called | done => cases h
  | queued | reading => simp [left]

/-- A read whose link is shut can always move. -/
theorem step_isSome_of_shut (hr : x.link? = some r) (shut : Socket.shut w r = true) (me : Nat)
    (s : Socket) : (x.step me 0 s w).isSome = true := by
  cases x with
  | called | done => cases hr
  | queued q =>
    obtain rfl := Option.some.inj hr
    rw [step, if_pos shut]
    split <;> rfl
  | reading q =>
    obtain rfl := Option.some.inj hr
    rw [step, shut]
    rfl

theorem not_move_done (result : Except ConnectionError Bytes) :
    ¬Move me pick s w (.done result) s' w' x' := by
  intro h
  cases h with
  | release hlink => cases hlink

/-- A read that receives nothing from its link comes nearer to its end, and tells that the link is
not open. -/
theorem Move.freed (h : Move me pick s w x s' w' x') (hr : x.link? = some r)
    (nothing : x.item? pick w = none) :
    x' = .done (.error .notOpen) ∨ x'.link? = some r ∧ x'.left < x.left := by
  cases h with
  | miss | queue => cases hr
  | begin => exact .inr ⟨hr, Nat.lt_succ_self 1⟩
  | release => exact .inl rfl
  | receive _ hitem | fail _ hitem => cases hitem.symm.trans nothing

end SocketRead

namespace SocketActivity

/-- How an operation on a socket can be held up. -/
inductive Held (me : Nat) (s : Socket) (w : Wire) : SocketActivity → Prop where
  | hasRead (result : Except ConnectionError Bytes) : Held me s w (.read (.done result))
  | hasWritten (bytes : Bytes) (result : Except ConnectionError Unit) :
      Held me s w (.write bytes (.done result))
  | hasClosed (result : Except ConnectionError Unit) : Held me s w (.close (.done result))
  | hasDialed (result : Except ConnectionError Unit) : Held me s w (.dial (.done result))
  | dials : Held me s w (.dial .dialing)
  /-- Another read has its turn at the link, which is not shut. -/
  | readTurn {r : Ref} : Socket.turn s.readers r ≠ some me → Socket.shut w r = false →
      Held me s w (.read (.queued r))
  /-- Nothing has arrived at the link, which is not shut. -/
  | unheard {r : Ref} : (w.conn r).next? = none → Socket.shut w r = false →
      Held me s w (.read (.reading r))
  | writeTurn {bytes : Bytes} {r : Ref} : Socket.turn s.writers r ≠ some me →
      Held me s w (.write bytes (.queued r))
  | closeTurn {r : Ref} {outcome : Except ConnectionError Unit} :
      Socket.turn s.writers r ≠ some me → Held me s w (.close (.queued r outcome))

variable {me : Nat} {s : Socket} {w : Wire} {a : SocketActivity}

theorem held_of_read {x : SocketRead} (h : ∀ pick, x.step me pick s w = none) :
    Held me s w (.read x) := by
  -- whatever the pick is, nothing can be done, so also not what a shut link lets a read do
  have hzero := h 0
  cases x with
  | called =>
    rw [SocketRead.step] at hzero
    split at hzero <;> cases hzero
  | queued r =>
    rw [SocketRead.step] at hzero
    split at hzero
    · cases hzero
    · next hturn =>
      split at hzero
      · cases hzero
      · next hopen => exact .readTurn hturn (Bool.eq_false_iff.mpr hopen)
  | reading r =>
    rw [SocketRead.step] at hzero
    split at hzero
    · cases hzero
    · next hopen =>
      refine .unheard (Option.map_eq_none_iff.mp hzero) (Bool.eq_false_iff.mpr fun hshut => ?_)
      exact hopen (by rw [hshut]; rfl)
  | done result => exact .hasRead result

theorem held_of_write {bytes : Bytes} {x : SocketWrite} (h : x.step me bytes s w = none) :
    Held me s w (.write bytes x) := by
  cases x with
  | called =>
    rw [SocketWrite.step] at h
    split at h <;> cases h
  | queued r =>
    rw [SocketWrite.step] at h
    split at h
    · split at h <;> cases h
    · next hturn => exact .writeTurn hturn
  | writing r =>
    rw [SocketWrite.step] at h
    split at h <;> cases h
  | done result => exact .hasWritten bytes result

theorem held_of_close {x : SocketClose} (h : x.step me s w = none) : Held me s w (.close x) := by
  cases x with
  | called =>
    rw [SocketClose.step] at h
    split at h <;> cases h
  | queued r outcome =>
    rw [SocketClose.step] at h
    split at h
    · cases h
    · next hturn => exact .closeTurn hturn
  | done result => exact .hasClosed result

/-- An operation that cannot take a step is held up. -/
theorem held_of_stuck (h : ∀ pick, a.step me pick s w = none) : a.Held me s w := by
  cases a with
  | read x => exact held_of_read fun pick => Option.map_eq_none_iff.mp (h pick)
  | write bytes x => exact held_of_write (Option.map_eq_none_iff.mp (h 0))
  | close x => exact held_of_close (Option.map_eq_none_iff.mp (h 0))
  | dial x =>
    have hstep := Option.map_eq_none_iff.mp (h 0)
    cases x with
    | called =>
      rw [SocketOpen.step] at hstep
      split at hstep
      · cases hstep
      · split at hstep <;> cases hstep
    | dialing => exact .dials
    | done result => exact .hasDialed result

end SocketActivity

namespace Session

variable {p p' : Session} {e : Event} {place pick : Nat} {r : Ref}

/-- A link is the current one, and is as it was: also whose turn it is there. -/
structure Unharmed (r : Ref) (p p' : Session) : Prop where
  link : p'.socket.link = some r
  conn : p'.wire.conn r = p.wire.conn r
  readers : Socket.waitingAt p'.socket.readers r = Socket.waitingAt p.socket.readers r
  writers : Socket.waitingAt p'.socket.writers r = Socket.waitingAt p.socket.writers r

/-- An operation that waits at another link does not harm the current one. -/
theorem Kept.unharmed (h : p.Kept) {a : SocketActivity} {f : Ref}
    (ha : p.activities[place]? = some a) (hf : a.link? = some f) (hlink : p.socket.link = some r)
    (other : f ≠ r) (pick : Nat) : Unharmed r p (p.apply (.move place pick)) := by
  have hmoved := p.moved_apply place pick
  generalize p.apply (.move place pick) = p' at hmoved
  cases hmoved with
  | step hb hmove =>
    obtain rfl := Option.some.inj (hb.symm.trans ha)
    rcases hmove.uses h.unjoined with ⟨rfl, rfl⟩ | ⟨q, hq, huses⟩
    · exact ⟨hlink, rfl, rfl, rfl⟩
    · have hq : q = f := by
        rcases hq with hq | hq
        · exact Option.some.inj (hq.symm.trans hf)
        · rcases hmove.link? hq with hq | ⟨hnone, -⟩
          · exact Option.some.inj (hq.symm.trans hf)
          · cases hnone.symm.trans hf
      subst hq
      refine ⟨?_, huses.wire.others r other.symm, huses.readers r other.symm,
        huses.writers r other.symm⟩
      rcases huses.link with hsame | ⟨hcurrent, -⟩
      · exact hsame.trans hlink
      · exact absurd (Option.some.inj (hcurrent.symm.trans hlink)) other
  | stay => exact ⟨hlink, rfl, rfl, rfl⟩

/-- What the read at a place takes from its link as something happens. -/
def receivedAt (place : Nat) (p : Session) : Event → List (Except ConnectionError Bytes)
  | .move q pick =>
    match p.activities[place]? with
    | some (.read x) => if q = place then (x.item? pick p.wire).toList else []
    | _ => []
  | _ => []

/-- What the read at a place takes from its link in a run. -/
def received (place : Nat) (p : Session) (events : List Event) :
    List (Except ConnectionError Bytes) :=
  collect apply (receivedAt place) p events

/-- An event in which the operation at a place takes a step. -/
def stepsAt (place : Nat) (p : Session) : Event → List Event
  | .move q pick => if q = place ∧ (p.move q pick).isSome = true then [.move q pick] else []
  | _ => []

/-- The events of a run in which the operation at a place takes a step. -/
def steps (place : Nat) (p : Session) (events : List Event) : List Event :=
  collect apply (stepsAt place) p events

theorem steps_concat (place : Nat) (p : Session) (events : List Event) (e : Event) :
    p.steps place (events ++ [e]) = p.steps place events ++ (p.applyAll events).stepsAt place e :=
  collect_concat apply (stepsAt place) p events e

theorem received_concat (place : Nat) (p : Session) (events : List Event) (e : Event) :
    p.received place (events ++ [e])
      = p.received place events ++ (p.applyAll events).receivedAt place e :=
  collect_concat apply (receivedAt place) p events e

theorem length_stepsAt (place : Nat) (p : Session) (e : Event) :
    (p.stepsAt place e).length ≤ 1 := by
  cases e with
  | move =>
    rw [stepsAt]
    split <;> simp
  | read | write | close | dial | answer | arrive | finish | planWrites => exact Nat.zero_le 1

/-- As something happens, a read takes a step or is left as it is. -/
theorem Effect.read (h : p.Effect e p') {x : SocketRead}
    (hx : p.activities[place]? = some (.read x)) :
    (∃ pick x', e = .move place pick ∧ p'.activities[place]? = some (.read x') ∧
      SocketRead.Move place pick p.socket p.wire x p'.socket p'.wire x') ∨
    p.stepsAt place e = [] ∧ p'.activities[place]? = some (.read x) := by
  have hstill (hmove : ∀ q pick, e ≠ .move q pick) : p.stepsAt place e = [] := by
    cases e with
    | move q pick => exact absurd rfl (hmove q pick)
    | read | write | close | dial | answer | arrive | finish | planWrites => rfl
  have hset {q : Nat} {x' : SocketOpen} (b : SocketActivity)
      (hq : p.activities[q]? = some (.dial x')) :
      (p.activities.set q b)[place]? = some (.read x) := by
    rw [List.getElem?_set_ne, hx]
    rintro rfl
    cases hq.symm.trans hx
  cases h with
  | @move q pick _ he hmoved =>
    subst he
    cases hmoved with
    | step ha hmove =>
      by_cases hq : q = place
      · subst hq
        obtain rfl := Option.some.inj (ha.symm.trans hx)
        cases hmove with
        | read hread =>
          refine .inl ⟨pick, _, rfl, ?_, hread⟩
          exact List.getElem?_set_self (List.getElem?_eq_some_iff.mp hx).1
      · refine .inr ⟨if_neg fun h => hq h.1, ?_⟩
        exact (List.getElem?_set_ne hq).trans hx
    | stay hnone => exact .inr ⟨by rw [stepsAt, if_neg]; simp [hnone], hx⟩
  | gain he hq | discard he hq | fail he hq =>
    subst he
    exact .inr ⟨rfl, hset _ hq⟩
  | stay he =>
    subst he
    exact .inr ⟨rfl, hx⟩
  | begin hmove =>
    refine .inr ⟨hstill hmove, ?_⟩
    exact (List.getElem?_append_left (List.getElem?_eq_some_iff.mp hx).1).trans hx
  | occur hmove => exact .inr ⟨hstill hmove, hx⟩

/-- Where a read stands whose link was shut, if it has received nothing since. -/
inductive Freed (p : Session) (place : Nat) (r : Ref) (events : List Event) : Prop where
  | done : (p.applyAll events).activities[place]? = some (.read (.done (.error .notOpen))) →
      Freed p place r events
  /-- It has taken one step at most, and can take the next at any time. -/
  | waiting {x : SocketRead} : (p.applyAll events).activities[place]? = some (.read x) →
      x.link? = some r → ((p.applyAll events).move place 0).isSome = true →
      (p.steps place events).length ≤ 1 → Freed p place r events

/-- A read that receives nothing from its link comes nearer to its end with every step that it
takes, and its end is the error that the link is not open. -/
theorem left_add_steps {x : SocketRead} (hx : p.activities[place]? = some (.read x))
    (hr : x.link? = some r) (events : List Event) (nothing : p.received place events = []) :
    ∃ y, (p.applyAll events).activities[place]? = some (.read y) ∧
      (y = .done (.error .notOpen) ∨
        y.link? = some r ∧ y.left + (p.steps place events).length ≤ x.left) := by
  induction events using List.reverseRecOn with
  | nil => exact ⟨x, hx, .inr ⟨hr, Nat.le_refl _⟩⟩
  | append_singleton events e ih =>
    rw [received_concat] at nothing
    obtain ⟨hbefore, hlast⟩ := List.append_eq_nil_iff.mp nothing
    obtain ⟨y, hy, hstands⟩ := ih hbefore
    rw [applyAll_concat, steps_concat, List.length_append]
    have heffect := (p.applyAll events).effect_apply e
    rcases heffect.read hy with ⟨pick, z, rfl, hz, hmove⟩ | ⟨hstill, hz⟩
    · refine ⟨z, hz, ?_⟩
      rcases hstands with rfl | ⟨hlink, hleft⟩
      · exact absurd hmove (SocketRead.not_move_done _)
      -- It takes nothing here, so this step is one of those that it had left.
      · have hitem : y.item? pick (p.applyAll events).wire = none := by
          simpa [receivedAt, hy] using hlast
        refine (hmove.freed hlink hitem).imp_right fun hz => ⟨hz.1, ?_⟩
        have hone := (p.applyAll events).length_stepsAt place (.move place pick)
        have hless := hz.2
        omega
    · exact ⟨y, hz, by rwa [hstill]⟩

/-- A read whose link was shut does not wait on. -/
theorem Kept.freed (h : p.Kept) {x : SocketRead} (hx : p.activities[place]? = some (.read x))
    (hr : x.link? = some r) (hshut : (p.wire.conn r).isOpen = false) (events : List Event)
    (nothing : p.received place events = []) : p.Freed place r events := by
  obtain ⟨y, hy, rfl | ⟨hlink, hleft⟩⟩ := left_add_steps hx hr events nothing
  · exact .done hy
  · refine .waiting hy hlink ?_ ?_
    · have hshut : Socket.shut (p.applyAll events).wire r = true := by
        rw [Socket.shut, h.shut (h.waits place _ r hx hr) hshut events]
        rfl
      have hstep := SocketRead.step_isSome_of_shut hlink hshut place (p.applyAll events).socket
      rw [move, hy]
      simpa [SocketActivity.step] using hstep
    · have hbegun := (SocketRead.left_of_link? hr).2
      have hwaits := (SocketRead.left_of_link? hlink).1
      omega

/-- All that keeps the operations of different links apart. -/
structure Guards (p : Session) : Prop where
  /-- The socket is no longer open only after it was closed, or after an operation on the current
  link found it gone. -/
  falls : ∀ e : Event, p.socket.isOpen = true → (p.apply e).socket.isOpen = false → p.Falls e
  usable : ∀ r, p.socket.link = some r → (p.wire.conn r).isOpen = true
  /-- An operation takes the link that is the current one, and keeps it. -/
  begins : ∀ (e : Event) (place : Nat) (a' : SocketActivity) (r : Ref),
    (p.apply e).activities[place]? = some a' → a'.link? = some r →
    ∃ a, p.activities[place]? = some a ∧
      (a.link? = some r ∨ a.link? = none ∧ p.socket.link = some r)
  /-- Nobody waits yet at a link that the socket gets. -/
  opens : ∀ (e : Event) (r : Ref), p.socket.link ≠ some r → (p.apply e).socket.link = some r →
    ∀ (place : Nat) (a : SocketActivity), p.activities[place]? = some a → a.link? ≠ some r
  /-- The link of an operation that is not the current one never is again. -/
  gone : ∀ (place : Nat) (a : SocketActivity) (r : Ref), p.activities[place]? = some a →
    a.link? = some r → p.socket.link ≠ some r →
    ∀ events : List Event, (p.applyAll events).socket.link ≠ some r
  /-- An operation on another link leaves the current one as it is. -/
  harmless : ∀ (place pick : Nat) (a : SocketActivity) (f r : Ref),
    p.activities[place]? = some a → a.link? = some f → p.socket.link = some r → f ≠ r →
    Unharmed r p (p.apply (.move place pick))
  /-- A close takes effect at once. -/
  closes : ∀ (place pick : Nat) (r : Ref), p.activities[place]? = some (.close .called) →
    p.socket.link = some r → (p.apply (.move place pick)).socket.link = none ∧
      ((p.apply (.move place pick)).wire.conn r).isOpen = false ∧
      ∀ q, q ≠ place → (p.apply (.move place pick)).activities[q]? = p.activities[q]?
  /-- A read whose link was shut, and that receives nothing any more, does not wait on. -/
  released : ∀ (place : Nat) (x : SocketRead) (r : Ref), p.activities[place]? = some (.read x) →
    x.link? = some r → (p.wire.conn r).isOpen = false →
    ∀ events : List Event, p.received place events = [] → p.Freed place r events
  /-- To close a socket that is not open changes nothing. -/
  refused : ∀ place pick : Nat, p.activities[place]? = some (.close .called) →
    p.socket.isOpen = false → p.apply (.move place pick) =
      { p with activities := p.activities.set place (.close (.done (.error .notOpen))) }
  /-- An operation that cannot take a step is over, or something holds it up: a dial that is out,
  its turn, or that nothing has arrived. -/
  held : ∀ (place : Nat) (a : SocketActivity), p.activities[place]? = some a →
    (∀ pick, p.move place pick = none) → a.Held place p.socket p.wire
  /-- A socket that was accepted is not opened again. -/
  accepted : p.socket.dialable = false → p.socket.isOpen = false →
    ∀ events : List Event, (p.applyAll events).socket.isOpen = false

theorem link_eq_none_of_isOpen (h : p.socket.isOpen = false) : p.socket.link = none := by
  simpa [Socket.isOpen] using h

/-- The first step of a close. -/
theorem apply_close (hcalled : p.activities[place]? = some (.close .called))
    (hlink : p.socket.link = some r) : p.apply (.move place pick) =
      { socket := { p.socket with link := none, writers := p.socket.writers ++ [(r, place)] }
        wire := (p.wire.close r).2
        activities := p.activities.set place (.close (.queued r (p.wire.close r).1)) } := by
  simp [apply, move, hcalled, SocketActivity.step, SocketClose.step, hlink]

theorem apply_close_of_none (hcalled : p.activities[place]? = some (.close .called))
    (hlink : p.socket.link = none) : p.apply (.move place pick) =
      { p with activities := p.activities.set place (.close (.done (.error .notOpen))) } := by
  simp [apply, move, hcalled, SocketActivity.step, SocketClose.step, hlink]

theorem Kept.guards (h : p.Kept) : p.Guards where
  falls e := (p.effect_apply e).falls
  usable r hr := (h.usable r hr).2
  begins e _ _ _ := (p.effect_apply e).link?
  opens e r hold hnew place a ha hr := by
    have hlt := h.waits place a r ha hr
    rw [(p.effect_apply e).opens h hold hnew] at hlt
    exact Nat.lt_irrefl _ hlt
  gone place a r ha hr hlink := h.gone (h.waits place a r ha hr) hlink
  harmless _ pick _ _ _ ha hf hlink other := h.unharmed ha hf hlink other pick
  closes place pick r hcalled hlink := by
    rw [apply_close hcalled hlink]
    exact ⟨rfl, Wire.isOpen_close_of_unjoined h.unjoined (h.usable r hlink).1,
      fun q hq => List.getElem?_set_ne hq.symm⟩
  released _ _ _ hx hr hshut events := h.freed hx hr hshut events
  refused _ _ hcalled hshut := apply_close_of_none hcalled (link_eq_none_of_isOpen hshut)
  held place a ha hstuck := SocketActivity.held_of_stuck fun pick => by
    have hpick := hstuck pick
    rw [move, ha] at hpick
    exact Option.map_eq_none_iff.mp hpick
  accepted accepted hshut events := by
    rw [Socket.isOpen, h.parted accepted (link_eq_none_of_isOpen hshut) events]
    rfl

/-- Whatever happens to a socket and to its links in whatever order, the operations of different
links are kept apart. -/
theorem guards_applyAll (id : String) (accepted : Option Connection) (events : List Event) :
    ((start id accepted).applyAll events).socket.dialable = accepted.isNone ∧
      ((start id accepted).applyAll events).Guards := by
  have hkept := kept_start id accepted
  refine ⟨(hkept.dialable events).trans ?_, (hkept.applyAll events).guards⟩
  cases accepted <;> rfl

/-- A read waits while its link is closed and the socket gets another one. -/
def reopened : Session :=
  (start "conn" none).applyAll [.dial, .move 0 0, .answer 0 (.ok {}), .read, .move 1 0, .close,
    .move 2 0, .dial, .move 3 0, .answer 3 (.ok {})]

/-- It does not touch the new link, and ends with the error that its own is not open. -/
theorem guards_reopened :
    Unharmed 1 reopened (reopened.apply (.move 1 0)) ∧
    reopened.Freed 1 0 [.move 1 0, .move 1 0] ∧
    (reopened.applyAll [.move 1 0, .move 1 0]).activities[1]?
      = some (.read (.done (.error .notOpen))) := by
  obtain ⟨-, hguards⟩ := guards_applyAll "conn" none [.dial, .move 0 0, .answer 0 (.ok {}), .read,
    .move 1 0, .close, .move 2 0, .dial, .move 3 0, .answer 3 (.ok {})]
  exact ⟨hguards.harmless 1 0 (.read (.queued 0)) 0 1 rfl rfl rfl Nat.zero_ne_one,
    hguards.released 1 (.queued 0) 0 rfl rfl rfl [.move 1 0, .move 1 0] rfl, rfl⟩

end Session

end BlockFeed
