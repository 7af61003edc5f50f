import BlockFeed.Proofs.Link.Traffic
import BlockFeed.Proofs.Socket.Session

/-!
# Generations of links

A socket that is opened again has a new link; an old one never becomes the current one again, and
never opens again.

## Main definitions

* `Session.Kept`: what holds of a socket, its links and its operations at all times.
* `Session.Onward`: what never goes back in a session.
* `Session.Falls`: the ways in which a socket that is open may come to be no longer open.

## Main results

* `Session.Kept.gone`: a link that is not the current one never becomes so again.
* `Session.Kept.parted`: a socket that was accepted is not opened again.
* `Session.Effect.falls`: a socket is no longer open only in one of the named ways.

## Design notes

A link is known by its place on the wire, and a new one comes behind all that were there. So it is
enough that an operation uses only the link at which it waits.
-/

namespace BlockFeed

/-- What may happen to a connection from outside neither opens nor shuts it, unless that is what
happens. -/
theorem Wire.isOpen_undergo {o : Occurrence} (h : ∀ isOpen, o ≠ .setOpen isOpen) (w : Wire)
    (r f : Ref) : ((w.undergo r o).conn f).isOpen = (w.conn f).isOpen := by
  rw [undergo, conn_set]
  split
  · next hf =>
    rw [← hf.1]
    cases o with
    | setOpen isOpen => exact absurd rfl (h isOpen)
    | arrive | finish | planWrites | setEcho => rfl
  · rfl

/-- Only a socket that may be opened again dials. -/
theorem SocketOpen.dialable_of_step {s : Socket} {x : SocketOpen}
    (h : x.step s = some .dialing) : s.dialable = true := by
  cases x with
  | called =>
    rw [step] at h
    split at h
    · cases h
    · split at h
      · assumption
      · cases h
  | dialing | done => cases h

namespace Session

/-- What holds of a socket, its links and its operations at all times. -/
structure Kept (p : Session) : Prop where
  unjoined : p.wire.joints = []
  usable : ∀ r, p.socket.link = some r →
    r < p.wire.connections.length ∧ (p.wire.conn r).isOpen = true
  waits : ∀ (place : Nat) (a : SocketActivity) (r : Ref), p.activities[place]? = some a →
    a.link? = some r → r < p.wire.connections.length
  /-- Nobody dials for a socket that was accepted. -/
  accepted : p.socket.dialable = false →
    ∀ place : Nat, p.activities[place]? ≠ some (SocketActivity.dial .dialing)

variable {p p' : Session} {e : Event} {place pick : Nat} {r : Ref}

theorem kept_start (id : String) (accepted : Option Connection) : (start id accepted).Kept := by
  have hidle : (start id accepted).activities = [] := by cases accepted <;> rfl
  have hnobody (place : Nat) (a : SocketActivity) :
      (start id accepted).activities[place]? ≠ some a := by
    simp [hidle]
  refine ⟨by cases accepted <;> rfl, fun r hr => ?_,
    fun place a _ ha => absurd ha (hnobody place a), fun _ place => hnobody place _⟩
  cases accepted with
  | none => cases hr
  | some c =>
    obtain rfl := Option.some.inj hr
    exact ⟨Nat.one_pos, rfl⟩

/-- What never goes back in a session. -/
structure Onward (p p' : Session) : Prop where
  size : p.wire.connections.length ≤ p'.wire.connections.length
  dialable : p'.socket.dialable = p.socket.dialable
  shut : ∀ r < p.wire.connections.length, (p.wire.conn r).isOpen = false →
    (p'.wire.conn r).isOpen = false
  /-- The socket keeps its link or gives it up, or a dial gets it one that is new. -/
  link : p'.socket.link = p.socket.link ∨ p'.socket.link = none ∨
    p'.socket.link = some p.wire.connections.length ∧ p.socket.link = none ∧
      ∃ place : Nat, p.activities[place]? = some (SocketActivity.dial .dialing)

theorem onward_of_wire (size : p.wire.connections.length ≤ p'.wire.connections.length)
    (shut : ∀ r < p.wire.connections.length, (p.wire.conn r).isOpen = false →
      (p'.wire.conn r).isOpen = false) (socket : p'.socket = p.socket) : p.Onward p' :=
  ⟨size, by rw [socket], shut, .inl (by rw [socket])⟩

theorem onward_refl (p : Session) : p.Onward p :=
  onward_of_wire (Nat.le_refl _) (fun _ _ hshut => hshut) rfl

theorem conn_add_of_lt {w : Wire} (hr : r < w.connections.length) (c : Connection) :
    (w.add c).1.conn r = w.conn r := by
  rw [Wire.conn_add, if_neg (Nat.ne_of_lt hr)]

theorem Moved.onward (h : p.Moved place pick p') (kept : p.Kept) : p.Onward p' := by
  cases h with
  | step _ hmove =>
    rcases hmove.uses kept.unjoined with ⟨rfl, rfl⟩ | ⟨r, -, huses⟩
    · exact onward_of_wire (Nat.le_refl _) (fun _ _ hshut => hshut) rfl
    · exact ⟨Nat.le_of_eq huses.wire.size.symm, huses.dialable,
        fun f _ hshut => huses.wire.shut hshut, huses.link.imp_right fun hlink => .inl hlink.2⟩
  | stay => exact onward_refl p

theorem Effect.onward (h : p.Effect e p') (kept : p.Kept) : p.Onward p' := by
  cases h with
  | move _ hmoved => exact hmoved.onward kept
  | @gain place c _ hdialing hlink =>
    refine ⟨(p.wire.length_add _).symm ▸ Nat.le_succ _, rfl, fun f hf hshut => ?_,
      .inr (.inr ⟨rfl, hlink, place, hdialing⟩)⟩
    dsimp only
    rwa [conn_add_of_lt hf]
  | @discard place c =>
    have hsize := p.wire.length_add { c with isOpen := true }
    have hwanes := (p.wire.add { c with isOpen := true }).1.wanes_close p.wire.connections.length
    refine onward_of_wire ?_ (fun f hf hshut => hwanes.shut ?_) rfl
    · rw [hwanes.size, hsize]
      exact Nat.le_succ _
    · rwa [conn_add_of_lt hf]
  | fail | begin => exact onward_of_wire (Nat.le_refl _) (fun _ _ hshut => hshut) rfl
  | occur _ ho =>
    refine onward_of_wire (Nat.le_of_eq List.length_set.symm) (fun f _ hshut => ?_) rfl
    exact (p.wire.isOpen_undergo ho _ f).trans hshut
  | stay => exact onward_refl p

/-- An operation that has moved waits at a link that exists, if it waits at one. -/
theorem Kept.waits_set (h : p.Kept) {a a' : SocketActivity} {socket : Socket} {wire : Wire}
    (ha : p.activities[place]? = some a)
    (hmove : SocketActivity.Move place pick p.socket p.wire a socket wire a') {q : Nat}
    {b : SocketActivity} (hb : (p.activities.set place a')[q]? = some b) (hr : b.link? = some r) :
    r < p.wire.connections.length := by
  rcases getElem?_of_set hb with ⟨-, rfl⟩ | ⟨-, hold⟩
  · rcases hmove.link? hr with hwaited | ⟨-, hlink⟩
    · exact h.waits place a r ha hwaited
    · exact (h.usable r hlink).1
  · exact h.waits q b r hold hr

theorem Kept.accepted_set (h : p.Kept) {a a' : SocketActivity} {socket : Socket} {wire : Wire}
    (hmove : SocketActivity.Move place pick p.socket p.wire a socket wire a')
    (accepted : p.socket.dialable = false) (q : Nat) :
    (p.activities.set place a')[q]? ≠ some (.dial .dialing) := by
  intro hq
  rcases getElem?_of_set hq with ⟨-, rfl⟩ | ⟨-, hold⟩
  · cases hmove with
    | dial hstep => cases accepted.symm.trans (SocketOpen.dialable_of_step hstep)
  · exact h.accepted accepted q hold

/-- A dial that has come to an end leaves the operations as they should be. -/
theorem Kept.set_done (h : p.Kept) (place : Nat) (result : Except ConnectionError Unit) :
    (∀ (q : Nat) (b : SocketActivity) (r : Ref),
      (p.activities.set place (.dial (.done result)))[q]? = some b → b.link? = some r →
      r < p.wire.connections.length) ∧
    (p.socket.dialable = false → ∀ q : Nat,
      (p.activities.set place (.dial (.done result)))[q]? ≠ some (.dial .dialing)) := by
  constructor
  · intro q b r hb hr
    rcases getElem?_of_set hb with ⟨-, rfl⟩ | ⟨-, hold⟩
    · cases hr
    · exact h.waits q b r hold hr
  · intro accepted q hq
    rcases getElem?_of_set hq with ⟨-, heq⟩ | ⟨-, hold⟩
    · cases heq
    · exact h.accepted accepted q hold

/-- Whoever is there was there before, or has just begun. -/
theorem activity_begin {a b : SocketActivity} {q : Nat}
    (h : (p.begin a).activities[q]? = some b) : p.activities[q]? = some b ∨ b = a := by
  rw [begin] at h
  rcases Nat.lt_or_ge q p.activities.length with hlt | hge
  · rw [List.getElem?_append_left hlt] at h
    exact .inl h
  · rw [List.getElem?_append_right hge] at h
    exact .inr (List.mem_singleton.mp (List.mem_of_getElem? h))

theorem Moved.kept (h : p.Moved place pick p') (kept : p.Kept) : p'.Kept := by
  cases h with
  | step ha hmove =>
    rcases hmove.uses kept.unjoined with ⟨rfl, rfl⟩ | ⟨r, -, huses⟩
    · exact ⟨kept.unjoined, kept.usable, fun _ _ _ => kept.waits_set ha hmove,
        kept.accepted_set hmove⟩
    · refine ⟨huses.wire.joints.trans kept.unjoined, fun q hq => ?_, fun _ _ _ hb hr => ?_,
        fun accepted => kept.accepted_set hmove (huses.dialable.symm.trans accepted)⟩
      · rcases huses.link with hsame | ⟨-, hnone⟩
        · obtain ⟨hlt, hopen⟩ := kept.usable q (hsame.symm.trans hq)
          refine ⟨huses.wire.size.symm ▸ hlt, ?_⟩
          dsimp only
          -- The operation may have used the current link itself, but then left it open.
          by_cases hr : q = r
          · subst hr
            exact (huses.usable hq).trans hopen
          · rwa [huses.wire.others q hr]
        · cases hnone.symm.trans hq
      · exact huses.wire.size.symm ▸ kept.waits_set ha hmove hb hr
  | stay => exact kept

theorem Effect.kept (h : p.Effect e p') (kept : p.Kept) : p'.Kept := by
  cases h with
  | move _ hmoved => exact hmoved.kept kept
  | @gain place c _ hdialing hlink =>
    obtain ⟨hwaits, haccepted⟩ := kept.set_done place (.ok ())
    have hsize := p.wire.length_add { c with isOpen := true }
    refine ⟨kept.unjoined, fun r hr => ?_, fun q b r hb hr => ?_, haccepted⟩
    · obtain rfl := Option.some.inj hr
      refine ⟨by rw [hsize]; exact Nat.lt_succ_self _, ?_⟩
      dsimp only
      rw [Wire.conn_add, if_pos rfl]
    · rw [hsize]
      exact Nat.lt_succ_of_lt (hwaits q b r hb hr)
  -- The link that is closed is the new one, behind the current one.
  | @discard place c _ hdialing hopen =>
    obtain ⟨hwaits, haccepted⟩ := kept.set_done place (.error .alreadyOpen)
    have hconfined := Wire.confined_close (w := (p.wire.add { c with isOpen := true }).1)
      kept.unjoined p.wire.connections.length
    have hsize := hconfined.size.trans (p.wire.length_add { c with isOpen := true })
    refine ⟨hconfined.joints.trans kept.unjoined, fun r hr => ?_, fun q b r hb hr => ?_,
      haccepted⟩
    · obtain ⟨hlt, hopen⟩ := kept.usable r hr
      refine ⟨by rw [hsize]; exact Nat.lt_succ_of_lt hlt, ?_⟩
      dsimp only
      rwa [hconfined.others r (Nat.ne_of_lt hlt), conn_add_of_lt hlt]
    · rw [hsize]
      exact Nat.lt_succ_of_lt (hwaits q b r hb hr)
  | @fail place error =>
    obtain ⟨hwaits, haccepted⟩ := kept.set_done place (.error error)
    exact ⟨kept.unjoined, kept.usable, hwaits, haccepted⟩
  | @begin a _ hnone hdialing =>
    refine ⟨kept.unjoined, kept.usable, fun q b r hb hr => ?_, fun accepted q hq => ?_⟩
    · rcases activity_begin hb with hold | rfl
      · exact kept.waits q b r hold hr
      · cases hnone.symm.trans hr
    · rcases activity_begin hq with hold | heq
      · exact kept.accepted accepted q hold
      · exact hdialing heq.symm
  | occur _ ho =>
    have hsize := fun r o => (List.length_set : (p.wire.undergo r o).connections.length = _)
    refine ⟨kept.unjoined, fun r hr => ?_, fun q b r hb hr => ?_, kept.accepted⟩
    · obtain ⟨hlt, hopen⟩ := kept.usable r hr
      exact ⟨hsize _ _ ▸ hlt, (p.wire.isOpen_undergo ho _ r).trans hopen⟩
    · exact hsize _ _ ▸ kept.waits q b r hb hr
  | stay => exact kept

theorem Kept.applyAll (h : p.Kept) (events : List Event) : (p.applyAll events).Kept := by
  induction events generalizing p with
  | nil => exact h
  | cons e rest ih => exact ih ((p.effect_apply e).kept h)

/-- What is preserved as a session goes on is preserved in a run. -/
theorem Kept.preserves {motive : Session → Prop} (h : p.Kept)
    (step : ∀ q q' : Session, q.Kept → q.Onward q' → motive q → motive q') (hp : motive p)
    (events : List Event) : motive (p.applyAll events) := by
  induction events generalizing p with
  | nil => exact hp
  | cons e rest ih =>
    have heffect := p.effect_apply e
    exact ih (heffect.kept h) (step p _ h (heffect.onward h) hp)

theorem Kept.dialable (h : p.Kept) (events : List Event) :
    (p.applyAll events).socket.dialable = p.socket.dialable :=
  h.preserves (motive := fun q => q.socket.dialable = p.socket.dialable)
    (fun _ _ _ honward hsame => honward.dialable.trans hsame) rfl events

/-- A link that is not the current one never becomes so again. -/
theorem Kept.gone (h : p.Kept) (hr : r < p.wire.connections.length) (hlink : p.socket.link ≠ some r)
    (events : List Event) : (p.applyAll events).socket.link ≠ some r := by
  refine (h.preserves (motive := fun q => r < q.wire.connections.length ∧ q.socket.link ≠ some r)
    (fun q q' _ honward hq => ?_) ⟨hr, hlink⟩ events).2
  refine ⟨Nat.lt_of_lt_of_le hq.1 honward.size, ?_⟩
  rcases honward.link with hsame | hnone | ⟨hnew, -⟩
  · exact hsame ▸ hq.2
  · rw [hnone]
    nofun
  · rw [hnew]
    exact fun heq => Nat.ne_of_gt hq.1 (Option.some.inj heq)

/-- A link that was shut stays so. -/
theorem Kept.shut (h : p.Kept) (hr : r < p.wire.connections.length)
    (hshut : (p.wire.conn r).isOpen = false) (events : List Event) :
    ((p.applyAll events).wire.conn r).isOpen = false :=
  (h.preserves
    (motive := fun q => r < q.wire.connections.length ∧ (q.wire.conn r).isOpen = false)
    (fun _ _ _ honward hq => ⟨Nat.lt_of_lt_of_le hq.1 honward.size, honward.shut r hq.1 hq.2⟩)
    ⟨hr, hshut⟩ events).2

/-- A socket that was accepted and is not open is not opened again. -/
theorem Kept.parted (h : p.Kept) (accepted : p.socket.dialable = false)
    (hlink : p.socket.link = none) (events : List Event) :
    (p.applyAll events).socket.link = none := by
  refine (h.preserves (motive := fun q => q.socket.dialable = false ∧ q.socket.link = none)
    (fun q q' hkept honward hq => ?_) ⟨accepted, hlink⟩ events).2
  refine ⟨honward.dialable.trans hq.1, ?_⟩
  rcases honward.link with hsame | hnone | ⟨-, -, place, hdialing⟩
  · exact hsame.trans hq.2
  · exact hnone
  · exact absurd hdialing (hkept.accepted hq.1 place)

/-- An operation waits at the link that was the current one when it began to wait. -/
theorem Effect.link? (h : p.Effect e p') {a' : SocketActivity}
    (ha : p'.activities[place]? = some a') (hr : a'.link? = some r) :
    ∃ a, p.activities[place]? = some a ∧
      (a.link? = some r ∨ a.link? = none ∧ p.socket.link = some r) := by
  have hold {b : SocketActivity} {q : Nat} (hb : (p.activities.set q b)[place]? = some a')
      (hnone : b.link? = none) : ∃ a, p.activities[place]? = some a ∧
        (a.link? = some r ∨ a.link? = none ∧ p.socket.link = some r) := by
    rcases getElem?_of_set hb with ⟨-, rfl⟩ | ⟨-, hold⟩
    · cases hnone.symm.trans hr
    · exact ⟨a', hold, .inl hr⟩
  cases h with
  | move _ hmoved =>
    cases hmoved with
    | @step a b _ _ hq hmove =>
      rcases getElem?_of_set ha with ⟨rfl, rfl⟩ | ⟨-, hold⟩
      · exact ⟨a, hq, hmove.link? hr⟩
      · exact ⟨a', hold, .inl hr⟩
    | stay => exact ⟨a', ha, .inl hr⟩
  | gain | discard | fail => exact hold ha rfl
  | begin _ hnone =>
    rcases activity_begin ha with hold | rfl
    · exact ⟨a', hold, .inl hr⟩
    · cases hnone.symm.trans hr
  | occur | stay => exact ⟨a', ha, .inl hr⟩

/-- Only a dial gets the socket a link, and it is one that is new. -/
theorem Effect.opens (h : p.Effect e p') (kept : p.Kept) (hold : p.socket.link ≠ some r)
    (hnew : p'.socket.link = some r) : r = p.wire.connections.length := by
  rcases (h.onward kept).link with hsame | hnone | ⟨hlink, -⟩
  · exact absurd (hsame.symm.trans hnew) hold
  · cases hnone.symm.trans hnew
  · exact Option.some.inj (hnew.symm.trans hlink)

/-- The ways in which a socket that is open may come to be no longer open. -/
inductive Falls (p : Session) : Event → Prop where
  /-- It is closed. -/
  | close {place pick : Nat} : p.activities[place]? = some (.close .called) →
      Falls p (.move place pick)
  /-- A read that waits at the current link finds it gone. -/
  | read {place pick : Nat} {x : SocketRead} {r : Ref} {error : ConnectionError} :
      p.activities[place]? = some (.read x) → x.link? = some r → p.socket.link = some r →
      x.item? pick p.wire = some (.error error) → error.isClosed = true →
      Falls p (.move place pick)
  /-- A write that waits at the current link finds it gone. -/
  | write {place pick : Nat} {bytes : Bytes} {x : SocketWrite} {r : Ref}
      {error : ConnectionError} :
      p.activities[place]? = some (.write bytes x) → x.link? = some r → p.socket.link = some r →
      x.answer? bytes p.wire = some (.error error) → error.isClosed = true →
      Falls p (.move place pick)

theorem Moved.falls (h : p.Moved place pick p') (hopen : p.socket.isOpen = true)
    (hshut : p'.socket.isOpen = false) : p.Falls (.move place pick) := by
  cases h with
  | step ha hmove =>
    cases hmove with
    | read hmove =>
      obtain ⟨r, error, hlink, rfl, hitem, hclosed⟩ := hmove.falls hopen hshut
      exact .read ha rfl hlink hitem hclosed
    | write hmove =>
      obtain ⟨r, error, hlink, rfl, hanswer, hclosed⟩ := hmove.falls hopen hshut
      exact .write ha rfl hlink hanswer hclosed
    | close hmove =>
      cases hmove with
      | miss | conclude => cases hopen.symm.trans hshut
      | shut => exact .close ha
    | dial => cases hopen.symm.trans hshut
  | stay => cases hopen.symm.trans hshut

theorem Effect.falls (h : p.Effect e p') (hopen : p.socket.isOpen = true)
    (hshut : p'.socket.isOpen = false) : p.Falls e := by
  cases h with
  | move he hmoved => exact he ▸ hmoved.falls hopen hshut
  | gain => cases hshut
  | discard | fail | begin | occur | stay => cases hopen.symm.trans hshut

end Session

end BlockFeed
