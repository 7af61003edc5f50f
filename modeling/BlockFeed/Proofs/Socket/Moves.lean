import BlockFeed.Link.Socket
import BlockFeed.Proofs.Link.Usage

/-!
# Moves of the operations of a socket

Everything that one step of a read, a write or a close of a socket can do, and to which link it
does so.

## Main definitions

* `Wire.Confined`: at most the connection at one place has changed, and it has not opened.
* `Socket.Uses`: what an operation on a link leaves of a socket.
* `SocketRead.Move`, `SocketWrite.Move`, `SocketClose.Move`: what a step of an operation does.

## Main results

* `SocketRead.Move.uses`, `SocketWrite.Move.uses`, `SocketClose.Move.uses`: it uses its own link.

## Design notes

The other ends of links are not on the wire here: what they do is whatever arrives.
-/

namespace BlockFeed

/-- An operation that does not find the connection gone leaves it open if it was. -/
theorem Connection.isOpen_next {c c' : Connection} {result : Except ConnectionError Bytes}
    (h : c.next? = some (result, c'))
    (stays : ∀ e, result = .error e → e.isClosed = false) : c'.isOpen = c.isOpen := by
  rw [next?] at h
  split at h
  · obtain ⟨-, rfl⟩ := Prod.mk.inj (Option.some.inj h)
    rfl
  · obtain ⟨rfl, rfl⟩ := Prod.mk.inj (Option.some.inj h)
    rw [afterError, stays _ rfl, Bool.and_false]
    rfl
  · split at h
    · obtain ⟨rfl, -⟩ := Prod.mk.inj (Option.some.inj h)
      cases stays _ rfl
    · cases h

theorem Connection.isOpen_send {c c' : Connection} {bytes : Bytes}
    {result : Except ConnectionError Unit} (h : c.send bytes = (result, c'))
    (stays : ∀ e, result = .error e → e.isClosed = false) : c'.isOpen = c.isOpen := by
  rw [send] at h
  split at h
  · obtain ⟨rfl, rfl⟩ := Prod.mk.inj h
    rw [afterError, stays _ rfl, Bool.and_false]
    rfl
  · obtain ⟨-, rfl⟩ := Prod.mk.inj h
    rfl

namespace Wire

/-- At most the connection at a place has changed, and it has not opened. -/
structure Confined (r : Ref) (w w' : Wire) : Prop extends w.Wanes w' where
  joints : w'.joints = w.joints
  others : ∀ f, f ≠ r → w'.conn f = w.conn f

variable {w w' w'' : Wire} {r : Ref} {c : Connection}

theorem Confined.refl (r : Ref) (w : Wire) : w.Confined r w := ⟨.refl w, rfl, fun _ _ => rfl⟩

theorem Confined.trans (h : w.Confined r w') (h' : w'.Confined r w'') : w.Confined r w'' :=
  ⟨h.toWanes.trans h'.toWanes, h'.joints.trans h.joints,
    fun f hf => (h'.others f hf).trans (h.others f hf)⟩

theorem confined_set (hid : c.id = (w.conn r).id)
    (hopen : c.isOpen = true → (w.conn r).isOpen = true) : w.Confined r (w.set r c) where
  size := List.length_set
  id := by
    intro f
    rw [conn_set]
    split
    · next hf => exact hf.1 ▸ hid
    · rfl
  isOpen := by
    intro f
    rw [conn_set]
    split
    · next hf => exact hf.1 ▸ hopen
    · exact id
  joints := rfl
  others := by
    intro f hf
    rw [conn_set, if_neg fun h => hf h.1.symm]

theorem conn_set_self (hr : r < w.connections.length) (c : Connection) :
    (w.set r c).conn r = c := by
  rw [conn_set, if_pos ⟨rfl, hr⟩]

/-- Where no link has another end, nobody is told of a write or a close. -/
theorem afterWrite_of_unjoined (h : w.joints = []) (r : Ref) (bytes : Bytes)
    (result : Except ConnectionError Unit) (c : Connection) :
    w.afterWrite r bytes (result, c) = (result, w.set r c) := by
  cases result with
  | error e => rfl
  | ok =>
    have hpeer : (w.set r c).peer? r = none := by
      rw [peer?, set, h]
      rfl
    rw [afterWrite, carry, hpeer]

theorem close_of_unjoined (h : w.joints = []) (r : Ref) :
    (w.close r).2 = w.set r (w.conn r).close.2 := by
  have hpeer : (w.set r (w.conn r).close.2).peer? r = none := by
    rw [peer?, set, h]
    rfl
  rw [close]
  dsimp only
  split
  · rw [hangUp, hpeer]
  · rfl

theorem isOpen_close_of_unjoined (h : w.joints = []) (hr : r < w.connections.length) :
    ((w.close r).2.conn r).isOpen = false := by
  rw [close_of_unjoined h, conn_set_self hr, Connection.close]
  split
  · rfl
  · next hopen => exact Bool.eq_false_iff.mpr hopen

theorem confined_close (h : w.joints = []) (r : Ref) : w.Confined r (w.close r).2 := by
  have hwanes := w.wanes_close r
  rw [close_of_unjoined h] at hwanes ⊢
  refine ⟨hwanes, rfl, fun f hf => ?_⟩
  rw [conn_set, if_neg fun heq => hf heq.1.symm]

end Wire

namespace Socket

/-- Those who wait at a link in a line, in their order. -/
def waitingAt (line : List (Ref × Nat)) (r : Ref) : List (Ref × Nat) :=
  line.filter fun k => k.1 == r

/-- What an operation on a link leaves of a socket. -/
structure Uses (r : Ref) (s : Socket) (w : Wire) (s' : Socket) (w' : Wire) : Prop where
  dialable : s'.dialable = s.dialable
  wire : w.Confined r w'
  /-- It takes no link away from the socket but its own. -/
  link : s'.link = s.link ∨ s.link = some r ∧ s'.link = none
  /-- As long as the socket has it, it stays as open as it was. -/
  usable : s'.link = some r → (w'.conn r).isOpen = (w.conn r).isOpen
  /-- Nobody's place at another link changes. -/
  readers : ∀ f, f ≠ r → waitingAt s'.readers f = waitingAt s.readers f
  writers : ∀ f, f ≠ r → waitingAt s'.writers f = waitingAt s.writers f

variable {r f : Ref} {s : Socket} {w : Wire} {line : List (Ref × Nat)} {me : Nat}

theorem waitingAt_join (h : f ≠ r) (line : List (Ref × Nat)) (me : Nat) :
    waitingAt (line ++ [(r, me)]) f = waitingAt line f := by
  rw [waitingAt, List.filter_append, List.filter_cons_of_neg (by simpa using h.symm),
    List.filter_nil, List.append_nil, waitingAt]

theorem waitingAt_leave (h : f ≠ r) (line : List (Ref × Nat)) (me : Nat) :
    waitingAt (leave line r me) f = waitingAt line f := by
  rw [leave, waitingAt, waitingAt]
  induction line with
  | nil => rfl
  | cons k rest ih =>
    rw [List.erase_cons]
    split
    · next hk =>
      obtain rfl := eq_of_beq hk
      rw [List.filter_cons_of_neg (by simpa using h.symm)]
    · rw [List.filter_cons, List.filter_cons, ih]

theorem link_detach (s : Socket) (r : Ref) : (s.detach r).link ≠ some r ∧
    ((s.detach r).link = s.link ∨ s.link = some r ∧ (s.detach r).link = none) := by
  rw [detach]
  split
  · next hlink => exact ⟨nofun, .inr ⟨hlink, rfl⟩⟩
  · next hlink => exact ⟨hlink, .inl rfl⟩

/-- All but the link stays as it is. -/
theorem detach_eq (s : Socket) (r : Ref) : s.detach r = { s with link := (s.detach r).link } := by
  rw [detach]
  split <;> rfl

theorem Uses.refl (r : Ref) (s : Socket) (w : Wire) : s.Uses r w s w :=
  ⟨rfl, .refl r w, .inl rfl, fun _ => rfl, fun _ _ => rfl, fun _ _ => rfl⟩

section

variable {s' : Socket} {w' : Wire}

theorem Uses.leaveReaders (h : s.Uses r w s' w') (me : Nat) :
    s.Uses r w { s' with readers := leave s'.readers r me } w' :=
  { h with readers := fun f hf => (waitingAt_leave hf s'.readers me).trans (h.readers f hf) }

theorem Uses.leaveWriters (h : s.Uses r w s' w') (me : Nat) :
    s.Uses r w { s' with writers := leave s'.writers r me } w' :=
  { h with writers := fun f hf => (waitingAt_leave hf s'.writers me).trans (h.writers f hf) }

variable {c : Connection}

theorem uses_set (s : Socket) (used : (w.conn r).Used c)
    (hopen : c.isOpen = (w.conn r).isOpen) : s.Uses r w s (w.set r c) := by
  refine { Uses.refl r s w with
    wire := Wire.confined_set used.id used.isOpen
    usable := fun _ => ?_ }
  rw [Wire.conn_set]
  split
  · exact hopen
  · rfl

/-- An error that tells that the link is gone shuts the link, and takes it away if the socket has
it. -/
theorem uses_of_error {e : ConnectionError} (used : (w.conn r).Used c)
    (stays : e.isClosed = false → c.isOpen = (w.conn r).isOpen)
    (h : s.afterError (w.set r c) r e = (s', w')) : s.Uses r w s' w' := by
  rw [afterError] at h
  split at h
  · obtain ⟨rfl, rfl⟩ := Prod.mk.inj h
    obtain ⟨hgone, hlink⟩ := s.link_detach r
    have hwire : w.Confined r (w.set r c) := Wire.confined_set used.id used.isOpen
    rw [detach_eq]
    refine ⟨rfl, hwire.trans (Wire.confined_set rfl nofun), hlink, fun hsame => ?_,
      fun _ _ => rfl, fun _ _ => rfl⟩
    exact absurd hsame hgone
  · next hclosed =>
    obtain ⟨rfl, rfl⟩ := Prod.mk.inj h
    exact uses_set s used (stays (by simpa using hclosed))

/-- An operation that takes the current link away has found it gone. -/
theorem closed_of_afterError {e : ConnectionError} (h : s.afterError w r e = (s', w'))
    (hopen : s.isOpen = true) (hshut : s'.isOpen = false) :
    s.link = some r ∧ e.isClosed = true := by
  rw [afterError] at h
  split at h
  · next hclosed =>
    obtain ⟨rfl, -⟩ := Prod.mk.inj h
    obtain ⟨-, hsame | ⟨hlink, -⟩⟩ := s.link_detach r
    · rw [isOpen] at hopen hshut
      rw [hsame, hopen] at hshut
      cases hshut
    · exact ⟨hlink, hclosed⟩
  · obtain ⟨rfl, -⟩ := Prod.mk.inj h
    cases hopen.symm.trans hshut

end

end Socket

namespace SocketRead

/-- The link of a read that waits for something. -/
def link? : SocketRead → Option Ref
  | queued r | reading r => some r
  | called | done _ => none

/-- What the next step of a read takes from its link, if it takes something: a message, an error or
the end. -/
def item? (pick : Nat) (w : Wire) : SocketRead → Option (Except ConnectionError Bytes)
  | reading r => if Socket.shut w r && pick = 0 then none else (w.conn r).next?.map Prod.fst
  | called | queued _ | done _ => none

/-- What a step of the read `me` does. -/
inductive Move (me pick : Nat) (s : Socket) (w : Wire) :
    SocketRead → Socket → Wire → SocketRead → Prop where
  /-- There is no link. -/
  | miss : s.link = none → Move me pick s w .called s w (.done (.error .notOpen))
  | queue {r : Ref} : s.link = some r →
      Move me pick s w .called { s with readers := s.readers ++ [(r, me)] } w (.queued r)
  | begin {r : Ref} : Move me pick s w (.queued r) s w (.reading r)
  /-- The link was shut. -/
  | release {x : SocketRead} {r : Ref} : x.link? = some r → x.item? pick w = none →
      Socket.shut w r = true →
      Move me pick s w x { s with readers := Socket.leave s.readers r me } w
        (.done (.error .notOpen))
  | receive {r : Ref} {bytes : Bytes} {c : Connection} :
      (w.conn r).next? = some (.ok bytes, c) → item? pick w (.reading r) = some (.ok bytes) →
      Move me pick s w (.reading r) { s with readers := Socket.leave s.readers r me }
        (w.set r c) (.done (.ok bytes))
  | fail {r : Ref} {e : ConnectionError} {c : Connection} {s' : Socket} {w' : Wire} :
      (w.conn r).next? = some (.error e, c) → item? pick w (.reading r) = some (.error e) →
      s.afterError (w.set r c) r e = (s', w') →
      Move me pick s w (.reading r) { s' with readers := Socket.leave s'.readers r me } w'
        (.done (.error e))

variable {me pick : Nat} {s s' : Socket} {w w' : Wire} {x x' : SocketRead}

theorem move_of_step (h : x.step me pick s w = some (s', w', x')) :
    Move me pick s w x s' w' x' := by
  cases x with
  | called =>
    rw [step] at h
    split at h
    · next hlink =>
      obtain ⟨rfl, rfl, rfl⟩ := Option.some.inj h
      exact .miss hlink
    · next r hlink =>
      obtain ⟨rfl, rfl, rfl⟩ := Option.some.inj h
      exact .queue hlink
  | queued r =>
    rw [step] at h
    split at h
    · obtain ⟨rfl, rfl, rfl⟩ := Option.some.inj h
      exact .begin
    split at h
    · next hshut =>
      obtain ⟨rfl, rfl, rfl⟩ := Option.some.inj h
      exact .release rfl rfl hshut
    · cases h
  | reading r =>
    rw [step] at h
    split at h
    · next hshut =>
      obtain ⟨rfl, rfl, rfl⟩ := Option.some.inj h
      exact .release rfl (if_pos hshut) (Bool.and_eq_true_iff.mp hshut).1
    · next hshut =>
      obtain ⟨⟨result, c⟩, hnext, hreceive⟩ := Option.map_eq_some_iff.mp h
      have hitem : item? pick w (.reading r) = some result := by
        rw [item?, if_neg hshut, hnext]
        rfl
      cases result with
      | ok bytes =>
        obtain ⟨rfl, rfl, rfl⟩ := hreceive
        exact .receive hnext hitem
      | error e =>
        obtain ⟨rfl, rfl, rfl⟩ := hreceive
        exact .fail hnext hitem rfl
  | done => cases h

/-- A read leaves everything as it is, or uses the link that it waits at. -/
theorem Move.uses (h : Move me pick s w x s' w' x') : (s' = s ∧ w' = w) ∨
    ∃ r, (x.link? = some r ∨ x'.link? = some r) ∧ s.Uses r w s' w' := by
  cases h with
  | miss | begin => exact .inl ⟨rfl, rfl⟩
  | @queue r hlink =>
    exact .inr ⟨r, .inr rfl, { Socket.Uses.refl r s w with
      readers := fun f hf => Socket.waitingAt_join hf s.readers me }⟩
  | @release _ r hr => exact .inr ⟨r, .inl hr, (Socket.Uses.refl r s w).leaveReaders me⟩
  | @receive r bytes c hnext =>
    have hopen := Connection.isOpen_next hnext nofun
    exact .inr ⟨r, .inl rfl,
      (Socket.uses_set s (Connection.used_next hnext) hopen).leaveReaders me⟩
  | @fail r e c _ _ hnext _ hafter =>
    have hstays (hclosed : e.isClosed = false) : c.isOpen = (w.conn r).isOpen :=
      Connection.isOpen_next hnext fun _ he => Except.error.inj he ▸ hclosed
    exact .inr ⟨r, .inl rfl,
      (Socket.uses_of_error (Connection.used_next hnext) hstays hafter).leaveReaders me⟩

/-- A read waits at the link that was the current one when it began. -/
theorem Move.link? (h : Move me pick s w x s' w' x') {r : Ref} (hr : x'.link? = some r) :
    x.link? = some r ∨ x.link? = none ∧ s.link = some r := by
  cases h with
  | miss | release | receive | fail => cases hr
  | queue hlink => exact .inr ⟨rfl, hlink.trans hr⟩
  | begin => exact .inl hr

/-- Only a read that finds the current link gone takes it away. -/
theorem Move.falls (h : Move me pick s w x s' w' x') (hopen : s.isOpen = true)
    (hshut : s'.isOpen = false) : ∃ r e, s.link = some r ∧ x = .reading r ∧
      x.item? pick w = some (.error e) ∧ e.isClosed = true := by
  cases h with
  | miss | queue | begin | release | receive => cases hopen.symm.trans hshut
  | @fail r e _ _ _ _ hitem hafter =>
    obtain ⟨hlink, hclosed⟩ := Socket.closed_of_afterError hafter hopen hshut
    exact ⟨r, e, hlink, rfl, hitem, hclosed⟩

end SocketRead

namespace SocketWrite

/-- The link of a write that waits for something. -/
def link? : SocketWrite → Option Ref
  | queued r | writing r => some r
  | called | done _ => none

/-- What the next step of a write is told by its link, if it writes. -/
def answer? (bytes : Bytes) (w : Wire) : SocketWrite → Option (Except ConnectionError Unit)
  | writing r => some ((w.conn r).send bytes).1
  | called | queued _ | done _ => none

/-- What a step of the write `me` does. -/
inductive Move (me : Nat) (bytes : Bytes) (s : Socket) (w : Wire) :
    SocketWrite → Socket → Wire → SocketWrite → Prop where
  /-- There is no link. -/
  | miss : s.link = none → Move me bytes s w .called s w (.done (.error .notOpen))
  | queue {r : Ref} : s.link = some r →
      Move me bytes s w .called { s with writers := s.writers ++ [(r, me)] } w (.queued r)
  | begin {r : Ref} : Move me bytes s w (.queued r) s w (.writing r)
  /-- The link was shut. -/
  | refuse {r : Ref} : Socket.shut w r = true →
      Move me bytes s w (.queued r) { s with writers := Socket.leave s.writers r me } w
        (.done (.error .notOpen))
  | accept {r : Ref} {c : Connection} {w' : Wire} : (w.conn r).send bytes = (.ok (), c) →
      w.afterWrite r bytes (.ok (), c) = (.ok (), w') →
      Move me bytes s w (.writing r) { s with writers := Socket.leave s.writers r me } w'
        (.done (.ok ()))
  | fail {r : Ref} {e : ConnectionError} {c : Connection} {s' : Socket} {w' : Wire} :
      (w.conn r).send bytes = (.error e, c) → s.afterError (w.set r c) r e = (s', w') →
      Move me bytes s w (.writing r) { s' with writers := Socket.leave s'.writers r me } w'
        (.done (.error e))

variable {me : Nat} {bytes : Bytes} {s s' : Socket} {w w' : Wire} {x x' : SocketWrite}

theorem move_of_step (h : x.step me bytes s w = some (s', w', x')) :
    Move me bytes s w x s' w' x' := by
  cases x with
  | called =>
    rw [step] at h
    split at h
    · next hlink =>
      obtain ⟨rfl, rfl, rfl⟩ := Option.some.inj h
      exact .miss hlink
    · next r hlink =>
      obtain ⟨rfl, rfl, rfl⟩ := Option.some.inj h
      exact .queue hlink
  | queued r =>
    rw [step] at h
    split at h
    · split at h
      · next hshut =>
        obtain ⟨rfl, rfl, rfl⟩ := Option.some.inj h
        exact .refuse hshut
      · obtain ⟨rfl, rfl, rfl⟩ := Option.some.inj h
        exact .begin
    · cases h
  | writing r =>
    rw [step] at h
    cases hsend : (w.conn r).send bytes with
    | mk result c =>
      rw [hsend] at h
      cases result with
      | ok u =>
        obtain ⟨rfl, rfl, rfl⟩ := Option.some.inj h
        exact .accept hsend rfl
      | error e =>
        obtain ⟨rfl, rfl, rfl⟩ := Option.some.inj h
        exact .fail hsend rfl
  | done => cases h

/-- A write leaves everything as it is, or uses the link that it waits at. -/
theorem Move.uses (h : Move me bytes s w x s' w' x') (unjoined : w.joints = []) :
    (s' = s ∧ w' = w) ∨
      ∃ r, (x.link? = some r ∨ x'.link? = some r) ∧ s.Uses r w s' w' := by
  cases h with
  | miss | begin => exact .inl ⟨rfl, rfl⟩
  | @queue r hlink =>
    exact .inr ⟨r, .inr rfl, { Socket.Uses.refl r s w with
      writers := fun f hf => Socket.waitingAt_join hf s.writers me }⟩
  | @refuse r => exact .inr ⟨r, .inl rfl, (Socket.Uses.refl r s w).leaveWriters me⟩
  | @accept r c _ hsend hafter =>
    rw [Wire.afterWrite_of_unjoined unjoined] at hafter
    obtain ⟨-, rfl⟩ := Prod.mk.inj hafter
    have hopen := Connection.isOpen_send hsend nofun
    exact .inr ⟨r, .inl rfl,
      (Socket.uses_set s (Connection.used_send hsend) hopen).leaveWriters me⟩
  | @fail r e c _ _ hsend hafter =>
    have hstays (hclosed : e.isClosed = false) : c.isOpen = (w.conn r).isOpen :=
      Connection.isOpen_send hsend fun _ he => Except.error.inj he ▸ hclosed
    exact .inr ⟨r, .inl rfl,
      (Socket.uses_of_error (Connection.used_send hsend) hstays hafter).leaveWriters me⟩

/-- A write waits at the link that was the current one when it began. -/
theorem Move.link? (h : Move me bytes s w x s' w' x') {r : Ref} (hr : x'.link? = some r) :
    x.link? = some r ∨ x.link? = none ∧ s.link = some r := by
  cases h with
  | miss | refuse | accept | fail => cases hr
  | queue hlink => exact .inr ⟨rfl, hlink.trans hr⟩
  | begin => exact .inl hr

/-- Only a write that finds the current link gone takes it away. -/
theorem Move.falls (h : Move me bytes s w x s' w' x') (hopen : s.isOpen = true)
    (hshut : s'.isOpen = false) : ∃ r e, s.link = some r ∧ x = .writing r ∧
      x.answer? bytes w = some (.error e) ∧ e.isClosed = true := by
  cases h with
  | miss | queue | begin | refuse | accept => cases hopen.symm.trans hshut
  | @fail r e _ _ _ hsend hafter =>
    obtain ⟨hlink, hclosed⟩ := Socket.closed_of_afterError hafter hopen hshut
    exact ⟨r, e, hlink, rfl, by rw [answer?, hsend], hclosed⟩

end SocketWrite

namespace SocketClose

/-- The link of a close that waits for its turn. -/
def link? : SocketClose → Option Ref
  | queued r _ => some r
  | called | done _ => none

/-- What a step of the close `me` does. -/
inductive Move (me : Nat) (s : Socket) (w : Wire) :
    SocketClose → Socket → Wire → SocketClose → Prop where
  /-- There is no link. -/
  | miss : s.link = none → Move me s w .called s w (.done (.error .notOpen))
  /-- It takes the link away, and shuts it. -/
  | shut {r : Ref} : s.link = some r →
      Move me s w .called { s with link := none, writers := s.writers ++ [(r, me)] }
        (w.close r).2 (.queued r (w.close r).1)
  | conclude {r : Ref} {outcome : Except ConnectionError Unit} :
      Move me s w (.queued r outcome) { s with writers := Socket.leave s.writers r me } w
        (.done (verdict outcome))

variable {me : Nat} {s s' : Socket} {w w' : Wire} {x x' : SocketClose}

theorem move_of_step (h : x.step me s w = some (s', w', x')) : Move me s w x s' w' x' := by
  cases x with
  | called =>
    rw [step] at h
    split at h
    · next hlink =>
      obtain ⟨rfl, rfl, rfl⟩ := Option.some.inj h
      exact .miss hlink
    · next r hlink =>
      obtain ⟨rfl, rfl, rfl⟩ := Option.some.inj h
      exact .shut hlink
  | queued r outcome =>
    rw [step] at h
    split at h
    · obtain ⟨rfl, rfl, rfl⟩ := Option.some.inj h
      exact .conclude
    · cases h
  | done => cases h

/-- A close leaves everything as it is, or uses the link that it takes away. -/
theorem Move.uses (h : Move me s w x s' w' x') (unjoined : w.joints = []) :
    (s' = s ∧ w' = w) ∨
      ∃ r, (x.link? = some r ∨ x'.link? = some r) ∧ s.Uses r w s' w' := by
  cases h with
  | miss => exact .inl ⟨rfl, rfl⟩
  | @shut r hlink =>
    exact .inr ⟨r, .inr rfl, rfl, Wire.confined_close unjoined r, .inr ⟨hlink, rfl⟩, nofun,
      fun _ _ => rfl, fun f hf => Socket.waitingAt_join hf s.writers me⟩
  | @conclude r _ => exact .inr ⟨r, .inl rfl, (Socket.Uses.refl r s w).leaveWriters me⟩

/-- A close waits at the link that was the current one when it began. -/
theorem Move.link? (h : Move me s w x s' w' x') {r : Ref} (hr : x'.link? = some r) :
    x.link? = some r ∨ x.link? = none ∧ s.link = some r := by
  cases h with
  | miss | conclude => cases hr
  | shut hlink => exact .inr ⟨rfl, hlink.trans hr⟩

end SocketClose

end BlockFeed
