import BlockFeed.Proofs.Link.Registrations
import BlockFeed.Proofs.Receiver.Closing
import BlockFeed.Proofs.Sender.Losses
import BlockFeed.Role.Server

/-!
# Moves of a server

Everything that one step of an activity of a server can do, and what it does to the connections
that it is not about.

## Main definitions

* `ServerSend.Move`, `Accept.Move`: what a step does.
* `Registry.Leaves`: what happens to a registry leaves a connection registered while it is open,
  and registers nothing under its id.
* `Server.Tracks`: what happens to a server leaves what is tracked under an id as it is, unless the
  server is closed in it.

## Main results

* `ServerSend.Move.leaves`, `Accept.Move.leaves`, `Accept.Move.tracks`, `Server.leaves_close`,
  `Server.tracks_close`: what activities do to the connections of others.
-/

namespace BlockFeed

namespace Registry

/-- Nothing was registered under the id of a connection, and the connection was unregistered only
if it is not open any more. -/
structure Leaves (f : Ref) (g : Registry) (w : Wire) (g' : Registry) (w' : Wire) : Prop where
  wanes : w.Wanes w'
  enters : ∀ r, ((w.conn f).id, r) ∈ g'.entries → ((w.conn f).id, r) ∈ g.entries
  stays : (w'.conn f).isOpen = true → ((w.conn f).id, f) ∈ g.entries →
    ((w.conn f).id, f) ∈ g'.entries

variable {f r : Ref} {g g' g'' : Registry} {w w' w'' : Wire}

theorem Leaves.trans (h : Leaves f g w g' w') (h' : Leaves f g' w' g'' w'') :
    Leaves f g w g'' w'' where
  wanes := h.wanes.trans h'.wanes
  enters r hr := h.enters r (h.wanes.id f ▸ h'.enters r ((h.wanes.id f).symm ▸ hr))
  stays hopen hf := h.wanes.id f ▸ h'.stays hopen
    ((h.wanes.id f).symm ▸ h.stays (h'.wanes.isOpen f hopen) hf)

theorem leaves_of_wanes (f : Ref) (g : Registry) (h : w.Wanes w') : Leaves f g w g w' :=
  ⟨h, fun _ hr => hr, fun _ hf => hf⟩

theorem leaves_removeClosed (f : Ref) (g : Registry) (w : Wire) :
    Leaves f g w (g.removeClosed w) w where
  wanes := .refl w
  enters _ hr := (mem_removeClosed_iff.mp hr).1
  stays hopen hf := mem_removeClosed_iff.mpr ⟨hf, hopen⟩

theorem leaves_closeAndRemove (hf : f < w.connections.length) (g : Registry) (id : String) :
    Leaves f g w (g.closeAndRemove w id).2.1 (g.closeAndRemove w id).2.2 where
  wanes := g.wanes_closeAndRemove w id
  enters r hr := by
    rw [entries_closeAndRemove_eq] at hr
    exact (List.mem_filter.mp hr).1
  stays hopen hmem := by
    rw [entries_closeAndRemove_eq]
    refine List.mem_filter.mpr ⟨hmem, bne_iff_ne.mpr fun heq => ?_⟩
    -- what is registered under the id that is given up is closed
    have hget : g.get? id = some f := heq ▸ Table.mem_entries_iff.mp hmem
    rw [closeAndRemove_of_get? hget] at hopen
    exact ((Wire.conn_close hf f).2.mp hopen).1 rfl

theorem leaves_closeAll (exist : ∀ c ∈ g.entries, c.2 < w.connections.length) (f : Ref) :
    Leaves f g w (g.closeAll w).1 (g.closeAll w).2 where
  wanes := g.wanes_closeAll w
  enters r hr := absurd hr (by rw [(closeAll_closes exist).1]; exact List.not_mem_nil)
  stays hopen hmem :=
    absurd (List.mem_map.mpr ⟨_, hmem, rfl⟩) (((closeAll_closes exist).2 f).2.mp hopen).1

theorem leaves_add (h : (w.conn r).id ≠ (w.conn f).id) (g : Registry) :
    Leaves f g w (g.add w r) w where
  wanes := .refl w
  enters _ hq := ((mem_add_iff.mp hq).resolve_left fun heq => h heq.1.symm).2
  stays _ hmem := mem_add_iff.mpr (.inr ⟨h.symm, hmem⟩)

end Registry

namespace Send

/-- A send registers nothing, and unregisters only what it closes. -/
theorem Toll.leaves {pick : Nat} {s : Sender} {w w' : Wire} {x : Send} {g' : Registry} {f : Ref}
    (h : Toll pick s w x g' w') (hf : f < w.connections.length) :
    Registry.Leaves f s.registry w g' w' := by
  cases h with
  | use _ hsame hused =>
    subst hsame
    exact Registry.leaves_of_wanes f _ hused.wanes
  | @lose id w₁ _ hused hg hw =>
    subst hg hw
    exact (Registry.leaves_of_wanes f _ hused.wanes).trans
      (Registry.leaves_closeAndRemove (by rw [hused.size]; exact hf) _ id)

end Send

namespace Server

/-- What is tracked under an id stays, unless the server is closed: then the receiver that was
tracked is closed. -/
structure Tracks (id : String) (s s' : Server) : Prop where
  tracked : s'.cancel.closed = false → s'.tracked.get? id = s.tracked.get? id
  /-- Receivers stay in their places, and those that are closed stay closed. -/
  receivers : ∀ (i : Nat) (r : Receiver), s.receivers[i]? = some r →
    ∃ r', s'.receivers[i]? = some r' ∧ (r.cancel.closed = true → r'.cancel.closed = true)
  releases : s.cancel.closed = false → s'.cancel.closed = true → ∀ (i : Nat) (r : Receiver),
    s.tracked.get? id = some i → s.receivers[i]? = some r →
      ∃ r', s'.receivers[i]? = some r' ∧ r'.cancel.closed = true
  cancel : s.cancel.closed = true → s'.cancel.closed = true

variable {id : String} {s s' : Server}

theorem tracks_of_same (id : String) (tracked : s'.tracked = s.tracked)
    (receivers : s'.receivers = s.receivers) (cancel : s'.cancel = s.cancel) : s.Tracks id s' where
  tracked _ := by rw [tracked]
  receivers i r hr := ⟨r, receivers.symm ▸ hr, fun hclosed => hclosed⟩
  releases hopen hclosed := by
    rw [cancel, hopen] at hclosed
    cases hclosed
  cancel hclosed := cancel.symm ▸ hclosed

/-- While the server is not closed, it is enough to look at what is tracked and at the
receivers. -/
theorem tracks_of_open (cancel : s'.cancel = s.cancel)
    (tracked : s'.tracked.get? id = s.tracked.get? id)
    (receivers : ∀ (i : Nat) (r : Receiver), s.receivers[i]? = some r →
      ∃ r', s'.receivers[i]? = some r' ∧ (r.cancel.closed = true → r'.cancel.closed = true)) :
    s.Tracks id s' where
  tracked _ := tracked
  receivers := receivers
  releases hopen hclosed := by
    rw [cancel, hopen] at hclosed
    cases hclosed
  cancel hclosed := cancel.symm ▸ hclosed

end Server

namespace Receiver

variable {receivers : List Receiver} {i j : Nat} {r r' : Receiver}

/-- Closing a receiver closes no other, and opens none. -/
theorem getElem?_modify_close (h : receivers[j]? = some r) : ∃ r',
    (receivers.modify i (·.close))[j]? = some r' ∧
      (i = j ∨ r.cancel.closed = true → r'.cancel.closed = true) := by
  rw [List.getElem?_modify, h]
  by_cases hij : i = j
  · exact ⟨r.close, by simp [hij], fun _ => rfl⟩
  · exact ⟨r, by simp [hij], fun hclosed => hclosed.resolve_left hij⟩

/-- All receivers that are tracked are closed. -/
theorem getElem?_closeTracked (tracked : Table Nat) (h : receivers[j]? = some r) : ∃ r',
    (closeTracked tracked receivers).2[j]? = some r' ∧
      (j ∈ tracked.values ∨ r.cancel.closed = true → r'.cancel.closed = true) := by
  rw [closeTracked]
  generalize tracked.values = places
  induction places generalizing receivers r with
  | nil => exact ⟨r, h, fun hclosed => hclosed.resolve_left List.not_mem_nil⟩
  | cons i rest ih =>
    obtain ⟨r₁, hr₁, hclosed₁⟩ := getElem?_modify_close (i := i) h
    obtain ⟨r₂, hr₂, hclosed₂⟩ := ih hr₁
    refine ⟨r₂, hr₂, ?_⟩
    rintro (hmem | hclosed)
    · rcases List.mem_cons.mp hmem with rfl | hrest
      · exact hclosed₂ (.inr (hclosed₁ (.inl rfl)))
      · exact hclosed₂ (.inl hrest)
    · exact hclosed₂ (.inr (hclosed₁ (.inr hclosed)))

/-- Changing a receiver leaves those that are closed closed. -/
theorem getElem?_set_closed (h : receivers[i]? = some r)
    (hclosed : r.cancel.closed = true → r'.cancel.closed = true) {q : Receiver}
    (hq : receivers[j]? = some q) : ∃ q',
    (receivers.set i r')[j]? = some q' ∧ (q.cancel.closed = true → q'.cancel.closed = true) := by
  by_cases hij : i = j
  · subst hij
    obtain rfl : r = q := Option.some.inj (h.symm.trans hq)
    have hlt : i < receivers.length := (List.getElem?_eq_some_iff.mp h).1
    exact ⟨r', by rw [List.getElem?_set_self hlt], hclosed⟩
  · exact ⟨q, by rw [List.getElem?_set_ne hij, hq], fun hq => hq⟩

end Receiver

namespace ServerSend

/-- What a step of a send of a server does. -/
inductive Move (me pick : Nat) (s : Server) (w : Wire) (x : ServerSend) :
    Server → Wire → ServerSend → Prop where
  /-- The server was closed. -/
  | refuse : x.phase = .called → s.cancel.closed = true →
      Move me pick s w x s w { x with phase := .done (.error .closed) }
  /-- Connections that are not open are forgotten before its sender is asked. -/
  | call : x.phase = .called → s.cancel.closed = false →
      Move me pick s w x (s.prune w) w { x with phase := .sending ⟨x.payload, .called⟩ }
  | send {y y' : Send} {sender : Sender} {w' : Wire} : x.phase = .sending y →
      Send.Move me pick s.sender w y sender w' y' → y'.result? = none →
      Move me pick s w x { s with sender } w' { x with phase := .sending y' }
  /-- Its sender is done, and connections that are not open are forgotten again. -/
  | finish {y y' : Send} {sender : Sender} {w' : Wire} {result : Except SendError Unit} :
      x.phase = .sending y → Send.Move me pick s.sender w y sender w' y' →
      y'.result? = some result →
      Move me pick s w x (Server.prune { s with sender } w') w' { x with phase := .done result }

variable {me pick : Nat} {s s' : Server} {w w' : Wire} {x x' : ServerSend}

theorem move_of_step (h : x.step me pick s w = some (s', w', x')) :
    Move me pick s w x s' w' x' := by
  rw [step] at h
  split at h
  · next hp =>
    split at h
    · next hclosed =>
      obtain ⟨rfl, rfl, rfl⟩ := Option.some.inj h
      exact .refuse hp hclosed
    · next hopen =>
      obtain ⟨rfl, rfl, rfl⟩ := Option.some.inj h
      exact .call hp (by simpa using hopen)
  · next y hp =>
    split at h
    · cases h
    next sender w₁ y' hstep =>
    dsimp only at h
    split at h
    · next hnone =>
      obtain ⟨rfl, rfl, rfl⟩ := Option.some.inj h
      exact .send hp (Send.move_of_step hstep) hnone
    · next result hresult =>
      obtain ⟨rfl, rfl, rfl⟩ := Option.some.inj h
      exact .finish hp (Send.move_of_step hstep) hresult
  · cases h

/-- A send of a server changes nothing of the server but its sender. -/
theorem Move.server (h : Move me pick s w x s' w' x') : ∃ sender, s' = { s with sender } := by
  cases h with
  | refuse => exact ⟨s.sender, rfl⟩
  | call | send | finish => exact ⟨_, rfl⟩

theorem Move.leaves (h : Move me pick s w x s' w' x') {f : Ref}
    (hf : f < w.connections.length) :
    Registry.Leaves f s.sender.registry w s'.sender.registry w' := by
  cases h with
  | refuse => exact Registry.leaves_of_wanes f _ (.refl w)
  | call => exact Registry.leaves_removeClosed f _ w
  | send _ hmove => exact hmove.toll.leaves hf
  | finish _ hmove => exact (hmove.toll.leaves hf).trans (Registry.leaves_removeClosed f _ w')

end ServerSend

namespace Accept

/-- What a step of the care for an accepted connection does. -/
inductive Move (now : Nat) (s : Server) (w : Wire) (a : Accept) :
    Server → Wire → Accept → Prop where
  /-- The server was closed before. -/
  | dismiss : a.phase = .called → s.cancel.closed = true →
      Move now s w a s (w.close a.conn).2 { a with phase := .done }
  /-- There is no handler: the connection is one to send to. -/
  | enlist : a.phase = .called → s.cancel.closed = false → s.handler = none →
      Move now s w a { s with sender := s.sender.add w a.conn } w { a with phase := .joined }
  /-- There is a handler: the connection is to be read. -/
  | track {handler : Handler} : a.phase = .called → s.cancel.closed = false →
      s.handler = some handler →
      Move now s w a (track s w a.conn handler) w { a with phase := .tracked s.receivers.length }
  | keep : a.phase = .joined → s.cancel.closed = false →
      Move now s w a s w { a with phase := .done }
  /-- The server was closed while the connection was registered. -/
  | withdraw : a.phase = .joined → s.cancel.closed = true →
      Move now s w a { s with sender := (s.sender.closeAndRemove w (w.conn a.conn).id).2.1 }
        (s.sender.closeAndRemove w (w.conn a.conn).id).2.2 { a with phase := .done }
  | listen {i : Nat} : a.phase = .tracked i →
      Move now s w a
        { s with
          receivers := if s.cancel.closed then s.receivers.modify i (·.close) else s.receivers }
        w { a with phase := .listening i ⟨a.conn, .called⟩ }
  | read {i : Nat} {l l' : Listen} {r r' : Receiver} {w' : Wire} : a.phase = .listening i l →
      s.receivers[i]? = some r → Listen.Move now r w l r' w' l' → l'.result? = none →
      Move now s w a { s with receivers := s.receivers.set i r' } w'
        { a with phase := .listening i l' }
  /-- The reading has ended, and its receiver is not tracked any more. -/
  | stop {i : Nat} {l l' : Listen} {r r' : Receiver} {w' : Wire} : a.phase = .listening i l →
      s.receivers[i]? = some r → Listen.Move now r w l r' w' l' → l'.result?.isSome = true →
      Move now s w a
        { s with
          receivers := s.receivers.set i r'
          tracked := s.tracked.erase (w'.conn a.conn).id }
        w' { a with phase := .stopped }
  | close : a.phase = .stopped →
      Move now s w a s (if (w.conn a.conn).isOpen then (w.close a.conn).2 else w)
        { a with phase := .done }

variable {now pick : Nat} {s s' : Server} {w w' : Wire} {a a' : Accept}

theorem move_of_step (h : a.step now pick s w = some (s', w', a')) : Move now s w a s' w' a' := by
  rw [step] at h
  split at h
  · next hp =>
    split at h
    · next hclosed =>
      obtain ⟨rfl, rfl, rfl⟩ := Option.some.inj h
      exact .dismiss hp hclosed
    next hopen =>
    have hopen : s.cancel.closed = false := by simpa using hopen
    split at h
    · next hhandler =>
      obtain ⟨rfl, rfl, rfl⟩ := Option.some.inj h
      exact .enlist hp hopen hhandler
    · next handler hhandler =>
      obtain ⟨rfl, rfl, rfl⟩ := Option.some.inj h
      exact .track hp hopen hhandler
  · next hp =>
    split at h
    · next hclosed =>
      obtain ⟨rfl, rfl, rfl⟩ := Option.some.inj h
      exact .withdraw hp hclosed
    · next hopen =>
      obtain ⟨rfl, rfl, rfl⟩ := Option.some.inj h
      exact .keep hp (by simpa using hopen)
  · next i hp =>
    obtain ⟨rfl, rfl, rfl⟩ := Option.some.inj h
    exact .listen hp
  · next i l hp =>
    split at h
    · cases h
    next r hr =>
    split at h
    · cases h
    next r' w₁ l' hstep =>
    dsimp only at h
    split at h
    · next hresult =>
      obtain ⟨rfl, rfl, rfl⟩ := Option.some.inj h
      exact .stop hp hr (Listen.move_of_step hstep) hresult
    · next hresult =>
      obtain ⟨rfl, rfl, rfl⟩ := Option.some.inj h
      exact .read hp hr (Listen.move_of_step hstep) (by simpa using hresult)
  · next hp =>
    obtain ⟨rfl, rfl, rfl⟩ := Option.some.inj h
    exact .close hp
  · cases h

/-- The care for a connection that is being read has a step if the reading has one. -/
theorem step_eq_none_of_listening {i : Nat} {l : Listen} (hp : a.phase = .listening i l) :
    a.step now pick s w = none ↔
      ∀ r, s.receivers[i]? = some r → l.step now pick r w = none := by
  rw [step, hp]
  cases hr : s.receivers[i]? with
  | none => simp [hr]
  | some r =>
    cases hstep : l.step now pick r w with
    | none => simp [hr, hstep]
    | some after =>
      simp only [hr, hstep, Option.some.injEq, forall_eq', reduceCtorEq, iff_false]
      split <;> nofun

/-- The care for a connection that has a step has one at every pick. -/
theorem step_eq_none_iff (pick' : Nat) :
    a.step now pick s w = none ↔ a.step now pick' s w = none := by
  cases hp : a.phase with
  | listening i l =>
    rw [step_eq_none_of_listening hp, step_eq_none_of_listening hp]
    exact forall_congr' fun r => imp_congr_right fun _ => Listen.step_eq_none_iff pick'
  | called | joined | tracked | stopped | done => rw [step, step, hp]

theorem Move.conn (h : Move now s w a s' w' a') : a'.conn = a.conn := by
  cases h <;> rfl

/-- A care that has taken a step has taken its first. -/
theorem Move.ne_called (h : Move now s w a s' w' a') : a'.phase ≠ .called := by
  cases h <;> nofun

/-- The care for a connection changes neither the handler nor whether the server is closed. -/
theorem Move.settings (h : Move now s w a s' w' a') :
    s'.handler = s.handler ∧ s'.cancel = s.cancel ∧ s'.retry = s.retry := by
  cases h <;> exact ⟨rfl, rfl, rfl⟩

/-- The care for a connection registers nothing but this connection, in its first step. -/
theorem Move.entries (h : Move now s w a s' w' a') {e : String × Ref}
    (he : e ∈ s'.sender.registry.entries) : e ∈ s.sender.registry.entries ∨
      a.phase = .called ∧ s.cancel.closed = false ∧ s.handler = none ∧
        e = ((w.conn a.conn).id, a.conn) := by
  cases h with
  | enlist hp hopen hnone =>
    rcases Registry.mem_add_iff.mp he with ⟨hid, hr⟩ | ⟨-, hold⟩
    · exact .inr ⟨hp, hopen, hnone, Prod.ext hid hr⟩
    · exact .inl hold
  | withdraw => exact .inl ((Registry.entries_closeAndRemove _).subset he)
  | dismiss | track | keep | listen | read | stop | close => exact .inl he

/-- The care for a connection registers no other, and unregisters only what it closes. -/
theorem Move.leaves (h : Move now s w a s' w' a') {f : Ref} (hf : f < w.connections.length)
    (hid : (w.conn a.conn).id ≠ (w.conn f).id) :
    Registry.Leaves f s.sender.registry w s'.sender.registry w' := by
  have hsame {w' : Wire} (hwanes : w.Wanes w') :
      Registry.Leaves f s.sender.registry w s.sender.registry w' :=
    Registry.leaves_of_wanes f _ hwanes
  cases h with
  | dismiss => exact hsame (w.wanes_close a.conn)
  | enlist => exact Registry.leaves_add hid _
  | track | keep | listen => exact hsame (.refl w)
  | withdraw => exact Registry.leaves_closeAndRemove hf _ _
  | read _ _ hmove | stop _ _ hmove => exact hsame hmove.used.wanes
  | close =>
    split
    · exact hsame (w.wanes_close a.conn)
    · exact hsame (.refl w)

/-- The care for a connection leaves what is tracked under another id as it is. -/
theorem Move.tracks (h : Move now s w a s' w' a') {id : String} (hid : (w.conn a.conn).id ≠ id) :
    s.Tracks id s' := by
  cases h with
  | dismiss | enlist | keep | withdraw | close => exact Server.tracks_of_same id rfl rfl rfl
  | track =>
    refine Server.tracks_of_open rfl ?_ fun i r hr => ⟨r, ?_, fun hclosed => hclosed⟩
    · rw [Accept.track, Table.get?_insert, if_neg hid.symm]
    · exact (List.getElem?_append_left (List.getElem?_eq_some_iff.mp hr).1).trans hr
  | listen =>
    refine Server.tracks_of_open rfl rfl fun j r hr => ?_
    dsimp only
    split
    · obtain ⟨r', hr', hclosed⟩ := Receiver.getElem?_modify_close hr
      exact ⟨r', hr', fun h => hclosed (.inr h)⟩
    · exact ⟨r, hr, fun hclosed => hclosed⟩
  | read _ hr hmove =>
    exact Server.tracks_of_open rfl rfl fun j q hq =>
      Receiver.getElem?_set_closed hr hmove.stays_closed hq
  | stop _ hr hmove =>
    refine Server.tracks_of_open rfl ?_ fun j q hq =>
      Receiver.getElem?_set_closed hr hmove.stays_closed hq
    rw [Table.get?_erase, if_neg]
    rw [hmove.used.wanes.id]
    exact hid.symm

end Accept

namespace Server

variable {s : Server} {w : Wire}

/-- Closing a server closes its sender and everything that it tracks. -/
theorem close_of_open (hopen : s.cancel.closed = false) :
    (s.close w).1.sender.registry = (s.sender.registry.closeAll w).1 ∧
      (s.close w).2 = (s.sender.registry.closeAll w).2 ∧
      (s.close w).1.tracked = .empty ∧
      (s.close w).1.receivers = (Receiver.closeTracked s.tracked s.receivers).2 ∧
      (s.close w).1.cancel.closed = true := by
  rw [close, if_neg (by simp [hopen])]
  exact ⟨rfl, rfl, rfl, rfl, rfl⟩

/-- Closing a server that is closed does nothing. -/
theorem close_of_closed (hclosed : s.cancel.closed = true) : s.close w = (s, w) :=
  if_pos hclosed

theorem closed_close (s : Server) (w : Wire) : (s.close w).1.cancel.closed = true := by
  cases hclosed : s.cancel.closed with
  | true => rw [close_of_closed hclosed, hclosed]
  | false => exact (close_of_open hclosed).2.2.2.2

theorem wanes_close (s : Server) (w : Wire) : w.Wanes (s.close w).2 := by
  cases hclosed : s.cancel.closed with
  | true =>
    rw [close_of_closed hclosed]
    exact .refl w
  | false =>
    rw [(close_of_open (w := w) hclosed).2.1]
    exact Registry.wanes_closeAll _ _

theorem entries_close (s : Server) (w : Wire) :
    (s.close w).1.sender.registry.entries ⊆ s.sender.registry.entries := by
  cases hclosed : s.cancel.closed with
  | true =>
    rw [close_of_closed hclosed]
    exact List.Subset.refl _
  | false =>
    rw [(close_of_open (w := w) hclosed).1]
    exact Registry.entries_closeAll.subset

theorem leaves_close (exist : ∀ c ∈ s.sender.registry.entries, c.2 < w.connections.length)
    (f : Ref) : Registry.Leaves f s.sender.registry w (s.close w).1.sender.registry
      (s.close w).2 := by
  cases hclosed : s.cancel.closed with
  | true =>
    rw [close_of_closed hclosed]
    exact Registry.leaves_of_wanes f _ (.refl w)
  | false =>
    obtain ⟨hregistry, hwire, -⟩ := close_of_open (w := w) hclosed
    rw [hregistry, hwire]
    exact Registry.leaves_closeAll exist f

theorem tracks_close (s : Server) (w : Wire) (id : String) : s.Tracks id (s.close w).1 := by
  cases hclosed : s.cancel.closed with
  | true =>
    rw [close_of_closed hclosed]
    exact tracks_of_same id rfl rfl rfl
  | false =>
    obtain ⟨-, -, -, hreceivers, hcancel⟩ := close_of_open (w := w) hclosed
    refine ⟨fun hopen => ?_, fun i r hr => ?_, fun _ _ i r hi hr => ?_, fun _ => hcancel⟩
    · rw [hcancel] at hopen
      cases hopen
    · rw [hreceivers]
      obtain ⟨r', hr', hstays⟩ := Receiver.getElem?_closeTracked s.tracked hr
      exact ⟨r', hr', fun h => hstays (.inr h)⟩
    · rw [hreceivers]
      obtain ⟨r', hr', hstays⟩ := Receiver.getElem?_closeTracked s.tracked hr
      exact ⟨r', hr', hstays (.inl (List.mem_map.mpr ⟨_, Table.mem_entries_iff.mpr hi, rfl⟩))⟩

end Server

end BlockFeed
