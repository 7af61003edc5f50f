import BlockFeed.Proofs.Pipeline.Steady
import BlockFeed.Proofs.Receiver.Steady

/-!
# Spread of frames

Over connections that do not fail, every frame is accepted by all of them, in the order of the
ledger.

## Main definitions

* `Ledger.frames`: the frames of what was assigned.
* `Send.Spreads`: how far the send that writes has got.
* `Pipeline.Spread`: every registered connection has accepted the frames of the ledger, but the last
  one may still be on its way to some of them.
-/

namespace BlockFeed

def Ledger.frames (withAcknowledge : Bool) (log : Ledger) : List Bytes :=
  log.deliveries.map (·.frame withAcknowledge)

namespace Send

def Writing (x : Send) : Prop :=
  ∃ counter rest written failures, x.phase = .writing counter rest written failures

theorem Writing.hasTurn {x : Send} (h : x.Writing) : x.HasTurn := by
  obtain ⟨_, _, _, _, hp⟩ := h
  rw [HasTurn, hp]
  trivial

/-- The send that writes is the last in the ledger, and the connections that it has not written to
yet have accepted what was assigned before. -/
def Spreads (w : Wire) (withAcknowledge : Bool) (log : Ledger) (me : Nat) (x : Send) : Prop :=
  ∀ counter rest written failures, x.phase = .writing counter rest written failures →
    ∃ past : Ledger, log = past ++ [⟨me, x.payload, counter⟩] ∧
      (∀ c ∈ rest, (w.conn c.2).written = past.frames withAcknowledge) ∧
      ∀ c ∈ written, (w.conn c.2).written = log.frames withAcknowledge

theorem Spreads.of_not_writing {w : Wire} {ack : Bool} {log : Ledger} {me : Nat} {x : Send}
    (h : ¬x.Writing) : x.Spreads w ack log me :=
  fun _ _ _ _ hp => absurd ⟨_, _, _, _, hp⟩ h

/-- The next connection accepts the frame. -/
theorem Spreads.write {w w' : Wire} {s : Sender} {log : Ledger} {me : Nat} {x : Send}
    {counter : UInt64} {id : String} {r : Ref} {rest written : List (String × Ref)}
    {failures : List Failure} (h : x.Spreads w s.withAcknowledge log me)
    (hp : x.phase = .writing counter ((id, r) :: rest) written failures)
    (hw : w.write r (x.frame s counter) = (.ok (), w'))
    (nodup : ((written ++ (id, r) :: rest).map Prod.snd).Nodup) :
    Spreads w' s.withAcknowledge log me
      { x with phase := .writing counter rest (written ++ [(id, r)]) failures } := by
  obtain ⟨past, hlog, hrest, hwritten⟩ := h _ _ _ _ hp
  intro counter' rest' written' failures' hp'
  obtain ⟨rfl, rfl, rfl, -⟩ := SendPhase.writing.inj hp'
  rw [List.map_append, List.map_cons] at nodup
  obtain ⟨-, hnodup, hdisjoint⟩ := List.nodup_append.mp nodup
  have hsame {c : String × Ref} (hne : c.2 ≠ r) : (w'.conn c.2).written = (w.conn c.2).written := by
    rw [Wire.written_of_write hw, Wire.only_of_ne hne, List.append_nil]
  refine ⟨past, hlog, fun c hc => ?_, fun c hc => ?_⟩
  · -- the connection that was written to is not one of those that are left
    have hmem : c.2 ∈ rest.map Prod.snd := List.mem_map_of_mem hc
    rw [hsame fun heq => (List.nodup_cons.mp hnodup).1 (heq ▸ hmem)]
    exact hrest c (List.mem_cons_of_mem _ hc)
  · rcases List.mem_append.mp hc with hold | hnew
    · rw [hsame fun heq => hdisjoint c.2 (List.mem_map_of_mem hold) r List.mem_cons_self heq]
      exact hwritten c hold
    · obtain rfl := List.mem_singleton.mp hnew
      rw [Wire.written_of_write hw, Wire.only, if_pos ⟨rfl, Wire.lt_of_write hw⟩,
        hrest (id, r) List.mem_cons_self, hlog]
      simp [Ledger.frames, Ledger.deliveries, Assignment.delivery, Delivery.frame, frame]

end Send

namespace Pipeline

/-- Every registered connection has accepted the frames of the ledger in order, but while a send
writes, some have not accepted the last one yet. -/
structure Spread (p : Pipeline) (log : Ledger) : Prop where
  even : (∀ place x, p.sendAt? place = some x → ¬x.Writing) →
    ∀ c ∈ p.sender.registry.entries,
      (p.wire.conn c.2).written = log.frames p.sender.withAcknowledge
  spreads : ∀ place x, p.sendAt? place = some x →
    x.Spreads p.wire p.sender.withAcknowledge log place

/-- Only moves change the sender, and write or read, while nothing but messages and time comes from
outside. -/
theorem still_of_calm {p : Pipeline} {e : Event} (calm : e.Calm)
    (he : ∀ place pick, e ≠ .move place pick) :
    (p.apply e).sender = p.sender ∧ p.wire.Still (p.apply e).wire := by
  cases e with
  | move place pick => exact absurd rfl (he place pick)
  | elapse | send => exact ⟨rfl, .refl _⟩
  | report m r =>
    rw [apply]
    split <;> exact ⟨rfl, .refl _⟩
  | occur r o => exact ⟨rfl, p.wire.still_undergo r o⟩
  | connect | join | disconnect | register | unregister | removeClosed | closeAll | closeSender
  | attach | listen | closeReceiver => exact calm.elim

namespace Spread

variable {p p' : Pipeline} {log : Ledger} {acc : List Acceptance}

/-- Nothing changes if the connections accept nothing and whoever does not move does not write. -/
theorem still (h : p.Spread log) (steady : p.Steady acc)
    (registry : p'.sender.registry = p.sender.registry)
    (hack : p'.sender.withAcknowledge = p.sender.withAcknowledge)
    (same : ∀ c ∈ p.sender.registry.entries,
      (p'.wire.conn c.2).written = (p.wire.conn c.2).written)
    (before : ∀ place x, p.sendAt? place = some x → p'.sendAt? place = some x ∨ ¬x.Writing)
    (after : ∀ place x, p'.sendAt? place = some x → p.sendAt? place = some x ∨ ¬x.Writing) :
    p'.Spread log where
  even := by
    intro hnone c hc
    rw [registry] at hc
    rw [hack, same c hc]
    exact h.even (fun place x hx => (before place x hx).elim (hnone place x) id) c hc
  spreads := by
    intro place x hx
    rw [hack]
    rcases after place x hx with hold | hnot
    · intro counter rest written failures hp
      obtain ⟨past, hlog, hrest, hwritten⟩ := h.spreads place x hold _ _ _ _ hp
      rw [← ((steady.steady place x hold).of_writing hp).2] at same
      refine ⟨past, hlog, fun c hc => ?_, fun c hc => ?_⟩
      · rw [same c (List.mem_append_right _ hc)]
        exact hrest c hc
      · rw [same c (List.mem_append_left _ hc)]
        exact hwritten c hc
    · exact .of_not_writing hnot

section Turn

variable {place : Nat} {x x' : Send} (hx : p.activities[place]? = some (.send x))
  (hhead : p.sender.line.head? = some place)

include hx hhead

/-- While whoever has the turn does not write, nothing is on its way. -/
theorem settled (h : p.Spread log) (steady : p.Steady acc) (hnot : ¬x.Writing) :
    ∀ c ∈ p.sender.registry.entries,
      (p.wire.conn c.2).written = log.frames p.sender.withAcknowledge := by
  refine h.even fun q y hy hwriting => ?_
  obtain rfl := Option.some.inj ((steady.turned q y hy hwriting.hasTurn).symm.trans hhead)
  obtain rfl := Option.some.inj (hy.symm.trans (sendAt?_eq_some.mpr hx))
  exact hnot hwriting

/-- After a step of whoever has the turn, only that send may write. -/
theorem turn (steady : p.Steady acc) {sender : Sender} {wire : Wire}
    (registry : sender.registry = p.sender.registry)
    (hack : sender.withAcknowledge = p.sender.withAcknowledge)
    (spreads : x'.Spreads wire p.sender.withAcknowledge log place)
    (even : ¬x'.Writing → ∀ c ∈ p.sender.registry.entries,
      (wire.conn c.2).written = log.frames p.sender.withAcknowledge) :
    Spread { p with sender, wire, activities := p.activities.set place (.send x') } log where
  even := by
    intro hnone c hc
    change (wire.conn c.2).written = log.frames sender.withAcknowledge
    change c ∈ sender.registry.entries at hc
    rw [registry] at hc
    rw [hack]
    exact even (hnone place x' ((sendAt?_set_send hx place).trans (if_pos rfl))) c hc
  spreads := by
    intro q y hy
    change y.Spreads wire sender.withAcknowledge log q
    rw [hack]
    rcases sendAt?_of_set hy with ⟨rfl, heq⟩ | ⟨hq, hy⟩
    · exact Activity.send.inj heq ▸ spreads
    · refine .of_not_writing fun hwriting => hq ?_
      exact Option.some.inj ((steady.turned q y hy hwriting.hasTurn).symm.trans hhead)

end Turn

theorem send (h : p.Spread log) (steady : p.Steady acc) {place pick : Nat} {x x' : Send}
    {sender : Sender} {wire : Wire} (hx : p.activities[place]? = some (.send x))
    (hmove : Send.Move place pick p.sender p.wire x sender wire x') :
    Spread { p with sender, wire, activities := p.activities.set place (.send x') }
      (log ++ Ledger.taken place (some x) (some x')) := by
  have hsend : p.sendAt? place = some x := sendAt?_eq_some.mpr hx
  have hsteady := steady.steady place x hsend
  have hadvance := hmove.advance hsteady steady.isOpen steady.registered steady.sturdy
  have hturn (hp : x.HasTurn) : p.sender.line.head? = some place := steady.turned place x hsend hp
  rw [Send.HasTurn] at hturn
  cases hadvance with
  | enqueue hp =>
    -- another send may have its turn, but this one writes neither before nor after
    rw [Ledger.taken_of_ne_queued (by simp [hp]), List.append_nil]
    refine h.still steady rfl rfl (fun _ _ => rfl) (fun q y hy => ?_) fun q y hy => ?_
    · by_cases hq : q = place
      · subst hq
        obtain rfl := Option.some.inj (hsend.symm.trans hy)
        exact .inr (by simp [Send.Writing, hp])
      · exact .inl (((sendAt?_set_send hx q).trans (if_neg hq)).trans hy)
    · rcases sendAt?_of_set hy with ⟨-, heq⟩ | ⟨-, hy⟩
      · obtain rfl := Activity.send.inj heq
        exact .inr (by simp [Send.Writing])
      · exact .inl hy
  | start hp hhead =>
    -- nobody writes, so every connection has accepted the frames of the ledger so far
    have hall := h.settled hx hhead steady (by simp [Send.Writing, hp])
    rw [Ledger.taken_of_writing hp rfl]
    refine turn hx hhead steady rfl rfl ?_ fun hnot => absurd ⟨_, _, _, _, rfl⟩ hnot
    intro counter rest written failures hp'
    obtain ⟨rfl, rfl, rfl, -⟩ := SendPhase.writing.inj hp'
    exact ⟨log, rfl, hall, fun _ hc => absurd hc List.not_mem_nil⟩
  | write hp hw =>
    rw [hp] at hturn
    rw [Ledger.taken_of_ne_queued (by simp [hp]), List.append_nil]
    have hnodup := steady.toNamed.nodup
    rw [← (hsteady.of_writing hp).2] at hnodup
    exact turn hx (hturn trivial) steady rfl rfl ((h.spreads place x hsend).write hp hw hnodup)
      fun hnot => absurd ⟨_, _, _, _, rfl⟩ hnot
  | await hp | succeed hp =>
    rw [hp] at hturn
    rw [Ledger.taken_of_ne_queued (by simp [hp]), List.append_nil]
    obtain ⟨_, _, -, hwritten⟩ := h.spreads place x hsend _ _ _ _ hp
    refine turn hx (hturn trivial) steady rfl rfl (.of_not_writing (by simp [Send.Writing]))
      fun _ c hc => hwritten c ?_
    rw [← (hsteady.of_writing hp).2, List.append_nil] at hc
    exact hc
  | ignore hp _ _ hr | acknowledge hp _ _ hr | complete hp _ _ hr =>
    rw [hp] at hturn
    rw [Ledger.taken_of_ne_queued (by simp [hp]), List.append_nil]
    have hall := h.settled hx (hturn trivial) steady (by simp [Send.Writing, hp])
    refine turn hx (hturn trivial) steady rfl rfl (.of_not_writing (by simp [Send.Writing]))
      fun _ c hc => ?_
    rw [Wire.written_of_read hr]
    exact hall c hc

/-- Calm events leave frames spread. -/
theorem apply (h : p.Spread log) (steady : p.Steady acc) {e : Event} (calm : e.Calm) :
    (p.apply e).Spread (log ++ p.assigned e) := by
  by_cases he : ∃ place pick, e = .move place pick
  · obtain ⟨place, pick, rfl⟩ := he
    have hmoved := p.moved_apply place pick
    generalize happly : p.apply (.move place pick) = p' at hmoved
    cases hmoved with
    | send hx hmove =>
      rw [assigned_send hx happly]
      exact h.send steady hx hmove
    | @listen i l _ _ _ _ hl _ hmove =>
      rw [assigned_listen hl happly rfl, List.append_nil]
      refine h.still steady rfl rfl (fun c hc => ?_)
        (fun q y hy => .inl ((sendAt?_set_listen hl q).trans hy))
        fun q y hy => .inl ((sendAt?_set_listen hl q).symm.trans hy)
      obtain ⟨_, _, hlogs, -⟩ := hmove.logs
      have hne := steady.apart i l (List.mem_of_getElem? hl) c hc
      rw [(hlogs.conn c.2).written, Wire.only_of_ne hne]
      exact List.append_nil _
    | stay =>
      rw [assigned_stay happly, List.append_nil]
      exact h
  · have hmove : ∀ place pick, e ≠ .move place pick := fun q pick heq => he ⟨q, pick, heq⟩
    have haside := aside_apply (p := p) hmove
    obtain ⟨hsender, hstill⟩ := still_of_calm calm hmove
    rw [assigned_of_ne_move hmove, List.append_nil]
    refine h.still steady (by rw [hsender]) (by rw [hsender]) (fun c _ => ?_)
      (fun q y hy => .inl (haside.sendAt?_of_some hy)) fun q y hy => ?_
    · exact (hstill.conn c.2).written.trans (List.append_nil _)
    · exact (haside.sendAt? hy).imp_right fun hcalled => by simp [Send.Writing, hcalled.2]

end Spread

end Pipeline

end BlockFeed
