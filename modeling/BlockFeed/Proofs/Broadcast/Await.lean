import BlockFeed.Proofs.Link.Places
import BlockFeed.Proofs.Sender.Moves

/-!
# Waits for acknowledgments

What waiting for the acknowledgment of a counter comes to is told by what has arrived at the
connection.

## Main definitions

* `Connection.await`: what has arrived is read up to the acknowledgment, or to an error.
* `Connection.Stands`: how a connection stands to the wait for its acknowledgment.

## Main results

* `AckWait.Move.stands`: every step of a wait is on the way to what `await` says.

## Design notes

A wait reads one message in a step, and others may step in between. What is left to be read then
still comes to the same, and that is all that has to be preserved.
-/

namespace BlockFeed

namespace Connection

theorem length_inbound_of_read {c d : Connection} {bytes : Bytes}
    (h : c.read? = some (.ok bytes, d)) : d.inbound.length < c.inbound.length := by
  rw [read?] at h
  split at h
  · rw [next?] at h
    split at h
    · next rest hin =>
      obtain ⟨-, rfl⟩ := Prod.mk.inj (Option.some.inj h)
      rw [hin, take]
      exact Nat.lt_succ_self _
    · cases h
    · split at h <;> cases h
  · cases h

/-- How waiting for the acknowledgment of a counter ends with what has arrived, if it does, and
what it leaves of the connection. -/
def await (counter : UInt64) (c : Connection) : Option AckOutcome × Connection :=
  match _h : c.read? with
  | none => (none, c)
  | some (.error e, d) => (some (.failed e), d)
  | some (.ok bytes, d) =>
    if Ack.decode bytes = .ok counter then (some .acknowledged, d) else await counter d
termination_by c.inbound.length
decreasing_by exact length_inbound_of_read _h

variable {counter : UInt64} {c d : Connection}

theorem await_of_none (h : c.read? = none) : c.await counter = (none, c) := by
  rw [await]
  split <;> simp_all

theorem await_of_error {e : ConnectionError} (h : c.read? = some (.error e, d)) :
    c.await counter = (some (.failed e), d) := by
  rw [await]
  split <;> simp_all

theorem await_of_ack {bytes : Bytes} (h : c.read? = some (.ok bytes, d))
    (ack : Ack.decode bytes = .ok counter) : c.await counter = (some .acknowledged, d) := by
  rw [await]
  split <;> simp_all

theorem await_of_other {bytes : Bytes} (h : c.read? = some (.ok bytes, d))
    (other : Ack.decode bytes ≠ .ok counter) : c.await counter = d.await counter := by
  rw [await]
  split <;> simp_all

/-- A closed sender waits for nothing; a connection that cannot be read is closed. -/
def resolve (closed : Bool) (counter : UInt64) (c : Connection) : Option AckOutcome × Connection :=
  if closed then (some .cancelled, c)
  else
    match c.await counter with
    | (some (.failed e), d) => (some (.failed e), d.close.2)
    | (outcome, d) => (outcome, d)

/-- How a connection stands to a wait that began with another state of it: what is left to be read
comes to the same, or the wait has ended. -/
inductive Stands (closed : Bool) (counter : UInt64) (c : Connection) :
    Option AckOutcome → Connection → Prop where
  | waits {d : Connection} : closed = false → d.await counter = c.await counter →
      Stands closed counter c none d
  /-- The sender is closed, and the wait will end for that. -/
  | idles : closed = true → Stands closed counter c none c
  | ended {outcome : AckOutcome} {d : Connection} :
      c.resolve closed counter = (some outcome, d) → Stands closed counter c (some outcome) d

theorem Stands.start (closed : Bool) (counter : UInt64) (c : Connection) :
    Stands closed counter c none c := by
  cases closed with
  | true => exact .idles rfl
  | false => exact .waits rfl rfl

/-- A wait that has ended has come to what was to be expected. -/
theorem Stands.resolve_eq {closed : Bool} {outcome : AckOutcome}
    (h : Stands closed counter c (some outcome) d) :
    c.resolve closed counter = (some outcome, d) := by
  cases h with
  | ended hresolve => exact hresolve

/-- A wait that finds nothing to read has come to what was to be expected, too. -/
theorem Stands.resolve_of_none {closed : Bool} (h : Stands closed counter c none d)
    (isOpen : closed = false) (unread : d.read? = none) :
    c.resolve closed counter = (none, d) := by
  cases h with
  | waits _ hsame =>
    rw [resolve, isOpen, if_neg Bool.false_ne_true, ← hsame, await_of_none unread]
  | idles hclosed => cases isOpen.symm.trans hclosed

end Connection

namespace AckWait

variable {counter : UInt64} {s s' : Sender} {w w' : Wire} {a a' : AckWait}

theorem wire_of_registered {w : Wire} (registered : s.registry.get? a.id = some a.conn) :
    (s.closeAndRemove w a.id).2.2 = (w.close a.conn).2 :=
  congrArg Prod.snd (Registry.closeAndRemove_of_get? registered)

/-- A step of a wait leaves every connection as it is but its own, and the other end of that. -/
theorem Move.elsewhere (h : Move counter s w a s' w' a')
    (registered : s.registry.get? a.id = some a.conn) {f : Ref} (hf : a.conn ≠ f)
    (far : w.peer? a.conn ≠ some f) : w'.conn f = w.conn f := by
  have hset (v : Wire) (c : Connection) : (v.set a.conn c).conn f = v.conn f := by
    rw [Wire.conn_set, if_neg fun heq => hf heq.1]
  cases h with
  | cancel => rfl
  | acknowledge _ _ hread | ignore _ _ hread =>
    obtain ⟨c, -, rfl⟩ := Wire.conn_read hread
    exact hset w c
  | fail _ _ hread =>
    obtain ⟨c, -, rfl⟩ := Wire.conn_read hread
    rw [wire_of_registered registered, Wire.conn_close_eq (w := w.set a.conn c) far,
      hset, hset]

theorem Move.joints (h : Move counter s w a s' w' a') : w'.joints = w.joints := by
  cases h with
  | cancel => rfl
  | acknowledge _ _ hread | ignore _ _ hread =>
    obtain ⟨c, -, rfl⟩ := Wire.conn_read hread
    rfl
  | fail _ _ hread =>
    obtain ⟨c, -, rfl⟩ := Wire.conn_read hread
    exact s.registry.joints_closeAndRemove _ _

/-- A wait that fails unregisters what is registered under its id, and any other step nothing. -/
theorem Move.mem_entries (h : Move counter s w a s' w' a') (c : String × Ref) :
    c ∈ s'.registry.entries ↔
      c ∈ s.registry.entries ∧ ∀ e, a'.outcome = some (.failed e) → c.1 ≠ a.id := by
  cases h with
  | cancel | acknowledge => simp
  | ignore hnone => simp [hnone]
  | @fail e w₁ =>
    have hentries : (s.closeAndRemove w₁ a.id).2.1.registry.entries
        = s.registry.entries.filter fun c => c.1 != a.id :=
      s.registry.entries_closeAndRemove_eq w₁ a.id
    simp [hentries]

/-- Every step of a wait is on the way to what was to be expected. -/
theorem Move.stands (h : Move counter s w a s' w' a')
    (registered : s.registry.get? a.id = some a.conn) (hr : a.conn < w.connections.length)
    (far : w.peer? a.conn ≠ some a.conn) {c : Connection}
    (hc : c.Stands s.cancel.closed counter none (w.conn a.conn)) :
    c.Stands s.cancel.closed counter a'.outcome (w'.conn a.conn) := by
  have hself (v : Wire) (hv : a.conn < v.connections.length) (d : Connection) :
      (v.set a.conn d).conn a.conn = d := by rw [Wire.conn_set, if_pos ⟨rfl, hv⟩]
  have hopened (hopen : s.cancel.closed = false) :
      (w.conn a.conn).await counter = c.await counter := by
    cases hc with
    | waits _ hsame => exact hsame
    | idles hclosed => cases hopen.symm.trans hclosed
  cases h with
  | cancel hnone hclosed =>
    cases hc with
    | waits hopen => cases hopen.symm.trans hclosed
    | idles => exact .ended (by rw [Connection.resolve, if_pos hclosed])
  | acknowledge hnone hopen hread hdec =>
    obtain ⟨d, hd, rfl⟩ := Wire.conn_read hread
    have hawait := (hopened hopen).symm.trans (Connection.await_of_ack hd hdec)
    rw [hself w hr]
    exact .ended (by simp [Connection.resolve, hopen, hawait])
  | ignore hnone hopen hread hdec =>
    obtain ⟨d, hd, rfl⟩ := Wire.conn_read hread
    rw [hnone, hself w hr]
    exact .waits hopen ((Connection.await_of_other hd hdec).symm.trans (hopened hopen))
  | fail hnone hopen hread =>
    obtain ⟨d, hd, rfl⟩ := Wire.conn_read hread
    have hawait := (hopened hopen).symm.trans (Connection.await_of_error hd)
    have hlt : a.conn < (w.set a.conn d).connections.length := by
      rw [Wire.set, List.length_set]
      exact hr
    rw [wire_of_registered registered, Wire.conn_close_eq (w := w.set a.conn d) far,
      hself _ hlt, hself w hr]
    exact .ended (by simp [Connection.resolve, hopen, hawait])

end AckWait

end BlockFeed
