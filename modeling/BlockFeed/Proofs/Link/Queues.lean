import BlockFeed.Proofs.Link.Places
import BlockFeed.Proofs.Sender.Closing

/-!
# Queues of connections

What waits to be read on a connection: items arrive behind the others, and are taken from the front
by reads alone.

## Main definitions

* `Connection.Fills`: items have arrived, and none was read.
* `Connection.Finds`: what a read finds, and what the connection is then.
* `Connection.Takes`: the first item was taken.
* `Connection.Dry`: nothing waits to be read, and more may arrive.

## Main results

* `Connection.finds_of_read`, `Connection.dry_of_read_eq_none`: what a read that has an answer
  finds, and where a read has none.
* `Wire.takes_of_read`: a read takes the first item, unless the connection is gone.
* `Wire.fills_close`, `Registry.fills_closeAndRemove`: closing reads nothing.
-/

namespace BlockFeed

namespace Connection

variable {c c' c'' : Connection}

/-- Items have arrived, and none was read. -/
structure Fills (c c' : Connection) : Prop where
  taken : c'.taken = c.taken
  inbound : c.inbound <+: c'.inbound

theorem Fills.refl (c : Connection) : c.Fills c := ⟨rfl, List.prefix_rfl⟩

theorem Fills.of_eq (h : c = c') : c.Fills c' := h ▸ .refl c

theorem Fills.trans (h : c.Fills c') (h' : c'.Fills c'') : c.Fills c'' :=
  ⟨h'.taken.trans h.taken, h.inbound.trans h'.inbound⟩

@[simp] theorem inbound_afterError (c : Connection) (e : ConnectionError) :
    (c.afterError e).inbound = c.inbound := by
  rw [afterError]
  split <;> rfl

@[simp] theorem taken_afterError (c : Connection) (e : ConnectionError) :
    (c.afterError e).taken = c.taken := by
  rw [afterError]
  split <;> rfl

theorem fills_afterError (c : Connection) (e : ConnectionError) : c.Fills (c.afterError e) :=
  ⟨c.taken_afterError e, by simp⟩

theorem fills_close (c : Connection) : c.Fills c.close.2 := by
  rw [close]
  dsimp only
  split <;> exact ⟨rfl, List.prefix_rfl⟩

theorem fills_undergo (c : Connection) (o : Occurrence) : c.Fills (c.undergo o) := by
  cases o with
  | arrive items => exact ⟨rfl, List.prefix_append _ _⟩
  | finish | planWrites | setOpen | setEcho => exact ⟨rfl, List.prefix_rfl⟩

/-- What a read finds, and what the connection is then. -/
inductive Finds (c : Connection) : Except ConnectionError Bytes → Connection → Prop where
  | message {bytes : Bytes} {rest : List Inbound} : c.isOpen = true →
      c.inbound = .data bytes :: rest → Finds c (.ok bytes) (c.take (.data bytes) rest)
  | failure {e : ConnectionError} {rest : List Inbound} : c.isOpen = true →
      c.inbound = .failure e :: rest →
      Finds c (.error e) ((c.take (.failure e) rest).afterError e)
  | ended : c.isOpen = true → c.inbound = [] → c.ended = true →
      Finds c (.error .closedByPeer) (c.afterError .closedByPeer)
  | notOpen : c.isOpen = false → Finds c (.error .notOpen) c

theorem finds_of_read {result : Except ConnectionError Bytes} (h : c.read? = some (result, c')) :
    c.Finds result c' := by
  rw [read?] at h
  split at h
  · next hopen =>
    rw [next?] at h
    split at h
    · next hin =>
      obtain ⟨rfl, rfl⟩ := Prod.mk.inj (Option.some.inj h)
      exact .message hopen hin
    · next hin =>
      obtain ⟨rfl, rfl⟩ := Prod.mk.inj (Option.some.inj h)
      exact .failure hopen hin
    · next hin =>
      split at h
      · next hended =>
        obtain ⟨rfl, rfl⟩ := Prod.mk.inj (Option.some.inj h)
        exact .ended hopen hin hended
      · cases h
  · next hopen =>
    obtain ⟨rfl, rfl⟩ := Prod.mk.inj (Option.some.inj h)
    exact .notOpen (Bool.eq_false_iff.mpr hopen)

/-- The first of the items that wait to be read was taken. -/
def Takes (c : Connection) (i : Inbound) (c' : Connection) : Prop :=
  c.inbound = i :: c'.inbound ∧ c'.taken = c.taken ++ [i]

/-- Nothing waits to be read, and more may arrive. -/
def Dry (c : Connection) : Prop := c.isOpen = true ∧ c.inbound = [] ∧ c.ended = false

theorem dry_of_read_eq_none (h : c.read? = none) : c.Dry := by
  rw [read?] at h
  split at h
  · next hopen =>
    rw [next?] at h
    split at h
    · cases h
    · cases h
    · next hin =>
      split at h
      · cases h
      · next hended => exact ⟨hopen, hin, Bool.eq_false_iff.mpr hended⟩
  · cases h

end Connection

section Wire

variable {w w' : Wire} {r : Ref}

theorem Wire.fills_set {c : Connection} (h : (w.conn r).Fills c) (f : Ref) :
    (w.conn f).Fills ((w.set r c).conn f) := by
  rw [conn_set]
  split
  · next hf => exact hf.1 ▸ h
  · exact .refl _

/-- An item waits to be read only on a connection that exists. -/
theorem Wire.conn_set_of_inbound {i : Inbound} {rest : List Inbound}
    (h : (w.conn r).inbound = i :: rest) (c : Connection) : (w.set r c).conn r = c := by
  have hlt : r < w.connections.length := by
    refine Nat.lt_of_not_le fun hle => ?_
    rw [conn_of_le hle] at h
    cases h
  rw [conn_set, if_pos ⟨rfl, hlt⟩]

/-- A read takes the first item, unless it tells that the connection is gone. -/
theorem Wire.takes_of_read {result : Except ConnectionError Bytes}
    (h : w.read? r = some (result, w')) (there : ∀ e, result = .error e → e.isClosed = false) :
    ∃ i, (w.conn r).Takes i (w'.conn r) := by
  obtain ⟨c, hc, rfl⟩ := conn_read h
  cases Connection.finds_of_read hc with
  | message _ hin =>
    rw [conn_set_of_inbound hin]
    exact ⟨_, hin, rfl⟩
  | @failure e rest _ hin =>
    rw [conn_set_of_inbound hin]
    exact ⟨.failure e, by rw [Connection.inbound_afterError]; exact hin,
      by rw [Connection.taken_afterError]; rfl⟩
  | ended | notOpen => cases there _ rfl

theorem Wire.fills_close (w : Wire) (r f : Ref) : (w.conn f).Fills ((w.close r).2.conn f) := by
  have hset := Wire.fills_set (w.conn r).fills_close f
  rw [close]
  dsimp only
  split
  · -- the other end, if there is one, is told
    rw [hangUp]
    split
    · exact hset.trans (Wire.fills_set (Connection.fills_undergo _ _) f)
    · exact hset
  · exact hset

theorem Registry.fills_closeAndRemove (g : Registry) (w : Wire) (id : String) (f : Ref) :
    (w.conn f).Fills ((g.closeAndRemove w id).2.2.conn f) := by
  cases h : g.get? id with
  | none =>
    rw [closeAndRemove_of_none h]
    exact .refl _
  | some r =>
    rw [closeAndRemove_of_get? h]
    exact w.fills_close r f

end Wire

end BlockFeed
