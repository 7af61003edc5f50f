import BlockFeed.Proofs.Codec.Messages
import BlockFeed.Link.Registry

/-!
# Load of a wire

How much is left to be done about the connections of a wire: what waits to be read, and connections
that are open and may still be closed.

## Main definitions

* `Connection.load`, `Wire.load`: the load of a connection, and of all connections of a wire.

## Design notes

A message weighs at least as much as the steps that reading it may lead to. A frame is read, handed
over, answered and acknowledged; the acknowledgment is one more message, which is read and leads to
nothing else. An open connection weighs more than the news of its end at the other end of its link,
so nothing gets heavier by closing.
-/

namespace BlockFeed

/-- Replacing one entry of a list changes a sum over the list by what the entries are worth. -/
theorem sum_map_set {α : Type} (f : α → Nat) {l : List α} {i : Nat} {a b : α} (h : l[i]? = some a) :
    ((l.set i b).map f).sum + f a = (l.map f).sum + f b := by
  induction l generalizing i with
  | nil => cases h
  | cons c rest ih =>
    cases i with
    | zero =>
      obtain rfl : c = a := Option.some.inj h
      simp only [List.set_cons_zero, List.map_cons, List.sum_cons]
      omega
    | succ i =>
      have hrest := ih (i := i) h
      simp only [List.set_cons_succ, List.map_cons, List.sum_cons]
      omega

/-- What it takes to deal with what has arrived: a frame is answered, anything else is not. -/
def Inbound.load : Inbound → Nat
  | .data bytes =>
    match Frame.decode bytes with
    | .ok _ => 4
    | .error _ => 1
  | .failure _ => 1

theorem Inbound.load_pos (i : Inbound) : 0 < i.load := by
  cases i with
  | data bytes =>
    rw [load]
    split <;> omega
  | failure e => exact Nat.one_pos

namespace Connection

def load (c : Connection) : Nat := (c.inbound.map Inbound.load).sum + 2 * c.isOpen.toNat

theorem load_afterError (c : Connection) (e : ConnectionError) :
    (c.afterError e).load ≤ c.load := by
  rw [afterError]
  split
  · simp [load]
  · exact Nat.le_refl _

theorem load_take {c : Connection} {first : Inbound} {rest : List Inbound}
    (h : c.inbound = first :: rest) : (c.take first rest).load + first.load = c.load := by
  rw [load, load, h, take, List.map_cons, List.sum_cons]
  dsimp only
  omega

theorem load_read {c c' : Connection} {result : Except ConnectionError Bytes}
    (h : c.read? = some (result, c')) :
    c'.load + ((result.toOption.map fun bytes => Inbound.load (.data bytes)).getD 0) ≤ c.load := by
  rw [read?] at h
  split at h
  · rw [next?] at h
    split at h
    · next bytes rest hin =>
      obtain ⟨rfl, rfl⟩ : .ok bytes = result ∧ c.take _ _ = c' := by simpa using h
      exact Nat.le_of_eq (load_take hin)
    · next e rest hin =>
      obtain ⟨rfl, rfl⟩ : .error e = result ∧ (c.take _ _).afterError e = c' := by simpa using h
      have htake := load_take hin
      have hafter := load_afterError (c.take (.failure e) rest) e
      simp only [Except.toOption, Option.map_none, Option.getD_none]
      omega
    · split at h
      · obtain ⟨rfl, rfl⟩ : .error .closedByPeer = result ∧ c.afterError _ = c' := by simpa using h
        exact load_afterError c _
      · cases h
  · obtain ⟨rfl, rfl⟩ : .error .notOpen = result ∧ c = c' := by simpa using h
    exact Nat.le_refl _

/-- A connection answers of itself with at most one message, which is no frame. -/
theorem load_reply (c : Connection) (bytes : Bytes) :
    ((c.reply bytes).map Inbound.load).sum ≤ 1 := by
  rw [reply]
  split
  · simp [Inbound.load, Frame.decode_ack]
  · simp

/-- An acknowledgment is not answered. -/
theorem reply_ack (c : Connection) (n : UInt64) : c.reply (Ack.encode n) = [] := by
  rw [reply, Frame.decode_ack]
  split
  · next h => cases h
  · rfl

theorem load_write {c c' : Connection} {bytes : Bytes} {result : Except ConnectionError Unit}
    (h : c.write bytes = (result, c')) :
    c'.load ≤ c.load + ((c.reply bytes).map Inbound.load).sum := by
  rw [write] at h
  split at h
  · rw [send] at h
    split at h
    · next e _ =>
      obtain ⟨-, rfl⟩ := Prod.mk.inj h
      have hafter := load_afterError (c.record bytes (some e)) e
      have hrecord : (c.record bytes (some e)).load = c.load := rfl
      omega
    · obtain ⟨-, rfl⟩ := Prod.mk.inj h
      simp only [load, record, List.map_append, List.sum_append]
      omega
  · obtain ⟨-, rfl⟩ := Prod.mk.inj h
    exact Nat.le_add_right _ _

/-- An open connection gets lighter by being closed. -/
theorem load_close (c : Connection) : c.close.2.load + 2 * c.isOpen.toNat = c.load := by
  cases hopen : c.isOpen <;> simp [close, load, hopen]

end Connection

namespace Wire

def load (w : Wire) : Nat := (w.connections.map Connection.load).sum

variable {w w' : Wire}

theorem load_set (w : Wire) (r : Ref) (c : Connection) :
    (w.set r c).load + (w.conn r).load ≤ w.load + c.load := by
  rcases Nat.lt_or_ge r w.connections.length with hlt | hge
  · have hconn : w.connections[r]? = some (w.conn r) := by
      rw [conn, List.getD_eq_getElem?_getD, List.getElem?_eq_getElem hlt, Option.getD_some]
    exact Nat.le_of_eq (sum_map_set Connection.load hconn)
  · have hsame : (w.set r c).load = w.load := by rw [load, set, List.set_eq_of_length_le hge, load]
    have hnone : (w.conn r).load = 0 := by
      rw [conn, List.getD_eq_getElem?_getD, List.getElem?_eq_none hge]
      rfl
    omega

theorem load_arrive (w : Wire) (r : Ref) (i : Inbound) :
    (w.undergo r (.arrive [i])).load ≤ w.load + i.load := by
  have hset := w.load_set r ((w.conn r).undergo (.arrive [i]))
  have hconn : ((w.conn r).undergo (.arrive [i])).load = (w.conn r).load + i.load := by
    simp only [Connection.load, Connection.undergo, List.map_append, List.map_singleton,
      List.sum_append, List.sum_singleton]
    omega
  rw [undergo]
  omega

theorem load_read {r : Ref} {result : Except ConnectionError Bytes}
    (h : w.read? r = some (result, w')) :
    w'.load + ((result.toOption.map fun bytes => Inbound.load (.data bytes)).getD 0) ≤ w.load := by
  obtain ⟨⟨result', c⟩, hc, heq⟩ := Option.map_eq_some_iff.mp h
  obtain ⟨rfl, rfl⟩ := Prod.mk.inj heq
  have hread := Connection.load_read hc
  have hset := w.load_set r c
  dsimp only
  omega

/-- What a write adds is the message at the other end, if it is accepted, and what the connection
answers of itself. -/
theorem load_write {r : Ref} {bytes : Bytes} {result : Except ConnectionError Unit}
    (h : w.write r bytes = (result, w')) :
    w'.load ≤ w.load + (((w.conn r).reply bytes).map Inbound.load).sum
      + Inbound.load (.data bytes) := by
  rw [write] at h
  cases hc : (w.conn r).write bytes with
  | mk result' c =>
    have hwrite := Connection.load_write hc
    have hset := w.load_set r c
    rw [hc] at h
    cases result' with
    | error e =>
      obtain ⟨-, rfl⟩ := Prod.mk.inj h
      omega
    | ok u =>
      obtain ⟨-, rfl⟩ := Prod.mk.inj h
      rw [carry]
      split
      · next p _ =>
        have harrive := (w.set r c).load_arrive p (.data bytes)
        omega
      · omega

theorem load_write_frame {r : Ref} {f : Frame} {result : Except ConnectionError Unit}
    (h : w.write r f.encode = (result, w')) : w'.load ≤ w.load + 5 := by
  have hwrite := load_write h
  have hreply := (w.conn r).load_reply f.encode
  have hframe : Inbound.load (.data f.encode) = 4 := by rw [Inbound.load, Frame.decode_encode]
  omega

theorem load_write_ack {r : Ref} {n : UInt64} {result : Except ConnectionError Unit}
    (h : w.write r (Ack.encode n) = (result, w')) : w'.load ≤ w.load + 1 := by
  have hwrite := load_write h
  have hack : Inbound.load (.data (Ack.encode n)) = 1 := by rw [Inbound.load, Frame.decode_ack]
  rw [Connection.reply_ack, List.map_nil, List.sum_nil] at hwrite
  omega

/-- Closing lets the other end know at most. -/
theorem load_close (w : Wire) (r : Ref) : (w.close r).2.load ≤ w.load := by
  have hclose := (w.conn r).load_close
  have hset := w.load_set r (w.conn r).close.2
  rw [close]
  dsimp only
  split
  · next hdrops =>
    have hopen : (w.conn r).isOpen = true := by
      rw [Bool.and_eq_true] at hdrops
      exact hdrops.2
    rw [hopen, Bool.toNat_true] at hclose
    rw [hangUp]
    split
    · next p _ =>
      have harrive := (w.set r (w.conn r).close.2).load_arrive p (.failure .closedByPeer)
      have hone : Inbound.load (.failure .closedByPeer) = 1 := rfl
      omega
    · omega
  · omega

end Wire

theorem Registry.load_closeAndRemove (g : Registry) (w : Wire) (id : String) :
    (g.closeAndRemove w id).2.2.load ≤ w.load := by
  rw [closeAndRemove]
  split
  · exact Nat.le_refl _
  · next r _ =>
    have hclose := w.load_close r
    split
    · next w' heq => rw [heq] at hclose; exact hclose
    · next e w' heq => rw [heq] at hclose; exact hclose

end BlockFeed
