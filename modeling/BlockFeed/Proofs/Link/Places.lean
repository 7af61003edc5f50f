import BlockFeed.Proofs.Link.Registrations

/-!
# Places of a wire

What the operations of a wire make of the connection at each place: at their own place what the
connection makes of them, and nothing elsewhere but at the other end of the link.

## Main results

* `Wire.conn_read`, `Wire.conn_write`, `Wire.conn_close_eq`: the connections afterwards.
-/

namespace BlockFeed

namespace Wire

variable {w w' : Wire} {r f : Ref} {bytes : Bytes}

theorem conn_undergo_of_ne (hf : r ≠ f) (o : Occurrence) : (w.undergo r o).conn f = w.conn f := by
  rw [undergo, conn_set, if_neg fun h => hf h.1]

/-- A read answers what the connection answers, which is then what the read has made of it. -/
theorem conn_read {result : Except ConnectionError Bytes} (h : w.read? r = some (result, w')) :
    ∃ c, (w.conn r).read? = some (result, c) ∧ w' = w.set r c := by
  obtain ⟨⟨_, c⟩, hc, heq⟩ := Option.map_eq_some_iff.mp h
  obtain ⟨rfl, rfl⟩ := Prod.mk.inj heq
  exact ⟨c, hc, rfl⟩

theorem read?_eq_none : w.read? r = none ↔ (w.conn r).read? = none := Option.map_eq_none_iff

/-- A write answers what the connection answers. -/
theorem result_write (w : Wire) (r : Ref) (bytes : Bytes) :
    (w.write r bytes).1 = ((w.conn r).write bytes).1 := by
  rw [write]
  rcases (w.conn r).write bytes with ⟨_ | _, c⟩ <;> rfl

theorem joints_write (w : Wire) (r : Ref) (bytes : Bytes) :
    (w.write r bytes).2.joints = w.joints := by
  rw [write]
  rcases (w.conn r).write bytes with ⟨_ | _, c⟩
  · rfl
  · rw [afterWrite, carry]
    split <;> rfl

/-- A write leaves every connection as it is but its own, and the other end of that. -/
theorem conn_write (far : w.peer? r ≠ some f) :
    (w.write r bytes).2.conn f = (w.set r ((w.conn r).write bytes).2).conn f := by
  rw [write]
  rcases (w.conn r).write bytes with ⟨_ | _, c⟩
  · rfl
  · rw [afterWrite, carry]
    split
    · next q hq => exact conn_undergo_of_ne (fun heq : q = f => far (heq ▸ hq)) _
    · rfl

theorem joints_close (w : Wire) (r : Ref) : (w.close r).2.joints = w.joints := by
  rw [close]
  dsimp only
  split
  · rw [hangUp]
    split <;> rfl
  · rfl

/-- Closing leaves every connection as it is but its own, and the other end of that. -/
theorem conn_close_eq (far : w.peer? r ≠ some f) :
    (w.close r).2.conn f = (w.set r (w.conn r).close.2).conn f := by
  rw [close]
  dsimp only
  split
  · rw [hangUp]
    split
    · next q hq => exact conn_undergo_of_ne (fun heq : q = f => far (heq ▸ hq)) _
    · rfl
  · rfl

end Wire

theorem Registry.joints_closeAndRemove (g : Registry) (w : Wire) (id : String) :
    (g.closeAndRemove w id).2.2.joints = w.joints := by
  cases h : g.get? id with
  | none => rw [closeAndRemove_of_none h]
  | some r =>
    rw [closeAndRemove_of_get? h]
    exact w.joints_close r

end BlockFeed
