import BlockFeed.Link.Registry

/-!
# Use of connections

Reading from a connection and writing to it never close it in anybody's name, and never open it;
closing it does not open it either.

## Main definitions

* `Connection.Used`, `Wire.Used`: what is left as it is by whoever reads and writes.
* `Wire.Wanes`: what is left as it is also by whoever closes.
-/

namespace BlockFeed

namespace Connection

/-- The connection after it has been used: it was not closed by its owner, and it did not open. -/
structure Used (c c' : Connection) : Prop where
  id : c'.id = c.id
  closes : c'.closes = c.closes
  isOpen : c'.isOpen = true → c.isOpen = true

variable {c c' c'' : Connection}

theorem Used.refl (c : Connection) : c.Used c := ⟨rfl, rfl, fun hopen => hopen⟩

theorem Used.trans (h : c.Used c') (h' : c'.Used c'') : c.Used c'' :=
  ⟨h'.id.trans h.id, h'.closes.trans h.closes, fun hopen => h.isOpen (h'.isOpen hopen)⟩

theorem used_afterError (c : Connection) (e : ConnectionError) : c.Used (c.afterError e) := by
  rw [afterError]
  split
  · exact ⟨rfl, rfl, nofun⟩
  · exact .refl c

theorem used_take (c : Connection) (first : Inbound) (rest : List Inbound) :
    c.Used (c.take first rest) := ⟨rfl, rfl, fun hopen => hopen⟩

theorem used_next {result : Except ConnectionError Bytes} (h : c.next? = some (result, c')) :
    c.Used c' := by
  rw [next?] at h
  split at h
  · obtain ⟨-, rfl⟩ := Prod.mk.inj (Option.some.inj h)
    exact used_take c _ _
  · obtain ⟨-, rfl⟩ := Prod.mk.inj (Option.some.inj h)
    exact (used_take c _ _).trans (used_afterError _ _)
  · split at h
    · obtain ⟨-, rfl⟩ := Prod.mk.inj (Option.some.inj h)
      exact used_afterError c _
    · cases h

theorem used_read {result : Except ConnectionError Bytes} (h : c.read? = some (result, c')) :
    c.Used c' := by
  rw [read?] at h
  split at h
  · exact used_next h
  · obtain ⟨-, rfl⟩ := Prod.mk.inj (Option.some.inj h)
    exact .refl c

/-- A connection that drops is no longer open once an error has told that it is gone. -/
theorem isOpen_of_read_error {e : ConnectionError} (h : c.read? = some (.error e, c')) :
    c'.isOpen = false ↔ c.isOpen = false ∨ c.drops = true ∧ e.isClosed = true := by
  have hafter (d : Connection) (hopen : d.isOpen = c.isOpen) (hdrops : d.drops = c.drops) :
      (d.afterError e).isOpen = false ↔ c.isOpen = false ∨ c.drops = true ∧ e.isClosed = true := by
    rw [afterError, hdrops]
    by_cases hgone : c.drops = true ∧ e.isClosed = true
    · simp [hgone]
    · rw [if_neg (by simpa using hgone), hopen]
      exact (or_iff_left hgone).symm
  rw [read?] at h
  split at h
  · rw [next?] at h
    split at h
    · cases h
    · obtain ⟨herror, rfl⟩ := Prod.mk.inj (Option.some.inj h)
      obtain rfl := Except.error.inj herror
      exact hafter _ rfl rfl
    · split at h
      · obtain ⟨herror, rfl⟩ := Prod.mk.inj (Option.some.inj h)
        obtain rfl := Except.error.inj herror
        exact hafter _ rfl rfl
      · cases h
  · next hshut =>
    obtain ⟨-, rfl⟩ := Prod.mk.inj (Option.some.inj h)
    simp [Bool.eq_false_iff.mpr hshut]

theorem used_send {bytes : Bytes} {result : Except ConnectionError Unit}
    (h : c.send bytes = (result, c')) : c.Used c' := by
  rw [send] at h
  split at h
  · next e _ =>
    obtain ⟨-, rfl⟩ := Prod.mk.inj h
    have hrecord : c.Used (c.record bytes (some e)) := ⟨rfl, rfl, fun hopen => hopen⟩
    exact hrecord.trans (used_afterError _ e)
  · obtain ⟨-, rfl⟩ := Prod.mk.inj h
    exact ⟨rfl, rfl, fun hopen => hopen⟩

theorem used_write {bytes : Bytes} {result : Except ConnectionError Unit}
    (h : c.write bytes = (result, c')) : c.Used c' := by
  rw [write] at h
  split at h
  · exact used_send h
  · obtain ⟨-, rfl⟩ := Prod.mk.inj h
    exact ⟨rfl, rfl, fun hopen => hopen⟩

/-- A write takes nothing of what has arrived. -/
theorem taken_write (c : Connection) (bytes : Bytes) :
    (c.write bytes).2.taken = c.taken := by
  have herror (c : Connection) (e : ConnectionError) : (c.afterError e).taken = c.taken := by
    rw [afterError]
    split <;> rfl
  rw [write]
  split
  · rw [send]
    split
    · exact herror _ _
    · rfl
  · rfl

/-- What happens to a connection from outside does not close it in its owner's name. -/
theorem closes_undergo (c : Connection) (o : Occurrence) : (c.undergo o).closes = c.closes := by
  cases o <;> rfl

/-- What happens to a connection from outside does not open it, unless that is what happens. -/
theorem used_undergo (c : Connection) {o : Occurrence} (h : o ≠ .setOpen true) :
    c.Used (c.undergo o) := by
  cases o with
  | setOpen isOpen =>
    cases isOpen with
    | true => exact absurd rfl h
    | false => exact ⟨rfl, rfl, nofun⟩
  | arrive | finish | planWrites | setEcho => exact ⟨rfl, rfl, fun hopen => hopen⟩

end Connection

namespace Wire

/-- The wire after its connections have been used. -/
structure Used (w w' : Wire) : Prop where
  size : w'.connections.length = w.connections.length
  conn : ∀ f, (w.conn f).Used (w'.conn f)

variable {w w' w'' : Wire} {r : Ref}

theorem Used.refl (w : Wire) : w.Used w := ⟨rfl, fun _ => .refl _⟩

theorem Used.trans (h : w.Used w') (h' : w'.Used w'') : w.Used w'' :=
  ⟨h'.size.trans h.size, fun f => (h.conn f).trans (h'.conn f)⟩

theorem used_set {c : Connection} (h : (w.conn r).Used c) : w.Used (w.set r c) := by
  refine ⟨List.length_set, fun f => ?_⟩
  rw [conn_set]
  split
  · next hf => exact hf.1 ▸ h
  · exact .refl _

theorem used_undergo (w : Wire) (r : Ref) {o : Occurrence} (h : o ≠ .setOpen true) :
    w.Used (w.undergo r o) := used_set (Connection.used_undergo _ h)

theorem closes_undergo (w : Wire) (r f : Ref) (o : Occurrence) :
    ((w.undergo r o).conn f).closes = (w.conn f).closes := by
  rw [undergo, conn_set]
  split
  · next hf => exact hf.1 ▸ Connection.closes_undergo _ o
  · rfl

theorem used_read {result : Except ConnectionError Bytes} (h : w.read? r = some (result, w')) :
    w.Used w' := by
  obtain ⟨⟨_, c⟩, hc, heq⟩ := Option.map_eq_some_iff.mp h
  obtain ⟨-, rfl⟩ := Prod.mk.inj heq
  exact used_set (Connection.used_read hc)

theorem used_write {bytes : Bytes} {result : Except ConnectionError Unit}
    (h : w.write r bytes = (result, w')) : w.Used w' := by
  obtain ⟨result', c, hc⟩ : ∃ result' c, (w.conn r).write bytes = (result', c) := ⟨_, _, rfl⟩
  have hset : w.Used (w.set r c) := used_set (Connection.used_write hc)
  rw [write, hc] at h
  cases result' with
  | error e =>
    obtain ⟨-, rfl⟩ := Prod.mk.inj h
    exact hset
  | ok =>
    obtain ⟨-, rfl⟩ := Prod.mk.inj h
    rw [carry]
    split
    · exact hset.trans (used_undergo _ _ nofun)
    · exact hset

theorem taken_undergo (w : Wire) (r f : Ref) (o : Occurrence) :
    ((w.undergo r o).conn f).taken = (w.conn f).taken := by
  rw [undergo, conn_set]
  split
  · next hf =>
    rw [← hf.1]
    cases o <;> rfl
  · rfl

theorem taken_write (w : Wire) (r f : Ref) (bytes : Bytes) :
    ((w.write r bytes).2.conn f).taken = (w.conn f).taken := by
  have hset : ((w.set r ((w.conn r).write bytes).2).conn f).taken = (w.conn f).taken := by
    rw [conn_set]
    split
    · next hf => rw [← hf.1, Connection.taken_write]
    · rfl
  rw [write]
  cases hc : (w.conn r).write bytes with
  | mk result c =>
    rw [hc] at hset
    cases result with
    | error e => exact hset
    | ok u =>
      rw [afterWrite, carry]
      split
      · exact (taken_undergo _ _ _ _).trans hset
      · exact hset

/-- The same connections are there under the same ids, and none has opened. -/
structure Wanes (w w' : Wire) : Prop where
  size : w'.connections.length = w.connections.length
  id : ∀ f, (w'.conn f).id = (w.conn f).id
  isOpen : ∀ f, (w'.conn f).isOpen = true → (w.conn f).isOpen = true

theorem Wanes.refl (w : Wire) : w.Wanes w := ⟨rfl, fun _ => rfl, fun _ hopen => hopen⟩

theorem Wanes.trans (h : w.Wanes w') (h' : w'.Wanes w'') : w.Wanes w'' :=
  ⟨h'.size.trans h.size, fun f => (h'.id f).trans (h.id f),
    fun f hopen => h.isOpen f (h'.isOpen f hopen)⟩

theorem Wanes.shut (h : w.Wanes w') {f : Ref} (hshut : (w.conn f).isOpen = false) :
    (w'.conn f).isOpen = false := by
  rw [Bool.eq_false_iff] at hshut ⊢
  exact fun hopen => hshut (h.isOpen f hopen)

theorem Used.wanes (h : w.Used w') : w.Wanes w' :=
  ⟨h.size, fun f => (h.conn f).id, fun f => (h.conn f).isOpen⟩

theorem wanes_undergo (w : Wire) (r : Ref) {o : Occurrence} (h : o ≠ .setOpen true) :
    w.Wanes (w.undergo r o) := (w.used_undergo r h).wanes

theorem wanes_close (w : Wire) (r : Ref) : w.Wanes (w.close r).2 := by
  obtain ⟨hid, hopen⟩ : (w.conn r).close.2.id = (w.conn r).id ∧
      ((w.conn r).close.2.isOpen = true → (w.conn r).isOpen = true) := by
    rw [Connection.close]
    dsimp only
    split
    · exact ⟨rfl, nofun⟩
    · exact ⟨rfl, fun hopen => hopen⟩
  have hset : w.Wanes (w.set r (w.conn r).close.2) := by
    refine ⟨List.length_set, fun f => ?_, fun f => ?_⟩
    · rw [conn_set]
      split
      · next hf => exact hf.1 ▸ hid
      · rfl
    · rw [conn_set]
      split
      · next hf => exact hf.1 ▸ hopen
      · exact id
  rw [close]
  dsimp only
  split
  · rw [hangUp]
    split
    · exact hset.trans (wanes_undergo _ _ nofun)
    · exact hset
  · exact hset

end Wire

namespace Registry

variable {g : Registry} {w : Wire}

theorem wanes_closeAndRemove (g : Registry) (w : Wire) (id : String) :
    w.Wanes (g.closeAndRemove w id).2.2 := by
  rw [closeAndRemove]
  split
  · exact .refl w
  · next r _ =>
    have hwanes := w.wanes_close r
    split <;> next heq => simpa [heq] using hwanes

theorem wanes_closeEach (g : Registry) (w : Wire) (ids : List String) :
    w.Wanes (g.closeEach w ids).2 := by
  induction ids generalizing g w with
  | nil => exact .refl w
  | cons id rest ih => exact (g.wanes_closeAndRemove w id).trans (ih _ _)

theorem wanes_closeAll (g : Registry) (w : Wire) : w.Wanes (g.closeAll w).2 :=
  g.wanes_closeEach w _

end Registry

end BlockFeed
