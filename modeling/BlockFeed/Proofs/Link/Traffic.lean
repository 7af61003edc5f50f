import BlockFeed.Link.Registry

/-!
# Traffic

Which messages have arrived at the connections of a wire, and what each operation adds to them.

## Main definitions

* `Connection.messages`: every message that has arrived at a connection, read or not.
* `Connection.consumed`: those of them that have been read.
* `Wire.Brings`: one wire follows another, and certain messages have arrived in between.

## Design notes

Only a write that is accepted brings a message, and only to the other end of its link. Every other
operation is `Wire.Keeps`: it may read, fail, open or close connections, but no message arrives.
-/

namespace BlockFeed

/-- The message that has arrived, if it is not a failure. -/
def Inbound.message? : Inbound → Option Bytes
  | .data bytes => some bytes
  | .failure _ => none

namespace Connection

/-- Every message that has arrived, read or not, from the first to the last. -/
def messages (c : Connection) : List Bytes := (c.taken ++ c.inbound).filterMap Inbound.message?

def consumed (c : Connection) : List Bytes := c.taken.filterMap Inbound.message?

theorem consumed_sublist (c : Connection) : c.consumed.Sublist c.messages := by
  rw [messages, List.filterMap_append]
  exact List.sublist_append_left _ _

/-- The connection has become another state of itself, at which messages have arrived. -/
structure Brings (c : Connection) (news : List Bytes) (c' : Connection) : Prop where
  id : c'.id = c.id
  echo : c'.echo = c.echo
  messages : c'.messages = c.messages ++ news
  consumed : c.consumed <+: c'.consumed

theorem Brings.refl (c : Connection) : c.Brings [] c :=
  ⟨rfl, rfl, by simp, List.prefix_refl _⟩

theorem Brings.trans {c c' c'' : Connection} {news more : List Bytes} (h : c.Brings news c')
    (h' : c'.Brings more c'') : c.Brings (news ++ more) c'' :=
  ⟨h'.id.trans h.id, h'.echo.trans h.echo, by rw [h'.messages, h.messages, List.append_assoc],
    h.consumed.trans h'.consumed⟩

theorem brings_of_eq {c c' : Connection} (id : c'.id = c.id) (echo : c'.echo = c.echo)
    (taken : c'.taken = c.taken) (inbound : c'.inbound = c.inbound) : c.Brings [] c' := by
  refine ⟨id, echo, ?_, ?_⟩
  · rw [messages, messages, taken, inbound, List.append_nil]
  · have hsame : c'.consumed = c.consumed := by rw [consumed, consumed, taken]
    exact hsame.symm ▸ List.prefix_refl c.consumed

theorem brings_afterError (c : Connection) (e : ConnectionError) :
    c.Brings [] (c.afterError e) := by
  rw [afterError]
  split
  · exact brings_of_eq rfl rfl rfl rfl
  · exact .refl c

/-- Taking what has arrived first brings nothing: it was there before. -/
theorem brings_take {c : Connection} {first : Inbound} {rest : List Inbound}
    (h : c.inbound = first :: rest) : c.Brings [] (c.take first rest) := by
  refine ⟨rfl, rfl, ?_, ?_⟩
  · simp [messages, take, h]
  · simp [consumed, take, List.filterMap_append]

theorem brings_next {c c' : Connection} {result : Except ConnectionError Bytes}
    (h : c.next? = some (result, c')) : c.Brings [] c' := by
  rw [next?] at h
  split at h
  · next hin =>
    obtain ⟨-, rfl⟩ : _ ∧ c.take _ _ = c' := by simpa using h
    exact brings_take hin
  · next e rest hin =>
    obtain ⟨-, rfl⟩ : _ ∧ (c.take _ _).afterError _ = c' := by simpa using h
    exact (brings_take hin).trans (brings_afterError _ e)
  · split at h
    · obtain ⟨-, rfl⟩ : _ ∧ c.afterError _ = c' := by simpa using h
      exact brings_afterError c _
    · cases h

theorem brings_read {c c' : Connection} {result : Except ConnectionError Bytes}
    (h : c.read? = some (result, c')) : c.Brings [] c' := by
  rw [read?] at h
  split at h
  · exact brings_next h
  · obtain ⟨-, rfl⟩ : _ ∧ c = c' := by simpa using h
    exact .refl c

/-- A message that is read has arrived, and is the last of those that have been read. -/
theorem consumed_of_read {c c' : Connection} {bytes : Bytes} (h : c.read? = some (.ok bytes, c')) :
    bytes ∈ c.messages ∧ c'.consumed = c.consumed ++ [bytes] := by
  rw [read?] at h
  split at h
  · rw [next?] at h
    split at h
    · next b rest hin =>
      obtain ⟨rfl, rfl⟩ : b = bytes ∧ c.take (.data b) rest = c' := by simpa using h
      constructor
      · simp [messages, hin, Inbound.message?]
      · simp [consumed, take, Inbound.message?]
    · cases h
    · split at h <;> cases h
  · cases h

theorem brings_close (c : Connection) : c.Brings [] c.close.2 := by
  rw [close]
  dsimp only
  split <;> exact brings_of_eq rfl rfl rfl rfl

/-- A write to a connection that answers nothing of itself brings that connection no message. -/
theorem brings_write {c c' : Connection} {bytes : Bytes} {result : Except ConnectionError Unit}
    (mute : c.echo = none) (h : c.write bytes = (result, c')) : c.Brings [] c' := by
  rw [write] at h
  split at h
  · rw [send] at h
    split at h
    · next e _ =>
      obtain ⟨-, rfl⟩ : _ ∧ (c.record bytes (some e)).afterError e = c' := by simpa using h
      exact (brings_of_eq rfl rfl rfl rfl : c.Brings [] (c.record bytes (some e))).trans
        (brings_afterError _ e)
    · have hreply : c.reply bytes = [] := by simp [reply, mute]
      obtain ⟨-, rfl⟩ := Prod.mk.inj h
      exact brings_of_eq rfl rfl rfl (by simp [hreply])
  · obtain ⟨-, rfl⟩ := Prod.mk.inj h
    exact brings_of_eq rfl rfl rfl rfl

end Connection

/-- What may happen to a connection while nobody but those who use the link puts messages on it. -/
def Occurrence.Quiet : Occurrence → Prop
  | .arrive items => ∀ item ∈ items, item.message? = none
  | .setEcho offset => offset = none
  | .finish | .planWrites .. | .setOpen _ => True

theorem Connection.brings_undergo {c : Connection} {o : Occurrence} (mute : c.echo = none)
    (quiet : o.Quiet) : c.Brings [] (c.undergo o) := by
  cases o with
  | arrive items =>
    have hnone : items.filterMap Inbound.message? = [] := List.filterMap_eq_nil_iff.mpr quiet
    refine ⟨rfl, rfl, ?_, List.prefix_refl _⟩
    simp [messages, undergo, hnone]
  | finish => exact brings_of_eq rfl rfl rfl rfl
  | planWrites plan afterPlan => exact brings_of_eq rfl rfl rfl rfl
  | setOpen isOpen => exact brings_of_eq rfl rfl rfl rfl
  | setEcho offset =>
    obtain rfl : offset = none := quiet
    exact brings_of_eq rfl (mute.symm ▸ rfl) rfl rfl

namespace Wire

/-- The wire has become another state of itself, and messages have arrived at its connections. -/
structure Brings (w : Wire) (news : Ref → List Bytes) (w' : Wire) : Prop where
  joints : w'.joints = w.joints
  size : w'.connections.length = w.connections.length
  conn : ∀ r, (w.conn r).Brings (news r) (w'.conn r)

/-- The wire has become another state of itself, and no message has arrived. -/
abbrev Keeps (w w' : Wire) : Prop := w.Brings (fun _ => []) w'

/-- No connection answers of itself. -/
def Mute (w : Wire) : Prop := ∀ r, (w.conn r).echo = none

/-- What arrives where if a message is accepted at a place: that message at the other end. -/
def arrivals (w : Wire) (r : Ref) (bytes : Bytes) (f : Ref) : List Bytes :=
  if w.peer? r = some f ∧ f < w.connections.length then [bytes] else []

theorem mem_arrivals {w : Wire} {r f : Ref} {bytes b : Bytes} (h : b ∈ w.arrivals r bytes f) :
    w.peer? r = some f ∧ b = bytes := by
  rw [arrivals] at h
  split at h
  · next hf => exact ⟨hf.1, List.mem_singleton.mp h⟩
  · cases h

theorem Keeps.refl (w : Wire) : w.Keeps w := ⟨rfl, rfl, fun _ => .refl _⟩

theorem Brings.trans {w w' w'' : Wire} {news more : Ref → List Bytes} (h : w.Brings news w')
    (h' : w'.Brings more w'') : w.Brings (fun r => news r ++ more r) w'' :=
  ⟨h'.joints.trans h.joints, h'.size.trans h.size, fun r => (h.conn r).trans (h'.conn r)⟩

theorem Keeps.trans {w w' w'' : Wire} (h : w.Keeps w') (h' : w'.Keeps w'') : w.Keeps w'' :=
  Brings.trans h h'

theorem Brings.peer? {w w' : Wire} {news : Ref → List Bytes} (h : w.Brings news w') (r : Ref) :
    w'.peer? r = w.peer? r := by
  rw [Wire.peer?, Wire.peer?, h.joints]

theorem Brings.mute {w w' : Wire} {news : Ref → List Bytes} (h : w.Brings news w')
    (mute : w.Mute) : w'.Mute := fun r => (h.conn r).echo.trans (mute r)

theorem Keeps.messages {w w' : Wire} (h : w.Keeps w') (r : Ref) :
    (w'.conn r).messages = (w.conn r).messages := by
  rw [(h.conn r).messages, List.append_nil]

theorem keeps_set {w : Wire} {r : Ref} {c : Connection} (h : (w.conn r).Brings [] c) :
    w.Keeps (w.set r c) := by
  refine ⟨rfl, by simp [set], fun r' => ?_⟩
  rw [conn_set]
  split
  · next hr => exact hr.1 ▸ h
  · exact .refl _

theorem keeps_undergo {w : Wire} {r : Ref} {o : Occurrence} (mute : w.Mute) (quiet : o.Quiet) :
    w.Keeps (w.undergo r o) :=
  keeps_set (Connection.brings_undergo (mute r) quiet)

theorem keeps_read {w w' : Wire} {r : Ref} {result : Except ConnectionError Bytes}
    (h : w.read? r = some (result, w')) : w.Keeps w' := by
  obtain ⟨⟨result', c⟩, hc, heq⟩ := Option.map_eq_some_iff.mp h
  obtain ⟨rfl, rfl⟩ := Prod.mk.inj heq
  exact keeps_set (Connection.brings_read hc)

/-- Where no connection was put there is nothing to read. -/
theorem conn_of_le {w : Wire} {r : Ref} (h : w.connections.length ≤ r) : w.conn r = {} := by
  rw [conn, List.getD_eq_getElem?_getD, List.getElem?_eq_none h, Option.getD_none]

theorem lt_of_read {w w' : Wire} {r : Ref} {bytes : Bytes} (h : w.read? r = some (.ok bytes, w')) :
    r < w.connections.length := by
  rcases Nat.lt_or_ge r w.connections.length with hr | hr
  · exact hr
  · obtain ⟨⟨result, c⟩, hc, heq⟩ := Option.map_eq_some_iff.mp h
    obtain ⟨rfl, -⟩ := Prod.mk.inj heq
    simp [conn_of_le hr, Connection.read?] at hc

/-- A message that is read at a place has arrived there, and is the last of those read there. -/
theorem consumed_of_read {w w' : Wire} {r : Ref} {bytes : Bytes}
    (h : w.read? r = some (.ok bytes, w')) :
    bytes ∈ (w.conn r).messages ∧ (w'.conn r).consumed = (w.conn r).consumed ++ [bytes] := by
  have hr := lt_of_read h
  obtain ⟨⟨result, c⟩, hc, heq⟩ := Option.map_eq_some_iff.mp h
  obtain ⟨rfl, rfl⟩ := Prod.mk.inj heq
  rw [conn_set, if_pos ⟨rfl, hr⟩]
  exact Connection.consumed_of_read hc

theorem keeps_close {w : Wire} (mute : w.Mute) (r : Ref) : w.Keeps (w.close r).2 := by
  have hset : w.Keeps (w.set r (w.conn r).close.2) := keeps_set (Connection.brings_close _)
  rw [close]
  dsimp only
  split
  · -- what the other end is told is a failure to read, not a message
    refine hset.trans ?_
    rw [hangUp]
    split
    · exact keeps_undergo (hset.mute mute) (by simp [Occurrence.Quiet, Inbound.message?])
    · exact .refl _
  · exact hset

theorem keeps_of_write_error {w w' : Wire} {r : Ref} {bytes : Bytes} {e : ConnectionError}
    (mute : w.Mute) (h : w.write r bytes = (.error e, w')) : w.Keeps w' := by
  rw [write] at h
  cases hc : (w.conn r).write bytes with
  | mk result c =>
    rw [hc] at h
    cases result with
    | ok u => cases (Prod.mk.inj h).1
    | error e' =>
      obtain ⟨-, rfl⟩ := Prod.mk.inj h
      exact keeps_set (Connection.brings_write (mute r) hc)

/-- A message that is accepted arrives at the other end, and nothing else arrives. -/
theorem brings_of_write {w w' : Wire} {r : Ref} {bytes : Bytes} (mute : w.Mute)
    (h : w.write r bytes = (.ok (), w')) : w.Brings (w.arrivals r bytes) w' := by
  rw [write] at h
  cases hc : (w.conn r).write bytes with
  | mk result c =>
    rw [hc] at h
    cases result with
    | error e => cases (Prod.mk.inj h).1
    | ok u =>
      obtain ⟨-, rfl⟩ := Prod.mk.inj h
      have hset : w.Keeps (w.set r c) := keeps_set (Connection.brings_write (mute r) hc)
      rw [carry, hset.peer?]
      cases hpeer : w.peer? r with
      | none =>
        have hnone : w.arrivals r bytes = fun _ => [] := by
          funext f
          simp [arrivals, hpeer]
        rw [hnone]
        exact hset
      | some p =>
        refine ⟨hset.joints, by simp [undergo, set], fun f => ?_⟩
        dsimp only
        rw [undergo, conn_set, hset.size]
        -- the end that wrote may be its own partner, so both changes can be to one connection
        have hf := hset.conn f
        by_cases hp : p = f ∧ p < w.connections.length
        · obtain ⟨rfl, hlt⟩ := hp
          rw [if_pos ⟨rfl, hlt⟩, arrivals, if_pos ⟨hpeer, hlt⟩]
          refine hf.trans ⟨rfl, rfl, ?_, List.prefix_refl _⟩
          simp [Connection.messages, Connection.undergo, Inbound.message?]
        · have hno : ¬(w.peer? r = some f ∧ f < w.connections.length) := by
            rintro ⟨hsome, hlt⟩
            rw [hpeer] at hsome
            obtain rfl := Option.some.inj hsome
            exact hp ⟨rfl, hlt⟩
          rw [if_neg hp, arrivals, if_neg hno]
          exact hf

theorem peer?_join (w : Wire) (a b r : Ref) :
    (w.join a b).peer? r = if r = a then some b else if r = b then some a else w.peer? r := by
  rw [peer?, join, List.lookup_cons, List.lookup_cons]
  by_cases ha : r = a
  · simp [ha]
  · rw [beq_false_of_ne ha, if_neg ha]
    by_cases hb : r = b
    · simp [hb]
    · rw [beq_false_of_ne hb, if_neg hb]
      rfl

theorem length_add (w : Wire) (c : Connection) :
    (w.add c).1.connections.length = w.connections.length + 1 := by
  simp [add]

theorem conn_add (w : Wire) (c : Connection) (r : Ref) :
    (w.add c).1.conn r = if r = w.connections.length then c else w.conn r := by
  rw [add, conn, conn, List.getD_eq_getElem?_getD, List.getD_eq_getElem?_getD]
  rcases Nat.lt_trichotomy r w.connections.length with hr | rfl | hr
  · rw [if_neg (Nat.ne_of_lt hr), List.getElem?_append_left hr]
  · simp
  · have hout : (w.connections ++ [c]).length ≤ r := by
      rw [List.length_append, List.length_singleton]
      exact hr
    rw [if_neg (Nat.ne_of_gt hr), List.getElem?_eq_none hout,
      List.getElem?_eq_none (Nat.le_of_lt hr)]

/-- A connection at which nothing has arrived changes nothing for the others, nor for its place. -/
theorem messages_add (w : Wire) {c : Connection} (h : c.messages = []) (r : Ref) :
    ((w.add c).1.conn r).messages = (w.conn r).messages := by
  rw [conn_add]
  split
  · next hr => rw [h, conn_of_le (Nat.le_of_eq hr.symm)]; rfl
  · rfl

end Wire

namespace Registry

variable {g : Registry} {w : Wire}

theorem keeps_closeAndRemove (mute : w.Mute) (id : String) :
    w.Keeps (g.closeAndRemove w id).2.2 := by
  rw [closeAndRemove]
  split
  · exact .refl w
  · next r _ =>
    have hclose := Wire.keeps_close mute r
    split
    · next w' heq => rw [heq] at hclose; exact hclose
    · next e w' heq => rw [heq] at hclose; exact hclose

theorem entries_closeAndRemove (id : String) :
    (g.closeAndRemove w id).2.1.entries.Sublist g.entries := by
  rw [closeAndRemove]
  split
  · exact List.Sublist.refl _
  · split <;> exact List.filter_sublist

theorem keeps_closeEach (mute : w.Mute) (ids : List String) : w.Keeps (g.closeEach w ids).2 := by
  induction ids generalizing g w with
  | nil => exact .refl w
  | cons id rest ih =>
    have hfirst := keeps_closeAndRemove (g := g) mute id
    exact hfirst.trans (ih (hfirst.mute mute))

theorem entries_closeEach (ids : List String) :
    (g.closeEach w ids).1.entries.Sublist g.entries := by
  induction ids generalizing g w with
  | nil => exact List.Sublist.refl _
  | cons id rest ih => exact ih.trans (entries_closeAndRemove id)

theorem keeps_closeAll (mute : w.Mute) : w.Keeps (g.closeAll w).2 := keeps_closeEach mute _

theorem entries_closeAll : (g.closeAll w).1.entries.Sublist g.entries := entries_closeEach _

theorem entries_removeClosed : (g.removeClosed w).entries.Sublist g.entries := List.filter_sublist

/-- A registered connection was so before, or is the one that was added. -/
theorem mem_add {r : Ref} {e : String × Ref} (h : e ∈ (g.add w r).entries) :
    e ∈ g.entries ∨ e = ((w.conn r).id, r) := by
  rw [add, Table.insert] at h
  rcases List.mem_append.mp h with h | h
  · exact .inl (List.mem_filter.mp h).1
  · exact .inr (List.mem_singleton.mp h)

end Registry

end BlockFeed
