import BlockFeed.Proofs.Link.Traffic

/-!
# Histories of connections

Which writes have been called for at the connections of a wire and which messages have been read,
and what each operation adds to that, whoever puts messages on them.

## Main definitions

* `Connection.Logs`, `Wire.Logs`: one state follows another, with certain writes and reads in
  between.
* `Wire.news`: what a history of the connections has gained from one wire to the next.
-/

namespace BlockFeed

namespace Connection

/-- What has been called for to be written, accepted or not. -/
def offered (c : Connection) : List Bytes := c.writes.map (·.bytes)

/-- The connection has become another state of itself: these writes were called for, and these
messages were read. -/
structure Logs (c : Connection) (calls : List WriteCall) (reads : List Bytes) (c' : Connection) :
    Prop where
  id : c'.id = c.id
  writes : c'.writes = c.writes ++ calls
  consumed : c'.consumed = c.consumed ++ reads

variable {c c' c'' : Connection} {calls more : List WriteCall} {reads others : List Bytes}

theorem Logs.trans (h : c.Logs calls reads c') (h' : c'.Logs more others c'') :
    c.Logs (calls ++ more) (reads ++ others) c'' :=
  ⟨h'.id.trans h.id, by rw [h'.writes, h.writes, List.append_assoc],
    by rw [h'.consumed, h.consumed, List.append_assoc]⟩

theorem logs_of_eq (id : c'.id = c.id) (writes : c'.writes = c.writes)
    (taken : c'.taken = c.taken) : c.Logs [] [] c' :=
  ⟨id, by rw [writes, List.append_nil], by rw [consumed, consumed, taken, List.append_nil]⟩

theorem Logs.refl (c : Connection) : c.Logs [] [] c := logs_of_eq rfl rfl rfl

theorem Logs.written (h : c.Logs calls reads c') :
    c'.written = c.written ++ (calls.filter fun w => w.error.isNone).map (·.bytes) := by
  rw [Connection.written, h.writes, List.filter_append, List.map_append, Connection.written]

theorem Logs.offered (h : c.Logs calls reads c') :
    c'.offered = c.offered ++ calls.map (·.bytes) := by
  rw [Connection.offered, h.writes, List.map_append, Connection.offered]

theorem logs_afterError (c : Connection) (e : ConnectionError) : c.Logs [] [] (c.afterError e) := by
  rw [afterError]
  split
  · exact logs_of_eq rfl rfl rfl
  · exact .refl c

theorem logs_take (c : Connection) (first : Inbound) (rest : List Inbound) :
    c.Logs [] first.message?.toList (c.take first rest) := by
  refine ⟨rfl, (List.append_nil _).symm, ?_⟩
  rw [consumed, take, List.filterMap_append, consumed]
  cases first <;> rfl

/-- What is read is the last that has been read; an error is no message. -/
theorem logs_read {result : Except ConnectionError Bytes} (h : c.read? = some (result, c')) :
    c.Logs [] result.toOption.toList c' := by
  rw [read?] at h
  split at h
  · rw [next?] at h
    split at h
    · next bytes rest _ =>
      obtain ⟨rfl, rfl⟩ : .ok bytes = result ∧ c.take _ _ = c' := by simpa using h
      exact logs_take c (.data bytes) rest
    · next e rest _ =>
      obtain ⟨rfl, rfl⟩ : .error e = result ∧ (c.take _ _).afterError e = c' := by simpa using h
      exact (logs_take c (.failure e) rest).trans (logs_afterError _ e)
    · split at h
      · obtain ⟨rfl, rfl⟩ : .error .closedByPeer = result ∧ c.afterError _ = c' := by simpa using h
        exact logs_afterError c _
      · cases h
  · obtain ⟨rfl, rfl⟩ : .error .notOpen = result ∧ c = c' := by simpa using h
    exact .refl c

/-- Why a write was not accepted, if it was not. -/
def refusal : Except ConnectionError Unit → Option ConnectionError
  | .ok () => none
  | .error e => some e

theorem logs_write {bytes : Bytes} {result : Except ConnectionError Unit}
    (h : c.write bytes = (result, c')) : c.Logs [⟨bytes, c.isOpen, refusal result⟩] [] c' := by
  rw [write] at h
  split at h
  · next hopen =>
    rw [send] at h
    split at h
    · next e _ =>
      obtain ⟨rfl, rfl⟩ := Prod.mk.inj h
      have hrecord : c.Logs [⟨bytes, c.isOpen, some e⟩] [] (c.record bytes (some e)) :=
        ⟨rfl, by rw [hopen]; rfl, (List.append_nil _).symm⟩
      exact hrecord.trans (logs_afterError _ e)
    · obtain ⟨rfl, rfl⟩ := Prod.mk.inj h
      exact ⟨rfl, by rw [hopen]; rfl, (List.append_nil _).symm⟩
  · next hopen =>
    obtain ⟨rfl, rfl⟩ := Prod.mk.inj h
    have hclosed : c.isOpen = false := by simpa using hopen
    exact ⟨rfl, by rw [hclosed]; rfl, (List.append_nil _).symm⟩

theorem logs_close (c : Connection) : c.Logs [] [] c.close.2 := by
  rw [close]
  dsimp only
  split <;> exact logs_of_eq rfl rfl rfl

theorem logs_undergo (c : Connection) (o : Occurrence) : c.Logs [] [] (c.undergo o) := by
  cases o <;> exact logs_of_eq rfl rfl rfl

end Connection

namespace Wire

/-- What there is at each place of a wire if something is at one place only. -/
def only {α : Type} (w : Wire) (r : Ref) (items : List α) (r' : Ref) : List α :=
  if r' = r ∧ r < w.connections.length then items else []

/-- The wire has become another state of itself: these writes were called for and these messages
were read at its connections. -/
structure Logs (w : Wire) (calls : Ref → List WriteCall) (reads : Ref → List Bytes) (w' : Wire) :
    Prop where
  size : w'.connections.length = w.connections.length
  conn : ∀ r, (w.conn r).Logs (calls r) (reads r) (w'.conn r)

/-- The wire has become another state of itself, and nothing was written or read. -/
abbrev Still (w w' : Wire) : Prop := w.Logs (fun _ => []) (fun _ => []) w'

variable {w w' w'' : Wire}

theorem Still.refl (w : Wire) : w.Still w := ⟨rfl, fun _ => .refl _⟩

theorem Logs.still {calls : Ref → List WriteCall} {reads : Ref → List Bytes}
    (h : w.Logs calls reads w') (h' : w'.Still w'') : w.Logs calls reads w'' := by
  refine ⟨h'.size.trans h.size, fun r => ?_⟩
  have hboth := (h.conn r).trans (h'.conn r)
  rwa [List.append_nil, List.append_nil] at hboth

@[simp] theorem only_nil {α : Type} (w : Wire) (r : Ref) :
    w.only r ([] : List α) = fun _ => [] := by
  funext r'
  rw [only, ite_self]

theorem mem_only {α : Type} {w : Wire} {r r' : Ref} {items : List α} {a : α}
    (h : a ∈ w.only r items r') : r' = r ∧ a ∈ items := by
  rw [only] at h
  split at h
  · next hr => exact ⟨hr.1, h⟩
  · cases h

theorem only_of_ne {α : Type} {w : Wire} {r r' : Ref} (h : r' ≠ r) (items : List α) :
    w.only r items r' = [] := if_neg fun hr => h hr.1

theorem logs_set {r : Ref} {c : Connection} {calls : List WriteCall} {reads : List Bytes}
    (h : (w.conn r).Logs calls reads c) :
    w.Logs (w.only r calls) (w.only r reads) (w.set r c) := by
  refine ⟨by simp [set], fun r' => ?_⟩
  rw [conn_set, only, only]
  by_cases hr : r = r' ∧ r < w.connections.length
  · obtain ⟨rfl, hlt⟩ := hr
    simpa [hlt] using h
  · have hne : ¬(r' = r ∧ r < w.connections.length) := fun heq => hr ⟨heq.1.symm, heq.2⟩
    rw [if_neg hr, if_neg hne, if_neg hne]
    exact .refl _

theorem still_set {r : Ref} {c : Connection} (h : (w.conn r).Logs [] [] c) :
    w.Still (w.set r c) := by
  have hset := logs_set h
  rwa [only_nil, only_nil] at hset

theorem still_undergo (w : Wire) (r : Ref) (o : Occurrence) : w.Still (w.undergo r o) :=
  still_set (Connection.logs_undergo _ o)

theorem logs_read {r : Ref} {result : Except ConnectionError Bytes}
    (h : w.read? r = some (result, w')) :
    w.Logs (fun _ => []) (w.only r result.toOption.toList) w' := by
  obtain ⟨⟨result', c⟩, hc, heq⟩ := Option.map_eq_some_iff.mp h
  obtain ⟨rfl, rfl⟩ := Prod.mk.inj heq
  have hset := logs_set (Connection.logs_read hc)
  rwa [only_nil] at hset

theorem logs_write {r : Ref} {bytes : Bytes} {result : Except ConnectionError Unit}
    (h : w.write r bytes = (result, w')) :
    w.Logs (w.only r [⟨bytes, (w.conn r).isOpen, Connection.refusal result⟩]) (fun _ => []) w' := by
  rw [write] at h
  cases hc : (w.conn r).write bytes with
  | mk result' c =>
    have hset := logs_set (Connection.logs_write hc)
    rw [only_nil] at hset
    rw [hc] at h
    cases result' with
    | error e =>
      obtain ⟨rfl, rfl⟩ := Prod.mk.inj h
      exact hset
    | ok u =>
      obtain ⟨rfl, rfl⟩ := Prod.mk.inj h
      refine hset.still ?_
      rw [carry]
      split
      · exact still_undergo _ _ _
      · exact .refl _

theorem still_close (w : Wire) (r : Ref) : w.Still (w.close r).2 := by
  have hset : w.Still (w.set r (w.conn r).close.2) := still_set (Connection.logs_close _)
  rw [close]
  dsimp only
  split
  · refine hset.still ?_
    rw [hangUp]
    split
    · exact still_undergo _ _ _
    · exact .refl _
  · exact hset

/-- What a history of the connections has gained from one wire to the next, place by place. -/
def news {α : Type} (history : Connection → List α) (w w' : Wire) : List (Ref × α) :=
  (List.range w'.connections.length).flatMap fun r =>
    ((history (w'.conn r)).drop (history (w.conn r)).length).map (r, ·)

/-- A history that has gained something at one place only. -/
theorem news_only {α : Type} {history : Connection → List α} {r : Ref} {items : List α}
    (size : w'.connections.length = w.connections.length)
    (h : ∀ r', history (w'.conn r') = history (w.conn r') ++ w.only r items r') :
    w.news history w' = if r < w.connections.length then items.map (r, ·) else [] := by
  have hgains : w.news history w'
      = (List.range w.connections.length).flatMap fun r' => (w.only r items r').map (r', ·) := by
    rw [news, size]
    congr 1
    funext r'
    rw [h, List.drop_left]
  have hzero {l : List Ref} (hl : r ∉ l) :
      l.flatMap (fun r' => (w.only r items r').map (r', ·)) = [] := by
    refine List.flatMap_eq_nil_iff.mpr fun r' hr' => ?_
    have hne : r' ≠ r := fun heq => hl (heq ▸ hr')
    simp [only, hne]
  rw [hgains]
  split
  · next hlt =>
    obtain ⟨before, after, hsplit⟩ := List.append_of_mem (List.mem_range.mpr hlt)
    have hnodup : (before ++ r :: after).Nodup := hsplit ▸ List.nodup_range
    have hout := List.nodup_append.mp hnodup
    have hbefore : r ∉ before := fun hr => hout.2.2 r hr r (List.mem_cons_self) rfl
    have hafter : r ∉ after := (List.nodup_cons.mp hout.2.1).1
    rw [hsplit, List.flatMap_append, List.flatMap_cons, hzero hbefore, hzero hafter]
    simp [only, hlt]
  · next hge => exact hzero fun hr => hge (List.mem_range.mp hr)

theorem news_eq_nil {α : Type} {history : Connection → List α}
    (size : w'.connections.length = w.connections.length)
    (h : ∀ r, history (w'.conn r) = history (w.conn r)) : w.news history w' = [] := by
  have hnone : w.news history w'
      = if 0 < w.connections.length then ([] : List α).map (0, ·) else [] := by
    refine news_only size fun r => ?_
    rw [only_nil, h, List.append_nil]
  rw [hnone, List.map_nil, ite_self]

theorem news_self {α : Type} (history : Connection → List α) (w : Wire) :
    w.news history w = [] := news_eq_nil rfl fun _ => rfl

/-- Only a connection that exists accepts what is written. -/
theorem lt_of_write {r : Ref} {bytes : Bytes} (h : w.write r bytes = (.ok (), w')) :
    r < w.connections.length := by
  rcases Nat.lt_or_ge r w.connections.length with hr | hr
  · exact hr
  · simp [write, conn_of_le hr, Connection.write, afterWrite] at h

theorem written_of_write {r : Ref} {bytes : Bytes} (h : w.write r bytes = (.ok (), w'))
    (f : Ref) : (w'.conn f).written = (w.conn f).written ++ w.only r [bytes] f := by
  rw [((logs_write h).conn f).written, only, only]
  split <;> rfl

theorem written_of_read {r : Ref} {result : Except ConnectionError Bytes}
    (h : w.read? r = some (result, w')) (f : Ref) :
    (w'.conn f).written = (w.conn f).written :=
  ((logs_read h).conn f).written.trans (List.append_nil _)

/-- What is accepted is the message that was written, at the place where it was. -/
theorem news_written {r : Ref} {bytes : Bytes} (h : w.write r bytes = (.ok (), w')) :
    w.news Connection.written w' = [(r, bytes)] := by
  have hgains : w.news Connection.written w'
      = if r < w.connections.length then [bytes].map (r, ·) else [] :=
    news_only (logs_write h).size (written_of_write h)
  rw [hgains, if_pos (lt_of_write h)]
  rfl

/-- What has been read is the message, at the place where it was. -/
theorem news_consumed {r : Ref} {bytes : Bytes} (h : w.read? r = some (.ok bytes, w')) :
    w.news Connection.consumed w' = [(r, bytes)] := by
  have hlogs := logs_read h
  have hgains : w.news Connection.consumed w'
      = if r < w.connections.length then [bytes].map (r, ·) else [] :=
    news_only hlogs.size fun f => (hlogs.conn f).consumed
  rw [hgains, if_pos (lt_of_read h)]
  rfl

/-- A write that is called for at a connection that exists is the only one. -/
theorem news_writes {r : Ref} {bytes : Bytes} {result : Except ConnectionError Unit}
    (hr : r < w.connections.length) (h : w.write r bytes = (result, w')) :
    w.news Connection.writes w'
      = [(r, ⟨bytes, (w.conn r).isOpen, Connection.refusal result⟩)] := by
  have hlogs := logs_write h
  rw [news_only hlogs.size fun f => (hlogs.conn f).writes, if_pos hr]
  rfl

/-- A read calls for no write. -/
theorem news_writes_of_read {r : Ref} {result : Except ConnectionError Bytes}
    (h : w.read? r = some (result, w')) : w.news Connection.writes w' = [] :=
  news_eq_nil (logs_read h).size fun f =>
    ((logs_read h).conn f).writes.trans (List.append_nil _)

end Wire

namespace Registry

variable {g : Registry} {w : Wire}

theorem still_closeAndRemove (id : String) : w.Still (g.closeAndRemove w id).2.2 := by
  rw [closeAndRemove]
  split
  · exact .refl w
  · next r _ =>
    have hclose := w.still_close r
    split
    · next w' heq => rw [heq] at hclose; exact hclose
    · next e w' heq => rw [heq] at hclose; exact hclose

theorem still_closeEach (ids : List String) : w.Still (g.closeEach w ids).2 := by
  induction ids generalizing g w with
  | nil => exact .refl w
  | cons id rest ih => exact (still_closeAndRemove id).still ih

theorem still_closeAll : w.Still (g.closeAll w).2 := still_closeEach _

end Registry

end BlockFeed
