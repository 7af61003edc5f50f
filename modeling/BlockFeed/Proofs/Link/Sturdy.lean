import BlockFeed.Proofs.Link.Histories

/-!
# Sturdy connections

Connections that stay open, accept every write and report no failure.

## Main definitions

* `Connection.Sturdy`: nothing goes wrong at a connection, now or with what is planned for it.

## Design notes

Neither reads nor writes, at whatever place of a wire, make a sturdy connection fail: only closing
it, and what happens to it from outside, can.
-/

namespace BlockFeed

/-- Whether something that arrives is a message. -/
def Inbound.IsData (i : Inbound) : Prop := ∃ bytes, i = .data bytes

/-- The connection is open, accepts every write, and has only messages to report. -/
structure Connection.Sturdy (c : Connection) : Prop where
  isOpen : c.isOpen = true
  ended : c.ended = false
  plan : ∀ outcome ∈ c.plan, outcome = none
  afterPlan : c.afterPlan = none
  inbound : ∀ i ∈ c.inbound, i.IsData

namespace Connection.Sturdy

variable {c c' : Connection}

theorem nextOutcome (h : c.Sturdy) : c.nextOutcome = none := by
  rw [Connection.nextOutcome]
  cases hplan : c.plan with
  | nil => exact h.afterPlan
  | cons outcome rest => exact h.plan outcome (hplan ▸ List.mem_cons_self)

theorem arrive (h : c.Sturdy) {items : List Inbound} (data : ∀ i ∈ items, i.IsData) :
    (c.undergo (.arrive items)).Sturdy where
  isOpen := h.isOpen
  ended := h.ended
  plan := h.plan
  afterPlan := h.afterPlan
  inbound := fun i hi => (List.mem_append.mp hi).elim (h.inbound i) (data i)

theorem setEcho (h : c.Sturdy) (offset : Option UInt64) : (c.undergo (.setEcho offset)).Sturdy :=
  { h with }

theorem isData_of_reply {bytes : Bytes} {i : Inbound} (h : i ∈ c.reply bytes) : i.IsData := by
  rw [reply] at h
  split at h
  · exact ⟨_, List.mem_singleton.mp h⟩
  · cases h

/-- A write is accepted, and goes on to be. -/
theorem write {bytes : Bytes} {result : Except ConnectionError Unit} (h : c.Sturdy)
    (hw : c.write bytes = (result, c')) : result = .ok () ∧ c'.Sturdy := by
  rw [Connection.write, if_pos h.isOpen, send, h.nextOutcome] at hw
  obtain ⟨rfl, rfl⟩ := Prod.mk.inj hw
  exact ⟨rfl, h.isOpen, h.ended, fun o ho => h.plan o (List.mem_of_mem_tail ho), h.afterPlan,
    fun i hi => (List.mem_append.mp hi).elim (h.inbound i) isData_of_reply⟩

/-- What is read is a message. -/
theorem read {result : Except ConnectionError Bytes} (h : c.Sturdy)
    (hr : c.read? = some (result, c')) : (∃ bytes, result = .ok bytes) ∧ c'.Sturdy := by
  rw [read?, if_pos h.isOpen, next?] at hr
  split at hr
  · next bytes rest hin =>
    obtain ⟨rfl, rfl⟩ : .ok bytes = result ∧ c.take _ _ = c' := by simpa using hr
    refine ⟨⟨bytes, rfl⟩, h.isOpen, h.ended, h.plan, h.afterPlan, fun i hi => ?_⟩
    exact h.inbound i (hin ▸ List.mem_cons_of_mem _ hi)
  · next e rest hin =>
    obtain ⟨bytes, heq⟩ := h.inbound (.failure e) (hin ▸ List.mem_cons_self)
    cases heq
  · rw [h.ended] at hr
    cases hr

end Connection.Sturdy

/-- Where there is nothing to read, all that has arrived has been read. -/
theorem Connection.consumed_of_read?_eq_none {c : Connection} (h : c.read? = none) :
    c.messages = c.consumed := by
  rw [read?] at h
  split at h
  · rw [next?] at h
    split at h
    · cases h
    · cases h
    · next hin => rw [messages, hin, List.append_nil, consumed]
  · cases h

namespace Wire

variable {w w' : Wire} {f r : Ref}

theorem sturdy_set {c : Connection} (h : (w.conn f).Sturdy) (hc : r = f → c.Sturdy) :
    ((w.set r c).conn f).Sturdy := by
  rw [conn_set]
  split
  · next hr => exact hc hr.1
  · exact h

theorem sturdy_arrive (h : (w.conn f).Sturdy) {items : List Inbound}
    (data : ∀ i ∈ items, i.IsData) : ((w.undergo r (.arrive items)).conn f).Sturdy :=
  sturdy_set h fun hr => hr ▸ h.arrive data

/-- A write leaves every sturdy connection sturdy. -/
theorem sturdy_write {bytes : Bytes} {result : Except ConnectionError Unit}
    (h : (w.conn f).Sturdy) (hw : w.write r bytes = (result, w')) : (w'.conn f).Sturdy := by
  rw [write] at hw
  cases hc : (w.conn r).write bytes with
  | mk result' c =>
    have hset : ((w.set r c).conn f).Sturdy := sturdy_set h fun hr => ((hr ▸ h).write hc).2
    rw [hc] at hw
    cases result' with
    | error e =>
      obtain ⟨-, rfl⟩ := Prod.mk.inj hw
      exact hset
    | ok u =>
      obtain ⟨-, rfl⟩ := Prod.mk.inj hw
      rw [carry]
      split
      · exact sturdy_arrive hset fun i hi => ⟨bytes, List.mem_singleton.mp hi⟩
      · exact hset

theorem ok_of_write {bytes : Bytes} {result : Except ConnectionError Unit}
    (h : (w.conn r).Sturdy) (hw : w.write r bytes = (result, w')) : result = .ok () := by
  rw [write] at hw
  cases hc : (w.conn r).write bytes with
  | mk result' c =>
    obtain ⟨rfl, -⟩ := h.write hc
    rw [hc] at hw
    exact (Prod.mk.inj hw).1.symm

/-- A read leaves every sturdy connection sturdy. -/
theorem sturdy_read {result : Except ConnectionError Bytes} (h : (w.conn f).Sturdy)
    (hr : w.read? r = some (result, w')) : (w'.conn f).Sturdy := by
  obtain ⟨⟨result', c⟩, hc, heq⟩ := Option.map_eq_some_iff.mp hr
  obtain ⟨rfl, rfl⟩ := Prod.mk.inj heq
  exact sturdy_set h fun hr => ((hr ▸ h).read hc).2

theorem ok_of_read {result : Except ConnectionError Bytes} (h : (w.conn r).Sturdy)
    (hr : w.read? r = some (result, w')) : ∃ bytes, result = .ok bytes := by
  obtain ⟨⟨result', c⟩, hc, heq⟩ := Option.map_eq_some_iff.mp hr
  obtain ⟨rfl, rfl⟩ := Prod.mk.inj heq
  exact (h.read hc).1

theorem consumed_of_read?_eq_none (h : w.read? r = none) :
    (w.conn r).messages = (w.conn r).consumed :=
  Connection.consumed_of_read?_eq_none (Option.map_eq_none_iff.mp h)

end Wire

end BlockFeed
