import BlockFeed.Proofs.Pipeline.Flow

/-!
# Order of delivery

On links with two ends each, every receiver is handed what was assigned in the order of the
assignments and at most once, whatever fails in the meantime.

## Main definitions

* `Pipeline.Reading`: every receiver was handed what it has read, in that order.
* `Pipeline.Orderly`: everything that keeps deliveries in order.

## Main results

* `Pipeline.deliveries_in_order`: each receiver was handed part of the ledger, in order.
-/

namespace BlockFeed.Pipeline

/-- Every receiver reads one connection, and was handed what it has read there, in that order. -/
structure Reading (p : Pipeline) : Prop where
  single : ∀ i f g, p.Reads i f → p.Reads i g → f = g
  deliveries : ∀ (i : Nat) (r : Receiver), p.receivers[i]? = some r → r.deliveries = [] ∨
    ∃ f, p.Reads i f ∧ r.deliveries.Sublist (handed (p.wire.conn f).consumed)

namespace Reading

variable {p p' : Pipeline}

theorem start (withAcknowledge : Bool) : (beginning withAcknowledge).Reading where
  single := nofun
  deliveries := nofun

theorem around (h : p.Reading) {e : Event} (hp : p.Around e p') (allowed : p.Allows e) :
    p'.Reading := by
  obtain ⟨more, hmore, hnew⟩ := hp.activities
  have hold : ∀ i f, p.Reads i f → p'.Reads i f := by
    rintro i f ⟨l, hl, hf⟩
    exact ⟨l, hmore ▸ List.mem_append_left _ hl, hf⟩
  have hreads : ∀ i f, p'.Reads i f → p.Reads i f ∨ e = .listen i f := by
    rintro i f ⟨l, hl, rfl⟩
    rw [hmore] at hl
    rcases List.mem_append.mp hl with hl | hl
    · exact .inl ⟨l, hl, rfl⟩
    · rcases hnew _ hl with ⟨_, heq⟩ | ⟨_, heq⟩ | ⟨j, r, rfl, heq⟩
      · cases heq
      · cases heq
      · obtain ⟨rfl, rfl⟩ := Activity.listen.inj heq
        exact .inr rfl
  have hconsumed : ∀ f, (p.wire.conn f).consumed <+: (p'.wire.conn f).consumed := by
    intro f
    rcases hp.wire with hkeeps | ⟨c, rfl, heq⟩ | ⟨a, b, rfl, heq⟩
    · exact (hkeeps.conn f).consumed
    · rw [heq, Wire.conn_add]
      split
      · next hf =>
        rw [Wire.conn_of_le (Nat.le_of_eq hf.symm)]
        exact List.nil_prefix
      · exact List.prefix_refl _
    · exact heq ▸ List.prefix_refl _
  constructor
  · -- a receiver that begins to read is allowed to only where it reads already
    intro i f g hf hg
    rcases hreads i f hf with hf | rfl
    · rcases hreads i g hg with hg | rfl
      · exact h.single i f g hf hg
      · exact allowed.2 f hf
    · rcases hreads i g hg with hg | heq
      · exact (allowed.2 g hg).symm
      · exact (Event.listen.inj heq).2
  · intro i r hr
    rcases hp.deliveries i r hr with hnone | ⟨q, hq, hsame⟩
    · exact .inl hnone
    · rw [hsame]
      refine (h.deliveries i q hq).imp_right ?_
      rintro ⟨f, hf, hsub⟩
      exact ⟨f, hold i f hf, hsub.trans (handed_mono (hconsumed f))⟩

theorem reads_moved {place pick : Nat} (h : Moved p place pick p') (i : Nat) (f : Ref) :
    p'.Reads i f ↔ p.Reads i f := by
  cases h with
  | stay => exact Iff.rfl
  | @send x x' _ _ hx _ =>
    -- what is replaced is a send, and no reading
    have hmem := List.mem_of_getElem? hx
    constructor
    · rintro ⟨l, hl, hf⟩
      rcases List.mem_or_eq_of_mem_set hl with hl | heq
      · exact ⟨l, hl, hf⟩
      · cases heq
    · rintro ⟨l, hl, hf⟩
      obtain ⟨q, hq⟩ := List.mem_iff_getElem?.mp hl
      refine ⟨l, List.mem_of_getElem? ((List.getElem?_set_ne ?_).trans hq), hf⟩
      rintro rfl
      cases Option.some.inj (hx.symm.trans hq)
  | @listen j l l' _ _ _ hj _ hmove =>
    have hlt := (List.getElem?_eq_some_iff.mp hj).1
    constructor
    · rintro ⟨m, hm, rfl⟩
      rcases List.mem_or_eq_of_mem_set hm with hm | heq
      · exact ⟨m, hm, rfl⟩
      · obtain ⟨rfl, rfl⟩ := Activity.listen.inj heq
        exact ⟨l, List.mem_of_getElem? hj, hmove.conn.symm⟩
    · rintro ⟨m, hm, rfl⟩
      obtain ⟨q, hq⟩ := List.mem_iff_getElem?.mp hm
      by_cases hplace : place = q
      · subst hplace
        obtain ⟨rfl, rfl⟩ := Activity.listen.inj (Option.some.inj (hj.symm.trans hq))
        exact ⟨l', List.mem_of_getElem? (List.getElem?_set_self hlt), hmove.conn⟩
      · exact ⟨m, List.mem_of_getElem? ((List.getElem?_set_ne hplace).trans hq), rfl⟩

theorem move (h : p.Reading) (mute : p.wire.Mute) (place pick : Nat) :
    (p.apply (.move place pick)).Reading := by
  have hmoved := p.moved_apply place pick
  have hreads := reads_moved hmoved
  generalize p.apply (.move place pick) = p' at hmoved hreads
  refine ⟨fun i f g hf hg => h.single i f g ((hreads i f).mp hf) ((hreads i g).mp hg), ?_⟩
  intro i r hr
  -- whoever was handed nothing new has read no less than before
  have hsame (hi : p.receivers[i]? = some r)
      (hconsumed : ∀ f, (p.wire.conn f).consumed <+: (p'.wire.conn f).consumed) :
      r.deliveries = [] ∨
        ∃ f, p'.Reads i f ∧ r.deliveries.Sublist (handed (p'.wire.conn f).consumed) := by
    refine (h.deliveries i r hi).imp_right ?_
    rintro ⟨f, hf, hsub⟩
    exact ⟨f, (hreads i f).mpr hf, hsub.trans (handed_mono (hconsumed f))⟩
  cases hmoved with
  | stay => exact h.deliveries i r hr
  | send _ hmove =>
    rcases hmove.brings mute with hkeeps | ⟨_, _, _, _, _, _, _, _, hbrings⟩
    · exact hsame hr fun f => (hkeeps.conn f).consumed
    · exact hsame hr fun f => (hbrings.conn f).consumed
  | @listen j l l' q q' wire hj hq hmove =>
    obtain ⟨news, hbrings, -⟩ := hmove.brings mute
    by_cases hij : j = i
    · subst hij
      have hlt := (List.getElem?_eq_some_iff.mp hq).1
      obtain rfl : q' = r := Option.some.inj ((List.getElem?_set_self hlt).symm.trans hr)
      have hread : p.Reads j l.conn := ⟨l, List.mem_of_getElem? hj, rfl⟩
      have hbefore : q.deliveries.Sublist (handed (p.wire.conn l.conn).consumed) := by
        rcases h.deliveries j q hq with hnone | ⟨f, hf, hsub⟩
        · rw [hnone]
          exact List.nil_sublist _
        · rwa [h.single j f l.conn hf hread] at hsub
      refine .inr ⟨l.conn, (hreads j l.conn).mpr hread, ?_⟩
      change q'.deliveries.Sublist (handed (wire.conn l.conn).consumed)
      -- a payload that is handed over now is that of the frame which was read last
      rcases hmove.deliveries with heq | ⟨bytes, frame, hdec, heq, hconsumed⟩
      · rw [heq]
        exact hbefore.trans (handed_mono (hbrings.conn l.conn).consumed)
      · rw [heq, hconsumed, handed_append, handed_singleton hdec]
        exact hbefore.append (List.Sublist.refl _)
    · exact hsame ((List.getElem?_set_ne hij).symm.trans hr) fun f => (hbrings.conn f).consumed

end Reading

/-- Everything that keeps deliveries in order; and what was assigned is the payload of the send it
was assigned to. -/
structure Orderly (p : Pipeline) (log : Ledger) : Prop where
  numbered : log.Numbered
  last : p.sender.lastCounter = UInt64.ofNat log.length
  owned : ∀ a ∈ log, p.payloadAt? a.place = some a.payload
  wired : p.Wired
  turned : p.Turned
  flowing : p.Flowing log
  reading : p.Reading

namespace Orderly

variable {p : Pipeline} {log : Ledger}

theorem start (withAcknowledge : Bool) : (beginning withAcknowledge).Orderly [] where
  numbered := Ledger.numbered_nil
  last := rfl
  owned := nofun
  wired := .start withAcknowledge
  turned := .start withAcknowledge
  flowing := .start withAcknowledge
  reading := .start withAcknowledge

theorem owned_apply (h : p.Orderly log) (e : Event) :
    ∀ a ∈ log ++ p.assigned e, (p.apply e).payloadAt? a.place = some a.payload := by
  have hstays {place : Nat} {payload : Bytes} (hpay : p.payloadAt? place = some payload) :
      (p.apply e).payloadAt? place = some payload := by
    obtain ⟨x, hx, -⟩ := Option.map_eq_some_iff.mp hpay
    have hlt := (List.getElem?_eq_some_iff.mp (sendAt?_eq_some.mp hx)).1
    rw [(payloadAt?_apply hlt e).2, hpay]
  intro a ha
  rcases List.mem_append.mp ha with ha | ha
  · exact hstays (h.owned a ha)
  · obtain ⟨x, hx, hpay⟩ := sendAt?_of_mem_assigned ha
    refine hstays ?_
    rw [payloadAt?, hx, Option.map_some, hpay]

theorem move (h : p.Orderly log) (place pick : Nat) :
    Orderly (p.apply (.move place pick)) (log ++ p.assigned (.move place pick)) where
  numbered := (numbered_apply h.numbered h.last _).1
  last := (numbered_apply h.numbered h.last _).2
  owned := h.owned_apply _
  wired := h.wired.move place pick
  turned := h.turned.move place pick
  flowing := h.flowing.move h.wired h.turned place pick
  reading := h.reading.move h.wired.mute place pick

theorem apply (h : p.Orderly log) {e : Event} (allowed : p.Allows e) :
    Orderly (p.apply e) (log ++ p.assigned e) := by
  by_cases he : ∃ place pick, e = .move place pick
  · obtain ⟨place, pick, rfl⟩ := he
    exact h.move place pick
  · have hmove : ∀ place pick, e ≠ .move place pick := fun q pick heq => he ⟨q, pick, heq⟩
    have howned := h.owned_apply e
    have hp := around_apply h.wired.mute allowed.1 hmove
    rw [assigned_of_ne_move hmove, List.append_nil] at howned ⊢
    exact ⟨h.numbered, hp.lastCounter.trans h.last, howned, h.wired.around hp allowed,
      Turned.aside h.turned hp.toAside, h.flowing.around h.wired hp allowed,
      h.reading.around hp allowed⟩

/-- Every receiver was handed part of the ledger, in order. -/
theorem deliveries (h : p.Orderly log) {r : Receiver} (hr : r ∈ p.receivers) :
    r.deliveries.Sublist log.deliveries := by
  obtain ⟨i, hi⟩ := List.mem_iff_getElem?.mp hr
  rcases h.reading.deliveries i r hi with hnone | ⟨f, -, hsub⟩
  · rw [hnone]
    exact List.nil_sublist _
  · have hread : (handed (p.wire.conn f).consumed).Sublist (handed (p.wire.conn f).messages) :=
      (p.wire.conn f).consumed_sublist.filterMap _
    exact hsub.trans (hread.trans (h.flowing.flow f))

end Orderly

/-- On links with two ends each, and with nobody else putting messages on them, every receiver is
handed part of what the sender has assigned, in the order of the assignments. So, as long as 64
bits are enough for the counters, they grow from each payload handed over to the next, and the
payload under a counter is that of the one send that the counter was assigned to. -/
theorem deliveries_in_order (withAcknowledge : Bool) (events : List Event)
    (course : Along apply Allows (beginning withAcknowledge) events) (r : Receiver)
    (hr : r ∈ ((beginning withAcknowledge).applyAll events).receivers) :
    r.deliveries.Sublist ((beginning withAcknowledge).ledger events).deliveries ∧
      (((beginning withAcknowledge).ledger events).length < UInt64.size →
        (r.deliveries.Pairwise fun d e => d.counter < e.counter) ∧
        ∀ d ∈ r.deliveries, ∃ a ∈ (beginning withAcknowledge).ledger events,
          a.counter = d.counter ∧
          (∀ b ∈ (beginning withAcknowledge).ledger events, b.counter = d.counter → b = a) ∧
          ((beginning withAcknowledge).applyAll events).payloadAt? a.place = some d.payload) := by
  have horderly := collect_invariant Orderly (fun p log e he h => h.apply he) course
    (.start withAcknowledge)
  rw [List.nil_append] at horderly
  have hsub := horderly.deliveries hr
  refine ⟨hsub, fun few => ⟨?_, ?_⟩⟩
  · have hpairs := horderly.numbered.pairwise few
    exact (List.pairwise_map.mpr hpairs : List.Pairwise _ (Ledger.deliveries _)).sublist hsub
  · intro d hd
    obtain ⟨a, ha, rfl⟩ := List.mem_map.mp (hsub.subset hd)
    refine ⟨a, ha, rfl, fun b hb heq => ?_, horderly.owned a ha⟩
    exact horderly.numbered.eq_of_counter few hb ha heq

/-- What makes a round trip over a link is handed over. -/
theorem deliveries_in_order_roundTrip :
    ∃ r ∈ ((beginning true).applyAll (linked ++ .send [1] :: roundTrip)).receivers,
      r.deliveries = [⟨[1], 1⟩] ∧ r.deliveries.Sublist
        ((beginning true).ledger (linked ++ .send [1] :: roundTrip)).deliveries := by
  have hmem := List.mem_of_getElem? (i := 0)
    (rfl : ((beginning true).applyAll (linked ++ .send [1] :: roundTrip)).receivers[0]? = some _)
  have hcourse : Along apply Allows (beginning true) (linked ++ .send [1] :: roundTrip) := by
    refine ⟨⟨⟨rfl, rfl⟩, trivial⟩, ⟨⟨rfl, rfl⟩, trivial⟩, ⟨trivial, rfl, rfl⟩,
      ⟨trivial, by decide⟩, ⟨rfl, trivial⟩, ⟨trivial, ?_⟩, ?_⟩
    · rintro f ⟨l, hl, -⟩
      cases hl
    · simp [Along, Allows, Event.Quiet, roundTrip]
  exact ⟨_, hmem, rfl, (deliveries_in_order true _ hcourse _ hmem).1⟩

end BlockFeed.Pipeline
