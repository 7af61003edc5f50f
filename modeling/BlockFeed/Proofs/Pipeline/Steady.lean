import BlockFeed.Proofs.Pipeline.Blocked
import BlockFeed.Proofs.Sender.Steady

/-!
# Steady pipelines

A pipeline whose sender is open and has registered sturdy connections only, while nothing but
messages and time comes from outside.

## Main definitions

* `Pipeline.Event.Calm`: nothing but messages and time comes from outside.
* `Pipeline.acceptances`: what the connections accept in the course of a run.
* `Wire.Answers`: accepted frames have been answered by their acknowledgments.
* `Pipeline.Steady`: how a pipeline can be in the course of calm events.

## Main results

* `Pipeline.Steady.apply`: calm events leave a pipeline steady.
* `Pipeline.Steady.complete`: if nothing can move and all frames have been answered, every send has
  succeeded.
-/

namespace BlockFeed

/-- The acknowledgment of every accepted frame that asks for one has arrived where it was accepted,
and after that. -/
def Wire.Answers (w : Wire) (acc : List Acceptance) : Prop :=
  ∀ a ∈ acc, ∀ f, Frame.decode a.bytes = .ok f → f.ackRequested = true →
    Ack.encode f.counter ∈ (w.conn a.conn).messages.drop a.arrived

namespace Pipeline

/-- Nothing but messages and time comes from outside, and what is sent is not empty. -/
def Event.Calm : Event → Prop
  | .move .. | .elapse _ | .report .. | .occur _ (.setEcho _) => True
  | .occur _ (.arrive items) => ∀ i ∈ items, i.IsData
  | .send payload => payload ≠ []
  | _ => False

/-- What the connections accept in the course of a run. -/
def acceptances (p : Pipeline) (events : List Event) : List Acceptance :=
  collect apply (fun p e => p.wire.acceptances (p.apply e).wire) p events

/-- The sender is open and has registered sturdy connections only, which nobody else reads, and its
sends are as far as they can be over such connections that have accepted so much. -/
structure Steady (p : Pipeline) (acc : List Acceptance) : Prop extends p.Named, p.Lined where
  isOpen : p.sender.cancel.closed = false
  registered : p.sender.registry.entries ≠ []
  sturdy : ∀ c ∈ p.sender.registry.entries, (p.wire.conn c.2).Sturdy
  apart : ∀ i l, .listen i l ∈ p.activities → ∀ c ∈ p.sender.registry.entries, c.2 ≠ l.conn
  steady : ∀ place x, p.sendAt? place = some x → x.Steady p.sender.registry.entries
  backed : ∀ place x, p.sendAt? place = some x →
    x.Backed p.wire acc p.sender.withAcknowledge

theorem payload_ne_nil {m : Marshaler} {r : Report} {payload : Bytes}
    (h : r.payload m = .ok payload) : payload ≠ [] := by
  rw [Report.payload] at h
  split at h
  · cases h
  · next data _ =>
    split at h
    · cases h
    · next bytes hbytes =>
      obtain rfl := Except.ok.inj h
      rw [Envelope.encode] at hbytes
      split at hbytes
      · obtain rfl := Except.ok.inj hbytes
        refine List.ne_nil_of_length_pos ?_
        simp only [List.length_append, BigEndian.length_encode]
        omega
      · cases hbytes

namespace Steady

variable {p p' : Pipeline} {acc acc' : List Acceptance}

/-- Nothing changes for a steady pipeline if its sender stays as it is and nothing is read at its
connections. -/
theorem still (h : p.Steady acc) (named : p'.Named) (lined : p'.Lined)
    (sender : p'.sender = p.sender)
    (sturdy : ∀ c ∈ p.sender.registry.entries, (p'.wire.conn c.2).Sturdy)
    (same : ∀ c ∈ p.sender.registry.entries,
      (p'.wire.conn c.2).consumed = (p.wire.conn c.2).consumed)
    (listens : ∀ i l, .listen i l ∈ p'.activities →
      ∃ l₀, .listen i l₀ ∈ p.activities ∧ l.conn = l₀.conn)
    (sends : ∀ place x, p'.sendAt? place = some x →
      p.sendAt? place = some x ∨ x.phase = .called ∧ x.payload ≠ [])
    (hacc : acc ⊆ acc') : p'.Steady acc' where
  toNamed := named
  toLined := lined
  isOpen := sender ▸ h.isOpen
  registered := sender ▸ h.registered
  sturdy := sender ▸ sturdy
  apart := by
    intro i l hl c hc
    obtain ⟨l₀, hl₀, heq⟩ := listens i l hl
    exact heq ▸ h.apart i l₀ hl₀ c (sender ▸ hc)
  steady := by
    intro place x hx
    rw [sender]
    rcases sends place x hx with hold | ⟨hcalled, hpayload⟩
    · exact h.steady place x hold
    · exact ⟨hpayload, by rw [hcalled]; trivial⟩
  backed := by
    intro place x hx
    rw [sender]
    rcases sends place x hx with hold | ⟨hcalled, -⟩
    · exact (h.backed place x hold).still (h.steady place x hold) hacc same
    · exact .of_not_turn (by simp [Send.HasTurn, hcalled])

theorem send (h : p.Steady acc) {place pick : Nat} {x x' : Send} {sender : Sender} {wire : Wire}
    (hx : p.activities[place]? = some (.send x))
    (hmove : Send.Move place pick p.sender p.wire x sender wire x')
    (named : Named { p with sender, wire, activities := p.activities.set place (.send x') }) :
    Steady { p with sender, wire, activities := p.activities.set place (.send x') }
      (acc ++ p.wire.acceptances wire) := by
  have hsend : p.sendAt? place = some x := sendAt?_eq_some.mpr hx
  have hadvance := hmove.advance (h.steady place x hsend) h.isOpen h.registered h.sturdy
  obtain ⟨hregistry, hsteady⟩ := hadvance.steady (h.steady place x hsend)
  obtain ⟨hack, hcancel⟩ := hmove.settings
  -- while another send has its turn, this one can only join the line
  have hother {q : Nat} {y : Send} (hq : q ≠ place) (hy : p.sendAt? q = some y) :
      y.Backed wire (acc ++ p.wire.acceptances wire) p.sender.withAcknowledge := by
    by_cases hturn : y.HasTurn
    · have hhead := h.turned q y hy hturn
      have hnot : ¬x.HasTurn := fun hx =>
        hq (Option.some.inj (hhead.symm.trans (h.turned place x hsend hx)))
      rw [Send.HasTurn] at hnot
      cases hadvance with
      | enqueue =>
        exact (h.backed q y hy).still (h.steady q y hy) (List.subset_append_left _ _)
          fun _ _ => rfl
      | start _ hhead' => exact absurd (Option.some.inj (hhead.symm.trans hhead')) hq
      | write hp | await hp | succeed hp | ignore hp | acknowledge hp | complete hp =>
        simp [hp] at hnot
    · exact .of_not_turn hturn
  refine { named, h.toLined.send hx hmove with
    isOpen := hcancel ▸ h.isOpen
    registered := hregistry ▸ h.registered
    sturdy := fun c hc => hadvance.sturdy (h.sturdy c (hregistry ▸ hc))
    apart := fun i l hl c hc => ?_
    steady := fun q y hy => ?_
    backed := fun q y hy => ?_ }
  · refine h.apart i l ((List.mem_or_eq_of_mem_set hl).resolve_right ?_) c (hregistry ▸ hc)
    exact Activity.noConfusion
  · change y.Steady sender.registry.entries
    rw [hregistry]
    rcases sendAt?_of_set hy with ⟨-, heq⟩ | ⟨-, hy⟩
    · exact Activity.send.inj heq ▸ hsteady
    · exact h.steady q y hy
  · change y.Backed wire _ sender.withAcknowledge
    rw [hack]
    rcases sendAt?_of_set hy with ⟨-, heq⟩ | ⟨hq, hy⟩
    · obtain rfl := Activity.send.inj heq
      exact hadvance.backed (h.steady place x hsend) (h.backed place x hsend) h.toNamed.nodup
    · exact hother hq hy

theorem listen (h : p.Steady acc) {place i : Nat} {l l' : Listen} {r r' : Receiver} {wire : Wire}
    (hl : p.activities[place]? = some (.listen i l))
    (hmove : Listen.Move p.now r p.wire l r' wire l')
    (named : Named { p with
      receivers := p.receivers.set i r', wire
      activities := p.activities.set place (.listen i l') })
    (lined : Lined { p with
      receivers := p.receivers.set i r', wire
      activities := p.activities.set place (.listen i l') })
    (hacc : acc ⊆ acc') :
    Steady { p with
      receivers := p.receivers.set i r', wire
      activities := p.activities.set place (.listen i l') } acc' := by
  have hmem := List.mem_of_getElem? hl
  refine h.still named lined rfl (fun c hc => hmove.sturdy (h.sturdy c hc)) (fun c hc => ?_)
    (fun j k hk => ?_) (fun q y hy => .inl ((sendAt?_set_listen hl q).symm.trans hy)) hacc
  · obtain ⟨_, read, hlogs, -⟩ := hmove.logs
    rw [(hlogs.conn c.2).consumed, Wire.only, if_neg fun heq => h.apart i l hmem c hc heq.1,
      List.append_nil]
  · rcases List.mem_or_eq_of_mem_set hk with hold | hnew
    · exact ⟨k, hold, rfl⟩
    · obtain ⟨rfl, rfl⟩ := Activity.listen.inj hnew
      exact ⟨l, hmem, hmove.conn⟩

/-- A call begins. -/
theorem begin (h : p.Steady acc) {a : Activity} (lined : (p.begin a).Lined)
    (ha : (∃ payload, payload ≠ [] ∧ a = .send ⟨payload, .called⟩) ∨ ∃ error, a = .refused error)
    (hacc : acc ⊆ acc') : (p.begin a).Steady acc' := by
  refine h.still ⟨h.entries⟩ lined rfl h.sturdy (fun _ _ => rfl) (fun i l hl => ?_)
    (fun q y hy => ?_) hacc
  · rcases List.mem_append.mp hl with hold | hnew
    · exact ⟨l, hold, rfl⟩
    · rcases ha with ⟨_, -, rfl⟩ | ⟨_, rfl⟩ <;> cases List.mem_singleton.mp hnew
  · rw [sendAt?_eq_some] at hy
    rcases Nat.lt_or_ge q p.activities.length with hlt | hge
    · rw [Pipeline.begin, List.getElem?_append_left hlt] at hy
      exact .inl (sendAt?_eq_some.mpr hy)
    · rw [Pipeline.begin, List.getElem?_append_right hge] at hy
      have hnew := List.mem_singleton.mp (List.mem_of_getElem? hy)
      rcases ha with ⟨_, hpayload, rfl⟩ | ⟨_, rfl⟩
      · obtain rfl := Activity.send.inj hnew
        exact .inr ⟨rfl, hpayload⟩
      · cases hnew

/-- Calm events leave a pipeline steady. -/
theorem apply (h : p.Steady acc) {e : Event} (calm : e.Calm) :
    (p.apply e).Steady (acc ++ p.wire.acceptances (p.apply e).wire) := by
  have hlined := h.toLined.apply e
  have hacc := List.subset_append_left acc (p.wire.acceptances (p.apply e).wire)
  cases e with
  | move place pick =>
    have hnamed := h.toNamed.move place pick
    have hmoved := p.moved_apply place pick
    generalize p.apply (.move place pick) = p' at hmoved hnamed hlined hacc ⊢
    cases hmoved with
    | send hx hmove => exact h.send hx hmove hnamed
    | listen hl _ hmove => exact h.listen hl hmove hnamed hlined hacc
    | stay =>
      exact h.still hnamed hlined rfl h.sturdy (fun _ _ => rfl) (fun i l hl => ⟨l, hl, rfl⟩)
        (fun _ _ hx => .inl hx) hacc
  | elapse duration =>
    exact h.still ⟨h.entries⟩ hlined rfl h.sturdy (fun _ _ => rfl) (fun i l hl => ⟨l, hl, rfl⟩)
      (fun _ _ hx => .inl hx) hacc
  | send payload => exact h.begin hlined (.inl ⟨payload, calm, rfl⟩) hacc
  | report m r =>
    cases hpayload : r.payload m with
    | ok payload =>
      simp only [Pipeline.apply, hpayload] at hlined hacc ⊢
      exact h.begin hlined (.inl ⟨payload, payload_ne_nil hpayload, rfl⟩) hacc
    | error error =>
      simp only [Pipeline.apply, hpayload] at hlined hacc ⊢
      exact h.begin hlined (.inr ⟨error, rfl⟩) hacc
  | occur r o =>
    have hsturdy : ∀ c ∈ p.sender.registry.entries, ((p.wire.undergo r o).conn c.2).Sturdy := by
      intro c hc
      cases o with
      | arrive items => exact Wire.sturdy_arrive (h.sturdy c hc) calm
      | setEcho offset =>
        exact Wire.sturdy_set (h.sturdy c hc) fun hr => (hr ▸ h.sturdy c hc).setEcho offset
      | finish | planWrites | setOpen => exact calm.elim
    have hstill := p.wire.still_undergo r o
    refine h.still (h.toNamed.logs hstill (List.Subset.refl _)) hlined rfl hsturdy (fun c _ => ?_)
      (fun i l hl => ⟨l, hl, rfl⟩) (fun _ _ hx => .inl hx) hacc
    exact (hstill.conn c.2).consumed.trans (List.append_nil _)
  | connect | join | disconnect | register | unregister | removeClosed | closeAll | closeSender
  | attach | listen | closeReceiver => exact calm.elim

theorem applyAll (h : p.Steady acc) {events : List Event} (calm : ∀ e ∈ events, e.Calm) :
    (p.applyAll events).Steady (acc ++ p.acceptances events) := by
  induction events generalizing p acc with
  | nil =>
    rw [acceptances, collect, List.append_nil]
    exact h
  | cons e rest ih =>
    obtain ⟨hcalm, hrest⟩ := List.forall_mem_cons.mp calm
    rw [acceptances, collect, ← List.append_assoc]
    exact ih (h.apply hcalm) hrest

/-- If nothing can move and all frames have been answered, every send has succeeded. -/
theorem complete (h : p.Steady acc) (answers : p.wire.Answers acc) (blocked : Schedule.Blocked p)
    {place : Nat} {x : Send} (hx : p.sendAt? place = some x) : x.phase = .done (.ok ()) := by
  by_cases hdone : ∃ result, x.phase = .done result
  · obtain ⟨result, hp⟩ := hdone
    rw [hp, (h.steady place x hx).ok_of_done hp]
  · -- whoever is in the way waits for an acknowledgment that has arrived and has not been read
    obtain ⟨first, y, counter, waits, failures, a, hy, hp, ha, hnone, hread⟩ :=
      h.toLined.stalled blocked h.isOpen hx fun result hp => hdone ⟨result, hp⟩
    have hbacked := h.backed first y hy
    rw [Send.Backed, hp] at hbacked
    obtain ⟨b, hb, hconn, hbytes, hout⟩ := hbacked a ha hnone
    have hanswer := answers b hb ⟨true, counter, y.payload⟩
      (by rw [hbytes, Frame.decode_encode]) rfl
    rw [hconn, Wire.consumed_of_read?_eq_none hread] at hanswer
    exact absurd hanswer hout

end Steady

end Pipeline

end BlockFeed
