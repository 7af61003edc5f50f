import BlockFeed.Proofs.Pipeline.Delivery
import BlockFeed.Proofs.Pipeline.Steady
import BlockFeed.Proofs.Sender.Attested

/-!
# Sends that share connections

Sends that ask for acknowledgments take turns, so each of them reads what was meant for it, whatever
else arrives.

## Main definitions

* `Pipeline.Ready`: a sender that asks for acknowledgments, over sturdy connections, before any
  send.
* `Pipeline.Shared`: how sends share the connections in the course of a run.

## Main results

* `Pipeline.attested_applyAll`: what a send that succeeds has done in its own steps.
* `Pipeline.shared_of_calm`: no send takes the acknowledgment of another, and none is left waiting.
-/

namespace BlockFeed.Pipeline

/-- What is known of the send at a place after anything that may happen while the sender is open. -/
theorem attested_apply {p : Pipeline} (isOpen : p.sender.cancel.closed = false) {place : Nat}
    {log : Ledger} {accepted read : List (Ref × Bytes)}
    (h : ∀ x, p.sendAt? place = some x →
      x.Attested p.sender.withAcknowledge log accepted read False place)
    (e : Event) {x : Send} (hx : (p.apply e).sendAt? place = some x) :
    x.Attested p.sender.withAcknowledge (log ++ p.assigned e)
      (accepted ++ gainedAt Connection.written place p e)
      (read ++ gainedAt Connection.consumed place p e) False place := by
  -- a send that does not move keeps what is known of it
  have hkeep (hold : p.sendAt? place = some x) :=
    (h x hold).mono (List.subset_append_left _ (p.assigned e))
      (List.subset_append_left _ (gainedAt Connection.written place p e))
      (List.subset_append_left _ (gainedAt Connection.consumed place p e)) id
  have heffect := p.effect_apply e
  generalize happly : p.apply e = p', p.assigned e = more at heffect hx hkeep ⊢
  cases heffect with
  | @send q pick y y' _ _ he hy hmove =>
    rcases sendAt?_of_set hx with ⟨rfl, heq⟩ | ⟨-, hold⟩
    · obtain rfl := Activity.send.inj heq
      subst he
      rw [gainedAt, gainedAt, if_pos rfl, if_pos rfl, happly]
      refine (hmove.attested (h y (sendAt?_eq_some.mpr hy))).mono (List.Subset.refl _)
        (List.Subset.refl _) (List.Subset.refl _) fun hclosed => ?_
      rcases hclosed with hfalse | hfired
      · exact hfalse
      · cases isOpen.symm.trans hfired
    · exact hkeep hold
  | listen _ hl => exact hkeep ((sendAt?_set_listen hl place).symm.trans hx)
  | aside hp =>
    rcases hp.sendAt? hx with hold | ⟨-, hcalled⟩
    · exact hkeep hold
    · rw [Send.Attested, hcalled]
      trivial

/-- While the sender is open, a send that has succeeded has had its frame accepted and has read the
acknowledgment of its counter, if that was asked for, in its own steps. -/
theorem attested_applyAll {p : Pipeline} (fresh : ∀ place, p.sendAt? place = none)
    (isOpen : p.sender.cancel.closed = false) {events : List Event}
    (hopen : ∀ e ∈ events, e ≠ .closeSender) {place : Nat} {x : Send}
    (hx : (p.applyAll events).sendAt? place = some x) :
    x.Attested p.sender.withAcknowledge (p.ledger events)
      (gained Connection.written place p events) (gained Connection.consumed place p events) False
      place := by
  induction events using List.reverseRecOn generalizing x with
  | nil => cases (fresh place).symm.trans hx
  | append_singleton events e ih =>
    have hbefore := fun d hd => hopen d (List.mem_append_left _ hd)
    have hcancel : (p.applyAll events).sender.cancel.closed = false := by
      rw [cancel_applyAll hbefore]
      exact isOpen
    have hknown := fun y hy => ih (x := y) hbefore hy
    rw [applyAll_append] at hx
    rw [ledger, gained, gained, collect_concat, collect_concat, collect_concat]
    rw [← withAcknowledge_applyAll p events] at hknown ⊢
    exact attested_apply hcancel hknown e hx

/-- A sender that is open and asks for acknowledgments, before any send, over sturdy connections. -/
structure Ready (p : Pipeline) : Prop extends p.Named where
  withAcknowledge : p.sender.withAcknowledge = true
  isOpen : p.sender.cancel.closed = false
  registered : p.sender.registry.entries ≠ []
  sturdy : ∀ c ∈ p.sender.registry.entries, (p.wire.conn c.2).Sturdy
  line : p.sender.line = []
  activities : p.activities = []

/-- How sends share the connections in the course of a run. -/
structure Shared (p : Pipeline) (events : List Event) : Prop where
  /-- At most one send has its turn. -/
  alone : ∀ a b x y, (p.applyAll events).sendAt? a = some x →
    (p.applyAll events).sendAt? b = some y → x.HasTurn → y.HasTurn → a = b
  /-- A send that has succeeded has in its own steps read the acknowledgment of its own counter,
  from a connection that had accepted its frame. -/
  earned : ∀ place, (p.applyAll events).sent? place = some (.ok ()) →
    ∃ payload counter r, (p.applyAll events).payloadAt? place = some payload ∧
      (p.ledger events).of place = [⟨place, payload, counter⟩] ∧
      (r, Frame.encode ⟨true, counter, payload⟩) ∈ gained Connection.written place p events ∧
      (r, Ack.encode counter) ∈ gained Connection.consumed place p events
  /-- Activities run only so long, and come to where nothing can move. -/
  settles : (∀ ms p', (p.applyAll events).moves ms = some p' →
      ms.length ≤ (p.applyAll events).work) ∧
    ∃ ms p', (p.applyAll events).moves ms = some p' ∧ Schedule.Blocked p'
  /-- When nothing can move any more and all frames have been answered, all sends have succeeded. -/
  complete : (p.applyAll events).wire.Answers (p.acceptances events) →
    Schedule.Blocked (p.applyAll events) → ∀ place x, (p.applyAll events).sendAt? place = some x →
      (p.applyAll events).sent? place = some (.ok ())

/-- Nobody reads but the sends. -/
def Unread (p : Pipeline) : Prop := ∀ i l, .listen i l ∉ p.activities

theorem Unread.apply {p : Pipeline} (h : p.Unread) {e : Event} (he : ∀ i r, e ≠ .listen i r) :
    (p.apply e).Unread := by
  have heffect := p.effect_apply e
  generalize p.apply e = p', p.assigned e = more at heffect
  intro i l hl
  cases heffect with
  | send =>
    rcases List.mem_or_eq_of_mem_set hl with hold | hnew
    · exact h i l hold
    · cases hnew
  | listen _ hread => exact h _ _ (List.mem_of_getElem? hread)
  | aside hp =>
    obtain ⟨begun, hbegun, hnew⟩ := hp.activities
    rw [hbegun] at hl
    rcases List.mem_append.mp hl with hold | hmem
    · exact h i l hold
    · rcases hnew _ hmem with ⟨_, heq⟩ | ⟨_, heq⟩ | ⟨j, r, hlisten, -⟩
      · cases heq
      · cases heq
      · exact he j r hlisten

theorem Unread.move (p : Pipeline) (place pick : Nat) (p' : Pipeline) (h : p.Unread)
    (hmove : p.move place pick = some p') : p'.Unread := by
  have happly := h.apply (e := .move place pick) nofun
  rwa [Pipeline.apply, hmove] at happly

theorem Unread.unhurried (p : Pipeline) (place : Nat) (h : p.Unread) : ¬p.Hurries place := by
  rintro ⟨i, l, _, _, hl, -⟩
  exact h i l (List.mem_of_getElem? hl)

theorem Ready.steady {p : Pipeline} (h : p.Ready) : p.Steady [] where
  toNamed := h.toNamed
  toLined := .start h.line fun place => by simp [sendAt?, h.activities]
  isOpen := h.isOpen
  registered := h.registered
  sturdy := h.sturdy
  apart := by simp [h.activities]
  steady := by simp [sendAt?, h.activities]
  backed := by simp [sendAt?, h.activities]

theorem single_applyAll (p : Pipeline) (events : List Event) :
    (p.applyAll events).Single (p.ledger events) := by
  have hstart : p.Single [] := fun _ => .inl rfl
  have hcourse : Along apply (fun _ _ => True) p events :=
    along_of_forall apply (fun _ _ => trivial) p
  have hsingle := collect_invariant Single (fun _ _ e _ h => h.apply e) hcourse hstart
  rwa [List.nil_append] at hsingle

/-- However many sends run at once, and whatever else arrives at the connections at whatever time,
no send takes an acknowledgment for another, and none is left waiting. -/
theorem shared_of_calm {p : Pipeline} (ready : p.Ready) {events : List Event}
    (calm : ∀ e ∈ events, e.Calm) : p.Shared events := by
  have hsteady := ready.steady.applyAll calm
  rw [List.nil_append] at hsteady
  have hfresh (place : Nat) : p.sendAt? place = none := by simp [sendAt?, ready.activities]
  have hopen : ∀ e ∈ events, e ≠ .closeSender := by
    rintro e he rfl
    exact calm _ he
  have hlisten : ∀ e ∈ events, ∀ i r, e ≠ .listen i r := by
    rintro e he i r rfl
    exact calm _ he
  refine ⟨fun a b x y hx hy hxturn hyturn => ?_, fun place hsent => ?_, ?_,
    fun answers blocked place x hx => ?_⟩
  · -- whoever has the turn is the first in the line
    exact Option.some.inj ((hsteady.turned a x hx hxturn).symm.trans (hsteady.turned b y hy hyturn))
  · obtain ⟨x, hx, hdone⟩ := sent?_eq_some.mp hsent
    have hattested := attested_applyAll hfresh ready.isOpen hopen hx
    rw [Send.Attested, hdone, ready.withAcknowledge] at hattested
    obtain ⟨r, counter, hmem, hframe, hack⟩ := hattested
    exact ⟨x.payload, counter, r, by rw [payloadAt?, hx]; rfl,
      (p.single_applyAll events).of_eq hmem, hframe, (hack rfl).resolve_right id⟩
  · have hstart : p.Unread := by simp [Unread, ready.activities]
    have hunread : (p.applyAll events).Unread := by
      refine along_induction hstart (fun before e _ he hbefore => ?_)
        (along_of_forall apply hlisten p)
      rw [applyAll_append]
      exact hbefore.apply he
    refine ⟨fun ms p' hms => ?_, exists_blocked Unread.move Unread.unhurried hunread⟩
    exact Nat.le_trans (Nat.le_add_left _ _)
      (length_le_work Unread.move Unread.unhurried hms hunread)
  · exact sent?_eq_some.mpr ⟨x, hx, hsteady.complete answers blocked hx⟩

/-- A sender with one connection. -/
def single : Pipeline :=
  (beginning true).applyAll [.connect { id := "near", isOpen := true }, .register 0]

/-- Two sends share the connection, where the acknowledgment for the second arrives too early
once. -/
def crossed : List Event :=
  [.send [1], .send [2], .move 0 0, .move 1 0, .occur 0 (.arrive [.data (Ack.encode 2), .data [7]]),
    .move 0 0, .move 0 0, .move 0 0, .occur 0 (.arrive [.data (Ack.encode 1)]), .move 0 0,
    .move 0 0, .move 0 0, .move 1 0, .move 1 0, .move 1 0,
    .occur 0 (.arrive [.data (Ack.encode 2)]), .move 1 0]

/-- The first of the two sends reads the early acknowledgment away, and both succeed. -/
theorem shared_crossed : single.Ready ∧ (∀ e ∈ crossed, e.Calm) ∧
    (single.applyAll crossed).sent? 0 = some (.ok ()) ∧
    (single.applyAll crossed).sent? 1 = some (.ok ()) := by
  have hready : single.Ready := by
    refine ⟨⟨by decide⟩, rfl, rfl, by decide, fun c hc => ?_, rfl, rfl⟩
    obtain rfl : c = ("near", 0) := List.mem_singleton.mp hc
    exact ⟨rfl, rfl, nofun, rfl, nofun⟩
  have hcalm : ∀ e ∈ crossed, e.Calm := by simp [crossed, Event.Calm, Inbound.IsData]
  have hacc : single.acceptances crossed = [⟨0, Frame.encode ⟨true, 1, [1]⟩, 2⟩,
      ⟨0, Frame.encode ⟨true, 2, [2]⟩, 3⟩] := by decide +kernel
  have hmessages : ((single.applyAll crossed).wire.conn 0).messages
      = [Ack.encode 2, [7], Ack.encode 1, Ack.encode 2] := by decide +kernel
  have hanswers : (single.applyAll crossed).wire.Answers (single.acceptances crossed) := by
    simp [Wire.Answers, hacc, hmessages]
  have hblocked : Schedule.Blocked (single.applyAll crossed) := by
    have hnone : ∀ place < 2, Schedule.canMove (single.applyAll crossed) place = false := by
      decide +kernel
    exact hnone
  have hcomplete := (shared_of_calm hready hcalm).complete hanswers hblocked
  exact ⟨hready, hcalm, hcomplete 0 ⟨[1], .done (.ok ())⟩ rfl,
    hcomplete 1 ⟨[2], .done (.ok ())⟩ rfl⟩

end BlockFeed.Pipeline
