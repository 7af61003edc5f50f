import BlockFeed.Proofs.Client.Exchange
import BlockFeed.Proofs.Link.Histories

/-!
# Regular exchanges

What an exchange keeps up from its beginning on, whatever happens in it: the counters of its ledger
carry on, and nothing but closing the client releases what waits.

## Main definitions

* `Exchange.gained`: what a history of the connections gains in the steps of one activity.
* `Exchange.Shut`: closing the client has been asked for.
* `Exchange.Regular`: the invariant.
-/

namespace BlockFeed

/-- What was asked of a client, and how far its sender has counted, is as it was. -/
structure Client.Same (c c' : Client) : Prop where
  withAcknowledge : c'.sender.withAcknowledge = c.sender.withAcknowledge
  lastCounter : c'.sender.lastCounter = c.sender.lastCounter
  senderCancel : c'.sender.cancel = c.sender.cancel
  cancel : c'.cancel = c.cancel

theorem Client.Same.refl (c : Client) : c.Same c := ⟨rfl, rfl, rfl, rfl⟩

theorem Client.Tends.same {c c' : Client} {w w' : Wire} (h : c.Tends w c' w') : c.Same c' :=
  ⟨h.withAcknowledge, h.lastCounter, h.senderCancel, h.cancel⟩

theorem ClientListen.Move.same {now : Nat} {c c' : Client} {w w' : Wire} {a a' : ClientListen}
    (h : Move now c w a c' w' a') : c.Same c' := by
  cases h with
  | tend htends => exact htends.same
  | read => exact ⟨rfl, rfl, rfl, rfl⟩

/-- Closing the client was asked for, however far it has got. -/
def ExchangeActivity.closing : ExchangeActivity → Bool
  | .client (.close _) => true
  | .client (.send _) | .client (.listen _) | .peer _ _ => false

namespace Exchange

/-- What a history of the connections gains in a step of the activity at a place. -/
def gainedAt {α : Type} (history : Connection → List α) (place : Nat) (p : Exchange) (e : Event) :
    List (Ref × α) :=
  match e with
  | .move q _ => if q = place then p.wire.news history (p.apply e).wire else []
  | _ => []

/-- What a history of the connections gains in the steps of the activity at a place. -/
def gained {α : Type} (history : Connection → List α) (place : Nat) (p : Exchange)
    (events : List Event) : List (Ref × α) :=
  collect apply (gainedAt history place) p events

theorem gainedAt_eq_nil {α : Type} (history : Connection → List α) (p : Exchange) {place : Nat}
    {e : Event} (he : ∀ pick, e ≠ .move place pick) : gainedAt history place p e = [] := by
  cases e with
  | move q pick =>
    rw [gainedAt, if_neg]
    rintro rfl
    exact he pick rfl
  | _ => rfl

def Shut (p : Exchange) : Prop := true ∈ p.activities.map (·.closing)

variable {p : Exchange}

/-- What is asked for begins, and what goes on stays what it is. -/
theorem closing_apply (p : Exchange) (e : Event) :
    ∃ more, (p.apply e).activities.map (·.closing) = p.activities.map (·.closing) ++ more ∧
      (true ∈ more ↔ e = .close) := by
  have hsame {activities : List ExchangeActivity}
      (h : activities.map (·.closing) = p.activities.map (·.closing)) (he : e ≠ .close) :
      ∃ more, activities.map (·.closing) = p.activities.map (·.closing) ++ more ∧
        (true ∈ more ↔ e = .close) := ⟨[], by rw [h, List.append_nil], by simp [he]⟩
  cases e with
  | move place pick =>
    have hmoved := p.moved_apply place pick
    generalize p.apply (.move place pick) = p' at hmoved
    cases hmoved with
    | send ha | read ha | close ha | peer ha => exact hsame (map_set_of_eq ha rfl) nofun
    | stay => exact hsame rfl nofun
  | answer place ends =>
    have hanswered := p.answered_apply place ends
    generalize p.apply (.answer place ends) = p' at hanswered
    cases hanswered with
    | linked ha _ _ hto | failed ha hto =>
      rcases hto with ⟨_, rfl, rfl⟩ | ⟨rfl, rfl⟩ <;> exact hsame (map_set_of_eq ha rfl) nofun
    | stay => exact hsame rfl nofun
  | elapse | occur | disconnect | attach | closePeer => exact hsame rfl nofun
  | listen | send | read => exact ⟨[false], List.map_append, by simp⟩
  | close => exact ⟨[true], List.map_append, by simp⟩

theorem shut_apply {e : Event} : (p.apply e).Shut ↔ p.Shut ∨ e = .close := by
  obtain ⟨more, hmore, hclose⟩ := p.closing_apply e
  rw [Shut, hmore, List.mem_append, hclose, Shut]

/-- Closing has been asked for exactly if there was a request. -/
theorem shut_applyAll {events : List Event} :
    (p.applyAll events).Shut ↔ p.Shut ∨ .close ∈ events := by
  induction events generalizing p with
  | nil => simp [applyAll]
  | cons e rest ih =>
    change ((p.apply e).applyAll rest).Shut ↔ _
    rw [ih, shut_apply, List.mem_cons, or_assoc, eq_comm (a := e)]

theorem shut_of_close {place : Nat} {x : ClientClose}
    (h : p.activities[place]? = some (.client (.close x))) : p.Shut :=
  List.mem_map.mpr ⟨_, List.mem_of_getElem? h, rfl⟩

/-- What an exchange keeps up, given whether its sender asks for acknowledgments and what that has
assigned. -/
structure Regular (p : Exchange) (ack : Bool) (log : Ledger) : Prop where
  withAcknowledge : p.client.sender.withAcknowledge = ack
  numbered : log.Numbered
  last : p.client.sender.lastCounter = UInt64.ofNat log.length
  shut : p.client.cancel.closed = true ∨ p.client.sender.cancel.closed = true → p.Shut

namespace Regular

variable {ack : Bool} {log : Ledger}

theorem same (h : p.Regular ack log) {p' : Exchange} (hsame : p.client.Same p'.client)
    (hshut : p.Shut → p'.Shut) : p'.Regular ack log where
  withAcknowledge := hsame.withAcknowledge.trans h.withAcknowledge
  numbered := h.numbered
  last := hsame.lastCounter.trans h.last
  shut := by
    rw [hsame.cancel, hsame.senderCancel]
    exact fun hfired => hshut (h.shut hfired)

theorem move (h : p.Regular ack log) (place pick : Nat) :
    (p.apply (.move place pick)).Regular ack (log ++ p.assigned (.move place pick)) := by
  have hshut (hp : p.Shut) : (p.apply (.move place pick)).Shut := shut_apply.mpr (.inl hp)
  have hother (hnone : p.callAt? place = none) : log ++ p.assigned (.move place pick) = log := by
    rw [assigned_of_callAt?_none hnone, List.append_nil]
  have hmoved := p.moved_apply place pick
  generalize happly : p.apply (.move place pick) = p' at hmoved hshut
  cases hmoved with
  | send hs hmove =>
    have hlt := (List.getElem?_eq_some_iff.mp hs).1
    obtain ⟨hack, hcancel⟩ := hmove.settings
    obtain ⟨hnumbered, hlast⟩ := hmove.numbered h.numbered h.last
    rw [assigned_send happly (callAt?_eq_some.mpr hs)
      (callAt?_eq_some.mpr (List.getElem?_set_self hlt))]
    refine ⟨hack.trans h.withAcknowledge, hnumbered, hlast, ?_⟩
    rw [hmove.cancel, hcancel]
    exact fun hfired => hshut (h.shut hfired)
  | read ha hmove =>
    rw [hother (by rw [callAt?, ha])]
    exact h.same hmove.same hshut
  | close ha _ hsender =>
    -- whatever the client has closed, closing was asked for
    rw [hother (by rw [callAt?, ha])]
    exact ⟨hsender.1.trans h.withAcknowledge, h.numbered, hsender.2.trans h.last,
      fun _ => hshut (shut_of_close ha)⟩
  | peer ha =>
    rw [hother (by rw [callAt?, ha])]
    exact h.same (.refl _) hshut
  | stay =>
    rw [assigned, happly, Ledger.taken_self, List.append_nil]
    exact h

theorem apply (h : p.Regular ack log) (e : Event) :
    (p.apply e).Regular ack (log ++ p.assigned e) := by
  have hshut (hp : p.Shut) : (p.apply e).Shut := shut_apply.mpr (.inl hp)
  by_cases he : ∃ place pick, e = .move place pick
  · obtain ⟨place, pick, rfl⟩ := he
    exact h.move place pick
  rw [assigned_of_ne_move fun place pick heq => he ⟨place, pick, heq⟩, List.append_nil]
  refine h.same ?_ hshut
  cases e with
  | move place pick => exact absurd ⟨place, pick, rfl⟩ he
  | answer place ends =>
    have hanswered := p.answered_apply place ends
    generalize p.apply (.answer place ends) = p' at hanswered
    cases hanswered with
    | linked _ _ htends =>
      -- the end of the dial takes the slot, and the slot is not asked about
      exact ⟨htends.withAcknowledge, htends.lastCounter, htends.senderCancel, htends.cancel⟩
    | failed | stay => exact .refl _
  | elapse | occur | disconnect | attach | listen | closePeer | send | read | close =>
    exact .refl _

theorem applyAll (h : p.Regular ack log) (events : List Event) :
    (p.applyAll events).Regular ack (log ++ p.ledger events) :=
  collect_invariant (fun (p : Exchange) log => p.Regular ack log)
    (fun _ _ e (_ : True) h => h.apply e) (along_of_forall Exchange.apply (fun _ _ => trivial) p) h

end Regular

end Exchange

end BlockFeed
