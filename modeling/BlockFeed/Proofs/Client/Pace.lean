import BlockFeed.Proofs.Client.Progress
import BlockFeed.Proofs.Client.Regular
import BlockFeed.Proofs.Pipeline.Work
import BlockFeed.Proofs.Sender.Writes

/-!
# The pace of a send

How many steps a send of a client takes without attempting anything: whatever comes of its
attempts, it soon dials, has its sender send, writes or reads.

## Main definitions

* `ClientSend.busy`: a dial of the send is out, or its sender has it in hand.
* `ClientSend.slack`: the steps that a send may take before it attempts something.
* `Exchange.Extant`: the connections that the client uses exist.
* `Exchange.steps`, `Exchange.tries`: the steps of a send in a run, and how often it dials or has
  its sender send.

## Main results

* `Exchange.steps_le`: a send takes only so many steps for all that it attempts.

## Design notes

An attempt pays for the steps that may follow from it: a dial for the pause after it, a call on the
sender for giving the connection up and for the way to the next attempt, and a write for the end of
the wait that comes of it.
-/

namespace BlockFeed

/-- The steps that a send may take before it writes, reads a message, or is done. -/
def Send.slack (x : Send) : Nat :=
  match x.phase with
  | .called => 3
  | .queued => 2
  | .writing _ _ written _ => 1 + written.length
  | .waiting _ waits _ => (waits.map AckWait.work).sum
  | .done _ => 0

/-- The steps that obtaining the connection may take before a dial goes out; a dial that is out
counts for what may follow from it. -/
def Obtain.slack : Obtain → Nat
  | .called => 3
  | .queued | .pausing _ => 2
  | .ready => 1
  | .dialing => 10
  | .got _ | .refused => 0

def Discard.slack : Discard → Nat
  | .called => 7
  | .queued => 6
  | .cleared => 5
  | .done => 0

namespace ClientSend

/-- A dial of the send is out, or its sender has it in hand. -/
def busy (s : ClientSend) : Bool :=
  match s.phase with
  | .obtaining .dialing | .sending _ _ => true
  | _ => false

/-- The steps that a send may take before it attempts something. -/
def slack (s : ClientSend) : Nat :=
  match s.phase with
  | .called | .pausing _ => 5
  | .attempting => 4
  | .obtaining o => o.slack
  | .sending _ x => x.slack + 7
  | .discarding _ d => d.slack
  | .done _ => 0

end ClientSend

section Steps

variable {me now pick : Nat} {w w' : Wire}

/-- A step of a wait ends it, or reads a message. -/
theorem AckWait.Move.work_le {counter : UInt64} {s s' : Sender} {a a' : AckWait}
    (h : Move counter s w a s' w' a') :
    1 + a'.work ≤ a.work + (w.news Connection.consumed w').length := by
  cases h with
  | cancel hnone | fail hnone =>
    simp only [AckWait.work, hnone, Option.isNone_none, Option.isNone_some, Bool.toNat_true,
      Bool.toNat_false]
    omega
  | acknowledge hnone _ hread =>
    rw [Wire.news_consumed hread]
    simp [AckWait.work, hnone]
  | ignore hnone _ hread =>
    rw [Wire.news_consumed hread]
    simp [AckWait.work, hnone]

/-- A step of a send takes of its slack, unless it writes or reads a message. -/
theorem Send.Move.slack_le {s s' : Sender} {x x' : Send} (h : Move me pick s w x s' w' x')
    (exist : ∀ o ∈ x.offers s, o.1 < w.connections.length) :
    1 + x'.slack ≤ x.slack + 2 * (w.news Connection.offered w').length
      + (w.news Connection.consumed w').length := by
  have hoffered := h.news_offered exist
  cases h with
  | refuse hp | enqueue hp | abandon hp | start hp | fail hp | succeed hp =>
    simp only [Send.slack, hp, List.length_nil]
    omega
  | accept hp | reject hp =>
    rw [hoffered, offers, hp]
    simp only [Send.slack, hp, List.length_append, List.length_cons, List.length_nil]
    omega
  | await hp =>
    simp only [Send.slack, hp, AckWait.sum_work_fresh]
    omega
  | @wait _ _ _ _ a' _ _ hp ha hstep | @conclude _ _ _ _ a' _ _ hp ha hstep =>
    have hwork := (AckWait.move_of_step hstep).work_le
    have hsum := sum_map_set AckWait.work (b := a') ha
    simp only [Send.slack, hp]
    omega

namespace ClientSend

variable {c c' : Client}

/-- A step of obtaining the connection takes of its slack, or a dial goes out, or the sender is
called for. -/
theorem slack_afterObtain {register : Bool} {o o' : Obtain}
    (h : o.step me now register c w = some (c', o')) (payload : Bytes) :
    1 + slack ⟨payload, afterObtain payload o'⟩
      ≤ o.slack + 11 * (busy ⟨payload, afterObtain payload o'⟩).toNat := by
  cases o with
  | called =>
    obtain ⟨-, rfl⟩ := Option.some.inj h
    exact Nat.le_add_right _ _
  | queued =>
    rw [Obtain.step] at h
    split at h
    · split at h
      · split at h
        · obtain ⟨-, rfl⟩ := Prod.mk.inj (Option.some.inj h)
          simp [afterObtain, slack, busy, Obtain.slack, Send.slack]
        · obtain ⟨-, rfl⟩ := Option.some.inj h
          exact Nat.le_add_right _ _
      · obtain ⟨-, rfl⟩ := Option.some.inj h
        exact Nat.le_add_right _ _
    · cases h
  | ready =>
    rw [Obtain.step] at h
    split at h <;> obtain ⟨-, rfl⟩ := Option.some.inj h <;>
      simp [afterObtain, slack, busy, Obtain.slack]
  | pausing deadline =>
    rw [Obtain.step] at h
    split at h
    · obtain ⟨-, rfl⟩ := Option.some.inj h
      simp [afterObtain, slack, busy, Obtain.slack]
    · split at h
      · cases h
      · obtain ⟨-, rfl⟩ := Option.some.inj h
        exact Nat.le_add_right _ _
  | dialing | got | refused => cases h

theorem slack_afterSend (now : Nat) (payload : Bytes) (retry : Nat) (r : Ref) (x : Send) :
    slack ⟨payload, afterSend now retry r x⟩ ≤ x.slack + 7 := by
  rcases afterSend_cases now retry r x with heq | ⟨-, heq⟩ | ⟨_, -, heq | heq | heq⟩ <;>
    simp [slack, heq, Discard.slack]

theorem slack_afterDiscard {r : Ref} {d d' : Discard} (h : d.step me r c w = some (c', w', d'))
    (payload : Bytes) : 1 + slack ⟨payload, afterDiscard r d'⟩ ≤ d.slack := by
  cases d with
  | called | cleared =>
    obtain ⟨-, -, rfl⟩ := Option.some.inj h
    exact Nat.le_refl _
  | queued =>
    rw [Discard.step] at h
    split at h
    · obtain ⟨-, -, rfl⟩ := Option.some.inj h
      exact Nat.le_refl _
    · cases h
  | done => cases h

/-- A step of a send takes of its slack, unless the send attempts something. -/
theorem slack_of_step {s s' : ClientSend} (h : s.step me now pick c w = some (c', w', s'))
    (exist : ∀ x ∈ s.send?, ∀ o ∈ x.offers c.sender, o.1 < w.connections.length) :
    1 + s'.slack ≤ s.slack + 11 * (!s.busy && s'.busy).toNat
      + 2 * (w.news Connection.offered w').length + (w.news Connection.consumed w').length := by
  obtain ⟨payload, phase⟩ := s
  cases phase with
  | called =>
    rw [step] at h
    dsimp only at h
    split at h <;> obtain ⟨-, -, rfl⟩ := Option.some.inj h <;> simp only [slack] <;> omega
  | attempting =>
    rw [step] at h
    dsimp only at h
    split at h <;> obtain ⟨-, -, rfl⟩ := Option.some.inj h <;>
      simp only [slack, Obtain.slack] <;> omega
  | obtaining o =>
    rw [step] at h
    dsimp only at h
    split at h
    · cases h
    · next hstep =>
      obtain ⟨-, -, rfl⟩ := Option.some.inj h
      have hidle : busy ⟨payload, .obtaining o⟩ = false := by
        cases o with
        | dialing => cases hstep
        | called | queued | ready | pausing | got | refused => rfl
      rw [hidle, Bool.not_false, Bool.true_and]
      exact Nat.le_trans (slack_afterObtain hstep payload)
        (Nat.le_trans (Nat.le_add_right _ _) (Nat.le_add_right _ _))
  | sending r x =>
    rw [step] at h
    dsimp only at h
    split at h
    · cases h
    · next sender _ x' hstep =>
      obtain ⟨-, rfl, rfl⟩ := Option.some.inj h
      have hslack := (Send.move_of_step hstep).slack_le (exist x rfl)
      have hafter := slack_afterSend now payload c.retry r x'
      simp only [slack] at hafter ⊢
      omega
  | discarding r d =>
    rw [step] at h
    dsimp only at h
    split at h
    · cases h
    · next hstep =>
      obtain ⟨-, -, rfl⟩ := Option.some.inj h
      have hslack := slack_afterDiscard hstep payload
      exact Nat.le_trans hslack (by rw [Nat.add_assoc, Nat.add_assoc]; exact Nat.le_add_right _ _)
  | pausing deadline =>
    rw [step] at h
    dsimp only at h
    split at h
    · obtain ⟨-, -, rfl⟩ := Option.some.inj h
      simp only [slack]
      omega
    · split at h
      · cases h
      · obtain ⟨-, -, rfl⟩ := Option.some.inj h
        simp only [slack]
        omega
  | done => cases h

end ClientSend

end Steps

/-- The connections that a send has still to write to. -/
def Send.rest (x : Send) : List (String × Ref) :=
  match x.phase with
  | .writing _ rest _ _ => rest
  | .called | .queued | .waiting .. | .done _ => []

section Connections

variable {me now pick : Nat} {c c' : Client} {w w' : Wire}

/-- A send writes to connections that were registered when it had its turn. -/
theorem Send.Move.rest {s s' : Sender} {x x' : Send} (h : Move me pick s w x s' w' x')
    {entry : String × Ref} (hentry : entry ∈ x'.rest) :
    entry ∈ s.registry.entries ∨ entry ∈ x.rest := by
  cases h with
  | start => exact .inl hentry
  | accept hp | reject hp =>
    refine .inr ?_
    rw [Send.rest, hp]
    exact List.mem_cons_of_mem _ hentry
  | refuse | enqueue | abandon | fail | succeed | await | wait | conclude => cases hentry

theorem Send.exists_rest_of_offers {s : Sender} {x : Send} {o : Ref × Bytes}
    (h : o ∈ x.offers s) : ∃ entry ∈ x.rest, entry.2 = o.1 := by
  rw [offers] at h
  split at h
  · next id r rest _ _ hp =>
    obtain rfl := List.mem_singleton.mp h
    exact ⟨(id, r), by rw [Send.rest, hp]; exact List.mem_cons_self, rfl⟩
  · cases h

theorem Send.rest_of_called {x : Send} (h : x.phase = .called) : x.rest = [] := by
  rw [rest, h]

theorem ClientActivity.rest_of_step {a a' : ClientActivity}
    (h : a.step me now pick c w = some (c', w', a')) {x' : Send} (hx' : x' ∈ a'.send?)
    {entry : String × Ref} (hentry : entry ∈ x'.rest) :
    entry ∈ c.sender.registry.entries ∨ ∃ x ∈ a.send?, entry ∈ x.rest := by
  cases a with
  | send s =>
    obtain ⟨⟨_, _, s'⟩, hs, heq⟩ := Option.map_eq_some_iff.mp h
    obtain ⟨rfl, rfl, rfl⟩ := heq
    cases ClientSend.move_of_step hs with
    | refuse | attempt | call => cases hx'
    | obtain =>
      rw [Send.rest_of_called (ClientSend.send?_afterObtain _ _ x' hx')] at hentry
      cases hentry
    | @send r x y _ _ hp hmove =>
      rcases ClientSend.send?_afterSend s.payload now c.retry r y with hsome | ⟨hnone, -⟩
      · obtain rfl := Option.some.inj (hsome.symm.trans hx')
        refine (hmove.rest hentry).imp_right fun hrest => ⟨x, ?_, hrest⟩
        rw [send?, ClientSend.send?, hp]
        rfl
      · cases hnone.symm.trans hx'
    | discard => cases (ClientSend.send?_afterDiscard _ _ _).symm.trans hx'
  | listen l =>
    obtain ⟨⟨_, _, l'⟩, hl, heq⟩ := Option.map_eq_some_iff.mp h
    obtain ⟨rfl, rfl, rfl⟩ := heq
    cases hx'
  | close x =>
    obtain ⟨⟨_, _, y⟩, hy, heq⟩ := Option.map_eq_some_iff.mp h
    obtain ⟨rfl, rfl, rfl⟩ := heq
    cases hx'

/-- The end of a dial that has succeeded puts the connection into the slot, and registers no
other. -/
theorem ClientActivity.slot_answerDial {a : ClientActivity} (hdialing : a.dialing = true)
    (now : Nat) (c : Client) (w : Wire) (r : Ref) :
    (a.answerDial now (some r) c w).1.slot = some r ∧
      ∀ entry ∈ (a.answerDial now (some r) c w).1.sender.registry.entries,
        entry ∈ c.sender.registry.entries ∨ entry.2 = r := by
  rcases eq_of_dialing hdialing with ⟨payload, rfl⟩ | rfl
  · obtain ⟨-, hslot, -⟩ := Obtain.finish_frame true r { c with slot := some r } w
    refine ⟨hslot, fun entry hentry => ?_⟩
    exact (Client.entries_finish true { c with slot := some r } w hentry).imp_right fun heq => by
      rw [heq]
  · obtain ⟨-, hslot, -⟩ := Obtain.finish_frame false r { c with slot := some r } w
    refine ⟨hslot, fun entry hentry => ?_⟩
    exact (Client.entries_finish false { c with slot := some r } w hentry).imp_right fun heq => by
      rw [heq]

end Connections

namespace Exchange

variable {p p' : Exchange} {e : Event} {place : Nat} {s : ClientSend}

/-- The connections that the client uses exist: the one in the slot, those that are registered and
those that sends have still to write to. -/
structure Extant (p : Exchange) : Prop where
  slot : ∀ r, p.client.slot = some r → r < p.wire.connections.length
  entries : ∀ entry ∈ p.client.sender.registry.entries, entry.2 < p.wire.connections.length
  rest : ∀ place a, p.clientAt? place = some a →
    ∀ x ∈ a.send?, ∀ entry ∈ x.rest, entry.2 < p.wire.connections.length

theorem Effect.size_le (h : p.Effect e p') :
    p.wire.connections.length ≤ p'.wire.connections.length := by
  cases h with
  | step _ _ hstep => exact (ClientActivity.client_step hstep).wanes.size.ge
  | link _ _ _ hwire =>
    rw [hwire, length_link]
    omega
  | fail _ _ _ hwire | begin _ _ hwire => rw [hwire]
  | around _ _ _ hsize => exact hsize.ge

theorem Extant.apply (h : p.Extant) (e : Event) : (p.apply e).Extant := by
  have heffect := p.effect_apply e
  generalize p.apply e = p' at heffect
  have hsize := heffect.size_le
  have hrest : ∀ place a, p'.clientAt? place = some a →
      ∀ x ∈ a.send?, ∀ entry ∈ x.rest, entry.2 < p'.wire.connections.length := by
    intro place a ha
    refine heffect.forall_clientAt? (P := fun b => ∀ x ∈ b.send?, ∀ entry ∈ x.rest,
      entry.2 < p'.wire.connections.length) ?_ ?_ ?_ ?_ ha
    · intro q b hb x hx entry hentry
      exact Nat.lt_of_lt_of_le (h.rest q b hb x hx entry hentry) hsize
    · intro q pick b b' hb hstep x' hx' entry hentry
      refine Nat.lt_of_lt_of_le ?_ hsize
      rcases ClientActivity.rest_of_step hstep hx' hentry with hold | ⟨x, hx, hold⟩
      · exact h.entries entry hold
      · exact h.rest q b hb x hx entry hold
    · intro b hdialing dialed w x hx entry hentry
      have hcalled := (ClientActivity.of_answerDial hdialing _ _ _ _).2.2.1 x hx
      rw [Send.rest_of_called hcalled] at hentry
      cases hentry
    · intro b hbegun x hx
      cases e with
      | send | read | close =>
        obtain rfl := Option.some.inj hbegun
        cases hx
      | move | answer | elapse | occur | disconnect | attach | listen | closePeer => cases hbegun
  have hsame (hclient : p'.client = p.client) : p'.Extant := by
    refine ⟨fun r hr => ?_, fun entry hentry => ?_, hrest⟩
    · exact Nat.lt_of_lt_of_le (h.slot r (hclient ▸ hr)) hsize
    · exact Nat.lt_of_lt_of_le (h.entries entry (hclient ▸ hentry)) hsize
  cases heffect with
  | step _ ha hstep =>
    have hclient := ClientActivity.client_step hstep
    refine ⟨fun r hr => ?_, fun entry hentry => ?_, hrest⟩
    · exact Nat.lt_of_lt_of_le (h.slot r (hclient.slot_eq hr)) hsize
    · refine Nat.lt_of_lt_of_le ?_ hsize
      rcases hclient.entries hentry with hold | ⟨r, hr, rfl⟩
      · exact h.entries entry hold
      · exact h.slot r hr
  | @link place near far a _ ha hdialing hwire hclient =>
    obtain ⟨hslot, hentries⟩ := ClientActivity.slot_answerDial hdialing p.now p.client p'.wire
      (Exchange.link p.wire near far).1
    have hlonger : (Exchange.link p.wire near far).1 < p'.wire.connections.length := by
      have hfst : (Exchange.link p.wire near far).1 = p.wire.connections.length := rfl
      rw [hfst, hwire, length_link]
      exact Nat.lt_succ_of_lt (Nat.lt_succ_self _)
    refine ⟨fun r hr => ?_, fun entry hentry => ?_, hrest⟩
    · rw [hclient, hslot] at hr
      obtain rfl := Option.some.inj hr
      exact hlonger
    · rw [hclient] at hentry
      rcases hentries entry hentry with hold | heq
      · exact Nat.lt_of_lt_of_le (h.entries entry hold) hsize
      · exact heq ▸ hlonger
  | fail _ _ _ _ hclient | begin _ hclient | around _ _ hclient => exact hsame hclient

theorem Extant.applyAll (h : p.Extant) (events : List Event) : (p.applyAll events).Extant := by
  induction events generalizing p with
  | nil => exact h
  | cons e rest ih => exact ih (h.apply e)

/-- Whether the send at a place takes a step in an event. -/
def stepsAt (place : Nat) (p : Exchange) : Event → Bool
  | .move q pick => q == place && (p.move q pick).isSome
  | _ => false

/-- How many steps the send at a place takes in a run. -/
def steps (place : Nat) (p : Exchange) (events : List Event) : Nat :=
  tally apply (stepsAt place) p events

/-- Whether, in an event, a dial of the send at a place goes out or its sender is called for. -/
def triesAt (place : Nat) (p : Exchange) (e : Event) : Bool :=
  (p.callAt? place).any (!·.busy) && ((p.apply e).callAt? place).any (·.busy)

/-- How often the send at a place dials, or has its sender send, in a run. -/
def tries (place : Nat) (p : Exchange) (events : List Event) : Nat :=
  tally apply (triesAt place) p events

/-- In an event a send takes of its slack, unless it attempts something. -/
theorem slack_apply (extant : p.Extant) (hs : p.callAt? place = some s) (e : Event) :
    ∃ s', (p.apply e).callAt? place = some s' ∧ (stepsAt place p e).toNat + s'.slack
      ≤ s.slack + 11 * (triesAt place p e).toNat
        + 2 * (gainedAt Connection.offered place p e).length
        + (gainedAt Connection.consumed place p e).length := by
  by_cases he : ∃ pick, e = .move place pick
  · obtain ⟨pick, rfl⟩ := he
    have ha : p.clientAt? place = some (.send s) := clientAt?_eq_some.mpr (callAt?_eq_some.mp hs)
    have hexist (x : Send) (hx : x ∈ s.send?) (o : Ref × Bytes)
        (ho : o ∈ x.offers p.client.sender) : o.1 < p.wire.connections.length := by
      obtain ⟨entry, hentry, heq⟩ := Send.exists_rest_of_offers ho
      exact heq ▸ extant.rest place _ ha x hx entry hentry
    cases hmove : p.move place pick with
    | none =>
      have hstay : p.apply (.move place pick) = p := by rw [apply, hmove, Option.getD_none]
      refine ⟨s, by rwa [hstay], ?_⟩
      rw [stepsAt, hmove, Option.isSome_none, Bool.and_false, Bool.toNat_false]
      omega
    | some p' =>
      have happly : p.apply (.move place pick) = p' := by rw [apply, hmove, Option.getD_some]
      have hmoved := hmove
      rw [move, clientAt?_eq_some.mp ha] at hmove
      obtain ⟨⟨client, wire, a'⟩, hstep, rfl⟩ := Option.map_eq_some_iff.mp hmove
      obtain ⟨⟨_, _, s'⟩, hs', heq⟩ := Option.map_eq_some_iff.mp hstep
      obtain ⟨rfl, rfl, rfl⟩ := heq
      have hlt := (List.getElem?_eq_some_iff.mp (clientAt?_eq_some.mp ha)).1
      have hcall : (p.apply (.move place pick)).callAt? place = some s' := by
        rw [happly]
        exact callAt?_eq_some.mpr (List.getElem?_set_self hlt)
      have hslack := ClientSend.slack_of_step hs' hexist
      refine ⟨s', hcall, ?_⟩
      rw [stepsAt, hmoved, triesAt, hs, hcall, Option.any_some, Option.any_some]
      simp only [gainedAt, if_pos, happly, BEq.rfl, Option.isSome_some, Bool.true_and,
        Bool.toNat_true]
      exact hslack
  · have he (pick : Nat) : e ≠ .move place pick := fun heq => he ⟨pick, heq⟩
    have hstill : stepsAt place p e = false := by
      cases e with
      | move q pick =>
        have hq : q ≠ place := by
          rintro rfl
          exact he pick rfl
        rw [stepsAt, beq_false_of_ne hq, Bool.false_and]
      | _ => rfl
    have hless {s' : ClientSend} (hslack : s'.slack ≤ s.slack) :
        (stepsAt place p e).toNat + s'.slack ≤ s.slack + 11 * (triesAt place p e).toNat
          + 2 * (gainedAt Connection.offered place p e).length
          + (gainedAt Connection.consumed place p e).length := by
      rw [hstill, Bool.toNat_false]
      omega
    obtain ⟨s', hs', hgoes⟩ := goes_apply hs e
    refine ⟨s', hs', hless ?_⟩
    cases hgoes with
    | move heq => exact absurd heq (he _)
    | linked _ _ hp | failed _ _ hp => simp [ClientSend.slack, hp, Obtain.slack, Send.slack]
    | stay => exact Nat.le_refl _

/-- A send takes only so many steps in a run for all that it attempts. -/
theorem steps_le (extant : p.Extant) (hs : p.callAt? place = some s) (events : List Event) :
    ∃ s', (p.applyAll events).callAt? place = some s' ∧ steps place p events + s'.slack
      ≤ s.slack + 11 * tries place p events + 2 * (gained Connection.offered place p events).length
        + (gained Connection.consumed place p events).length := by
  induction events generalizing p s with
  | nil => exact ⟨s, hs, by rw [steps, tally]; omega⟩
  | cons e rest ih =>
    obtain ⟨t, ht, hfirst⟩ := slack_apply extant hs e
    obtain ⟨s', hs', hrest⟩ := ih (extant.apply e) ht
    refine ⟨s', hs', ?_⟩
    rw [steps, tries, gained, gained] at hrest ⊢
    rw [tally, tally, collect, collect, List.length_append, List.length_append]
    omega

end Exchange

end BlockFeed
