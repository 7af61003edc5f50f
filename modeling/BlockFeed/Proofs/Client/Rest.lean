import BlockFeed.Proofs.Client.Progress

/-!
# Clients at rest

When a client was closed and none of its activities can go on, all of them are over.

## Main definitions

* `Exchange.Rests`: no activity of the client can take a step, and no dial is out.

## Main results

* `Exchange.finished_of_rests`: the activities of a closed client that rests are over.
-/

namespace BlockFeed

namespace Exchange

/-- No activity of the client can take a step, and no dial is out. -/
def Rests (p : Exchange) : Prop :=
  ∀ place a, p.clientAt? place = some a → (∀ pick, p.move place pick = none) ∧ a.dialing = false

variable {p : Exchange} {place : Nat} {a : ClientActivity}

/-- The activities of a closed client that rests are over: nothing comes from outside that they
could wait for. -/
theorem finished_of_rests (h : p.InOrder) (closed : p.client.cancel.closed = true)
    (sender : p.client.sender.cancel.closed = true)
    (receiver : p.client.receiver.cancel.closed = true) (rests : p.Rests)
    (ha : p.clientAt? place = some a) : a.finished = true := by
  have hnone (q : Nat) : ¬p.Ongoing q := by
    intro hongoing
    cases hongoing with
    | moves hb hmoves => exact hmoves ((rests q _ hb).1 _)
    | dials hb hdialing => cases (rests q _ hb).2.symm.trans hdialing
    | pauses _ _ _ _ hopen => cases closed.symm.trans hopen
    | unheard _ hunheard => cases sender.symm.trans hunheard.1
  rcases h.goesOn ha with hdone | hongoing | ⟨first, -, hongoing, -⟩ | ⟨_, _, -, hopen⟩
  · exact hdone
  · exact absurd hongoing (hnone place)
  · exact absurd hongoing (hnone first)
  · cases receiver.symm.trans hopen

/-- Where all is over, nothing goes on. -/
theorem rests_of_finished (h : ∀ a ∈ p.clients, a.finished = true) : p.Rests := by
  intro place a ha
  have hdone := h a (mem_clients.mpr ⟨place, ha⟩)
  simp only [move_eq_none_iff ha]
  cases a with
  | send s =>
    obtain ⟨payload, phase⟩ := s
    cases phase with
    | done => exact ⟨fun _ => rfl, rfl⟩
    | called | attempting | obtaining | sending | discarding | pausing => cases hdone
  | listen l =>
    cases l with
    | done => exact ⟨fun _ => rfl, rfl⟩
    | obtaining | listening | discarding => cases hdone
  | close x =>
    cases x with
    | done => exact ⟨fun _ => rfl, rfl⟩
    | called | released | queued => cases hdone

end Exchange

end BlockFeed
