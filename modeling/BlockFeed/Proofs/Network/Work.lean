import BlockFeed.Proofs.Network.Moves
import BlockFeed.Proofs.Sender.Hearing
import Mathlib.Algebra.Order.BigOperators.Group.List
import Mathlib.Algebra.Order.Group.Nat

/-!
# Work of a network

How much a network has still to do: one number for all its connections and jobs, which every step of
any job makes smaller. So jobs run until each has ended or has to wait.

## Main definitions

* `Network.work`: the work that is left.
* `Network.Blocked`: no job can take a step.
* `Network.Idle`: a job has ended, or waits for a message, for its turn or for a point in time.

## Main results

* `Network.Sound.moves`, `Network.Sound.exists_blocked`: only so many steps can be taken, and some
  lead to where no job can take one.
* `Network.idle_of_blocked`: where no job can take a step, each is idle.

## Design notes

A frame that is written arrives at another connection, and handling it there writes an
acknowledgment back, which lets the next send begin; a peer that is none of the receivers answers it
at once, with one message at most. So no loop has a measure of its own: what a write may bring about
is part of the work of the send that has still to write.
-/

namespace BlockFeed.Network

/-- The work that is left to a job, besides what has not arrived yet. -/
def Job.work (senders : List Sender) (now : Nat) : Job → Nat
  | send i x => x.work ((senders[i]?).elim 0 (·.registry.size))
  | listen _ l => l.work now

/-- The work that is left, at the connections and to the jobs. -/
def work (p : Network) : Nat := p.wire.load + (p.jobs.map (Job.work p.senders p.now)).sum

/-- Moves taken one after the other, if all can be taken. -/
def moves (p : Network) (ms : List (Nat × Nat)) : Option Network :=
  path (fun p m => p.move m.1 m.2) p ms

/-- No job can take a step. -/
def Blocked (p : Network) : Prop := ∀ place pick, p.move place pick = none

/-- A job has ended, or there is something that it has to wait for. -/
inductive Idle (p : Network) (place : Nat) : Job → Prop where
  | sent {i : Nat} {x : Send} {result : Except SendError Unit} : x.phase = .done result →
      Idle p place (.send i x)
  /-- Another send of the same sender has its turn. -/
  | queues {i first : Nat} {x y : Send} : x.phase = .queued → first ≠ place →
      p.sendAt? i first = some y → y.HasTurn → Idle p place (.send i x)
  /-- Nothing waits to be read where an acknowledgment is missing. -/
  | awaits {i : Nat} {x : Send} {counter : UInt64} {waits : List AckWait}
      {failures : List Failure} : x.phase = .waiting counter waits failures →
      (∃ a ∈ waits, a.outcome = none) →
      (∀ a ∈ waits, a.outcome = none → (p.wire.conn a.conn).Dry) → Idle p place (.send i x)
  | stopped {i : Nat} {l : Listen} {gone : Bool} : l.phase = .done gone →
      Idle p place (.listen i l)
  /-- Nothing waits to be read. -/
  | reads {i : Nat} {l : Listen} : l.phase = .reading → (p.wire.conn l.conn).Dry →
      Idle p place (.listen i l)
  | pauses {i : Nat} {l : Listen} {deadline : Nat} {resume : Resume} :
      l.phase = .pausing deadline resume → p.now < deadline → Idle p place (.listen i l)

/-- Nothing takes more work if fewer connections are registered with a sender. -/
theorem Job.work_mono {senders : List Sender} {i : Nat} {s s' : Sender}
    (hs : senders[i]? = some s) (hsize : s'.registry.size ≤ s.registry.size) (now : Nat)
    (job : Job) : job.work (senders.set i s') now ≤ job.work senders now := by
  cases job with
  | listen => exact Nat.le_refl _
  | send j x =>
    refine x.work_mono ?_
    by_cases hj : j = i
    · subst hj
      rw [List.getElem?_set_self (List.getElem?_eq_some_iff.mp hs).1, hs]
      exact hsize
    · rw [List.getElem?_set_ne (Ne.symm hj)]

theorem work_lt_of_move {p p' : Network} {place pick : Nat} (sound : p.Sound)
    (h : p.Moved place pick p') : p'.work < p.work := by
  cases h with
  | @send i s s' wire x x' hx hs hmove =>
    have hless := hmove.work (Nat.le_refl _)
    have hsum := sum_map_set (Job.work p.senders p.now) (b := .send i x') hx
    have hmono : ((p.jobs.set place (.send i x')).map
          (Job.work (p.senders.set i s') p.now)).sum ≤
        ((p.jobs.set place (.send i x')).map (Job.work p.senders p.now)).sum :=
      List.sum_le_sum fun job _ => job.work_mono hs hmove.entries.length_le p.now
    simp only [work, Job.work, hs, Option.elim_some] at hsum ⊢
    omega
  | @listen i r r' wire l l' hl hr hmove =>
    have hless := hmove.work_of_pos (sound.retry r (List.mem_of_getElem? hr))
    have hsum := sum_map_set (Job.work p.senders p.now) (b := .listen i l') hl
    simp only [work, Job.work] at hsum ⊢
    omega

section Moves

variable {p p' : Network}

/-- Every move takes some of the work, and leaves the clock as it is. -/
theorem lowers (now : Nat) (q : Network) (m : Nat × Nat) (q' : Network)
    (inv : q.Sound ∧ q.now = now) (hmove : q.move m.1 m.2 = some q') :
    (q'.Sound ∧ q'.now = now) ∧ q'.work < q.work := by
  have hmoved := moved_of_move hmove
  refine ⟨⟨inv.1.move hmoved, ?_⟩, work_lt_of_move inv.1 hmoved⟩
  cases hmoved <;> exact inv.2

theorem Sound.moves (sound : p.Sound) {ms : List (Nat × Nat)} (h : p.moves ms = some p') :
    (p'.Sound ∧ p'.now = p.now) ∧ p'.work + ms.length ≤ p.work :=
  path_lowers (lowers p.now) h ⟨sound, rfl⟩

/-- Some moves lead to where nothing can move. -/
theorem Sound.exists_blocked (sound : p.Sound) : ∃ ms p', p.moves ms = some p' ∧ p'.Blocked := by
  obtain ⟨ms, p', hms, hstuck⟩ := exists_stuck (lowers p.now) ⟨sound, rfl⟩
  exact ⟨ms, p', hms, fun place pick => hstuck (place, pick)⟩

end Moves

section Blocked

variable {p : Network} {place i : Nat}

theorem move_send_eq_none {x : Send} {s : Sender} {pick : Nat}
    (hx : p.jobs[place]? = some (.send i x)) (hs : p.senders[i]? = some s)
    (h : p.move place pick = none) : x.step place pick s p.wire = none := by
  simp only [move, hx, hs] at h
  split at h
  · assumption
  · cases h

theorem move_listen_eq_none {l : Listen} {r : Receiver} {pick : Nat}
    (hl : p.jobs[place]? = some (.listen i l)) (hr : p.receivers[i]? = some r)
    (h : p.move place pick = none) : l.step p.now pick r p.wire = none := by
  simp only [move, hl, hr] at h
  split at h
  · assumption
  · cases h

/-- If a send is queued and nothing can move, the first in line has its turn. -/
theorem Sound.exists_turn (sound : p.Sound) (blocked : p.Blocked) {x : Send} {s : Sender}
    (hx : p.jobs[place]? = some (.send i x)) (hs : p.senders[i]? = some s) (hline : x.InLine) :
    ∃ first y, s.line.head? = some first ∧ p.sendAt? i first = some y ∧ y.HasTurn := by
  obtain ⟨first, hfirst, y, hy, hyline⟩ :=
    (sound.lined i s hs).exists_first ⟨x, sendAt?_eq_some hx, hline⟩
  refine ⟨first, y, hfirst, hy, ?_⟩
  rcases Send.phase_of_step fun pick =>
      move_send_eq_none (mem_of_sendAt? hy) hs (blocked first pick) with
    ⟨result, hp⟩ | ⟨-, hhead⟩ | ⟨_, _, _, hp, -⟩
  · simp [Send.InLine, hp] at hyline
  · exact absurd hfirst hhead
  · simp [Send.HasTurn, hp]

theorem idle_of_blocked (sound : p.Sound) (blocked : p.Blocked) {job : Job}
    (h : p.jobs[place]? = some job) : p.Idle place job := by
  have hfits := sound.fits job (List.mem_of_getElem? h)
  cases job with
  | send i x =>
    obtain ⟨hlt, hpends⟩ := hfits
    obtain ⟨s, hs⟩ : ∃ s, p.senders[i]? = some s := ⟨_, List.getElem?_eq_getElem hlt⟩
    rcases Send.phase_of_step fun pick => move_send_eq_none h hs (blocked place pick) with
      ⟨result, hp⟩ | ⟨hp, hhead⟩ | ⟨counter, waits, failures, hp, hwaits⟩
    · exact .sent hp
    · obtain ⟨first, y, hfirst, hy, hturn⟩ :=
        sound.exists_turn blocked h hs (by simp [Send.InLine, hp])
      exact .queues hp (fun heq => hhead (heq ▸ hfirst)) hy hturn
    · exact .awaits hp (hpends counter waits failures hp) fun a ha hnone =>
        (AckWait.dry_of_step (hwaits a ha) hnone).1
  | listen i l =>
    obtain ⟨r, hr⟩ : ∃ r, p.receivers[i]? = some r := ⟨_, List.getElem?_eq_getElem hfits⟩
    rcases Listen.phase_of_step (move_listen_eq_none h hr (blocked place 0)) with
      ⟨gone, hp⟩ | ⟨-, ⟨hp, hread⟩ | ⟨deadline, resume, hp, hdue⟩⟩
    · exact .stopped hp
    · exact .reads hp (Connection.dry_of_read_eq_none (Wire.read?_eq_none.mp hread))
    · exact .pauses hp hdue

end Blocked

end BlockFeed.Network
