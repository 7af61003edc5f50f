import BlockFeed.Proofs.Pipeline.Wiring
import BlockFeed.Proofs.Pipeline.Work

/-!
# Blocked pipelines

When nothing can move any more, and who is in the way of the sends that are not done.

## Main definitions

* `Pipeline.Lined`: the line of the sender holds the sends that wait for their turn or have it.

## Main results

* `Pipeline.blocked_iff`: a pipeline is blocked exactly if no move can be taken.
* `Pipeline.exists_blocked`: some moves lead to where nothing can move.
* `Pipeline.Lined.exists_wait`: sends that are not done are held up by one that waits for an
  acknowledgment.
* `Pipeline.Lined.stalled`: while the sender is open, it waits on a connection where nothing has
  arrived.
-/

namespace BlockFeed

/-- Only a send that waits for acknowledgments may do one of several things. -/
theorem Send.step_pick {x : Send}
    (h : ∀ counter waits failures, x.phase ≠ .waiting counter waits failures) (me pick : Nat)
    (s : Sender) (w : Wire) : x.step me pick s w = x.step me 0 s w := by
  rw [step, step]
  cases hp : x.phase with
  | waiting counter waits failures => exact absurd hp (h counter waits failures)
  | writing counter rest written failures => cases rest <;> rfl
  | called | queued | done => rfl

/-- A send that can do none of the things that it may do can take no step. -/
theorem Send.step_eq_none_of_width {x : Send} {me : Nat} {s : Sender} {w : Wire}
    (h : ∀ pick < x.width, x.step me pick s w = none) (pick : Nat) :
    x.step me pick s w = none := by
  -- only a send that waits for acknowledgments has something to choose
  by_cases hwaiting : ∃ counter waits failures, x.phase = .waiting counter waits failures
  · obtain ⟨counter, waits, failures, hp⟩ := hwaiting
    rw [width, hp] at h
    rcases Nat.lt_or_ge pick waits.length with hlt | hge
    · exact h pick hlt
    · simp [step, hp, List.getElem?_eq_none hge]
  · have hnot : ∀ counter waits failures, x.phase ≠ .waiting counter waits failures :=
      fun counter waits failures hp => hwaiting ⟨counter, waits, failures, hp⟩
    have hwidth : 0 < x.width := by
      rw [width]
      split
      · next hp => exact absurd hp (hnot _ _ _)
      · exact Nat.one_pos
    rw [step_pick hnot]
    exact h 0 hwidth

/-- A send waits on, unless all that it waited for has ended. -/
def Send.Pends (x : Send) : Prop :=
  ∀ counter waits failures, x.phase = .waiting counter waits failures →
    ∃ a ∈ waits, a.outcome = none

theorem Send.Move.pends {me pick : Nat} {s s' : Sender} {w w' : Wire} {x x' : Send}
    (h : Move me pick s w x s' w' x') : x'.Pends := by
  intro counter waits failures hp'
  cases h with
  | await hp hwritten =>
    obtain ⟨-, rfl, -⟩ := SendPhase.waiting.inj hp'
    obtain ⟨c, hc⟩ := List.exists_mem_of_ne_nil _ hwritten
    exact ⟨_, List.mem_map_of_mem hc, rfl⟩
  | wait _ _ _ hall =>
    obtain ⟨-, rfl, -⟩ := SendPhase.waiting.inj hp'
    simpa using hall
  | refuse | enqueue | abandon | start | accept | reject | fail | succeed | conclude => cases hp'

/-- In a step of a send nobody else joins or leaves the line, and nobody joins it twice. -/
theorem Send.Lines.mem {me : Nat} {s s' : Sender} {x x' : Send} (h : Lines me s x s' x')
    (nodup : s.line.Nodup) (hme : me ∈ s.line ↔ x.InLine) :
    s'.line.Nodup ∧ ∀ q, q ∈ s'.line ↔ if q = me then x'.InLine else q ∈ s.line := by
  cases h with
  | stay hsame hiff =>
    rw [hsame]
    refine ⟨nodup, fun q => ?_⟩
    split
    · next hq => rw [hq, hiff, hme]
    · exact Iff.rfl
  | join hcalled hqueued hjoin =>
    have hout : me ∉ s.line := by
      rw [hme]
      simp [InLine, hcalled]
    rw [hjoin]
    refine ⟨List.nodup_append.mpr ⟨nodup, by simp, ?_⟩, fun q => ?_⟩
    · rintro q hq r hr rfl
      exact hout (List.mem_singleton.mp hr ▸ hq)
    · split
      · next hq => simp [hq, InLine, hqueued]
      · next hq => simp [hq]
  | leave _ hnot htail hhead =>
    obtain ⟨rest, hrest⟩ := List.head?_eq_some_iff.mp hhead
    rw [hrest] at nodup htail
    obtain ⟨hout, hnodup⟩ := List.nodup_cons.mp nodup
    rw [htail, List.tail_cons]
    refine ⟨hnodup, fun q => ?_⟩
    split
    · next hq => exact iff_of_false (hq ▸ hout) hnot
    · next hq => simp [hrest, hq]

/-- A send that cannot move is done, or it waits for its turn, or for acknowledgments. -/
theorem Send.phase_of_step {x : Send} {me : Nat} {s : Sender} {w : Wire}
    (h : ∀ pick, x.step me pick s w = none) :
    (∃ result, x.phase = .done result) ∨ (x.phase = .queued ∧ s.line.head? ≠ some me) ∨
      ∃ counter waits failures, x.phase = .waiting counter waits failures ∧
        ∀ a ∈ waits, a.step counter s w = none := by
  cases hp : x.phase with
  | called => simp [step, hp] at h
  | queued =>
    refine .inr (.inl ⟨rfl, fun hhead => ?_⟩)
    simp [step, hp, hhead] at h
  | writing counter rest written failures =>
    have hzero := h 0
    rw [step, hp] at hzero
    cases rest with
    | nil => cases hzero
    | cons c rest =>
      dsimp only at hzero
      split at hzero <;> cases hzero
  | waiting counter waits failures =>
    refine .inr (.inr ⟨counter, waits, failures, rfl, fun a ha => ?_⟩)
    obtain ⟨pick, hpick⟩ := List.mem_iff_getElem?.mp ha
    have hnone := h pick
    simp only [step, hp, hpick] at hnone
    split at hnone
    · assumption
    · split at hnone <;> cases hnone
  | done result => exact .inl ⟨result, rfl⟩

namespace Pipeline

/-- The moves of an activity, one for each thing that it may do, come to nothing exactly if it can
do none of them. -/
theorem moveAll_eq_none_iff (p : Pipeline) (place : Nat) : p.moveAll place = none ↔
    ∀ pick < (p.activities[place]?).elim 0 (·.width), p.move place pick = none := by
  rw [moveAll]
  generalize (p.activities[place]?).elim 0 (·.width) = width
  induction width with
  | zero => simp
  | succ n ih =>
    rw [List.range_succ, List.foldl_append, List.foldl_cons, List.foldl_nil]
    generalize List.foldl _ none (List.range n) = moved at ih ⊢
    cases moved with
    | none =>
      have hbefore := ih.mp rfl
      cases hmove : p.move place n with
      | none =>
        simp only [Option.getD_none, hmove, true_iff]
        intro pick hpick
        rcases Nat.lt_succ_iff_lt_or_eq.mp hpick with hlt | rfl
        · exact hbefore pick hlt
        · exact hmove
      | some p' =>
        simp only [Option.getD_none, hmove, reduceCtorEq, false_iff]
        intro hall
        exact absurd (hmove.symm.trans (hall n (Nat.lt_succ_self n))) (by simp)
    | some m =>
      -- what has been done stays done, whatever the next thing comes to
      constructor
      · intro hnone
        dsimp only at hnone
        split at hnone <;> cases hnone
      · intro hall
        exact absurd (ih.mpr fun pick hpick => hall pick (by omega)) (by simp)

theorem move_eq_none_of_width {p : Pipeline} {place : Nat} {a : Activity}
    (ha : p.activities[place]? = some a) (h : ∀ pick < a.width, p.move place pick = none)
    (pick : Nat) : p.move place pick = none := by
  cases a with
  | send x =>
    rw [move_send_eq_none_iff ha]
    exact Send.step_eq_none_of_width (fun pick hpick =>
      (move_send_eq_none_iff ha).mp (h pick hpick)) pick
  | refused e => rw [move, ha]
  | listen i l =>
    have hzero := h 0 Nat.one_pos
    cases hr : p.receivers[i]? with
    | none => simp only [move, ha, hr]
    | some r =>
      rw [move_listen_eq_none_iff ha hr] at hzero ⊢
      exact (Listen.step_eq_none_iff 0).mpr hzero

/-- A pipeline is blocked exactly if no move can be taken. -/
theorem blocked_iff (p : Pipeline) :
    Schedule.Blocked p ↔ ∀ place pick, p.move place pick = none := by
  constructor
  · intro h place pick
    cases ha : p.activities[place]? with
    | none => rw [move, ha]
    | some a =>
      have hnone : p.moveAll place = none := by
        have hmove := h place (List.getElem?_eq_some_iff.mp ha).1
        simpa [Schedule.canMove, Schedule.step] using hmove
      rw [moveAll_eq_none_iff, ha] at hnone
      exact move_eq_none_of_width ha hnone pick
  · intro h place _
    have hnone := (p.moveAll_eq_none_iff place).mpr fun pick _ => h place pick
    simp [Schedule.canMove, Schedule.step, hnone]

/-- From everywhere, some moves lead to where nothing can move. -/
theorem exists_blocked {Inv : Pipeline → Prop}
    (preserves : ∀ p place pick p', Inv p → p.move place pick = some p' → Inv p')
    (unhurried : ∀ p place, Inv p → ¬p.Hurries place) {p : Pipeline} (inv : Inv p) :
    ∃ ms p', p.moves ms = some p' ∧ Schedule.Blocked p' := by
  obtain ⟨ms, p', hms, hstuck⟩ := exists_stuck (lowers preserves unhurried) inv
  exact ⟨ms, p', hms,
    p'.blocked_iff.mpr fun place pick => hstuck (place, pick)⟩

/-- The line of the sender holds the sends that wait for their turn or have it, each once, and a
send that waits for acknowledgments has not got them all. -/
structure Lined (p : Pipeline) : Prop where
  nodup : p.sender.line.Nodup
  mem : ∀ place, place ∈ p.sender.line ↔ ∃ x, p.sendAt? place = some x ∧ x.InLine
  turned : p.Turned
  pends : ∀ place x, p.sendAt? place = some x → x.Pends

namespace Lined

variable {p p' : Pipeline}

/-- Where no send has begun, nobody is in line. -/
theorem start (line : p.sender.line = []) (none : ∀ place, p.sendAt? place = none) : p.Lined where
  nodup := line ▸ List.nodup_nil
  mem := by
    intro place
    simp [line, none]
  turned := by
    intro place x hx
    cases (none place).symm.trans hx
  pends := by
    intro place x hx
    cases (none place).symm.trans hx

theorem aside (h : p.Lined) {e : Event} (hp : p.Aside e p') : p'.Lined where
  nodup := hp.line ▸ h.nodup
  mem := by
    intro place
    rw [hp.line, h.mem]
    constructor
    · rintro ⟨x, hx, hline⟩
      exact ⟨x, hp.sendAt?_of_some hx, hline⟩
    · rintro ⟨x, hx, hline⟩
      rcases hp.sendAt? hx with hold | ⟨-, hcalled⟩
      · exact ⟨x, hold, hline⟩
      · simp [Send.InLine, hcalled] at hline
  turned := h.turned.aside hp
  pends := by
    intro place x hx
    rcases hp.sendAt? hx with hold | ⟨-, hcalled⟩
    · exact h.pends place x hold
    · intro counter waits failures hwaiting
      cases hcalled.symm.trans hwaiting

theorem send (h : p.Lined) {place pick : Nat} {x x' : Send} {sender : Sender} {wire : Wire}
    (hx : p.activities[place]? = some (.send x))
    (hmove : Send.Move place pick p.sender p.wire x sender wire x') :
    Lined { p with sender, wire, activities := p.activities.set place (.send x') } := by
  have hsend : p.sendAt? place = some x := sendAt?_eq_some.mpr hx
  have hplace : place ∈ p.sender.line ↔ x.InLine := by
    rw [h.mem]
    simp [hsend]
  obtain ⟨hnodup, hmem⟩ := (hmove.line (h.turned place x hsend)).mem h.nodup hplace
  refine ⟨hnodup, fun q => (hmem q).trans ?_, h.turned.send hx hmove, fun q y hy => ?_⟩
  · rw [sendAt?_set_send hx]
    split
    · simp
    · exact h.mem q
  · rcases sendAt?_of_set hy with ⟨-, heq⟩ | ⟨-, hy⟩
    · exact Activity.send.inj heq ▸ hmove.pends
    · exact h.pends q y hy

theorem apply (h : p.Lined) (e : Event) : (p.apply e).Lined := by
  have heffect := p.effect_apply e
  generalize p.apply e = p', p.assigned e = more at heffect
  cases heffect with
  | send _ hx hmove => exact h.send hx hmove
  | listen _ hl =>
    refine ⟨h.nodup, fun q => ?_, fun q y hy => ?_, fun q y hy => ?_⟩
    · rw [sendAt?_set_listen hl]
      exact h.mem q
    · exact h.turned q y ((sendAt?_set_listen hl q).symm.trans hy)
    · exact h.pends q y ((sendAt?_set_listen hl q).symm.trans hy)
  | aside hp => exact h.aside hp

/-- If no send can take a step, whatever send is not done is held up by one that waits for an
acknowledgment. -/
theorem exists_wait (h : p.Lined)
    (stuck : ∀ place x, p.sendAt? place = some x → ∀ pick, p.move place pick = none)
    {place : Nat} {x : Send} (hx : p.sendAt? place = some x)
    (hnot : ∀ result, x.phase ≠ .done result) :
    ∃ first y counter waits failures a, p.sendAt? first = some y ∧
      y.phase = .waiting counter waits failures ∧ a ∈ waits ∧ a.outcome = none ∧
      a.step counter p.sender p.wire = none := by
  have hstep {q : Nat} {y : Send} (hy : p.sendAt? q = some y) (pick : Nat) :
      y.step q pick p.sender p.wire = none :=
    (move_send_eq_none_iff (sendAt?_eq_some.mp hy)).mp (stuck q y hy pick)
  -- a send that is not done and cannot move is in line, and so there is a first in line
  have hline : x.InLine := by
    rcases Send.phase_of_step (hstep hx) with ⟨result, hp⟩ | ⟨hp, -⟩ | ⟨_, _, _, hp, -⟩
    · exact absurd hp (hnot result)
    · simp [Send.InLine, hp]
    · simp [Send.InLine, hp]
  have hmem : place ∈ p.sender.line := (h.mem place).mpr ⟨x, hx, hline⟩
  obtain ⟨first, hfirst⟩ : ∃ first, p.sender.line.head? = some first :=
    Option.ne_none_iff_exists'.mp fun hnone => by
      rw [List.head?_eq_none_iff.mp hnone] at hmem
      cases hmem
  obtain ⟨y, hy, hyline⟩ := (h.mem first).mp (List.mem_of_head? hfirst)
  rcases Send.phase_of_step (hstep hy) with ⟨result, hp⟩ | ⟨-, hhead⟩ |
    ⟨counter, waits, failures, hp, hwaits⟩
  · simp [Send.InLine, hp] at hyline
  · exact absurd hfirst hhead
  · obtain ⟨a, ha, hnone⟩ := h.pends first y hy counter waits failures hp
    exact ⟨first, y, counter, waits, failures, a, hy, hp, ha, hnone, hwaits a ha⟩

/-- If nothing can move and the sender is open, whatever send is not done is held up by one that
waits for an acknowledgment, on a connection where there is nothing to read. -/
theorem stalled (h : p.Lined) (blocked : Schedule.Blocked p)
    (isOpen : p.sender.cancel.closed = false) {place : Nat} {x : Send}
    (hx : p.sendAt? place = some x) (hnot : ∀ result, x.phase ≠ .done result) :
    ∃ first y counter waits failures a, p.sendAt? first = some y ∧
      y.phase = .waiting counter waits failures ∧ a ∈ waits ∧ a.outcome = none ∧
      p.wire.read? a.conn = none := by
  obtain ⟨first, y, counter, waits, failures, a, hy, hp, ha, hnone, hstep⟩ :=
    h.exists_wait (fun q y _ => p.blocked_iff.mp blocked q) hx hnot
  exact ⟨first, y, counter, waits, failures, a, hy, hp, ha, hnone,
    AckWait.read?_eq_none_of_step hstep hnone isOpen⟩

end Lined

end Pipeline

end BlockFeed
