import BlockFeed.Proofs.Link.Load
import BlockFeed.Proofs.Pipeline.Course

/-!
# Work of a pipeline

How much a pipeline has still to do: a number that every step of an activity makes smaller, so
activities run until all of them have to wait.

## Main definitions

* `Send.work`, `Listen.work`, `Pipeline.work`: the work that is left.
* `Pipeline.moves`: moves that can be taken one after the other.
* `Pipeline.Hurries`: a pause that has just begun is over already.

## Main results

* `Pipeline.length_le_work`: only so many moves can be taken.

## Design notes

The only step that does not make the work less is one that begins a pause of no length: a reading
may then fail again and again at one point in time.
-/

namespace BlockFeed

/-- Whether a wait has still to end, as a number. -/
def AckWait.work (a : AckWait) : Nat := a.outcome.isNone.toNat

/-- The work that is left to a send, if so many connections are registered. -/
def Send.work (size : Nat) (x : Send) : Nat :=
  match x.phase with
  | .called => 4 + 7 * size
  | .queued => 3 + 7 * size
  | .writing _ rest written _ => 2 + 7 * rest.length + written.length
  | .waiting _ waits _ => 1 + (waits.map AckWait.work).sum
  | .done _ => 0

/-- The work that is left to a reading at a time, besides what has not arrived yet. -/
def Listen.work (now : Nat) (l : Listen) : Nat :=
  match l.phase with
  | .called => 3
  | .reading => 2
  | .handling _ _ => 5
  | .acknowledging _ => 4
  | .pausing deadline .read => if now < deadline then 1 else 3
  | .pausing deadline (.acknowledge _) => if now < deadline then 1 else 5
  | .done _ => 0

def Activity.work (size now : Nat) : Activity → Nat
  | .send x => x.work size
  | .refused _ => 0
  | .listen _ l => l.work now

/-- A send does not take more work if fewer connections are registered. -/
theorem Send.work_mono {size' size : Nat} (h : size' ≤ size) (x : Send) :
    x.work size' ≤ x.work size := by
  simp only [work]
  split <;> omega

/-- Nothing takes more work if fewer connections are registered. -/
theorem Activity.work_mono {size' size : Nat} (h : size' ≤ size) (now : Nat) (a : Activity) :
    a.work size' now ≤ a.work size now := by
  cases a with
  | send x => exact x.work_mono h
  | refused | listen => exact Nat.le_refl _

theorem Activity.sum_work_mono {size' size : Nat} (h : size' ≤ size) (now : Nat)
    (activities : List Activity) :
    (activities.map (Activity.work size' now)).sum ≤
      (activities.map (Activity.work size now)).sum := by
  induction activities with
  | nil => exact Nat.le_refl _
  | cons a rest ih =>
    simp only [List.map_cons, List.sum_cons]
    exact Nat.add_le_add (a.work_mono h now) ih

theorem AckWait.Move.work {counter : UInt64} {s s' : Sender} {w w' : Wire} {a a' : AckWait}
    (h : Move counter s w a s' w' a') : a'.work + w'.load < a.work + w.load := by
  cases h with
  | cancel hnone => simp [AckWait.work, hnone]
  | @acknowledge bytes _ hnone _ hread =>
    have hload := Wire.load_read hread
    have hpos := (Inbound.data bytes).load_pos
    simp only [Except.toOption, Option.map_some, Option.getD_some] at hload
    simp only [AckWait.work, hnone, Option.isNone_none, Option.isNone_some, Bool.toNat_true,
      Bool.toNat_false]
    omega
  | @ignore bytes _ hnone _ hread =>
    have hload := Wire.load_read hread
    have hpos := (Inbound.data bytes).load_pos
    simp only [Except.toOption, Option.map_some, Option.getD_some] at hload
    omega
  | @fail e w₁ hnone _ hread =>
    have hload := Wire.load_read hread
    have hclose : (s.closeAndRemove w₁ a.id).2.2.load ≤ w₁.load :=
      s.registry.load_closeAndRemove w₁ a.id
    simp only [AckWait.work, hnone, Option.isNone_none, Option.isNone_some, Bool.toNat_true,
      Bool.toNat_false]
    omega

/-- A wait that has just begun has still to end. -/
theorem AckWait.sum_work_fresh (written : List (String × Ref)) :
    ((written.map fun c => (⟨c.1, c.2, none⟩ : AckWait)).map AckWait.work).sum
      = written.length := by
  induction written with
  | nil => rfl
  | cons c rest ih =>
    simp only [List.map_cons, List.sum_cons, List.length_cons, ih]
    simp only [AckWait.work, Option.isNone_none, Bool.toNat_true]
    omega

/-- A step of a send leaves less work, whatever it makes arrive and even if more connections were to
be registered. -/
theorem Send.Move.work {me pick size : Nat} {s s' : Sender} {w w' : Wire} {x x' : Send}
    (h : Move me pick s w x s' w' x') (hsize : s.registry.size ≤ size) :
    x'.work size + w'.load < x.work size + w.load := by
  have hwaits {counter : UInt64} {waits : List AckWait} {a a' : AckWait} {s₁ : Sender} {w₁ : Wire}
      (ha : waits[pick]? = some a) (hstep : a.step counter s w = some (s₁, w₁, a')) :
      ((waits.set pick a').map AckWait.work).sum + w₁.load
        < (waits.map AckWait.work).sum + w.load := by
    have hsum := sum_map_set AckWait.work (b := a') ha
    have hwork := (AckWait.move_of_step hstep).work
    omega
  -- 7 for a connection pays for the wait that its frame begins and for what it makes arrive
  cases h with
  | refuse hp | enqueue hp | abandon hp | fail hp | succeed hp =>
    simp only [Send.work, hp]
    omega
  | start hp =>
    rw [Table.size] at hsize
    simp only [Send.work, hp, List.length_nil]
    omega
  | accept hp hw =>
    have hload := Wire.load_write_frame hw
    simp only [Send.work, hp, List.length_cons, List.length_append, List.length_nil]
    omega
  | reject hp hw =>
    have hload := Wire.load_write_frame hw
    simp only [Send.work, hp, List.length_cons]
    omega
  | @await counter written failures hp =>
    have hsum := AckWait.sum_work_fresh written
    simp only [Send.work, hp, hsum]
    omega
  | wait hp ha hstep =>
    have hless := hwaits ha hstep
    simp only [Send.work, hp]
    omega
  | conclude hp ha hstep =>
    have hless := hwaits ha hstep
    simp only [Send.work, hp]
    omega

/-- A step of a reading leaves less work, unless it begins a pause that is over already. -/
theorem Listen.Move.work {now : Nat} {r r' : Receiver} {w w' : Wire} {l l' : Listen}
    (h : Move now r w l r' w' l') :
    l'.work now + w'.load < l.work now + w.load ∨
      ∃ deadline resume, l'.phase = .pausing deadline resume ∧ deadline ≤ now := by
  have hpause {deadline : Nat} {resume : Resume} (hdue : now < deadline) :
      Listen.work now { l with phase := .pausing deadline resume } = 1 := by
    cases resume <;> simp [Listen.work, hdue]
  cases h with
  | begin hp =>
    left
    simp only [Listen.work, hp]
    omega
  | cancel hp =>
    left
    rcases hp with hp | ⟨deadline, resume, hp⟩
    · simp [Listen.work, hp]
    · cases resume <;> simp only [Listen.work, hp] <;> split <;> omega
  | @handOver bytes frame _ hp hread hdec =>
    left
    have hload := Wire.load_read hread
    simp only [Except.toOption, Option.map_some, Option.getD_some, Inbound.load, hdec] at hload
    simp only [Listen.work, hp]
    omega
  | @skip bytes _ _ hp hread hdec =>
    left
    have hload := Wire.load_read hread
    simp only [Except.toOption, Option.map_some, Option.getD_some, Inbound.load, hdec] at hload
    simp only [Listen.work, hp]
    omega
  | lose _ hfail | giveUp _ _ hfail =>
    left
    rcases hfail with ⟨hp, hread⟩ | ⟨_, hp, hw⟩
    · have hload := Wire.load_read hread
      simp only [Listen.work, hp]
      omega
    · have hload := Wire.load_write_ack hw
      simp only [Listen.work, hp]
      omega
  | retryRead hp hread =>
    rcases Nat.lt_or_ge now (now + r.retry) with hlater | hnow
    · left
      have hload := Wire.load_read hread
      rw [hpause hlater]
      simp only [Listen.work, hp]
      omega
    · exact .inr ⟨_, _, rfl, hnow⟩
  | conclude hp | withhold hp =>
    left
    simp only [Listen.work, hp]
    omega
  | acknowledge hp hw =>
    left
    have hload := Wire.load_write_ack hw
    simp only [Listen.work, hp]
    omega
  | retryAcknowledge hp hw =>
    rcases Nat.lt_or_ge now (now + r.retry) with hlater | hnow
    · left
      have hload := Wire.load_write_ack hw
      rw [hpause hlater]
      simp only [Listen.work, hp]
      omega
    · exact .inr ⟨_, _, rfl, hnow⟩
  | resumeRead hp hdue | resumeAcknowledge hp hdue =>
    left
    simp only [Listen.work, hp, if_neg (Nat.not_lt_of_le hdue)]
    omega

/-- A step of a reading leaves less work, if its receiver pauses at all before it tries again. -/
theorem Listen.Move.work_of_pos {now : Nat} {r r' : Receiver} {w w' : Wire} {l l' : Listen}
    (h : Move now r w l r' w' l') (hretry : 0 < r.retry) :
    l'.work now + w'.load < l.work now + w.load := by
  refine h.work.resolve_right ?_
  rintro ⟨deadline, resume, hp, hdue⟩
  cases h with
  | retryRead | retryAcknowledge =>
    obtain ⟨rfl, -⟩ := ListenPhase.pausing.inj hp
    omega
  | begin | cancel | handOver | skip | lose | giveUp | conclude | withhold | acknowledge
  | resumeRead | resumeAcknowledge => cases hp

namespace Pipeline

/-- The work that is left, at the connections and to the activities. -/
def work (p : Pipeline) : Nat :=
  p.wire.load + (p.activities.map (Activity.work p.sender.registry.size p.now)).sum

/-- The reading at a place pauses until a time that has come. -/
def Hurries (p : Pipeline) (place : Nat) : Prop :=
  ∃ i l deadline resume, p.activities[place]? = some (.listen i l) ∧
    l.phase = .pausing deadline resume ∧ deadline ≤ p.now

/-- Moves taken one after the other, if all can be taken. -/
def moves (p : Pipeline) (ms : List (Nat × Nat)) : Option Pipeline :=
  path (fun p m => p.move m.1 m.2) p ms

theorem work_lt_of_move {p p' : Pipeline} {place pick : Nat} (h : p.move place pick = some p') :
    p'.work < p.work ∨ p'.Hurries place := by
  have hmoved := moved_of_move h
  cases hmoved with
  | @send x x' sender wire hx hmove =>
    left
    have hwork := hmove.work (Nat.le_refl _)
    have hsum := sum_map_set (Activity.work p.sender.registry.size p.now) (b := .send x') hx
    have hmono := Activity.sum_work_mono hmove.entries.length_le p.now
      (p.activities.set place (.send x'))
    simp only [work, Activity.work, Table.size] at hwork hsum hmono ⊢
    omega
  | @listen i l l' r r' wire hl hr hmove =>
    rcases hmove.work with hwork | ⟨deadline, resume, hp, hdue⟩
    · left
      have hsum := sum_map_set (Activity.work p.sender.registry.size p.now) (b := .listen i l') hl
      simp only [work, Activity.work] at hsum ⊢
      omega
    · right
      have hlt := (List.getElem?_eq_some_iff.mp hl).1
      exact ⟨i, l', deadline, resume, List.getElem?_set_self hlt, hp, hdue⟩
  | stay hnone => cases h.symm.trans hnone

section Moves

variable {Inv : Pipeline → Prop}
  (preserves : ∀ p place pick p', Inv p → p.move place pick = some p' → Inv p')
  (unhurried : ∀ p place, Inv p → ¬p.Hurries place)

include preserves unhurried

/-- Every move takes some of the work that is left. -/
theorem lowers (p : Pipeline) (m : Nat × Nat) (p' : Pipeline) (inv : Inv p)
    (h : p.move m.1 m.2 = some p') : Inv p' ∧ p'.work < p.work := by
  have hinv := preserves p m.1 m.2 p' inv h
  exact ⟨hinv, (work_lt_of_move h).resolve_right (unhurried p' m.1 hinv)⟩

theorem length_le_work {p p' : Pipeline} {ms : List (Nat × Nat)} (h : p.moves ms = some p')
    (inv : Inv p) : p'.work + ms.length ≤ p.work :=
  (path_lowers (lowers preserves unhurried) h inv).2

end Moves

end Pipeline

end BlockFeed
