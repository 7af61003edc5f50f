import BlockFeed.Proofs.Pipeline.Course

/-!
# Footprint of an activity

What the steps of one activity do to the wire in the course of a run, and how many there are.

## Main definitions

* `Pipeline.Event.moves`: an event lets the activity at a place take a step.
* `Pipeline.touched`: how the wire is before and after each step that changes it.
* `Pipeline.steps`: the steps that the activity takes.
* `Pipeline.Sends`: what an event does to the send at a place.

## Main results

* `Pipeline.gained_eq_flatMap_touched`: an activity that leaves the wire alone adds to no history.
-/

namespace BlockFeed.Pipeline

/-- Whether an event lets the activity at a place take a step, if it can. -/
def Event.moves (place : Nat) : Event → Bool
  | .move q _ => q == place
  | _ => false

/-- How the wire is before and after an event, if that is a step of the activity at a place that
changes it. -/
def touchedAt (place : Nat) (p : Pipeline) (e : Event) : List (Wire × Wire) :=
  if e.moves place ∧ (p.apply e).wire ≠ p.wire then [(p.wire, (p.apply e).wire)] else []

/-- How the wire is before and after each step of the activity at a place that changes it. -/
def touched (place : Nat) (p : Pipeline) (events : List Event) : List (Wire × Wire) :=
  collect apply (touchedAt place) p events

/-- The step that the activity at a place takes in an event, by what it does. -/
def stepsAt (place : Nat) (p : Pipeline) : Event → List Nat
  | .move q pick => if q = place ∧ (p.move q pick).isSome then [pick] else []
  | _ => []

/-- The steps that the activity at a place takes in the course of a run. -/
def steps (place : Nat) (p : Pipeline) (events : List Event) : List Nat :=
  collect apply (stepsAt place) p events

variable {p : Pipeline} {place : Nat} {e : Event}

theorem applyAll_concat (p : Pipeline) (events : List Event) (e : Event) :
    p.applyAll (events ++ [e]) = (p.applyAll events).apply e := applyAll_append p events [e]

theorem touched_append (place : Nat) (p : Pipeline) (before after : List Event) :
    p.touched place (before ++ after)
      = p.touched place before ++ (p.applyAll before).touched place after :=
  collect_append apply _ p before after

theorem touched_singleton (place : Nat) (p : Pipeline) (e : Event) :
    p.touched place [e] = p.touchedAt place e := List.append_nil _

theorem gained_append {α : Type} (history : Connection → List α) (place : Nat) (p : Pipeline)
    (before after : List Event) :
    p.gained history place (before ++ after)
      = p.gained history place before ++ (p.applyAll before).gained history place after :=
  collect_append apply _ p before after

theorem gained_singleton {α : Type} (history : Connection → List α) (place : Nat) (p : Pipeline)
    (e : Event) : p.gained history place [e] = p.gainedAt history place e := List.append_nil _

theorem steps_append (place : Nat) (p : Pipeline) (before after : List Event) :
    p.steps place (before ++ after)
      = p.steps place before ++ (p.applyAll before).steps place after :=
  collect_append apply _ p before after

theorem steps_singleton (place : Nat) (p : Pipeline) (e : Event) :
    p.steps place [e] = p.stepsAt place e := List.append_nil _

theorem stepsAt_of_not_moves (h : e.moves place = false) : p.stepsAt place e = [] := by
  cases e with
  | move q pick => exact if_neg fun hmoves => by simp [Event.moves, hmoves.1] at h
  | _ => rfl

theorem length_stepsAt_le (place : Nat) (p : Pipeline) (e : Event) :
    (p.stepsAt place e).length ≤ 1 := by
  cases e with
  | move q pick => rw [stepsAt]; split <;> simp
  | _ => exact Nat.zero_le 1

theorem touchedAt_of_not_moves (h : e.moves place = false) : p.touchedAt place e = [] :=
  if_neg fun hmoves => by simp [h] at hmoves

theorem touchedAt_of_same (h : (p.apply e).wire = p.wire) : p.touchedAt place e = [] :=
  if_neg fun hmoves => hmoves.2 h

theorem gainedAt_eq_flatMap {α : Type} (history : Connection → List α) (place : Nat) (p : Pipeline)
    (e : Event) :
    p.gainedAt history place e = (p.touchedAt place e).flatMap fun t => t.1.news history t.2 := by
  cases e with
  | move q pick =>
    rw [gainedAt, touchedAt, Event.moves]
    by_cases hq : q = place
    · by_cases hwire : (p.apply (.move q pick)).wire = p.wire
      · rw [if_pos hq, if_neg fun h => h.2 hwire, hwire]
        exact Wire.news_eq_nil rfl fun _ => rfl
      · rw [if_pos hq, if_pos ⟨beq_iff_eq.mpr hq, hwire⟩, List.flatMap_singleton]
    · rw [if_neg hq, if_neg fun h => hq (beq_iff_eq.mp h.1), List.flatMap_nil]
  | _ => rfl

/-- What an activity adds to a history it adds in the steps that change the wire. -/
theorem gained_eq_flatMap_touched {α : Type} (history : Connection → List α) (place : Nat)
    (p : Pipeline) (events : List Event) :
    p.gained history place events
      = (p.touched place events).flatMap fun t => t.1.news history t.2 := by
  rw [gained, touched]
  induction events generalizing p with
  | nil => rfl
  | cons e rest ih => rw [collect, collect, List.flatMap_append, ih, gainedAt_eq_flatMap]

theorem length_le_apply (p : Pipeline) (e : Event) :
    p.activities.length ≤ (p.apply e).activities.length := by
  have heffect := p.effect_apply e
  generalize p.apply e = p', p.assigned e = more at heffect
  cases heffect with
  | send | listen => simp
  | aside hp =>
    obtain ⟨more, hmore, -⟩ := hp.activities
    simp [hmore]

theorem length_le_applyAll (p : Pipeline) (events : List Event) :
    p.activities.length ≤ (p.applyAll events).activities.length := by
  induction events generalizing p with
  | nil => exact Nat.le_refl _
  | cons e rest ih => exact Nat.le_trans (p.length_le_apply e) (ih (p.apply e))

/-- Nothing is done at a place where no activity has begun. -/
theorem apply_of_le {pick : Nat} (h : p.activities.length ≤ place) :
    p.apply (.move place pick) = p := by
  rw [apply, move, List.getElem?_eq_none h]
  rfl

theorem touchedAt_of_le (h : p.activities.length ≤ place) (e : Event) :
    p.touchedAt place e = [] := by
  cases hmoves : e.moves place with
  | false => exact touchedAt_of_not_moves hmoves
  | true =>
    cases e with
    | move q pick =>
      obtain rfl : q = place := beq_iff_eq.mp hmoves
      exact touchedAt_of_same (by rw [apply_of_le h])
    | _ => cases hmoves

theorem touched_of_le {events : List Event} (h : (p.applyAll events).activities.length ≤ place) :
    p.touched place events = [] := by
  induction events generalizing p with
  | nil => rfl
  | cons e rest ih =>
    have hfirst : (p.apply e).activities.length ≤ place :=
      Nat.le_trans (length_le_applyAll (p.apply e) rest) h
    rw [touched, collect, touchedAt_of_le (Nat.le_trans (p.length_le_apply e) hfirst)]
    exact ih h

theorem stepsAt_of_le (h : p.activities.length ≤ place) (e : Event) : p.stepsAt place e = [] := by
  cases e with
  | move q pick =>
    refine if_neg fun hmoves => ?_
    obtain ⟨rfl, hsome⟩ := hmoves
    rw [move, List.getElem?_eq_none h] at hsome
    cases hsome
  | _ => rfl

theorem steps_of_le {events : List Event} (h : (p.applyAll events).activities.length ≤ place) :
    p.steps place events = [] := by
  induction events generalizing p with
  | nil => rfl
  | cons e rest ih =>
    have hfirst : (p.apply e).activities.length ≤ place :=
      Nat.le_trans (length_le_applyAll (p.apply e) rest) h
    rw [steps, collect, stepsAt_of_le (Nat.le_trans (p.length_le_apply e) hfirst)]
    exact ih h

/-- What an event does to the send that is found at a place behind it. -/
inductive Sends (p : Pipeline) (e : Event) (place : Nat) (x' : Send) : Prop where
  /-- It takes a step. -/
  | step {pick : Nat} {x : Send} : e = .move place pick → p.sendAt? place = some x →
      (p.move place pick).isSome = true →
      Send.Move place pick p.sender p.wire x (p.apply e).sender (p.apply e).wire x' →
      Sends p e place x'
  /-- It stays as it is. -/
  | same : p.sendAt? place = some x' → p.touchedAt place e = [] → p.stepsAt place e = [] →
      Sends p e place x'
  /-- It is called for. -/
  | call : p.activities.length ≤ place → x'.phase = .called → Sends p e place x'

theorem sends_moved {q pick : Nat} {x' : Send}
    (h : (p.apply (.move q pick)).sendAt? place = some x') :
    p.Sends (.move q pick) place x' := by
  cases hmove : p.move q pick with
  | none =>
    have hstay : p.apply (.move q pick) = p := by rw [apply, hmove, Option.getD_none]
    refine .same (hstay ▸ h) (touchedAt_of_same (by rw [hstay])) (if_neg fun hmoves => ?_)
    rw [hmove] at hmoves
    cases hmoves.2
  | some p' =>
    have happly : p.apply (.move q pick) = p' := by rw [apply, hmove, Option.getD_some]
    have hother (hq : place ≠ q) (hsame : p.sendAt? place = some x') :
        p.Sends (.move q pick) place x' :=
      .same hsame (touchedAt_of_not_moves (beq_false_of_ne hq.symm))
        (stepsAt_of_not_moves (beq_false_of_ne hq.symm))
    have hmoved := moved_of_move hmove
    rw [happly] at h
    cases hmoved with
    | send hx hsend =>
      rw [sendAt?_set_send hx] at h
      split at h
      · next hq =>
        subst hq
        obtain rfl := Option.some.inj h
        exact .step rfl (sendAt?_eq_some.mpr hx) (by rw [hmove]; rfl) (by rw [happly]; exact hsend)
      · next hq => exact hother hq h
    | listen hl =>
      rw [sendAt?_set_listen hl] at h
      refine hother ?_ h
      rintro rfl
      cases hl.symm.trans (sendAt?_eq_some.mp h)
    | stay hnone => cases hnone.symm.trans hmove

theorem sends_apply {x' : Send} (h : (p.apply e).sendAt? place = some x') :
    p.Sends e place x' := by
  by_cases he : ∃ q pick, e = .move q pick
  · obtain ⟨q, pick, rfl⟩ := he
    exact sends_moved h
  · have hnot : ∀ q pick, e ≠ .move q pick := fun q pick heq => he ⟨q, pick, heq⟩
    have hmoves : e.moves place = false := by
      cases e with
      | move q pick => exact absurd rfl (hnot q pick)
      | _ => rfl
    rcases (aside_apply hnot).sendAt? h with hsame | ⟨hge, hcalled⟩
    · exact .same hsame (touchedAt_of_not_moves hmoves) (stepsAt_of_not_moves hmoves)
    · exact .call hge hcalled

end BlockFeed.Pipeline
