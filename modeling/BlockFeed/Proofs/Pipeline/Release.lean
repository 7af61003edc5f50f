import BlockFeed.Proofs.Pipeline.Blocked
import BlockFeed.Proofs.Pipeline.Footprint
import BlockFeed.Proofs.Sender.Closing

/-!
# Release by closing

What closing the sender does, wherever its sends are: its connections are closed and unregistered,
the sends that wait end, and sends that come later wait no more.

## Main definitions

* `Pipeline.Provides`: what is registered exists.
* `Pipeline.Deserted`: the sender is closed, nothing is registered, and no send writes.
* `Pipeline.RunsOut`: what becomes of the sends while nothing is registered.
* `Pipeline.Prompts`: what becomes of the sends that have their turn only afterwards.
* `Pipeline.Released`: all that closing the sender does.

## Main results

* `Pipeline.released_of_close`: closing the sender releases everything.

## Design notes

That all sends are done is told in two parts, for it depends on who moves when: no send takes more
than so many steps, and as long as one is not done, one can take a step.
-/

namespace BlockFeed

/-- A send that has no step left is done. -/
theorem Send.Pends.done_of_left {x : Send} (h : x.Pends) (hleft : x.left = 0) :
    ∃ result, x.phase = .done result := by
  rw [left] at hleft
  split at hleft
  · cases hleft
  · cases hleft
  · cases hleft
  · next counter waits failures hp =>
    obtain ⟨a, ha, hnone⟩ := h counter waits failures hp
    exact absurd (by rw [hnone]; rfl) (List.countP_eq_zero.mp hleft a ha)
  · next result hp => exact ⟨result, hp⟩

namespace Pipeline

/-- What is registered exists. -/
def Provides (p : Pipeline) (e : Event) : Prop :=
  ∀ r, e = .register r → r < p.wire.connections.length

/-- The send at a place, if there is one yet, has not had its turn. -/
def Unturned (p : Pipeline) (place : Nat) : Prop :=
  ∀ x, p.sendAt? place = some x → x.Unturned

variable {p : Pipeline} {place : Nat} {events : List Event} {e : Event}

theorem Named.apply (h : p.Named) (provides : p.Provides e) : (p.apply e).Named := by
  by_cases he : ∃ place pick, e = .move place pick
  · obtain ⟨place, pick, rfl⟩ := he
    exact h.move place pick
  · exact h.aside (aside_apply fun place pick heq => he ⟨place, pick, heq⟩) provides

theorem named_applyAll (withAcknowledge : Bool)
    (course : Along apply Provides (beginning withAcknowledge) events) :
    ((beginning withAcknowledge).applyAll events).Named := by
  refine along_induction ⟨nofun⟩ (fun events e _ provides ih => ?_) course
  rw [applyAll_concat]
  exact ih.apply provides

theorem lined_applyAll (withAcknowledge : Bool) (events : List Event) :
    ((beginning withAcknowledge).applyAll events).Lined := by
  induction events using List.reverseRecOn with
  | nil => exact .start rfl fun _ => rfl
  | append_singleton events e ih =>
    rw [applyAll_concat]
    exact ih.apply e

/-- A closed sender stays closed. -/
theorem closed_apply (closed : p.sender.cancel.closed = true) (e : Event) :
    (p.apply e).sender.cancel.closed = true := by
  by_cases he : e = .closeSender
  · subst he
    rfl
  · rw [cancel_apply he]
    exact closed

theorem closed_applyAll (closed : p.sender.cancel.closed = true) (events : List Event) :
    (p.applyAll events).sender.cancel.closed = true := by
  induction events generalizing p with
  | nil => exact closed
  | cons e rest ih => exact ih (closed_apply closed e)

/-- The sender is closed, nothing is registered, and no send writes. -/
structure Deserted (p : Pipeline) : Prop where
  closed : p.sender.cancel.closed = true
  empty : p.sender.registry.isEmpty = true
  silent : ∀ place x, p.sendAt? place = some x → ∀ counter rest written failures,
    x.phase ≠ .writing counter rest written failures

namespace Deserted

theorem entries (h : p.Deserted) : p.sender.registry.entries = [] :=
  List.isEmpty_iff.mp h.empty

theorem settles (h : p.Deserted) {pick : Nat} {x x' : Send} {s' : Sender} {w' : Wire}
    (hx : p.sendAt? place = some x) (hmove : Send.Move place pick p.sender p.wire x s' w' x') :
    x.Settles x' ∧ s'.lastCounter = p.sender.lastCounter ∧ w' = p.wire ∧ x'.left < x.left :=
  hmove.settles h.closed h.empty (h.silent place x hx)

theorem apply (h : p.Deserted) (unregistered : ∀ r, e ≠ .register r) : (p.apply e).Deserted where
  closed := closed_apply h.closed e
  empty := by
    have heffect := p.effect_apply e
    generalize p.apply e = p', p.assigned e = more at heffect
    rw [Table.isEmpty, List.isEmpty_iff]
    cases heffect with
    | send _ _ hmove => exact List.eq_nil_of_sublist_nil (h.entries ▸ hmove.entries)
    | listen => exact h.entries
    | aside hp =>
      refine List.eq_nil_iff_forall_not_mem.mpr fun c hc => ?_
      rcases hp.entries c hc with hold | ⟨r, he, -⟩
      · rw [h.entries] at hold
        cases hold
      · exact unregistered r he
  silent := by
    intro place x' hx' counter rest written failures hp'
    cases sends_apply hx' with
    | step _ hx _ hmove =>
      cases (h.settles hx hmove).1 with
      | stay hsame => exact h.silent place _ hx _ _ _ _ (hsame ▸ hp')
      | refuse _ hdone | conclude _ hdone => cases hdone.symm.trans hp'
      | wait _ hwaiting => cases hwaiting.symm.trans hp'
    | same hsame => exact h.silent place x' hsame _ _ _ _ hp'
    | call _ hcalled => cases hcalled.symm.trans hp'

theorem lastCounter (h : p.Deserted) (e : Event) :
    (p.apply e).sender.lastCounter = p.sender.lastCounter := by
  have heffect := p.effect_apply e
  generalize p.apply e = p', p.assigned e = more at heffect
  cases heffect with
  | send _ hx hmove => exact (h.settles (sendAt?_eq_some.mpr hx) hmove).2.1
  | listen => rfl
  | aside hp => exact hp.lastCounter

end Deserted

/-- What the sends of a deserted pipeline have done in a run. -/
structure RunningOut (p : Pipeline) (events : List Event) : Prop where
  deserted : (p.applyAll events).Deserted
  lastCounter : (p.applyAll events).sender.lastCounter = p.sender.lastCounter
  /-- Each send has settled from where it was, or from where it began, and every step has brought it
  nearer to its end. -/
  sends : ∀ place x', (p.applyAll events).sendAt? place = some x' →
    p.touched place events = [] ∧
      ∃ x, (p.sendAt? place = some x ∨ p.activities.length ≤ place ∧ x.phase = .called) ∧
        x.Settles x' ∧ x'.left + (p.steps place events).length ≤ x.left

namespace RunningOut

theorem refl (h : p.Deserted) : p.RunningOut [] where
  deserted := h
  lastCounter := rfl
  sends := fun _ x' hx' => ⟨rfl, x', .inl hx', .stay rfl, Nat.le_refl _⟩

theorem concat (h : p.RunningOut events) (unregistered : ∀ r, e ≠ .register r) :
    p.RunningOut (events ++ [e]) where
  deserted := by
    rw [applyAll_concat]
    exact h.deserted.apply unregistered
  lastCounter := by
    rw [applyAll_concat, h.deserted.lastCounter, h.lastCounter]
  sends := by
    intro place x'' hx''
    rw [applyAll_concat] at hx''
    rw [touched_append, touched_singleton, steps_append, steps_singleton, List.length_append]
    cases sends_apply hx'' with
    | @step pick x' he hx' hcan hmove =>
      obtain ⟨htouched, x, hx, hsettles, hleft⟩ := h.sends place x' hx'
      obtain ⟨hsettles', -, hwire, hless⟩ := h.deserted.settles hx' hmove
      have hone : ((p.applyAll events).stepsAt place e).length ≤ 1 := by
        rw [he, stepsAt]
        split <;> simp
      refine ⟨?_, x, hx, hsettles.trans hsettles', by omega⟩
      rw [htouched, touchedAt_of_same hwire, List.append_nil]
    | same hsame htouched' hsteps =>
      obtain ⟨htouched, x, hx, hsettles, hleft⟩ := h.sends place x'' hsame
      refine ⟨?_, x, hx, hsettles, ?_⟩
      · rw [htouched, htouched', List.append_nil]
      · rw [hsteps]
        exact hleft
    | call hplace hcalled =>
      refine ⟨?_, x'', .inr ⟨Nat.le_trans (length_le_applyAll p events) hplace, hcalled⟩,
        .stay rfl, ?_⟩
      · rw [touched_of_le hplace, touchedAt_of_le hplace, List.append_nil]
      · rw [steps_of_le hplace, stepsAt_of_le hplace]
        exact Nat.le_refl _

theorem start (h : p.Deserted) (unregistered : ∀ e ∈ events, ∀ r, e ≠ .register r) :
    p.RunningOut events := by
  induction events using List.reverseRecOn with
  | nil => exact refl h
  | append_singleton events e ih =>
    obtain ⟨hbefore, he⟩ := List.forall_mem_append.mp unregistered
    exact (ih hbefore).concat (he e (List.mem_singleton_self e))

theorem of_sendAt? (h : p.RunningOut events) {x x' : Send} (hx : p.sendAt? place = some x)
    (hx' : (p.applyAll events).sendAt? place = some x') :
    x.Settles x' ∧ x'.left + (p.steps place events).length ≤ x.left := by
  obtain ⟨-, y, hy | ⟨hplace, -⟩, hsettles⟩ := h.sends place x' hx'
  · obtain rfl : x = y := Option.some.inj (hx.symm.trans hy)
    exact hsettles
  · have hlt := (List.getElem?_eq_some_iff.mp (sendAt?_eq_some.mp hx)).1
    omega

end RunningOut

theorem exists_sendAt?_applyAll {x : Send} (hx : p.sendAt? place = some x) (events : List Event) :
    ∃ x', (p.applyAll events).sendAt? place = some x' := by
  have hlt := (List.getElem?_eq_some_iff.mp (sendAt?_eq_some.mp hx)).1
  have hpayload := payloadAt?_applyAll hlt events
  rw [payloadAt?, payloadAt?, hx, Option.map_some] at hpayload
  obtain ⟨x', hx', -⟩ := Option.map_eq_some_iff.mp hpayload
  exact ⟨x', hx'⟩

/-- What becomes of the sends of a sender that is closed where a run starts, while nothing is
registered. -/
structure RunsOut (p : Pipeline) (events : List Event) : Prop where
  /-- No counter is taken. -/
  lastCounter : (p.applyAll events).sender.lastCounter = p.sender.lastCounter
  /-- No send writes, reads or closes anything. -/
  untouched : ∀ place x, (p.applyAll events).sendAt? place = some x → p.touched place events = []
  /-- A send that was waiting for acknowledgments succeeds. -/
  waiting : ∀ place x counter waits failures, p.sendAt? place = some x →
    x.phase = .waiting counter waits failures →
    ∀ result, (p.applyAll events).sent? place = some result → result = .ok ()
  /-- A send that had not had its turn, or is called for later, finds no connection. -/
  unturned : ∀ place, p.Unturned place →
    ∀ result, (p.applyAll events).sent? place = some result → result = .error .noConnections
  /-- A send takes one step for each of its waits that has not ended, or one step in all, and is
  done when it has taken them. -/
  bounded : ∀ place x, p.sendAt? place = some x → (p.steps place events).length ≤ x.left ∧
    ((p.steps place events).length = x.left →
      ∃ result, (p.applyAll events).sent? place = some result)

theorem RunningOut.runsOut (h : p.RunningOut events) (lined : (p.applyAll events).Lined) :
    p.RunsOut events where
  lastCounter := h.lastCounter
  untouched := fun place x hx => (h.sends place x hx).1
  waiting := by
    intro place x counter waits failures hx hp result hsent
    obtain ⟨x', hx', hdone⟩ := sent?_eq_some.mp hsent
    cases (h.of_sendAt? hx hx').1 with
    | stay hsame => cases hp.symm.trans (hsame ▸ hdone)
    | refuse hun => simp [Send.Unturned, hp] at hun
    | wait _ hp' => cases hp'.symm.trans hdone
    | conclude _ hok => exact SendPhase.done.inj (hdone.symm.trans hok)
  unturned := by
    intro place hun result hsent
    obtain ⟨x', hx', hdone⟩ := sent?_eq_some.mp hsent
    obtain ⟨-, x, hx, hsettles, -⟩ := h.sends place x' hx'
    have hx : x.Unturned := hx.elim (hun x) fun hcalled => .inl hcalled.2
    cases hsettles with
    | stay hsame =>
      subst hsame
      simp [Send.Unturned, hdone] at hx
    | refuse _ hrefused => exact SendPhase.done.inj (hdone.symm.trans hrefused)
    | wait hp | conclude hp => simp [Send.Unturned, hp] at hx
  bounded := by
    intro place x hx
    obtain ⟨x', hx'⟩ := exists_sendAt?_applyAll hx events
    have hleft := (h.of_sendAt? hx hx').2
    refine ⟨by omega, fun hall => ?_⟩
    obtain ⟨result, hdone⟩ := (lined.pends place x' hx').done_of_left (by omega)
    exact ⟨result, sent?_eq_some.mpr ⟨x', hx', hdone⟩⟩

/-- What becomes of the sends that have their turn only after the sender was closed, with whatever
connections are there by then. -/
structure Prompts (p : Pipeline) (events : List Event) : Prop where
  /-- A send reads nothing. -/
  consumed : ∀ place x, p.Unturned place → (p.applyAll events).sendAt? place = some x →
    p.gained Connection.consumed place events = []
  /-- No wait for an acknowledgment has to wait. -/
  waiting : ∀ place x counter waits failures, (p.applyAll events).sendAt? place = some x →
    x.phase = .waiting counter waits failures → ∀ pick a, waits[pick]? = some a →
    a.outcome = none → ((p.applyAll events).move place pick).isSome = true
  /-- A send succeeds exactly if one of its writes is accepted. -/
  result : ∀ place, p.Unturned place →
    ∀ result, (p.applyAll events).sent? place = some result →
    (result = .ok () ↔ p.gained Connection.written place events ≠ [])
  /-- If no send can take a step, all are done. -/
  progress : (∀ place x, (p.applyAll events).sendAt? place = some x →
      ∀ pick, (p.applyAll events).move place pick = none) →
    ∀ place x, (p.applyAll events).sendAt? place = some x →
      ∃ result, (p.applyAll events).sent? place = some result

/-- Sends that have their turn only after the sender was closed read nothing, and go by their
writes. -/
theorem prompt_applyAll (closed : p.sender.cancel.closed = true) (events : List Event)
    {x' : Send} (hx' : (p.applyAll events).sendAt? place = some x') (unturned : p.Unturned place) :
    p.gained Connection.consumed place events = [] ∧
      x'.Prompt (p.gained Connection.written place events) := by
  induction events using List.reverseRecOn generalizing x' with
  | nil =>
    refine ⟨rfl, ?_⟩
    rcases unturned x' hx' with hp | hp <;> rw [Send.Prompt, hp] <;> rfl
  | append_singleton events e ih =>
    rw [applyAll_concat] at hx'
    rw [gained_append, gained_append, gained_singleton, gained_singleton]
    cases sends_apply hx' with
    | step he hx _ hmove =>
      obtain ⟨hconsumed, hprompt⟩ := ih hx
      have hclosed := closed_applyAll closed events
      subst he
      rw [hconsumed, gainedAt, if_pos rfl, gainedAt, if_pos rfl]
      exact ⟨hmove.news_consumed hclosed, hmove.prompt hclosed hprompt⟩
    | same hsame htouched =>
      obtain ⟨hconsumed, hprompt⟩ := ih hsame
      rw [hconsumed, gainedAt_eq_flatMap, gainedAt_eq_flatMap, htouched]
      exact ⟨rfl, (List.append_nil _).symm ▸ hprompt⟩
    | call hplace hcalled =>
      have hnone {α : Type} (history : Connection → List α) :
          p.gained history place events = [] := by
        rw [gained_eq_flatMap_touched, touched_of_le hplace, List.flatMap_nil]
      rw [hnone, hnone, gainedAt_eq_flatMap, gainedAt_eq_flatMap, touchedAt_of_le hplace]
      refine ⟨rfl, ?_⟩
      rw [Send.Prompt, hcalled]
      rfl

theorem Lined.done_of_closed (h : p.Lined) (closed : p.sender.cancel.closed = true)
    (stuck : ∀ place x, p.sendAt? place = some x → ∀ pick, p.move place pick = none)
    {x : Send} (hx : p.sendAt? place = some x) : ∃ result, p.sent? place = some result := by
  by_cases hdone : ∃ result, x.phase = .done result
  · obtain ⟨result, hp⟩ := hdone
    exact ⟨result, sent?_eq_some.mpr ⟨x, hx, hp⟩⟩
  · obtain ⟨_, _, _, _, _, a, _, _, _, hnone, hstep⟩ :=
      h.exists_wait stuck hx fun result hp => hdone ⟨result, hp⟩
    rw [AckWait.step_of_closed closed hnone] at hstep
    cases hstep

theorem prompts_applyAll (closed : p.sender.cancel.closed = true)
    (lined : (p.applyAll events).Lined) : p.Prompts events where
  consumed := fun _ _ unturned hx => (prompt_applyAll closed events hx unturned).1
  waiting := by
    intro place x counter waits failures hx hp pick a ha hnone
    have hsome := Send.step_isSome_of_closed place (p.applyAll events).wire
      (closed_applyAll closed events) hp ha hnone
    rw [Option.isSome_iff_ne_none] at hsome ⊢
    exact fun hmove => hsome ((move_send_eq_none_iff (sendAt?_eq_some.mp hx)).mp hmove)
  result := by
    intro place unturned result hsent
    obtain ⟨x, hx, hdone⟩ := sent?_eq_some.mp hsent
    have hprompt := (prompt_applyAll closed events hx unturned).2
    rw [Send.Prompt, hdone] at hprompt
    exact hprompt
  progress := fun stuck _ _ hx => lined.done_of_closed (closed_applyAll closed events) stuck hx

/-- All that closing the sender does. -/
structure Released (p : Pipeline) : Prop where
  /-- Every connection that is registered is closed once, and no other is. -/
  closes : ∀ f, ((p.apply .closeSender).wire.conn f).closes = (p.wire.conn f).closes +
    if f ∈ p.sender.registry.entries.map Prod.snd then 1 else 0
  /-- It is not open any more, even if closing it has failed. -/
  shut : ∀ f ∈ p.sender.registry.entries.map Prod.snd,
    ((p.apply .closeSender).wire.conn f).isOpen = false
  /-- Nothing is registered any more. -/
  empty : (p.apply .closeSender).sender.registry.entries = []
  runsOut : ∀ events : List Event, (∀ e ∈ events, ∀ r, e ≠ .register r) →
    (p.apply .closeSender).RunsOut events
  prompts : ∀ events, (p.apply .closeSender).Prompts events

/-- Wherever its sends are, except writing, a sender that is closed closes and unregisters all its
connections and ends its waits; the sends that queue take no counter and write nothing, and sends
on connections that are registered later wait for no acknowledgment. -/
theorem released_of_close (withAcknowledge : Bool) (before : List Event)
    (course : Along apply Provides (beginning withAcknowledge) before)
    (silent : ∀ place x, ((beginning withAcknowledge).applyAll before).sendAt? place = some x →
      ∀ counter rest written failures, x.phase ≠ .writing counter rest written failures) :
    ((beginning withAcknowledge).applyAll before).Released := by
  have hnamed := named_applyAll withAcknowledge course
  have hlined (events : List Event) :=
    lined_applyAll withAcknowledge (before ++ .closeSender :: events)
  simp only [applyAll_append] at hlined
  generalize (beginning withAcknowledge).applyAll before = p at silent hnamed hlined ⊢
  obtain ⟨hempty, hconn⟩ := Registry.closeAll_closes fun c hc => (hnamed.entries c hc).1
  have hclosed : (p.apply .closeSender).sender.cancel.closed = true := rfl
  constructor
  · intro f
    rw [← hnamed.nodup.count]
    exact (hconn f).1
  · intro f hf
    exact Bool.eq_false_iff.mpr fun hopen => ((hconn f).2.mp hopen).1 hf
  · exact hempty
  · intro events unregistered
    have hdeserted : (p.apply .closeSender).Deserted :=
      ⟨hclosed, List.isEmpty_iff.mpr hempty, silent⟩
    exact (RunningOut.start hdeserted unregistered).runsOut (hlined events)
  · exact fun events => prompts_applyAll hclosed (hlined events)

/-- Three sends are called for on two connections, of which closing the second fails. The first
waits for two acknowledgments, and has lost the first connection. -/
def besieged : List Event :=
  [.connect { id := "a", isOpen := true },
    .connect { id := "b", isOpen := true, closeError := some .closedByPeer }, .register 0,
    .register 1, .send [1], .send [2], .send [3], .move 0 0, .move 1 0, .move 2 0, .move 0 0,
    .move 0 0, .move 0 0, .move 0 0, .occur 0 (.arrive [.failure .closedByPeer]), .move 0 0]

/-- The sends go on, and another is made on a connection that is new. -/
def relieved : List Event :=
  [.move 0 1, .move 1 0, .move 2 0, .connect { id := "c", isOpen := true }, .register 2, .send [4],
    .move 3 0, .move 3 0, .move 3 0, .move 3 0, .move 3 0]

/-- Closing the sender releases three sends, and a fourth waits for nothing. -/
theorem released_besieged : ((beginning true).applyAll besieged).Released ∧
    (List.range 4).map (((beginning true).applyAll (besieged ++ .closeSender :: relieved)).sent? ·)
      = [some (.ok ()), some (.error .noConnections), some (.error .noConnections),
        some (.ok ())] := by
  refine ⟨released_of_close true besieged ?_ ?_, rfl⟩
  · refine ⟨nofun, nofun, ?_, ?_, nofun, nofun, nofun, nofun, nofun, nofun, nofun, nofun, nofun,
      nofun, nofun, nofun, trivial⟩
    · rintro r ⟨⟩
      decide
    · rintro r ⟨⟩
      decide
  · have hactivities : ((beginning true).applyAll besieged).activities
        = [.send ⟨[1], .waiting 1 [⟨"a", 0, some (.failed .closedByPeer)⟩, ⟨"b", 1, none⟩] []⟩,
          .send ⟨[2], .queued⟩, .send ⟨[3], .queued⟩] := rfl
    intro place x hx counter rest written failures hp
    have hmem := List.mem_of_getElem? (sendAt?_eq_some.mp hx)
    rw [hactivities] at hmem
    simp only [List.mem_cons, Activity.send.injEq, List.not_mem_nil, or_false] at hmem
    rcases hmem with rfl | rfl | rfl <;> cases hp

end Pipeline

end BlockFeed
