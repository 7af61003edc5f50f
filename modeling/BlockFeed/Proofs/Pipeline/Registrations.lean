import BlockFeed.Proofs.Link.Registrations
import BlockFeed.Proofs.Pipeline.Release
import BlockFeed.Proofs.Sender.Losses

/-!
# Registrations in a run

The registry of a sender as a map from ids to connections, whatever sends are under way: what it
holds is told by the events of a run alone, and how often it closes a connection by how often that
connection was registered.

## Main definitions

* `Pipeline.Enters`, `Pipeline.Removes`: what an event does to what is registered under an id.
* `Pipeline.Latest`: the connection that was registered last under an id, and not removed since.
* `Pipeline.closesBy`: how often the registry closes a connection in the course of a run.

## Main results

* `Pipeline.mem_entries_applyAll`: the registry holds the latest connection under each id.
* `Pipeline.closesBy_le`: a registry closes no connection more often than it was registered.
* `Pipeline.registry_refines`: both, and what the operations of the registry answer and do.

## Design notes

A registry closes no connection but those that it gives up, so the closes of a connection together
with its entries never exceed its registrations. That is what every event preserves; replacing a
connection and forgetting one that is not open give up an entry for nothing.
-/

namespace BlockFeed.Pipeline

/-- The event registers a connection under an id. -/
def Enters (p : Pipeline) (id : String) (r : Ref) (e : Event) : Prop :=
  e = .register r ∧ (p.wire.conn r).id = id

/-- The event removes a connection that is registered under an id. -/
inductive Removes (p : Pipeline) (id : String) (r : Ref) : Event → Prop where
  | unregister : Removes p id r (.unregister id)
  /-- The sender forgets it, for it is not open. -/
  | forget : (p.wire.conn r).isOpen = false → Removes p id r .removeClosed
  | closeAll : Removes p id r .closeAll
  | closeSender : Removes p id r .closeSender
  /-- A send loses a connection under this id. -/
  | lose {place pick : Nat} {x : Send} : p.sendAt? place = some x →
      x.Loses pick p.sender p.wire id → Removes p id r (.move place pick)

/-- The event leaves a connection that is registered under an id where it is. -/
def Spares (id : String) (r : Ref) (p : Pipeline) (e : Event) : Prop :=
  (∀ q, ¬p.Enters id q e) ∧ ¬p.Removes id r e

/-- The connection was registered last under an id in the course of a run, and was not removed
since. -/
def Latest (p : Pipeline) (id : String) (r : Ref) (events : List Event) : Prop :=
  ∃ before e after, events = before ++ e :: after ∧ (p.applyAll before).Enters id r e ∧
    Along apply (Spares id r) (p.applyAll (before ++ [e])) after

/-- How often a connection is closed in an event by the sender: if it is disconnected, that is the
doing of another. -/
def closesAt (f : Ref) (p : Pipeline) : Event → Nat
  | .disconnect _ | .connect _ => 0
  | e => ((p.apply e).wire.conn f).closes - (p.wire.conn f).closes

/-- How often the registry closes a connection in the course of a run. -/
def closesBy (f : Ref) (p : Pipeline) : List Event → Nat
  | [] => 0
  | e :: rest => closesAt f p e + closesBy f (p.apply e) rest

def Event.registers (f : Ref) : Event → Bool
  | .register r => r == f
  | _ => false

variable {p : Pipeline} {e : Event} {events : List Event} {id : String} {r f : Ref}

theorem latest_concat : p.Latest id r (events ++ [e]) ↔
    (p.applyAll events).Enters id r e ∨
      (p.Latest id r events ∧ Spares id r (p.applyAll events) e) := by
  constructor
  · rintro ⟨before, d, after, hsplit, hregisters, hcourse⟩
    rcases List.eq_nil_or_concat' after with rfl | ⟨after, d', rfl⟩
    · obtain ⟨rfl, hd⟩ := List.append_inj' hsplit rfl
      obtain rfl := (List.cons.inj hd).1
      exact .inl hregisters
    · rw [← List.cons_append, ← List.append_assoc] at hsplit
      obtain ⟨rfl, hd⟩ := List.append_inj' hsplit rfl
      obtain rfl := (List.cons.inj hd).1
      obtain ⟨hafter, hspares, -⟩ := along_append.mp hcourse
      change Spares id r ((p.applyAll (before ++ [d])).applyAll after) e at hspares
      rw [← applyAll_append, List.append_assoc] at hspares
      exact .inr ⟨⟨before, d, after, rfl, hregisters, hafter⟩, hspares⟩
  · rintro (hregisters | ⟨⟨before, d, after, rfl, hregisters, hafter⟩, hspares⟩)
    · exact ⟨events, e, [], rfl, hregisters, trivial⟩
    · refine ⟨before, d, after ++ [e], by simp, hregisters, along_append.mpr ⟨hafter, ?_, trivial⟩⟩
      change Spares id r ((p.applyAll (before ++ [d])).applyAll after) e
      rwa [← applyAll_append, List.append_assoc]

/-- What an event makes of the registry and of the connections. -/
inductive Enrols (p : Pipeline) (e : Event) (g' : Registry) (w' : Wire) : Prop where
  /-- It leaves the registry alone, and the sender closes nothing. -/
  | spare : (∀ id q, ¬p.Enters id q e) → (∀ id q, ¬p.Removes id q e) → g' = p.sender.registry →
      (∀ f, closesAt f p e = 0) → Enrols p e g' w'
  | register {r : Ref} : e = .register r → g' = p.sender.registry.add p.wire r → w' = p.wire →
      Enrols p e g' w'
  /-- What is registered under an id is removed: that was asked for, or a send has lost it. -/
  | remove {id : String} {w₁ : Wire} : (∀ id q, ¬p.Enters id q e) →
      (∀ id' q, p.Removes id' q e ↔ id' = id) → p.wire.Used w₁ →
      g' = (p.sender.registry.closeAndRemove w₁ id).2.1 →
      w' = (p.sender.registry.closeAndRemove w₁ id).2.2 → Enrols p e g' w'
  | forget : e = .removeClosed → g' = p.sender.registry.removeClosed p.wire → w' = p.wire →
      Enrols p e g' w'
  | closeAll : e = .closeAll ∨ e = .closeSender → g' = (p.sender.registry.closeAll p.wire).1 →
      w' = (p.sender.registry.closeAll p.wire).2 → Enrols p e g' w'

theorem closesAt_le (f : Ref) (p : Pipeline) (e : Event) :
    closesAt f p e ≤ ((p.apply e).wire.conn f).closes - (p.wire.conn f).closes := by
  cases e with
  | disconnect | connect => exact Nat.zero_le _
  | move | elapse | join | occur | register | unregister | removeClosed | closeAll | closeSender
  | send | report | attach | listen | closeReceiver => exact Nat.le_refl _

theorem closesAt_eq_zero (h : ((p.apply e).wire.conn f).closes = (p.wire.conn f).closes) :
    closesAt f p e = 0 :=
  Nat.le_zero.mp (Nat.le_trans (closesAt_le f p e) (Nat.le_of_eq (by rw [h, Nat.sub_self])))

/-- Only an activity that loses a connection removes something in its step. -/
theorem removes_move_iff {place pick : Nat} {x : Send} (hx : p.sendAt? place = some x) :
    p.Removes id r (.move place pick) ↔ x.Loses pick p.sender p.wire id := by
  refine ⟨fun h => ?_, .lose hx⟩
  cases h with
  | lose hy hloses => exact Option.some.inj (hx.symm.trans hy) ▸ hloses

theorem not_removes_move {place pick : Nat} (hstay : p.move place pick = none) :
    ¬p.Removes id r (.move place pick) := by
  rintro (_ | _ | _ | _ | ⟨hx, hloses⟩)
  exact hloses.step_ne_none place ((move_send_eq_none_iff (sendAt?_eq_some.mp hx)).mp hstay)

theorem enrols_move (p : Pipeline) (place pick : Nat) :
    p.Enrols (.move place pick) (p.apply (.move place pick)).sender.registry
      (p.apply (.move place pick)).wire := by
  have hmoved := p.moved_apply place pick
  have hcloses := fun f => closesAt_eq_zero (p := p) (e := .move place pick) (f := f)
  generalize p.apply (.move place pick) = p' at hmoved hcloses ⊢
  have hregisters (id : String) (q : Ref) : ¬p.Enters id q (.move place pick) :=
    fun h => nomatch h.1
  cases hmoved with
  | @send x x' sender wire hx hmove =>
    have hremoves (id : String) (q : Ref) :
        p.Removes id q (.move place pick) ↔ x.Loses pick p.sender p.wire id :=
      removes_move_iff (sendAt?_eq_some.mpr hx)
    cases hmove.toll with
    | use hnone hsame hused =>
      exact .spare hregisters (fun id q h => hnone id ((hremoves id q).mp h)) hsame
        fun f => hcloses f (hused.conn f).closes
    | @lose id w₁ hloses hused hg hw =>
      refine .remove hregisters (fun id' q => (hremoves id' q).trans ⟨fun h => ?_, ?_⟩) hused hg hw
      · obtain ⟨_, _, _, _, hp, ha, rfl, -⟩ := hloses
        exact ((Send.loses_iff hp ha).mp h).1.symm
      · rintro rfl
        exact hloses
  | listen hl _ hmove =>
    refine .spare hregisters ?_ rfl fun f => hcloses f (hmove.used.conn f).closes
    rintro id q (_ | _ | _ | _ | ⟨hx, -⟩)
    cases hl.symm.trans (sendAt?_eq_some.mp hx)
  | stay hstay =>
    exact .spare hregisters (fun _ _ => not_removes_move hstay) rfl fun f => hcloses f rfl

/-- Reporting a record calls for a send, if the record can be written; nothing else is touched. -/
theorem apply_report (p : Pipeline) (m : Marshaler) (r : Report) :
    (p.apply (.report m r)).sender.registry = p.sender.registry ∧
      (p.apply (.report m r)).wire = p.wire := by
  rw [apply]
  split <;> exact ⟨rfl, rfl⟩

theorem enrols_apply (p : Pipeline) (e : Event) :
    p.Enrols e (p.apply e).sender.registry (p.apply e).wire := by
  have hspare (hregisters : ∀ id q, ¬p.Enters id q e) (hremoves : ∀ id q, ¬p.Removes id q e)
      (hsame : (p.apply e).sender.registry = p.sender.registry)
      (hcloses : ∀ f, closesAt f p e = 0) :
      p.Enrols e (p.apply e).sender.registry (p.apply e).wire :=
    .spare hregisters hremoves hsame hcloses
  cases e with
  | move place pick => exact p.enrols_move place pick
  | register r => exact .register rfl rfl rfl
  | unregister id =>
    refine .remove (fun _ _ h => nomatch h.1) (fun id' q => ⟨?_, ?_⟩) (.refl _) rfl rfl
    · rintro ⟨⟩
      rfl
    · rintro rfl
      exact .unregister
  | removeClosed => exact .forget rfl rfl rfl
  | closeAll => exact .closeAll (.inl rfl) rfl rfl
  | closeSender => exact .closeAll (.inr rfl) rfl rfl
  | occur r o =>
    exact hspare (fun _ _ h => nomatch h.1) nofun rfl
      fun f => closesAt_eq_zero (p.wire.closes_undergo r f o)
  | report m r =>
    obtain ⟨hregistry, hwire⟩ := p.apply_report m r
    exact hspare (fun _ _ h => nomatch h.1) nofun hregistry
      fun f => closesAt_eq_zero (by rw [hwire])
  | disconnect | connect => exact hspare (fun _ _ h => nomatch h.1) nofun rfl fun _ => rfl
  | elapse | join | send | attach | listen | closeReceiver =>
    exact hspare (fun _ _ h => nomatch h.1) nofun rfl fun f => closesAt_eq_zero rfl

/-- What is registered after an event was registered in it, or before it and was spared. -/
theorem mem_entries_apply (named : p.Named) (e : Event) :
    (id, r) ∈ (p.apply e).sender.registry.entries ↔
      p.Enters id r e ∨ ((id, r) ∈ p.sender.registry.entries ∧ Spares id r p e) := by
  have henrols := p.enrols_apply e
  generalize (p.apply e).sender.registry = g', (p.apply e).wire = w' at henrols
  cases henrols with
  | spare hregisters hremoves hsame =>
    subst hsame
    simp [Spares, hregisters, hremoves]
  | @register q he hg =>
    subst he hg
    have hremoves : ¬p.Removes id r (.register q) := nofun
    rw [Registry.mem_add_iff, Spares]
    simp only [Enters, Event.register.injEq, hremoves, not_false_eq_true, and_true, not_and,
      forall_eq']
    refine or_congr ⟨fun h => ⟨h.2.symm, ?_⟩, fun h => ⟨?_, h.1.symm⟩⟩ ⟨fun h => ⟨h.2, fun heq =>
      h.1 heq.symm⟩, fun h => ⟨fun heq => h.2 heq.symm, h.1⟩⟩
    · rw [h.2, h.1]
    · rw [h.1, h.2]
  | remove hregisters hremoves _ hg =>
    subst hg
    simp [Registry.entries_closeAndRemove_eq, Spares, hregisters, hremoves]
  | forget he hg =>
    subst he hg
    have hregisters (q : Ref) : ¬p.Enters id q .removeClosed := fun h => nomatch h.1
    have hremoves : p.Removes id r .removeClosed ↔ (p.wire.conn r).isOpen = false :=
      ⟨fun h => by cases h; assumption, .forget⟩
    simp [Registry.mem_removeClosed_iff, Spares, hregisters, hremoves]
  | closeAll he hg =>
    have hempty := (Registry.closeAll_closes fun c hc => (named.entries c hc).1).1
    rw [← hg] at hempty
    have hregisters : ¬p.Enters id r e := by
      rintro ⟨rfl, -⟩
      simp at he
    have hremoves : p.Removes id r e := by
      rcases he with rfl | rfl
      · exact .closeAll
      · exact .closeSender
    simp [hempty, Spares, hregisters, hremoves]

/-- The closes of a connection and its entries together never exceed its registrations. -/
theorem closesAt_add_enrolled_le (named : p.Named) (f : Ref) (e : Event) :
    closesAt f p e + (p.apply e).sender.registry.enrolled f ≤
      p.sender.registry.enrolled f + if e.registers f then 1 else 0 := by
  have henrols := p.enrols_apply e
  have hle := closesAt_le f p e
  have hexist : ∀ c ∈ p.sender.registry.entries, c.2 < p.wire.connections.length :=
    fun c hc => (named.entries c hc).1
  generalize (p.apply e).sender.registry = g', (p.apply e).wire = w' at henrols hle
  cases henrols with
  | spare _ _ hsame hcloses =>
    rw [hcloses f, hsame, Nat.zero_add]
    exact Nat.le_add_right _ _
  | @register r he hg hw =>
    have henrolled := p.sender.registry.enrolled_add p.wire r f
    rw [hw, Nat.sub_self] at hle
    subst he
    rw [Nat.le_zero.mp hle, hg, Nat.zero_add]
    simpa [Event.registers] using henrolled
  | @remove id w₁ _ _ hused hg hw =>
    have hconserves := Registry.conserves_closeAndRemove
      (fun c hc => hused.size ▸ hexist c hc) id f (g := p.sender.registry) (w := w₁)
    have hsub : g'.enrolled f ≤ p.sender.registry.enrolled f := by
      rw [hg]
      exact ((Registry.entries_closeAndRemove id).map Prod.snd).count_le f
    rw [← hg, ← hw, (hused.conn f).closes] at hconserves
    omega
  | forget he hg hw =>
    have hsub : g'.enrolled f ≤ p.sender.registry.enrolled f := by
      rw [hg]
      exact (Registry.entries_removeClosed.map Prod.snd).count_le f
    rw [hw, Nat.sub_self] at hle
    omega
  | closeAll _ hg hw =>
    obtain ⟨hempty, hcloses⟩ := Registry.conserves_closeAll hexist f
    rw [← hw] at hcloses
    have hnone : g'.enrolled f = 0 := by
      rw [hg, Registry.enrolled, hempty]
      rfl
    omega

theorem closesBy_add_enrolled_le (named : p.Named) (course : Along apply Provides p events)
    (f : Ref) :
    closesBy f p events + (p.applyAll events).sender.registry.enrolled f ≤
      p.sender.registry.enrolled f + events.countP (·.registers f) := by
  induction events generalizing p with
  | nil => exact Nat.le_of_eq (Nat.zero_add _)
  | cons e rest ih =>
    obtain ⟨hprovides, hrest⟩ := course
    have hfirst := closesAt_add_enrolled_le named f e
    have hlater := ih (named.apply hprovides) hrest
    rw [closesBy, List.countP_cons]
    change _ + ((p.apply e).applyAll rest).sender.registry.enrolled f ≤ _
    omega

section Beginning

variable (withAcknowledge : Bool) (course : Along apply Provides (beginning withAcknowledge) events)

include course

/-- Under each id the registry holds the connection that was registered last under it, unless that
was removed since. -/
theorem mem_entries_applyAll (id : String) (r : Ref) :
    (id, r) ∈ ((beginning withAcknowledge).applyAll events).sender.registry.entries ↔
      (beginning withAcknowledge).Latest id r events := by
  induction events using List.reverseRecOn with
  | nil =>
    refine ⟨fun h => absurd h List.not_mem_nil, ?_⟩
    rintro ⟨before, e, after, hsplit, -⟩
    simp at hsplit
  | append_singleton events e ih =>
    obtain ⟨hbefore, -⟩ := along_append.mp course
    rw [applyAll_concat, mem_entries_apply (named_applyAll withAcknowledge hbefore), latest_concat,
      ih hbefore]

theorem closesBy_le (f : Ref) : closesBy f (beginning withAcknowledge) events ≤
    events.countP (·.registers f) := by
  have hnamed : (beginning withAcknowledge).Named :=
    @named_applyAll [] withAcknowledge trivial
  have hle := closesBy_add_enrolled_le hnamed course f
  have hnone : (beginning withAcknowledge).sender.registry.enrolled f = 0 := rfl
  omega

end Beginning

/-- A registry is a map from ids to connections that closes no registration twice. -/
structure Refines (p : Pipeline) (events : List Event) : Prop where
  /-- It holds, under each id, the connection that was registered last, unless that was removed. -/
  latest : ∀ id r, (id, r) ∈ (p.applyAll events).sender.registry.entries ↔ p.Latest id r events
  sound : (p.applyAll events).sender.registry.Sound (p.applyAll events).wire
  /-- Forgetting the connections that are not open closes nothing. -/
  forgets : ((p.applyAll events).apply .removeClosed).wire = (p.applyAll events).wire
  closes : ∀ f, closesBy f p events ≤ events.countP (·.registers f)

/-- In every run the registry of a sender is a map from each id to the connection that was
registered last under it and not removed since, whichever sends lose connections meanwhile; it
answers for every removal, and closes no connection more often than that was registered. -/
theorem registry_refines (withAcknowledge : Bool) (events : List Event)
    (course : Along apply Provides (beginning withAcknowledge) events) :
    (beginning withAcknowledge).Refines events where
  latest := mem_entries_applyAll withAcknowledge course
  sound := by
    have hnamed := named_applyAll withAcknowledge course
    exact Registry.sound_of_exist fun c hc => (hnamed.entries c hc).1
  forgets := rfl
  closes := closesBy_le withAcknowledge course

/-- One connection replaces another with its id, and is lost by a send that waits for its
acknowledgment; closing it fails. A third connection is no longer open when it is forgotten. Then
the second is registered again, and all are closed. -/
def exchanged : List Event :=
  [.connect { id := "a", isOpen := true },
    .connect { id := "a", isOpen := true, closeError := some .notOpen },
    .connect { id := "b", isOpen := true }, .register 0, .register 1, .register 2, .send [1],
    .move 0 0, .move 0 0, .move 0 0, .move 0 0, .move 0 0,
    .occur 1 (.arrive [.failure .closedByPeer]), .move 0 0, .occur 2 (.setOpen false),
    .removeClosed, .register 1, .unregister "c", .closeAll, .register 0]

/-- The connection that was replaced is never closed, the one that replaced it as often as it was
registered, and the one that was forgotten not at all. -/
theorem registry_exchanged : (beginning true).Refines exchanged ∧
    (List.range 3).map (closesBy · (beginning true) exchanged) = [0, 2, 0] ∧
    ((beginning true).applyAll exchanged).sender.registry.entries = [("a", 0)] := by
  refine ⟨registry_refines true exchanged ?_, rfl, rfl⟩
  refine ⟨nofun, nofun, nofun, ?_, ?_, ?_, nofun, nofun, nofun, nofun, nofun, nofun, nofun, nofun,
    nofun, nofun, ?_, nofun, nofun, ?_, trivial⟩
  all_goals
    rintro r ⟨⟩
    decide

end BlockFeed.Pipeline
