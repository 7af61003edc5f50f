import BlockFeed.Proofs.Pipeline.Blocked
import BlockFeed.Proofs.Server.Sound
import Mathlib.Algebra.Order.BigOperators.Group.List
import Mathlib.Algebra.Order.Group.Nat

/-!
# Work of a service

How much a service has still to do: a number that every step of an activity makes smaller, so
activities run until all of them have to wait, whoever goes first.

## Main definitions

* `ServerSend.work`, `Accept.work`, `Service.work`: the work that is left.
* `Service.moves`: moves that can be taken one after the other.
* `Service.Blocked`: no activity can take a step.

## Main results

* `Service.length_le_work`: only so many moves can be taken.
* `Service.blocked_iff`: whether no activity can take a step is decided by trying each.

## Design notes

A connection that was just accepted may come to be registered, and then a send that has not had its
turn writes to it as well. So the work that is left to such a send counts that connection already.
-/

namespace BlockFeed

/-- The work that is left to a send of a server, if so many connections are registered. -/
def ServerSend.work (size : Nat) (x : ServerSend) : Nat :=
  match x.phase with
  | .called => 6 + 7 * size
  | .sending y => 1 + y.work size
  | .done _ => 0

/-- The work that is left to the care for a connection, besides what has not arrived yet. -/
def Accept.work (now : Nat) (a : Accept) : Nat :=
  match a.phase with
  | .called => 9
  | .joined => 1
  | .tracked _ => 7
  | .listening _ l => 2 + l.work now
  | .stopped => 1
  | .done => 0

/-- Whether a connection may still come to be registered, as a number. -/
def Accept.newcomer (a : Accept) : Nat :=
  match a.phase with
  | .called => 1
  | _ => 0

namespace ServiceActivity

/-- The number of things that an activity may do next. -/
def width : ServiceActivity → Nat
  | send x => x.width
  | accept _ => 1

def work (size now : Nat) : ServiceActivity → Nat
  | send x => x.work size
  | accept a => a.work now

def newcomer : ServiceActivity → Nat
  | send _ => 0
  | accept a => a.newcomer

theorem work_mono {size' size : Nat} (h : size' ≤ size) (now : Nat) (a : ServiceActivity) :
    a.work size' now ≤ a.work size now := by
  cases a with
  | send x =>
    simp only [work, ServerSend.work]
    split
    · omega
    · next y _ => exact Nat.add_le_add_left (y.work_mono h) 1
    · exact Nat.le_refl _
  | accept => exact Nat.le_refl _

end ServiceActivity

theorem ServerSend.Move.work {me pick size : Nat} {s s' : Server} {w w' : Wire}
    {x x' : ServerSend} (h : Move me pick s w x s' w' x')
    (hsize : s.sender.registry.size ≤ size) :
    x'.work size + w'.load < x.work size + w.load := by
  cases h with
  | refuse hp =>
    simp only [ServerSend.work, hp]
    omega
  | call hp =>
    simp only [ServerSend.work, Send.work, hp]
    omega
  | send hp hmove | finish hp hmove =>
    have hless := hmove.work hsize
    simp only [ServerSend.work, hp]
    omega

/-- A step of the care for a connection leaves less work, and registers a connection only if it is
one less that may come to be registered. -/
theorem Accept.Move.work {now : Nat} {s s' : Server} {w w' : Wire} {a a' : Accept}
    (h : Move now s w a s' w' a') (hretry : ∀ r ∈ s.receivers, 0 < r.retry) :
    a'.work now + w'.load < a.work now + w.load ∧
      s'.sender.registry.size + a'.newcomer ≤ s.sender.registry.size + a.newcomer := by
  cases h with
  | dismiss hp =>
    have hload := w.load_close a.conn
    simp only [Accept.work, newcomer, hp]
    omega
  | enlist hp =>
    have hadd := s.sender.registry.size_add_le w a.conn
    simp only [Accept.work, newcomer, hp]
    exact ⟨by omega, hadd⟩
  | track hp =>
    simp only [Accept.work, newcomer, hp, Accept.track]
    omega
  | keep hp =>
    simp only [Accept.work, newcomer, hp]
    omega
  | withdraw hp =>
    have hload : (s.sender.closeAndRemove w (w.conn a.conn).id).2.2.load ≤ w.load :=
      Registry.load_closeAndRemove _ _ _
    have hsize : (s.sender.closeAndRemove w (w.conn a.conn).id).2.1.registry.size ≤
        s.sender.registry.size := (Registry.entries_closeAndRemove _).length_le
    simp only [Accept.work, newcomer, hp]
    omega
  | listen hp =>
    simp only [Accept.work, Listen.work, newcomer, hp]
    omega
  | read hp hr hmove | stop hp hr hmove =>
    have hless := hmove.work_of_pos (hretry _ (List.mem_of_getElem? hr))
    simp only [Accept.work, newcomer, hp]
    omega
  | close hp =>
    have hload := w.load_close a.conn
    simp only [Accept.work, newcomer, hp]
    split <;> omega

/-- A send of a server that can do none of the things that it may do can take no step. -/
theorem ServerSend.step_eq_none_of_width {x : ServerSend} {me : Nat} {s : Server} {w : Wire}
    (h : ∀ pick < x.width, x.step me pick s w = none) (pick : Nat) :
    x.step me pick s w = none := by
  cases hp : x.phase with
  | sending y =>
    have hstep (pick : Nat) :
        x.step me pick s w = none ↔ y.step me pick s.sender w = none := by
      rw [step, hp]
      dsimp only
      split
      · next hnone => simp [hnone]
      · next hsome => split <;> simp [hsome]
    rw [width, hp] at h
    rw [hstep]
    exact Send.step_eq_none_of_width (fun pick hpick => (hstep pick).mp (h pick hpick)) pick
  | called =>
    rw [width, hp] at h
    have hzero := h 0 Nat.one_pos
    rw [step, hp] at hzero ⊢
    exact hzero
  | done => rw [step, hp]

namespace Service

/-- As many connections as may come to be registered, with those that are. -/
def size (p : Service) : Nat :=
  p.server.sender.registry.size + (p.activities.map ServiceActivity.newcomer).sum

/-- The work that is left, at the connections and to the activities. -/
def work (p : Service) : Nat :=
  p.wire.load + (p.activities.map (ServiceActivity.work p.size p.now)).sum

/-- Moves taken one after the other, if all can be taken. -/
def moves (p : Service) (ms : List (Nat × Nat)) : Option Service :=
  path (fun p m => p.move m.1 m.2) p ms

/-- No activity can take a step. -/
def Blocked (p : Service) : Prop := ∀ place pick, p.move place pick = none

theorem move_send_eq_none_iff {p : Service} {place pick : Nat} {x : ServerSend}
    (hx : p.activities[place]? = some (.send x)) :
    p.move place pick = none ↔ x.step place pick p.server p.wire = none := by
  rw [move, hx]
  exact Option.map_eq_none_iff

/-- It is enough to look at everything that an activity may do next. -/
theorem blocked_iff (p : Service) : p.Blocked ↔ ∀ place < p.activities.length,
    ∀ pick < (p.activities[place]?).elim 0 (·.width), (p.move place pick).isNone = true := by
  simp only [Option.isNone_iff_eq_none]
  refine ⟨fun h place _ pick _ => h place pick, fun h place pick => ?_⟩
  cases ha : p.activities[place]? with
  | none => rw [move, ha]
  | some a =>
    have hall := h place (List.getElem?_eq_some_iff.mp ha).1
    rw [ha] at hall
    cases a with
    | send x =>
      rw [move_send_eq_none_iff ha]
      exact ServerSend.step_eq_none_of_width (fun pick hpick =>
        (move_send_eq_none_iff ha).mp (hall pick hpick)) pick
    | accept a =>
      have hzero := hall 0 Nat.one_pos
      rw [move, ha] at hzero ⊢
      rw [Option.map_eq_none_iff] at hzero ⊢
      exact (Accept.step_eq_none_iff 0).mpr hzero

instance (p : Service) : Decidable p.Blocked := decidable_of_iff' _ p.blocked_iff

theorem work_lt_of_move {p p' : Service} {place pick : Nat} (sound : p.Sound)
    (h : p.move place pick = some p') : p'.work < p.work := by
  have hmoved := moved_of_move h
  have hmono {size' size : Nat} (hsize : size' ≤ size) (activities : List ServiceActivity) :
      (activities.map (ServiceActivity.work size' p.now)).sum ≤
        (activities.map (ServiceActivity.work size p.now)).sum :=
    List.sum_le_sum fun a _ => a.work_mono hsize p.now
  cases hmoved with
  | @send x x' server wire hx hmove =>
    have hentries : server.sender.registry.size ≤ p.server.sender.registry.size :=
      hmove.entries.length_le
    have hnewcomers := sum_map_set ServiceActivity.newcomer (b := .send x') hx
    have hless : x'.work p.size + wire.load < x.work p.size + p.wire.load :=
      hmove.work (Nat.le_add_right _ _)
    have hsum := sum_map_set (ServiceActivity.work p.size p.now) (b := .send x') hx
    have hsize : server.sender.registry.size +
        ((p.activities.set place (.send x')).map ServiceActivity.newcomer).sum ≤ p.size := by
      simp only [ServiceActivity.newcomer] at hnewcomers
      simp only [size]
      omega
    have hmono := hmono hsize (p.activities.set place (.send x'))
    simp only [work, ServiceActivity.work] at hsum ⊢
    simp only [size] at hmono hsum hless ⊢
    omega
  | @accept a a' server wire ha hmove =>
    obtain ⟨hless, hregistry⟩ := hmove.work sound.fits.retry.2
    have hnewcomers := sum_map_set ServiceActivity.newcomer (b := .accept a') ha
    have hsum := sum_map_set (ServiceActivity.work p.size p.now) (b := .accept a') ha
    have hsize : server.sender.registry.size +
        ((p.activities.set place (.accept a')).map ServiceActivity.newcomer).sum ≤ p.size := by
      simp only [ServiceActivity.newcomer] at hnewcomers
      simp only [size]
      omega
    have hmono := hmono hsize (p.activities.set place (.accept a'))
    simp only [work, ServiceActivity.work] at hsum ⊢
    simp only [size] at hmono hsum ⊢
    omega
  | stay hnone => cases h.symm.trans hnone

/-- Every move takes some of the work that is left. -/
theorem length_le_work {p p' : Service} {ms : List (Nat × Nat)} (sound : p.Sound)
    (h : p.moves ms = some p') : p'.work + ms.length ≤ p.work := by
  refine (path_lowers (fun q m q' hsound hmove => ⟨?_, work_lt_of_move hsound hmove⟩) h sound).2
  have hsound' := hsound.apply (e := .move m.1 m.2) trivial
  rwa [apply, hmove, Option.getD_some] at hsound'

end Service

end BlockFeed
