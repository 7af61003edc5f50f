import BlockFeed.Proofs.Broadcast.Await
import BlockFeed.Proofs.Sender.Fanout

/-!
# Fates of connections

What becomes of each connection that a frame is for, and what that amounts to for the send.

## Main definitions

* `Fate`: what becomes of a connection that a frame is for.
* `Sender.fate`: the fate of a connection in the next send, read off the connection alone.
* `Fate.verdict`: what a send comes to, given the fates of its connections.

## Main results

* `Fanout.Complete.verdict_eq`: what a fan-out that is over comes to is told by fates.
-/

namespace BlockFeed

/-- What becomes of a connection that a frame is for. -/
inductive Fate where
  /-- It does not accept the frame. -/
  | refused (error : ConnectionError)
  /-- It accepts the frame, and acknowledges it if that is asked for, or is no longer waited for. -/
  | delivered
  /-- Its acknowledgment cannot be read. -/
  | lost (error : ConnectionError)
  /-- Its acknowledgment has not arrived. -/
  | pending
  deriving DecidableEq, Repr

namespace Fate

/-- What becomes of a connection that accepts the frame, by how the wait for its acknowledgment
ends. -/
def ofOutcome : Option AckOutcome → Fate
  | none => .pending
  | some (.failed e) => .lost e
  | some .acknowledged | some .cancelled => .delivered

def refusal? : Fate → Option ConnectionError
  | refused e => some e
  | _ => none

def loss? : Fate → Option ConnectionError
  | lost e => some e
  | _ => none

/-- What a send comes to, given the fates of its connections under their ids: it is not over while
the acknowledgment of one is pending. -/
def verdict (fates : List (String × Fate)) : Option (Except SendError Unit) :=
  if fates.any (·.2 = pending) then none
  else if fates.any (·.2 = delivered) then some (.ok ())
  else some (.error (.allWritesFailed
    (fates.filterMap (fun k => k.2.refusal?.map (Failure.mk k.1)) ++
      fates.filterMap fun k => k.2.loss?.map (Failure.mk k.1))))

end Fate

namespace Sender

/-- The frame of a payload in the next send. -/
def nextFrame (s : Sender) (payload : Bytes) : Bytes :=
  Frame.encode ⟨s.withAcknowledge, s.lastCounter + 1, payload⟩

/-- The fate of a connection in the next send of a payload, and what is left of the connection. -/
def fate (s : Sender) (w : Wire) (payload : Bytes) (r : Ref) : Fate × Connection :=
  match (w.conn r).write (s.nextFrame payload) with
  | (.error e, c) => (.refused e, c)
  | (.ok (), c) =>
    if s.withAcknowledge then
      (c.resolve s.cancel.closed (s.lastCounter + 1)).map Fate.ofOutcome id
    else (.delivered, c)

/-- The fates of all connections that are registered. -/
def fates (s : Sender) (w : Wire) (payload : Bytes) : List (String × Fate) :=
  s.registry.entries.map fun c => (c.1, (s.fate w payload c.2).1)

end Sender

namespace Fanout

variable {ack : Bool} {frame : Bytes} {f : Fanout} {k : (String × Ref) × WriteCall}

/-- The fate of a connection that the frame was written to, if its wait does not go on. -/
def fate (ack : Bool) (f : Fanout) (k : (String × Ref) × WriteCall) : Fate :=
  match k.2.error with
  | some e => .refused e
  | none => if ack then .ofOutcome (f.ends.lookup k.1.2) else .delivered

def fates (ack : Bool) (f : Fanout) : List (String × Fate) :=
  f.tried.map fun k => (k.1.1, f.fate ack k)

theorem refusal?_fate (ack : Bool) (f : Fanout) (k : (String × Ref) × WriteCall) :
    (f.fate ack k).refusal? = k.2.error := by
  rw [fate]
  cases k.2.error with
  | some e => rfl
  | none =>
    cases ack with
    | false => rfl
    | true =>
      rcases f.ends.lookup k.1.2 with _ | (_ | _ | _) <;> rfl

theorem loss?_fate (f : Fanout) (k : (String × Ref) × WriteCall) :
    (f.fate true k).loss?.map (Failure.mk k.1.1)
      = if k.2.error.isNone then (f.wait k.1).failure? else none := by
  rw [fate, AckWait.failure?, wait]
  cases k.2.error with
  | some e => rfl
  | none => rcases f.ends.lookup k.1.2 with _ | (_ | _ | _) <;> rfl

theorem fate_eq_delivered : f.fate true k = .delivered ↔
    k.2.error.isNone = true ∧ (f.wait k.1).delivered = true := by
  rw [fate, AckWait.delivered, wait]
  cases k.2.error with
  | some e => simp
  | none => rcases f.ends.lookup k.1.2 with _ | (_ | _ | _) <;> simp [Fate.ofOutcome]

theorem refusals_eq (ack : Bool) (f : Fanout) :
    (f.fates ack).filterMap (fun k => k.2.refusal?.map (Failure.mk k.1)) = f.refusals := by
  rw [fates, List.filterMap_map, refusals]
  congr 1
  funext k
  rw [Function.comp_apply, refusal?_fate]

theorem losses_eq (f : Fanout) :
    (f.fates true).filterMap (fun k => k.2.loss?.map (Failure.mk k.1)) = f.losses := by
  rw [fates, List.filterMap_map, losses, takers, List.map_map, List.filterMap_map,
    List.filterMap_filter]
  congr 1
  funext k
  exact f.loss?_fate k

theorem any_delivered (f : Fanout) : (f.fates true).any (·.2 = .delivered)
    = (f.takers.map f.wait).any (·.delivered) := by
  rw [fates, List.any_map, takers, List.map_map, List.any_map, List.any_filter]
  congr 1
  funext k
  rw [Bool.eq_iff_iff]
  simpa using fate_eq_delivered

theorem any_delivered_unasked (f : Fanout) :
    (f.fates false).any (·.2 = .delivered) = !f.takers.isEmpty := by
  have hfate (k : (String × Ref) × WriteCall) :
      f.fate false k = .delivered ↔ k.2.error.isNone = true := by
    rw [fate]
    cases k.2.error <;> simp
  rw [fates, List.any_map, takers, Bool.eq_iff_iff]
  simp [hfate]

theorem losses_unasked (f : Fanout) :
    (f.fates false).filterMap (fun k => k.2.loss?.map (Failure.mk k.1)) = [] := by
  rw [fates, List.filterMap_map, List.filterMap_eq_nil_iff]
  intro k hk
  rw [Function.comp_apply, fate]
  cases k.2.error <;> rfl

/-- What a fan-out that is over comes to is told by the fates of its connections. -/
theorem Complete.verdict_eq (h : f.Complete ack frame) :
    Fate.verdict (f.fates ack) = some (f.result ack) := by
  have hsettled : (f.fates ack).any (·.2 = .pending) = false := by
    rw [List.any_eq_false]
    intro p hp
    obtain ⟨k, hk, rfl⟩ := List.mem_map.mp hp
    rw [decide_eq_true_eq, fate]
    cases herror : k.2.error with
    | some e => exact nofun
    | none =>
      cases ack with
      | false => exact nofun
      | true =>
        obtain ⟨outcome, hended⟩ := h.resolved rfl k.1 (mem_takers.mpr ⟨k.2, hk, herror⟩)
        rw [h.lookup_eq_some.mpr hended]
        cases outcome <;> exact nofun
  rw [Fate.verdict, hsettled, if_neg Bool.false_ne_true]
  cases ack with
  | true =>
    rw [any_delivered, refusals_eq, losses_eq, result, if_pos rfl, Send.verdict, losses]
    split <;> rfl
  | false =>
    rw [any_delivered_unasked, refusals_eq, losses_unasked, List.append_nil, result,
      if_neg Bool.false_ne_true]
    cases f.takers.isEmpty <;> rfl

/-- A connection is lost if the wait for its acknowledgment has failed. -/
theorem fate_eq_lost (sound : f.Sound frame) (hk : k ∈ f.tried)
    (unasked : ack = false → f.ends = []) {e : ConnectionError} :
    f.ends.lookup k.1.2 = some (.failed e) ↔ f.fate ack k = .lost e := by
  rw [fate]
  cases herror : k.2.error with
  | some error =>
    refine iff_of_false (fun hended => ?_) nofun
    -- only a connection that took the frame is waited for
    obtain ⟨call, hcall, hnone⟩ := sound.took_of_mem_ends
      (sound.tried.subset (List.mem_map_of_mem hk)) (sound.lookup_eq_some.mp hended)
    have hnodup := (List.Nodup.of_map _ sound.ids).sublist sound.tried.sublist
    have hsame : (k.1, call) = k := List.inj_on_of_nodup_map hnodup hcall hk rfl
    rw [← hsame] at herror
    cases hnone.symm.trans herror
  | none =>
    cases ack with
    | false => simp [unasked rfl]
    | true => rcases f.ends.lookup k.1.2 with _ | (_ | _ | _) <;> simp [Fate.ofOutcome]

/-- As long as an acknowledgment is pending, the fan-out is not over. -/
theorem verdict_of_pending {c : String × Ref} (hc : c ∈ f.takers)
    (pending : f.ends.lookup c.2 = none) : Fate.verdict (f.fates true) = none := by
  obtain ⟨call, hcall, hnone⟩ := mem_takers.mp hc
  refine if_pos (List.any_eq_true.mpr ⟨_, List.mem_map_of_mem hcall, ?_⟩)
  rw [decide_eq_true_eq, fate, hnone, pending]
  rfl

end Fanout

end BlockFeed
