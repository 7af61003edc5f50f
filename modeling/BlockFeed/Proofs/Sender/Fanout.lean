import BlockFeed.Proofs.Codec.Messages
import BlockFeed.Proofs.Link.Histories
import BlockFeed.Proofs.Sender.Losses
import Mathlib.Data.List.Nodup
import Mathlib.Data.List.Perm.Basic

/-!
# Fan-outs

What one frame comes to that is written to several connections: who took it, who failed, and what
the send makes of that.

## Main definitions

* `Fanout`: the connections that a frame is for, the writes that were called for, and how the waits
  for acknowledgments have ended.
* `Fanout.Took`, `Fanout.Fails`, `Fanout.Delivers`, `Fanout.GivenUp`: what has become of one
  connection.
* `Fanout.result`: what a fan-out comes to.

## Main results

* `Fanout.Complete.result_eq`: a fan-out succeeds if some connection has delivered.
* `Fanout.Complete.ids_perm`: the failures of one that does not name each connection once.
* `Fanout.Complete.isConnectionClosed_iff`: when they tell that every connection is gone.
-/

namespace BlockFeed

/-- What has been done about one frame. -/
structure Fanout where
  /-- The connections that the frame is for, by their ids. -/
  snapshot : List (String × Ref)
  /-- Those that it was written to, each with its write. -/
  tried : List ((String × Ref) × WriteCall) := []
  /-- How the waits for acknowledgments have ended, from the first that did. -/
  ends : List (Ref × AckOutcome) := []

namespace Fanout

/-- The writes that were called for. -/
def calls (f : Fanout) : List (Ref × WriteCall) := f.tried.map fun k => (k.1.2, k.2)

/-- The connections that took the frame. -/
def takers (f : Fanout) : List (String × Ref) :=
  (f.tried.filter fun k => k.2.error.isNone).map Prod.fst

/-- The failures to write. -/
def refusals (f : Fanout) : List Failure :=
  f.tried.filterMap fun k => k.2.error.map fun e => ⟨k.1.1, e⟩

/-- How far the wait for the acknowledgment of a connection has got. -/
def wait (f : Fanout) (c : String × Ref) : AckWait := ⟨c.1, c.2, f.ends.lookup c.2⟩

/-- What a fan-out comes to when it is over. -/
def result (withAcknowledge : Bool) (f : Fanout) : Except SendError Unit :=
  if withAcknowledge then Send.verdict (f.takers.map f.wait) f.refusals
  else if f.takers.isEmpty then .error (.allWritesFailed f.refusals)
  else .ok ()

/-- The connection took the frame. -/
def Took (f : Fanout) (c : String × Ref) : Prop := ∃ call, (c, call) ∈ f.tried ∧ call.error = none

/-- The connection failed: to take the frame, or, when it had taken it, to acknowledge it. -/
def Fails (f : Fanout) (c : String × Ref) (e : ConnectionError) : Prop :=
  (∃ call, (c, call) ∈ f.tried ∧ call.error = some e) ∨ f.Took c ∧ (c.2, .failed e) ∈ f.ends

/-- The connection took the frame, and acknowledged it if that was asked for, or is no longer
waited for. -/
def Delivers (withAcknowledge : Bool) (f : Fanout) (c : String × Ref) : Prop :=
  f.Took c ∧ (withAcknowledge = true → (c.2, .acknowledged) ∈ f.ends ∨ (c.2, .cancelled) ∈ f.ends)

/-- The connection took the frame, and its acknowledgment could not be read. -/
def GivenUp (f : Fanout) (c : String × Ref) : Prop :=
  f.Took c ∧ ∃ e, (c.2, .failed e) ∈ f.ends

/-- The connections are different from each other, the frame was written to them one after the
other, and each wait has ended once. -/
structure Sound (frame : Bytes) (f : Fanout) : Prop where
  ids : (f.snapshot.map Prod.fst).Nodup
  refs : (f.snapshot.map Prod.snd).Nodup
  tried : f.tried.map Prod.fst <+: f.snapshot
  bytes : ∀ k ∈ f.tried, k.2.bytes = frame
  once : (f.ends.map Prod.fst).Nodup
  among : ∀ k ∈ f.ends, ∃ c ∈ f.takers, c.2 = k.1

/-- The frame was written to all connections, and if acknowledgments were asked for, each
connection that took it has been resolved. -/
structure Complete (withAcknowledge : Bool) (frame : Bytes) (f : Fanout) : Prop
    extends f.Sound frame where
  all : f.tried.map Prod.fst = f.snapshot
  unasked : withAcknowledge = false → f.ends = []
  resolved : withAcknowledge = true → ∀ c ∈ f.takers, ∃ outcome, (c.2, outcome) ∈ f.ends

variable {frame : Bytes} {f : Fanout} {ack : Bool}

/-- Before anything is written there is nothing to say but that the connections are different. -/
theorem sound_start (frame : Bytes) {snapshot : List (String × Ref)}
    (ids : (snapshot.map Prod.fst).Nodup) (refs : (snapshot.map Prod.snd).Nodup) :
    Sound frame { snapshot } :=
  ⟨ids, refs, List.nil_prefix, nofun, List.nodup_nil, nofun⟩

theorem mem_takers {c : String × Ref} : c ∈ f.takers ↔ f.Took c := by
  constructor
  · intro hc
    obtain ⟨⟨c', call⟩, hk, rfl⟩ := List.mem_map.mp hc
    obtain ⟨hk, hnone⟩ := List.mem_filter.mp hk
    exact ⟨call, hk, by simpa using hnone⟩
  · rintro ⟨call, hk, hnone⟩
    exact List.mem_map.mpr ⟨(c, call), List.mem_filter.mpr ⟨hk, by simp [hnone]⟩, rfl⟩

theorem takers_sublist (h : f.Sound frame) : f.takers.Sublist f.snapshot :=
  (List.filter_sublist.map Prod.fst).trans h.tried.sublist

/-- Only a connection that took the frame is waited for. -/
theorem Sound.took_of_mem_ends (h : f.Sound frame) {c : String × Ref} {outcome : AckOutcome}
    (hc : c ∈ f.snapshot) (hended : (c.2, outcome) ∈ f.ends) : f.Took c := by
  obtain ⟨d, hd, hsame⟩ := h.among _ hended
  have hmem := (takers_sublist h).subset hd
  obtain rfl : d = c := List.inj_on_of_nodup_map h.refs hmem hc hsame
  exact mem_takers.mp hd

/-- Every wait has ended as the list says, and no other. -/
theorem Sound.lookup_eq_some (h : f.Sound frame) {r : Ref} {outcome : AckOutcome} :
    f.ends.lookup r = some outcome ↔ (r, outcome) ∈ f.ends := by
  have hnodup := h.once
  generalize f.ends = ends at hnodup ⊢
  induction ends with
  | nil => simp
  | cons k rest ih =>
    obtain ⟨r', o⟩ := k
    obtain ⟨hnot, hrest⟩ := List.nodup_cons.mp hnodup
    have hrest : rest.lookup r = some outcome ↔ (r, outcome) ∈ rest := ih hrest
    rw [List.lookup_cons, List.mem_cons, ← hrest]
    by_cases hr : r = r'
    · subst hr
      have hnone : rest.lookup r = none := by
        refine List.lookup_eq_none_iff.mpr fun k hk => ?_
        exact bne_iff_ne.mpr fun heq => hnot (List.mem_map.mpr ⟨k, hk, heq.symm⟩)
      simp [hnone, eq_comm]
    · have hne : (r == r') = false := beq_false_of_ne hr
      simp [hne, hr]

theorem delivered_wait (h : f.Sound frame) {c : String × Ref} :
    (f.wait c).delivered = true ↔
      (c.2, .acknowledged) ∈ f.ends ∨ (c.2, .cancelled) ∈ f.ends := by
  rw [← h.lookup_eq_some, ← h.lookup_eq_some, AckWait.delivered, wait]
  split <;> simp_all

theorem failure?_wait (h : f.Sound frame) {c : String × Ref} {failure : Failure} :
    (f.wait c).failure? = some failure ↔
      failure.id = c.1 ∧ (c.2, .failed failure.error) ∈ f.ends := by
  rw [← h.lookup_eq_some, AckWait.failure?, wait]
  obtain ⟨id, e⟩ := failure
  split <;> simp_all [eq_comm]

theorem mem_refusals {failure : Failure} : failure ∈ f.refusals ↔
    ∃ c call, (c, call) ∈ f.tried ∧ failure.id = c.1 ∧ call.error = some failure.error := by
  obtain ⟨id, e⟩ := failure
  rw [refusals, List.mem_filterMap]
  constructor
  · rintro ⟨⟨c, call⟩, hk, hfailure⟩
    obtain ⟨e', herror, heq⟩ := Option.map_eq_some_iff.mp hfailure
    obtain ⟨rfl, rfl⟩ := Failure.mk.inj heq
    exact ⟨c, call, hk, rfl, herror⟩
  · rintro ⟨c, call, hk, rfl, herror⟩
    exact ⟨(c, call), hk, by rw [herror]; rfl⟩

/-- The failures to acknowledge. -/
def losses (f : Fanout) : List Failure := (f.takers.map f.wait).filterMap (·.failure?)

theorem Sound.mem_losses (h : f.Sound frame) {failure : Failure} : failure ∈ f.losses ↔
    ∃ c, failure.id = c.1 ∧ f.Took c ∧ (c.2, .failed failure.error) ∈ f.ends := by
  rw [losses, List.mem_filterMap]
  constructor
  · rintro ⟨a, ha, hfailure⟩
    obtain ⟨c, hc, rfl⟩ := List.mem_map.mp ha
    obtain ⟨hid, hfailed⟩ := (failure?_wait h).mp hfailure
    exact ⟨c, hid, mem_takers.mp hc, hfailed⟩
  · rintro ⟨c, hid, htook, hfailed⟩
    exact ⟨_, List.mem_map_of_mem (mem_takers.mpr htook), (failure?_wait h).mpr ⟨hid, hfailed⟩⟩

/-- The failures are those of the connections. -/
theorem Sound.mem_failures (h : f.Sound frame) {failure : Failure} :
    failure ∈ f.refusals ++ f.losses ↔ ∃ c, failure.id = c.1 ∧ f.Fails c failure.error := by
  rw [List.mem_append, mem_refusals, h.mem_losses]
  constructor
  · rintro (⟨c, call, hk, hid, herror⟩ | ⟨c, hid, htook, hfailed⟩)
    · exact ⟨c, hid, .inl ⟨call, hk, herror⟩⟩
    · exact ⟨c, hid, .inr ⟨htook, hfailed⟩⟩
  · rintro ⟨c, hid, ⟨call, hk, herror⟩ | ⟨htook, hfailed⟩⟩
    · exact .inl ⟨c, call, hk, hid, herror⟩
    · exact .inr ⟨c, hid, htook, hfailed⟩

theorem Sound.mem_of_fails (h : f.Sound frame) {c : String × Ref} {e : ConnectionError}
    (hfails : f.Fails c e) : c ∈ f.snapshot := by
  have hmem {call : WriteCall} (hk : (c, call) ∈ f.tried) : c ∈ f.snapshot :=
    h.tried.subset (List.mem_map_of_mem (f := Prod.fst) hk)
  obtain ⟨call, hk, -⟩ | ⟨⟨call, hk, -⟩, -⟩ := hfails
  · exact hmem hk
  · exact hmem hk

/-- A connection fails for one reason only. -/
theorem Sound.fails_unique (h : f.Sound frame) {c : String × Ref} {e e' : ConnectionError}
    (hfails : f.Fails c e) (hfails' : f.Fails c e') : e = e' := by
  have hnodup : (f.tried.map Prod.fst).Nodup := (List.Nodup.of_map _ h.ids).sublist h.tried.sublist
  have hcall {call call' : WriteCall} (hk : (c, call) ∈ f.tried) (hk' : (c, call') ∈ f.tried) :
      call = call' := by
    have hsame : (c, call) = (c, call') := List.inj_on_of_nodup_map hnodup hk hk' rfl
    exact (Prod.mk.inj hsame).2
  obtain ⟨call, hk, herror⟩ | ⟨⟨call, hk, hnone⟩, hfailed⟩ := hfails
  · obtain ⟨call', hk', herror'⟩ | ⟨⟨call', hk', hnone'⟩, -⟩ := hfails'
    · exact Option.some.inj (herror.symm.trans (hcall hk hk' ▸ herror'))
    · cases herror.symm.trans (hcall hk hk' ▸ hnone')
  · obtain ⟨call', hk', herror'⟩ | ⟨-, hfailed'⟩ := hfails'
    · cases herror'.symm.trans (hcall hk hk' ▸ hnone)
    · have hlookup := (h.lookup_eq_some.mpr hfailed).symm.trans (h.lookup_eq_some.mpr hfailed')
      exact AckOutcome.failed.inj (Option.some.inj hlookup)

/-- A fan-out succeeds if some connection has delivered, and otherwise it tells all failures. -/
theorem Complete.result_eq (h : f.Complete ack frame) :
    f.result ack = .ok () ∧ (∃ c, f.Delivers ack c) ∨
      f.result ack = .error (.allWritesFailed (f.refusals ++ f.losses)) ∧
        ¬∃ c, f.Delivers ack c := by
  cases ack with
  | true =>
    have hany : (f.takers.map f.wait).any (·.delivered) = true ↔ ∃ c, f.Delivers true c := by
      rw [List.any_map, List.any_eq_true]
      refine exists_congr fun c => ?_
      rw [Function.comp_apply, delivered_wait h.toSound, mem_takers, Delivers]
      simp
    rw [result, if_pos rfl, Send.verdict]
    by_cases hdelivered : ∃ c, f.Delivers true c
    · exact .inl ⟨if_pos (hany.mpr hdelivered), hdelivered⟩
    · exact .inr ⟨if_neg fun htrue => hdelivered (hany.mp htrue), hdelivered⟩
  | false =>
    have hsome : (∃ c, f.Delivers false c) ↔ f.takers ≠ [] := by
      constructor
      · rintro ⟨c, htook, -⟩
        exact List.ne_nil_of_mem (mem_takers.mpr htook)
      · intro hne
        obtain ⟨c, hc⟩ := List.exists_mem_of_ne_nil _ hne
        exact ⟨c, mem_takers.mp hc, by simp⟩
    rw [hsome, result, if_neg Bool.false_ne_true]
    cases htakers : f.takers with
    | nil =>
      have hlosses : f.losses = [] := by rw [losses, htakers]; rfl
      exact .inr ⟨by rw [hlosses, List.append_nil]; rfl, by simp⟩
    | cons c rest => exact .inl ⟨rfl, List.cons_ne_nil c rest⟩

theorem map_id_refusals (f : Fanout) : f.refusals.map (·.id)
    = (f.tried.filter fun k => !k.2.error.isNone).map (·.1.1) := by
  rw [refusals, List.map_filterMap, ← List.filterMap_eq_map, List.filterMap_filter]
  congr 1
  funext ⟨c, call⟩
  cases call.error <;> simp

/-- If no connection has delivered, each that took the frame has failed to acknowledge it. -/
theorem Complete.map_id_losses (h : f.Complete ack frame) (lost : ¬∃ c, f.Delivers ack c) :
    f.losses.map (·.id) = f.takers.map Prod.fst := by
  have hfailed : ∀ c ∈ f.takers, ∃ e, (f.wait c).failure? = some ⟨c.1, e⟩ := by
    intro c hc
    have htook := mem_takers.mp hc
    cases ack with
    | false => exact absurd ⟨c, htook, nofun⟩ lost
    | true =>
      obtain ⟨outcome, hout⟩ := h.resolved rfl c hc
      cases outcome with
      | acknowledged => exact absurd ⟨c, htook, fun _ => .inl hout⟩ lost
      | cancelled => exact absurd ⟨c, htook, fun _ => .inr hout⟩ lost
      | failed e => exact ⟨e, (failure?_wait h.toSound).mpr ⟨rfl, hout⟩⟩
  rw [losses]
  generalize f.takers = takers at hfailed
  induction takers with
  | nil => rfl
  | cons c rest ih =>
    obtain ⟨⟨e, he⟩, hrest⟩ := List.forall_mem_cons.mp hfailed
    rw [List.map_cons, List.filterMap_cons_some he, List.map_cons, ih hrest, List.map_cons]

/-- The failures of a fan-out that is lost name each connection exactly once. -/
theorem Complete.ids_perm (h : f.Complete ack frame) (lost : ¬∃ c, f.Delivers ack c) :
    ((f.refusals ++ f.losses).map (·.id)).Perm (f.snapshot.map Prod.fst) := by
  have hsplit : (f.tried.filter (fun k => !k.2.error.isNone)
      ++ f.tried.filter fun k => k.2.error.isNone).Perm f.tried :=
    List.perm_append_comm.trans (List.filter_append_perm _ _)
  rw [List.map_append, map_id_refusals, h.map_id_losses lost, takers, List.map_map, ← h.all,
    List.map_map]
  have hmap := hsplit.map fun k => k.1.1
  rw [List.map_append] at hmap
  exact hmap

theorem Complete.isConnectionClosed_iff (h : f.Complete ack frame)
    (lost : ¬∃ c, f.Delivers ack c) :
    (SendError.allWritesFailed (f.refusals ++ f.losses)).isConnectionClosed = true ↔
      ∀ c ∈ f.snapshot, ∃ e, f.Fails c e ∧ e.isClosed = true := by
  rw [SendError.isConnectionClosed, List.all_eq_true]
  constructor
  · intro hall c hc
    have hid : c.1 ∈ (f.refusals ++ f.losses).map (·.id) :=
      (h.ids_perm lost).mem_iff.mpr (List.mem_map_of_mem hc)
    obtain ⟨failure, hfailure, hsame⟩ := List.mem_map.mp hid
    obtain ⟨d, hd, hfails⟩ := h.mem_failures.mp hfailure
    obtain rfl : d = c :=
      List.inj_on_of_nodup_map h.ids (h.mem_of_fails hfails) hc (hd.symm.trans hsame)
    exact ⟨_, hfails, hall failure hfailure⟩
  · intro hall failure hfailure
    obtain ⟨c, -, hfails⟩ := h.mem_failures.mp hfailure
    obtain ⟨e, hfails', hclosed⟩ := hall c (h.mem_of_fails hfails)
    rwa [h.fails_unique hfails hfails']

/-- The failures are as many as the connections, so there is one if there is a connection. -/
theorem Complete.failures_ne_nil (h : f.Complete ack frame) (lost : ¬∃ c, f.Delivers ack c)
    (inhabited : f.snapshot ≠ []) : f.refusals ++ f.losses ≠ [] := by
  intro hnil
  have hperm := h.ids_perm lost
  rw [hnil, List.map_nil, List.nil_perm, List.map_eq_nil_iff] at hperm
  exact inhabited hperm

/-- The fan-out after one more write. -/
def wrote (f : Fanout) (c : String × Ref) (call : WriteCall) : Fanout :=
  { f with tried := f.tried ++ [(c, call)] }

/-- The fan-out after some more waits have ended. -/
def resolved (f : Fanout) (ends : List (Ref × AckOutcome)) : Fanout :=
  { f with ends := f.ends ++ ends }

variable {c : String × Ref} {call : WriteCall} {outcome : AckOutcome}

theorem takers_wrote (f : Fanout) (c : String × Ref) (call : WriteCall) :
    (f.wrote c call).takers = f.takers ++ if call.error.isNone then [c] else [] := by
  rw [takers, wrote, List.filter_append, List.map_append, takers]
  split <;> next herror => simp [herror]

theorem refusals_wrote (f : Fanout) (c : String × Ref) (call : WriteCall) :
    (f.wrote c call).refusals
      = f.refusals ++ (call.error.map fun e => (⟨c.1, e⟩ : Failure)).toList := by
  rw [refusals, wrote, List.filterMap_append, refusals]
  cases herror : call.error <;> simp [herror]

theorem calls_wrote (f : Fanout) (c : String × Ref) (call : WriteCall) :
    (f.wrote c call).calls = f.calls ++ [(c.2, call)] := by
  rw [calls, wrote, List.map_append, calls]
  rfl

theorem Sound.wrote (h : f.Sound frame) {rest : List (String × Ref)}
    (next : f.tried.map Prod.fst ++ c :: rest = f.snapshot) (bytes : call.bytes = frame) :
    (f.wrote c call).Sound frame where
  ids := h.ids
  refs := h.refs
  tried := by
    refine ⟨rest, ?_⟩
    simpa [Fanout.wrote] using next
  bytes := by
    intro k hk
    rcases List.mem_append.mp hk with hold | hnew
    · exact h.bytes k hold
    · rw [List.mem_singleton.mp hnew, bytes]
  once := h.once
  among := by
    intro k hk
    obtain ⟨d, hd, hsame⟩ := h.among k hk
    refine ⟨d, ?_, hsame⟩
    rw [takers_wrote]
    exact List.mem_append_left _ hd

theorem Sound.resolved (h : f.Sound frame) (taker : c ∈ f.takers)
    (unended : f.ends.lookup c.2 = none) : (f.resolved [(c.2, outcome)]).Sound frame where
  ids := h.ids
  refs := h.refs
  tried := h.tried
  bytes := h.bytes
  once := by
    rw [Fanout.resolved, List.map_append, List.nodup_append]
    refine ⟨h.once, List.nodup_singleton _, ?_⟩
    rintro r hr r' hr' rfl
    obtain rfl := List.mem_singleton.mp hr'
    obtain ⟨k, hk, hsame⟩ := List.mem_map.mp hr
    have hne := List.lookup_eq_none_iff.mp unended k hk
    simp [hsame] at hne
  among := by
    intro k hk
    rcases List.mem_append.mp hk with hold | hnew
    · exact h.among k hold
    · exact ⟨c, taker, by rw [List.mem_singleton.mp hnew]⟩

/-- When a wait ends, that one changes and no other. -/
theorem Sound.map_wait_resolved (h : f.Sound frame) {pick : Nat} (hc : f.takers[pick]? = some c)
    (unended : f.ends.lookup c.2 = none) :
    f.takers.map (f.resolved [(c.2, outcome)]).wait
      = (f.takers.map f.wait).set pick { f.wait c with outcome := some outcome } := by
  have hrefs : (f.takers.map Prod.snd).Nodup := h.refs.sublist ((takers_sublist h).map Prod.snd)
  have hlt := (List.getElem?_eq_some_iff.mp hc).1
  refine List.ext_getElem? fun i => ?_
  rw [List.getElem?_set, List.getElem?_map]
  split
  · next hi =>
    subst hi
    rw [if_pos (by simpa using hlt), hc, Option.map_some]
    simp [wait, Fanout.resolved, List.lookup_append, unended]
  · next hi =>
    rw [List.getElem?_map]
    cases hd : f.takers[i]? with
    | none => rfl
    | some d =>
      have hne : d.2 ≠ c.2 := by
        intro hsame
        have hi' : (f.takers.map Prod.snd)[i]? = (f.takers.map Prod.snd)[pick]? := by
          rw [List.getElem?_map, List.getElem?_map, hc, hd, Option.map_some, Option.map_some, hsame]
        have hlt' := (List.getElem?_eq_some_iff.mp hd).1
        exact hi ((List.getElem?_inj (by simpa using hlt') hrefs).mp hi').symm
      have hbeq : (d.2 == c.2) = false := beq_false_of_ne hne
      simp [wait, Fanout.resolved, List.lookup_append, List.lookup_cons, hbeq]

end Fanout

end BlockFeed
