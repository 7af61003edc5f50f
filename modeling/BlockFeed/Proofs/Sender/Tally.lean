import BlockFeed.Proofs.Sender.Fanout
import BlockFeed.Proofs.Sender.Writes

/-!
# Tallies of sends

Which fan-out a send that has had its turn is at, and how far it has got with it.

## Main definitions

* `AckWait.resolves?`, `Send.resolves`: the wait that the next step ends, with how it does.
* `Send.Tally`: the phase of a send fits what has been done about its frame.

## Main results

* `Send.Move.tally`: every step of a send carries its fan-out on by the write that it calls for, or
  by the wait that it ends.
-/

namespace BlockFeed

/-- How the next step of the wait for the acknowledgment of a counter ends it, if it does: a closed
sender, that acknowledgment and an error do. -/
def AckWait.resolves? (counter : UInt64) (s : Sender) (w : Wire) (a : AckWait) :
    Option AckOutcome :=
  if a.outcome.isSome then none
  else if s.cancel.closed then some .cancelled
  else
    match w.read? a.conn with
    | some (.ok bytes, _) => if Ack.decode bytes = .ok counter then some .acknowledged else none
    | some (.error e, _) => some (.failed e)
    | none => none

namespace AckWait

variable {counter : UInt64} {s s' : Sender} {w w' : Wire} {a a' : AckWait}

/-- A step of a wait ends it as was to be seen, or leaves it as it is. -/
theorem Move.resolves (h : Move counter s w a s' w' a') :
    a.outcome = none ∧ ((a.resolves? counter s w = none ∧ a' = a) ∨
      ∃ outcome, a.resolves? counter s w = some outcome ∧
        a' = { a with outcome := some outcome }) := by
  cases h with
  | cancel hnone hclosed => exact ⟨hnone, .inr ⟨_, by simp [resolves?, hnone, hclosed], rfl⟩⟩
  | acknowledge hnone hopen hread hdec =>
    exact ⟨hnone, .inr ⟨_, by simp [resolves?, hnone, hopen, hread, hdec], rfl⟩⟩
  | ignore hnone hopen hread hdec =>
    exact ⟨hnone, .inl ⟨by simp [resolves?, hnone, hopen, hread, hdec], rfl⟩⟩
  | fail hnone hopen hread =>
    exact ⟨hnone, .inr ⟨_, by simp [resolves?, hnone, hopen, hread], rfl⟩⟩

theorem Move.news_writes (h : Move counter s w a s' w' a') : w.news Connection.writes w' = [] := by
  obtain ⟨reads, hlogs⟩ := h.logs
  exact Wire.news_eq_nil hlogs.size fun r => (hlogs.conn r).writes.trans (List.append_nil _)

/-- A wait ends with an acknowledgment exactly if it has read the one of its counter. -/
theorem Move.acknowledges (h : Move counter s w a s' w' a') (r : Ref) :
    (r, .acknowledged) ∈ ((a.resolves? counter s w).map (a.conn, ·)).toList ↔
      (r, Ack.encode counter) ∈ w.news Connection.consumed w' := by
  cases h with
  | cancel hnone hclosed => simp [resolves?, hnone, hclosed, Wire.news_self]
  | acknowledge hnone hopen hread hdec =>
    rw [Wire.news_consumed hread, Ack.eq_encode_of_decode hdec]
    simp [resolves?, hnone, hopen, hread, hdec]
  | @ignore bytes _ hnone hopen hread hdec =>
    have hne : Ack.encode counter ≠ bytes := by
      rintro rfl
      exact hdec (Ack.decode_encode counter)
    rw [Wire.news_consumed hread]
    simp [resolves?, hnone, hopen, hread, hdec, hne]
  | @fail e w₁ hnone hopen hread =>
    have hlogs := (Wire.logs_read hread).still
      (Registry.still_closeAndRemove (g := s.registry) a.id)
    rw [Except.toOption, Option.toList_none, Wire.only_nil] at hlogs
    have hnews : w.news Connection.consumed (s.closeAndRemove w₁ a.id).2.2 = [] :=
      Wire.news_eq_nil hlogs.size fun f => (hlogs.conn f).consumed.trans (List.append_nil _)
    rw [hnews]
    simp [resolves?, hnone, hopen, hread]

theorem resolves?_of_step_eq_none (h : a.step counter s w = none) :
    a.resolves? counter s w = none := by
  rw [step] at h
  rw [resolves?]
  split
  · rfl
  next hout =>
  rw [if_neg hout] at h
  split
  · next hclosed =>
    rw [if_pos hclosed] at h
    cases h
  next hopen =>
  rw [if_neg hopen] at h
  split
  · next bytes w₁ hread =>
    rw [hread] at h
    dsimp only at h
    split at h
    · split at h <;> cases h
    · cases h
  · next e w₁ hread =>
    rw [hread] at h
    cases h
  · rfl

end AckWait

namespace Send

/-- The wait that the next step of a send ends, with how it does. -/
def resolves (pick : Nat) (s : Sender) (w : Wire) (x : Send) : List (Ref × AckOutcome) :=
  match x.phase with
  | .waiting counter waits _ =>
    match waits[pick]? with
    | some a => ((a.resolves? counter s w).map (a.conn, ·)).toList
    | none => []
  | _ => []

variable {me pick : Nat} {s s' : Sender} {w w' : Wire} {x x' : Send}

theorem resolves_of_ne_waiting
    (h : ∀ counter waits failures, x.phase ≠ .waiting counter waits failures) :
    x.resolves pick s w = [] := by
  rw [resolves]
  split
  · next hp => exact absurd hp (h _ _ _)
  · rfl

theorem resolves_of_waiting {counter : UInt64} {waits : List AckWait} {failures : List Failure}
    {a : AckWait} (hp : x.phase = .waiting counter waits failures) (ha : waits[pick]? = some a) :
    x.resolves pick s w = ((a.resolves? counter s w).map (a.conn, ·)).toList := by
  simp only [resolves, hp, ha]

theorem resolves_of_step_eq_none (h : x.step me pick s w = none) : x.resolves pick s w = [] := by
  by_cases hwaiting : ∃ counter waits failures, x.phase = .waiting counter waits failures
  · obtain ⟨counter, waits, failures, hp⟩ := hwaiting
    cases ha : waits[pick]? with
    | none => simp only [resolves, hp, ha]
    | some a =>
      have hstep : a.step counter s w = none := by
        rw [step, hp] at h
        dsimp only at h
        rw [ha] at h
        dsimp only at h
        split at h
        · assumption
        · split at h <;> cases h
      rw [resolves_of_waiting hp ha, AckWait.resolves?_of_step_eq_none hstep]
      rfl
  · exact resolves_of_ne_waiting fun counter waits failures hp =>
      hwaiting ⟨counter, waits, failures, hp⟩

/-- How far a send has got with its fan-out under a counter, after so many steps. -/
inductive Tally (withAcknowledge : Bool) (frame : Bytes) (counter : UInt64) (f : Fanout)
    (steps : Nat) (x : Send) : Prop where
  /-- It has written to some connections, and to one in each step. -/
  | writing {rest : List (String × Ref)} :
      x.phase = .writing counter rest f.takers f.refusals →
      f.tried.map Prod.fst ++ rest = f.snapshot → f.ends = [] → f.tried.length = steps →
      Tally withAcknowledge frame counter f steps x
  /-- It has written to all, and waits for those that took the frame. -/
  | waiting : withAcknowledge = true →
      x.phase = .waiting counter (f.takers.map f.wait) f.refusals →
      f.tried.map Prod.fst = f.snapshot → Tally withAcknowledge frame counter f steps x
  | done : f.Complete withAcknowledge frame → x.phase = .done (f.result withAcknowledge) →
      Tally withAcknowledge frame counter f steps x

variable {ack : Bool} {counter : UInt64} {f : Fanout} {steps : Nat}

/-- A send that has its turn is at the fan-out to the connections that are registered. -/
theorem tally_start (x : Send) (counter : UInt64) (snapshot : List (String × Ref)) (frame : Bytes) :
    Tally ack frame counter { snapshot } 0 { x with phase := .writing counter snapshot [] [] } :=
  .writing rfl rfl rfl rfl

/-- A send that asks for no acknowledgments does not wait for any. -/
theorem Tally.ne_waiting {frame : Bytes} (hx : x.Tally ack frame counter f steps)
    (unasked : ack = false) (n : UInt64) (waits : List AckWait) (failures : List Failure) :
    x.phase ≠ .waiting n waits failures := by
  intro hp
  cases hx with
  | writing hq | done _ hq => cases hp.symm.trans hq
  | waiting asked => cases asked.symm.trans unasked

/-- What a fan-out comes to where nobody took the frame. -/
theorem result_of_takers_eq_nil (h : f.takers = []) (ack : Bool) :
    f.result ack = .error (.allWritesFailed f.refusals) := by
  rw [Fanout.result, h]
  cases ack with
  | true => rw [if_pos rfl, List.map_nil, verdict, List.filterMap_nil, List.append_nil]; rfl
  | false => rfl

/-- A step of a wait carries the fan-out of its send on by how it ends, if it does. -/
theorem wait_tally {frame : Bytes} {a a' : AckWait} (sound : f.Sound frame)
    (ha : (f.takers.map f.wait)[pick]? = some a) (hstep : a.step counter s w = some (s', w', a')) :
    let f' := f.resolved ((a.resolves? counter s w).map (a.conn, ·)).toList
    f'.Sound frame ∧ f'.takers.map f'.wait = (f.takers.map f.wait).set pick a' := by
  rw [List.getElem?_map] at ha
  obtain ⟨c, hc, rfl⟩ := Option.map_eq_some_iff.mp ha
  obtain ⟨hnone, hends⟩ := (AckWait.move_of_step hstep).resolves
  have hmem : c ∈ f.takers := List.mem_of_getElem? hc
  rcases hends with ⟨hstay, rfl⟩ | ⟨outcome, hend, rfl⟩
  · rw [hstay, Option.map_none, Option.toList_none, Fanout.resolved, List.append_nil]
    refine ⟨sound, (List.ext_getElem? fun i => ?_).symm⟩
    rw [List.getElem?_set]
    split
    · next hi =>
      subst hi
      rw [List.getElem?_map, hc, Option.map_some]
      split
      · rfl
      · next hlt => exact absurd (by simpa using (List.getElem?_eq_some_iff.mp hc).1) hlt
    · rfl
  · rw [hend, Option.map_some, Option.toList_some]
    exact ⟨sound.resolved hmem hnone, sound.map_wait_resolved hc hnone⟩

/-- A write to the next connection carries the fan-out on. -/
theorem write_tally {frame : Bytes} {id : String} {r : Ref} {rest : List (String × Ref)}
    {result : Except ConnectionError Unit} (sound : f.Sound frame)
    (next : f.tried.map Prod.fst ++ (id, r) :: rest = f.snapshot)
    (exist : ∀ c ∈ f.snapshot, c.2 < w.connections.length)
    (hw : w.write r frame = (result, w')) :
    let f' := f.wrote (id, r) ⟨frame, (w.conn r).isOpen, Connection.refusal result⟩
    f'.Sound frame ∧ f'.calls = f.calls ++ w.news Connection.writes w' ∧
      f'.tried.map Prod.fst ++ rest = f'.snapshot ∧ f'.tried.length = f.tried.length + 1 := by
  have hr : r < w.connections.length :=
    exist (id, r) (next ▸ List.mem_append_right _ List.mem_cons_self)
  refine ⟨sound.wrote next rfl, ?_, ?_, List.length_append⟩
  · rw [Fanout.calls_wrote, Wire.news_writes hr hw]
  · rw [Fanout.wrote, List.map_append, List.append_assoc]
    exact next

/-- Every step of a send carries its fan-out on: by the write that it calls for, and by the wait
that it ends. -/
theorem Move.tally {frame : Bytes} (h : Move me pick s w x s' w' x') (sound : f.Sound frame)
    (hx : x.Tally ack frame counter f steps) (hack : s.withAcknowledge = ack)
    (hframe : x.frame s counter = frame)
    (exist : ∀ c ∈ f.snapshot, c.2 < w.connections.length) :
    ∃ f' : Fanout, f'.snapshot = f.snapshot ∧ f'.Sound frame ∧
      x'.Tally ack frame counter f' (steps + 1) ∧
      f'.calls = f.calls ++ w.news Connection.writes w' ∧
      f'.ends = f.ends ++ x.resolves pick s w := by
  have hstill : w.news Connection.writes w = [] := Wire.news_self _ w
  cases h with
  | refuse hp | enqueue hp | abandon hp | start hp =>
    cases hx with
    | writing hq | waiting _ hq | done _ hq => cases hp.symm.trans hq
  | @accept _ id r rest _ _ _ hp hw | @reject _ id r rest _ _ e _ hp hw =>
    cases hx with
    | waiting _ hq | done _ hq => cases hp.symm.trans hq
    | writing hq htried hends hsteps =>
      obtain ⟨rfl, rfl, rfl, rfl⟩ := SendPhase.writing.inj (hp.symm.trans hq)
      rw [hframe] at hw
      obtain ⟨hsound, hcalls, htried', hlength⟩ := write_tally sound htried exist hw
      refine ⟨f.wrote (id, r) _, rfl, hsound, .writing ?_ htried' hends (by rw [hlength, hsteps]),
        hcalls, ?_⟩
      · simp [Fanout.takers_wrote, Fanout.refusals_wrote, Connection.refusal]
      · rw [resolves_of_ne_waiting (by simp [hp]), List.append_nil]
        rfl
  | fail hp =>
    cases hx with
    | waiting _ hq | done _ hq => cases hp.symm.trans hq
    | writing hq htried hends =>
      obtain ⟨rfl, rfl, hnone, rfl⟩ := SendPhase.writing.inj (hp.symm.trans hq)
      rw [List.append_nil] at htried
      refine ⟨f, rfl, sound, .done ⟨sound, htried, fun _ => hends, fun _ c hc => ?_⟩ ?_, ?_, ?_⟩
      · rw [← hnone] at hc
        cases hc
      · rw [result_of_takers_eq_nil hnone.symm]
      · rw [hstill, List.append_nil]
      · rw [resolves_of_ne_waiting (by simp [hp]), List.append_nil]
  | succeed hp hwritten hnotasked =>
    cases hx with
    | waiting _ hq | done _ hq => cases hp.symm.trans hq
    | writing hq htried hends =>
      obtain ⟨rfl, rfl, rfl, rfl⟩ := SendPhase.writing.inj (hp.symm.trans hq)
      obtain rfl := hack.symm.trans hnotasked
      rw [List.append_nil] at htried
      refine ⟨f, rfl, sound, .done ⟨sound, htried, fun _ => hends, by simp⟩ ?_, ?_, ?_⟩
      · simp [Fanout.result, hwritten]
      · rw [hstill, List.append_nil]
      · rw [resolves_of_ne_waiting (by simp [hp]), List.append_nil]
  | await hp hwritten hasked =>
    cases hx with
    | waiting _ hq | done _ hq => cases hp.symm.trans hq
    | writing hq htried hends =>
      obtain ⟨rfl, rfl, rfl, rfl⟩ := SendPhase.writing.inj (hp.symm.trans hq)
      rw [List.append_nil] at htried
      refine ⟨f, rfl, sound, .waiting (hack.symm.trans hasked) ?_ htried, ?_, ?_⟩
      · have hwait : f.wait = fun c => ⟨c.1, c.2, none⟩ := by
          funext c
          rw [Fanout.wait, hends]
          rfl
        rw [hwait]
      · rw [hstill, List.append_nil]
      · rw [resolves_of_ne_waiting (by simp [hp]), List.append_nil]
  | wait hp ha hstep hsome =>
    cases hx with
    | writing hq | done _ hq => cases hp.symm.trans hq
    | waiting hasked hq htried =>
      obtain ⟨rfl, rfl, rfl⟩ := SendPhase.waiting.inj (hp.symm.trans hq)
      obtain ⟨hsound, hwaits⟩ := wait_tally sound ha hstep
      rw [resolves_of_waiting hp ha]
      refine ⟨f.resolved _, rfl, hsound, .waiting hasked ?_ htried, ?_, rfl⟩
      · rw [hwaits]
        rfl
      · rw [(AckWait.move_of_step hstep).news_writes, List.append_nil]
        rfl
  | conclude hp ha hstep hall =>
    cases hx with
    | writing hq | done _ hq => cases hp.symm.trans hq
    | waiting hasked hq htried =>
      obtain ⟨rfl, rfl, rfl⟩ := SendPhase.waiting.inj (hp.symm.trans hq)
      obtain ⟨hsound, hwaits⟩ := wait_tally sound ha hstep
      rw [resolves_of_waiting hp ha]
      refine ⟨f.resolved _, rfl, hsound, .done ⟨hsound, htried, ?_, fun _ c hc => ?_⟩ ?_, ?_, rfl⟩
      · intro hunasked
        cases hasked.symm.trans hunasked
      · have hended := List.all_eq_true.mp (hwaits ▸ hall) _ (List.mem_map_of_mem hc)
        obtain ⟨outcome, houtcome⟩ := Option.isSome_iff_exists.mp hended
        exact ⟨outcome, hsound.lookup_eq_some.mp houtcome⟩
      · rw [Fanout.result, hasked, if_pos rfl, hwaits]
        rfl
      · rw [(AckWait.move_of_step hstep).news_writes, List.append_nil]
        rfl

/-- A wait ends with an acknowledgment exactly if the one of the counter is read. -/
theorem Move.acknowledges {frame : Bytes} (h : Move me pick s w x s' w' x')
    (hx : x.Tally ack frame counter f steps) (r : Ref) :
    (r, .acknowledged) ∈ x.resolves pick s w ↔
      (r, Ack.encode counter) ∈ w.news Connection.consumed w' := by
  have hidle (hnot : ∀ counter waits failures, x.phase ≠ .waiting counter waits failures)
      (hnews : w.news Connection.consumed w' = []) : (r, .acknowledged) ∈ x.resolves pick s w ↔
      (r, Ack.encode counter) ∈ w.news Connection.consumed w' := by
    rw [resolves_of_ne_waiting hnot, hnews]
    exact iff_of_false List.not_mem_nil List.not_mem_nil
  cases h with
  | refuse hp | enqueue hp | abandon hp | start hp | fail hp | succeed hp | await hp =>
    exact hidle (by simp [hp]) (Wire.news_self _ w)
  | accept hp hw | reject hp hw =>
    have hlogs := Wire.logs_write hw
    exact hidle (by simp [hp]) (Wire.news_eq_nil hlogs.size fun f =>
      (hlogs.conn f).consumed.trans (List.append_nil _))
  | wait hp ha hstep | conclude hp ha hstep =>
    cases hx with
    | writing hq | done _ hq => cases hp.symm.trans hq
    | waiting _ hq =>
      obtain ⟨rfl, -, -⟩ := SendPhase.waiting.inj (hp.symm.trans hq)
      rw [resolves_of_waiting hp ha]
      exact (AckWait.move_of_step hstep).acknowledges r

/-- A wait is cancelled only if the sender is closed. -/
theorem closed_of_cancelled {r : Ref} (h : (r, .cancelled) ∈ x.resolves pick s w) :
    s.cancel.closed = true := by
  rw [resolves] at h
  split at h
  · split at h
    · obtain ⟨outcome, hresolves, heq⟩ := Option.map_eq_some_iff.mp (Option.mem_toList.mp h)
      obtain ⟨-, rfl⟩ := Prod.mk.inj heq
      rw [AckWait.resolves?] at hresolves
      split at hresolves
      · cases hresolves
      · split at hresolves
        · assumption
        · split at hresolves
          · split at hresolves <;> cases hresolves
          · cases hresolves
          · cases hresolves
    · cases h
  · cases h

/-- What a send gives up is a connection whose acknowledgment cannot be read. -/
theorem Tally.not_loses {frame : Bytes} (hx : x.Tally ack frame counter f steps)
    (sound : f.Sound frame) {c : String × Ref} (hc : c ∈ f.snapshot)
    (kept : ∀ e, (c.2, .failed e) ∉ x.resolves pick s w) : ¬x.Loses pick s w c.1 := by
  rintro ⟨n, waits, failures, a, hp, ha, hid, hnone, hopen, e, w₁, hread⟩
  refine kept e ?_
  rw [resolves_of_waiting hp ha]
  cases hx with
  | writing hq | done _ hq => cases hp.symm.trans hq
  | waiting _ hq =>
    obtain ⟨-, rfl, -⟩ := SendPhase.waiting.inj (hp.symm.trans hq)
    rw [List.getElem?_map] at ha
    obtain ⟨d, hd, rfl⟩ := Option.map_eq_some_iff.mp ha
    have hmem := (Fanout.takers_sublist sound).subset (List.mem_of_getElem? hd)
    obtain rfl : d = c := List.inj_on_of_nodup_map sound.ids hmem hc hid
    have hend : (f.wait d).resolves? n s w = some (.failed e) := by
      simp [AckWait.resolves?, hnone, hopen, hread]
    rw [hend]
    exact List.mem_singleton_self _

/-- A send that is about to give up a connection cannot read from one. -/
theorem Loses.exists_failed {id : String} (h : x.Loses pick s w id) :
    ∃ r error, (r, .failed error) ∈ x.resolves pick s w := by
  obtain ⟨counter, waits, failures, a, hp, ha, -, hnone, hopen, e, w₁, hread⟩ := h
  refine ⟨a.conn, e, ?_⟩
  rw [resolves_of_waiting hp ha]
  simp [AckWait.resolves?, hnone, hopen, hread]

/-- A send that can read whatever it reads leaves everything registered, and closes nothing. -/
theorem Move.keeps_of_not_failed (h : Move me pick s w x s' w' x')
    (kept : ∀ r error, (r, .failed error) ∉ x.resolves pick s w) :
    s'.registry = s.registry ∧ ∀ f, (w'.conn f).closes = (w.conn f).closes := by
  cases h.toll with
  | use _ hsame hused => exact ⟨hsame, fun f => (hused.conn f).closes⟩
  | lose hloses =>
    obtain ⟨r, error, hfailed⟩ := hloses.exists_failed
    exact absurd hfailed (kept r error)

/-- A send that cannot read from a connection gives up what is registered under the id that it has
written to. -/
theorem Move.gives_up {r : Ref} {error : ConnectionError} (h : Move me pick s w x s' w' x')
    (failed : (r, .failed error) ∈ x.resolves pick s w) :
    ∃ counter waits failures a w₁, x.phase = .waiting counter waits failures ∧
      waits[pick]? = some a ∧ a.conn = r ∧ w.read? r = some (.error error, w₁) ∧
      s'.registry = (s.registry.closeAndRemove w₁ a.id).2.1 ∧
      w' = (s.registry.closeAndRemove w₁ a.id).2.2 := by
  have hidle (hnot : ∀ counter waits failures, x.phase ≠ .waiting counter waits failures) :
      False := by
    rw [resolves_of_ne_waiting hnot] at failed
    cases failed
  cases h with
  | refuse hp | enqueue hp | abandon hp | start hp | accept hp | reject hp | fail hp | succeed hp
  | await hp => exact (hidle (by simp [hp])).elim
  | wait hp ha hstep | conclude hp ha hstep =>
    rw [resolves_of_waiting hp ha] at failed
    obtain ⟨outcome, hresolves, heq⟩ := Option.map_eq_some_iff.mp (Option.mem_toList.mp failed)
    obtain ⟨rfl, rfl⟩ := Prod.mk.inj heq
    cases AckWait.move_of_step hstep with
    | cancel hnone hclosed => simp [AckWait.resolves?, hnone, hclosed] at hresolves
    | acknowledge hnone hopen hread hdec =>
      simp [AckWait.resolves?, hnone, hopen, hread, hdec] at hresolves
    | ignore hnone hopen hread hdec =>
      simp [AckWait.resolves?, hnone, hopen, hread, hdec] at hresolves
    | fail hnone hopen hread =>
      obtain rfl : _ = error := by simpa [AckWait.resolves?, hnone, hopen, hread] using hresolves
      exact ⟨_, _, _, _, _, hp, ha, rfl, hread, rfl, rfl⟩

end Send

end BlockFeed
