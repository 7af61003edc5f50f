import BlockFeed.Proofs.Line
import BlockFeed.Proofs.Pipeline.Blocked
import BlockFeed.Proofs.Receiver.Moves

/-!
# Networks

Any number of senders and receivers over connections in memory, with the jobs that run on them.

## Main definitions

* `Network`: the senders, the receivers, the wire between them, the clock and the jobs.
* `Network.move`: one step of one job.
* `Network.Event`, `Network.apply`: everything that may happen to a network.
* `Network.ofPipeline`: a pipeline as a network with one sender.
* `Network.Sound`: what holds in every state that a network gets into.

## Main results

* `Network.move_ofPipeline`: a pipeline moves as its network does.
* `Network.sound_of_reachable`: every state that a network gets into is sound, if its receivers
  pause at all before they try again.

## Design notes

A pipeline has one sender, so that a history of its counters is a history of the pipeline. Here
senders are told apart by their places in a list; they have nothing in common but the connections,
and a connection may be registered with several of them and be read by a receiver as well.
-/

namespace BlockFeed

/-- What may be asked of a sender but to send. -/
inductive Sender.Order where
  | register (r : Ref)
  | unregister (id : String)
  /-- Forget the connections that are no longer open. -/
  | removeClosed
  /-- Unregister and close all connections, and go on. -/
  | closeAll
  | close

/-- The sender and the connections after something was asked of it. -/
def Sender.obey (s : Sender) (w : Wire) : Order → Sender × Wire
  | .register r => (s.add w r, w)
  | .unregister id => (s.closeAndRemove w id).2
  | .removeClosed => (s.removeClosed w, w)
  | .closeAll => ({ s with registry := (s.registry.closeAll w).1 }, (s.registry.closeAll w).2)
  | .close => s.close w

theorem Sender.line_obey (s : Sender) (w : Wire) (o : Order) : (s.obey w o).1.line = s.line := by
  cases o <;> rfl

/-- Somebody sends, and waits for his turn or has it. -/
def Send.Stands (x : Option Send) : Prop := ∃ y ∈ x, y.InLine

/-- Somebody sends, and has his turn. -/
def Send.Turns (x : Option Send) : Prop := ∃ y ∈ x, y.HasTurn

/-- A step of a send leaves the line in order. -/
theorem Send.Lines.inTurn {me : Nat} {s s' : Sender} {x x' : Send} {who : Nat → Option Send}
    (h : Lines me s x s' x') (line : InTurn s.line who Stands Turns) (hme : who me = some x) :
    InTurn s'.line (Function.update who me (some x')) Stands Turns := by
  have hstands (y : Send) : Stands (some y) ↔ y.InLine := by simp [Stands]
  have hturns (y : Send) : Turns (some y) ↔ y.HasTurn := by simp [Turns]
  cases h with
  | stay hsame hiff hturn =>
    rw [hsame]
    exact line.stay (by rw [hme, hstands, hstands, hiff]) fun ht => hturn ((hturns x').mp ht)
  | join hcalled hqueued hjoin =>
    rw [hjoin]
    refine line.join ?_ ?_ ?_
    · rw [hme, hstands]
      simp [InLine, hcalled]
    · rw [hstands]
      simp [InLine, hqueued]
    · rw [hturns]
      simp [HasTurn, hqueued]
  | leave _ hout htail hhead =>
    rw [htail]
    exact line.leave hhead (fun hs => hout ((hstands x').mp hs))
      fun ht => hout ((hturns x').mp ht).inLine

/-- A send of one of several senders, or a reading of one of several receivers. -/
inductive Network.Job where
  | send (sender : Nat) (x : Send)
  | listen (receiver : Nat) (l : Listen)

/-- Senders and receivers over connections in memory. -/
structure Network where
  senders : List Sender := []
  receivers : List Receiver := []
  wire : Wire := {}
  /-- The time, in milliseconds. -/
  now : Nat := 0
  /-- The jobs, from the first that began to the last. -/
  jobs : List Network.Job := []

namespace Network

/-- One step of the job at a place, doing the thing at `pick` where it may do several. -/
def move (p : Network) (place pick : Nat) : Option Network :=
  match p.jobs[place]? with
  | none => none
  | some (.send i x) =>
    match p.senders[i]? with
    | none => none
    | some s =>
      match x.step place pick s p.wire with
      | none => none
      | some (s, wire, x) =>
        some { p with
          senders := p.senders.set i s
          wire
          jobs := p.jobs.set place (.send i x) }
  | some (.listen i l) =>
    match p.receivers[i]? with
    | none => none
    | some r =>
      match l.step p.now pick r p.wire with
      | none => none
      | some (r, wire, l) =>
        some { p with
          receivers := p.receivers.set i r
          wire
          jobs := p.jobs.set place (.listen i l) }

/-- Everything that may happen to a network. -/
inductive Event where
  /-- A job takes a step, if it can. -/
  | move (place pick : Nat)
  | elapse (duration : Nat)
  | connect (c : Connection)
  | join (a b : Ref)
  | occur (r : Ref) (o : Occurrence)
  | disconnect (r : Ref)
  /-- There is one more sender. -/
  | employ (withAcknowledge : Bool)
  | order (sender : Nat) (o : Sender.Order)
  | send (sender : Nat) (payload : Bytes)
  /-- There is one more receiver. -/
  | attach (r : Receiver)
  | listen (receiver : Nat) (r : Ref)
  | closeReceiver (receiver : Nat)

/-- A receiver that is attached pauses before it tries again. -/
def Event.Patient : Event → Prop
  | attach r => 0 < r.retry
  | _ => True

def begin (p : Network) (job : Job) : Network := { p with jobs := p.jobs ++ [job] }

/-- The network after something has happened to it. -/
def apply (p : Network) : Event → Network
  | .move place pick => (p.move place pick).getD p
  | .elapse duration => { p with now := p.now + duration }
  | .connect c => { p with wire := (p.wire.add c).1 }
  | .join a b => { p with wire := p.wire.join a b }
  | .occur r o => { p with wire := p.wire.undergo r o }
  | .disconnect r => { p with wire := (p.wire.close r).2 }
  | .employ withAcknowledge => { p with senders := p.senders ++ [{ withAcknowledge }] }
  | .order i o =>
    match p.senders[i]? with
    | none => p
    | some s =>
      let (s, wire) := s.obey p.wire o
      { p with senders := p.senders.set i s, wire }
  | .send i payload =>
    if i < p.senders.length then p.begin (.send i ⟨payload, .called⟩) else p
  | .attach r => { p with receivers := p.receivers ++ [r] }
  | .listen i r => if i < p.receivers.length then p.begin (.listen i ⟨r, .called⟩) else p
  | .closeReceiver i => { p with receivers := p.receivers.modify i (·.close) }

def applyAll (p : Network) (events : List Event) : Network := events.foldl apply p

/-- A network gets into this state, if every receiver pauses before it tries again. -/
def Reachable (p : Network) : Prop :=
  ∃ events : List Event, (∀ e ∈ events, e.Patient) ∧ ({} : Network).applyAll events = p

/-- What a move does. -/
inductive Moved (p : Network) (place pick : Nat) : Network → Prop where
  | send {i : Nat} {s s' : Sender} {wire : Wire} {x x' : Send} :
      p.jobs[place]? = some (.send i x) → p.senders[i]? = some s →
      Send.Move place pick s p.wire x s' wire x' →
      Moved p place pick
        { p with senders := p.senders.set i s', wire, jobs := p.jobs.set place (.send i x') }
  | listen {i : Nat} {r r' : Receiver} {wire : Wire} {l l' : Listen} :
      p.jobs[place]? = some (.listen i l) → p.receivers[i]? = some r →
      Listen.Move p.now r p.wire l r' wire l' →
      Moved p place pick
        { p with receivers := p.receivers.set i r', wire, jobs := p.jobs.set place (.listen i l') }

theorem moved_of_move {p p' : Network} {place pick : Nat} (h : p.move place pick = some p') :
    p.Moved place pick p' := by
  rw [move] at h
  split at h
  · cases h
  · next i x hx =>
    split at h
    · cases h
    next s hs =>
    split at h
    · cases h
    next hstep =>
    rw [← Option.some.inj h]
    exact .send hx hs (Send.move_of_step hstep)
  · next i l hl =>
    split at h
    · cases h
    next r hr =>
    split at h
    · cases h
    next hstep =>
    rw [← Option.some.inj h]
    exact .listen hl hr (Listen.move_of_step hstep)

/-- The job that an activity of a pipeline is; one that was refused is over. -/
def ofActivity : Activity → Job
  | .send x => .send 0 x
  | .refused _ => .send 0 ⟨[], .done (.error .emptyPayload)⟩
  | .listen i l => .listen i l

/-- A pipeline is a network with one sender. -/
def ofPipeline (p : Pipeline) : Network where
  senders := [p.sender]
  receivers := p.receivers
  wire := p.wire
  now := p.now
  jobs := p.activities.map ofActivity

/-- A pipeline moves as a network does. -/
theorem move_ofPipeline (p : Pipeline) (place pick : Nat) :
    (ofPipeline p).move place pick = (p.move place pick).map ofPipeline := by
  have hjobs : (ofPipeline p).jobs[place]? = (p.activities[place]?).map ofActivity :=
    List.getElem?_map
  rw [move, Pipeline.move, hjobs]
  cases p.activities[place]? with
  | none => rfl
  | some a =>
    cases a with
    | refused e => rfl
    | send x =>
      simp only [Option.map_some, ofActivity, ofPipeline, List.getElem?_cons_zero]
      cases x.step place pick p.sender p.wire with
      | none => rfl
      | some result => simp [ofPipeline, ofActivity, List.map_set]
    | listen i l =>
      simp only [Option.map_some, ofActivity, ofPipeline]
      cases p.receivers[i]? with
      | none => rfl
      | some r =>
        dsimp only
        cases l.step p.now pick r p.wire with
        | none => rfl
        | some result => simp [ofPipeline, ofActivity, List.map_set]

/-- The send of a sender that a job is. -/
def Job.send? (i : Nat) : Job → Option Send
  | send j x => if j = i then some x else none
  | listen _ _ => none

theorem Job.send?_of_ne {i j : Nat} (h : j ≠ i) (x : Send) : (send j x).send? i = none := if_neg h

theorem Job.send?_listen (i j : Nat) (l : Listen) : (listen j l).send? i = none := rfl

/-- The send of a sender at a place. -/
def sendAt? (p : Network) (i place : Nat) : Option Send := (p.jobs[place]?).bind (·.send? i)

section Jobs

variable {p p' : Network} {place : Nat} {job job' : Job} {i : Nat}

theorem sendAt?_of_set (h : p.jobs[place]? = some job) (hp' : p'.jobs = p.jobs.set place job') :
    p'.sendAt? i = Function.update (p.sendAt? i) place (job'.send? i) := by
  funext q
  rw [sendAt?, hp']
  by_cases hq : q = place
  · subst hq
    rw [List.getElem?_set_self (List.getElem?_eq_some_iff.mp h).1, Function.update_self]
    rfl
  · rw [List.getElem?_set_ne (Ne.symm hq), Function.update_of_ne hq, sendAt?]

/-- A job that is no send of a sender, before and after, is none of those that its line is for. -/
theorem sendAt?_of_set_none (h : p.jobs[place]? = some job) (hp' : p'.jobs = p.jobs.set place job')
    (hjob : job.send? i = none) (hjob' : job'.send? i = none) : p'.sendAt? i = p.sendAt? i := by
  rw [sendAt?_of_set h hp', hjob', Function.update_eq_self_iff, sendAt?, h, Option.bind_some, hjob]

theorem sendAt?_of_append (hp' : p'.jobs = p.jobs ++ [job]) :
    p'.sendAt? i = Function.update (p.sendAt? i) p.jobs.length (job.send? i) := by
  funext q
  rw [sendAt?, hp']
  rcases Nat.lt_trichotomy q p.jobs.length with hlt | rfl | hgt
  · rw [Function.update_of_ne (Nat.ne_of_lt hlt), sendAt?, List.getElem?_append_left hlt]
  · rw [List.getElem?_concat_length, Function.update_self]
    rfl
  · rw [Function.update_of_ne (Nat.ne_of_gt hgt), sendAt?, List.getElem?_eq_none (by simpa),
      List.getElem?_eq_none (Nat.le_of_lt hgt)]

theorem mem_of_sendAt? {x : Send} (h : p.sendAt? i place = some x) :
    p.jobs[place]? = some (.send i x) := by
  obtain ⟨job, hjob, hsend⟩ := Option.bind_eq_some_iff.mp h
  cases job with
  | listen => cases hsend
  | send j y =>
    rw [Job.send?] at hsend
    split at hsend
    · next hj =>
      rw [hjob, hj, Option.some.inj hsend]
    · cases hsend

theorem sendAt?_eq_some {x : Send} (h : p.jobs[place]? = some (.send i x)) :
    p.sendAt? i place = some x := by
  rw [sendAt?, h, Option.bind_some, Job.send?, if_pos rfl]

end Jobs

/-- The sender or the receiver of a job is there, and a send that waits has not got all that it
waits for. -/
def Job.Fits (senders receivers : Nat) : Job → Prop
  | send i x => i < senders ∧ x.Pends
  | listen i _ => i < receivers

theorem Job.Fits.mono {senders senders' receivers receivers' : Nat} {job : Job}
    (h : job.Fits senders receivers) (hs : senders ≤ senders') (hr : receivers ≤ receivers') :
    job.Fits senders' receivers' := by
  cases job with
  | send i x => exact ⟨Nat.lt_of_lt_of_le h.1 hs, h.2⟩
  | listen => exact Nat.lt_of_lt_of_le h hr

/-- What holds in every state that a network gets into. -/
structure Sound (p : Network) : Prop where
  retry : ∀ r ∈ p.receivers, 0 < r.retry
  fits : ∀ job ∈ p.jobs, job.Fits p.senders.length p.receivers.length
  /-- The line of a sender holds those of its sends that wait for their turn or have it. -/
  lined : ∀ i s, p.senders[i]? = some s → InTurn s.line (p.sendAt? i) Send.Stands Send.Turns

namespace Sound

theorem start : ({} : Network).Sound where
  retry := List.forall_mem_nil _
  fits := List.forall_mem_nil _
  lined i s hs := by cases hs

variable {p p' : Network} {place pick : Nat}

theorem move (h : p.Sound) (hp' : p.Moved place pick p') : p'.Sound := by
  cases hp' with
  | @send i s s' wire x x' hx hs hmove =>
    refine ⟨h.retry, fun job hjob => ?_, fun j t ht => ?_⟩
    · rw [List.length_set]
      rcases List.mem_or_eq_of_mem_set hjob with hold | rfl
      · exact h.fits job hold
      · exact ⟨(List.getElem?_eq_some_iff.mp hs).1, hmove.pends⟩
    · have hline := h.lined i s hs
      have hsend := sendAt?_eq_some hx
      rcases getElem?_of_set ht with ⟨rfl, rfl⟩ | ⟨hj, ht⟩
      · rw [sendAt?_of_set hx rfl, Job.send?, if_pos rfl]
        exact (hmove.line fun hturn => hline.first place ⟨x, hsend, hturn⟩).inTurn hline hsend
      · -- it is no send of any other sender
        rw [sendAt?_of_set_none hx rfl (Job.send?_of_ne (Ne.symm hj) x)
          (Job.send?_of_ne (Ne.symm hj) x')]
        exact h.lined j t ht
  | @listen i r r' wire l l' hl hr hmove =>
    refine ⟨fun q hq => ?_, fun job hjob => ?_, fun j t ht => ?_⟩
    · rcases List.mem_or_eq_of_mem_set hq with hold | rfl
      · exact h.retry q hold
      · exact hmove.retry ▸ h.retry r (List.mem_of_getElem? hr)
    · rw [List.length_set]
      rcases List.mem_or_eq_of_mem_set hjob with hold | rfl
      · exact h.fits job hold
      · exact (List.getElem?_eq_some_iff.mp hr).1
    · rw [sendAt?_of_set_none hl rfl (Job.send?_listen j i l) (Job.send?_listen j i l')]
      exact h.lined j t ht

/-- One more job that has just been called changes no line. -/
theorem begin (h : p.Sound) {job : Job} (fits : job.Fits p.senders.length p.receivers.length)
    (called : ∀ i x, job.send? i = some x → x.phase = .called) : (p.begin job).Sound where
  retry := h.retry
  fits := List.forall_mem_append.mpr ⟨h.fits, List.forall_mem_singleton.mpr fits⟩
  lined i s hs := by
    have hnobody : p.sendAt? i p.jobs.length = none := by
      rw [sendAt?, List.getElem?_eq_none (Nat.le_refl _), Option.bind_none]
    rw [sendAt?_of_append rfl]
    refine (h.lined i s hs).stay ?_ ?_
    · rw [hnobody]
      refine iff_of_false ?_ (by simp [Send.Stands])
      rintro ⟨x, hx, hline⟩
      simp [Send.InLine, called i x hx] at hline
    · rintro ⟨x, hx, hturn⟩
      simp [Send.HasTurn, called i x hx] at hturn

theorem employ (h : p.Sound) (withAcknowledge : Bool) :
    (p.apply (.employ withAcknowledge)).Sound where
  retry := h.retry
  fits job hjob := by
    rw [Network.apply, List.length_append]
    exact (h.fits job hjob).mono (Nat.le_add_right _ _) (Nat.le_refl _)
  lined i s hs := by
    rcases Nat.lt_or_ge i p.senders.length with hlt | hge
    · exact h.lined i s ((List.getElem?_append_left hlt).symm.trans hs)
    · -- nobody sends for a sender that was not there
      have hnobody : p.sendAt? i = fun _ => none := by
        funext q
        refine Option.eq_none_iff_forall_ne_some.mpr fun x hx => ?_
        have hfits := h.fits _ (List.mem_of_getElem? (mem_of_sendAt? hx))
        exact Nat.not_lt_of_le hge hfits.1
      have hsend : (p.apply (.employ withAcknowledge)).sendAt? i = fun _ => none := hnobody
      obtain rfl : s = { withAcknowledge } := by
        rw [Network.apply, List.getElem?_append_right hge] at hs
        exact List.mem_singleton.mp (List.mem_of_getElem? hs)
      rw [hsend]
      exact ⟨List.nodup_nil, fun q => by simp [Send.Stands], fun q hq => by simp [Send.Turns] at hq⟩

theorem order (h : p.Sound) {i : Nat} {s : Sender} (hs : p.senders[i]? = some s)
    (o : Sender.Order) : Sound { p with
      senders := p.senders.set i (s.obey p.wire o).1, wire := (s.obey p.wire o).2 } where
  retry := h.retry
  fits := by
    rw [List.length_set]
    exact h.fits
  lined j t ht := by
    rcases getElem?_of_set ht with ⟨rfl, rfl⟩ | ⟨-, ht⟩
    · rw [s.line_obey]
      exact h.lined j s hs
    · exact h.lined j t ht

theorem apply (h : p.Sound) {e : Event} (patient : e.Patient) : (p.apply e).Sound := by
  cases e with
  | move place pick =>
    rw [Network.apply]
    cases hmove : p.move place pick with
    | none => exact h
    | some p' => exact h.move (moved_of_move hmove)
  | elapse | connect | join | occur | disconnect => exact ⟨h.retry, h.fits, h.lined⟩
  | employ withAcknowledge => exact h.employ withAcknowledge
  | order i o =>
    rw [Network.apply]
    cases hs : p.senders[i]? with
    | none => exact h
    | some s => exact h.order hs o
  | send i payload =>
    rw [Network.apply]
    split
    · next hlt =>
      refine h.begin ⟨hlt, nofun⟩ fun j x hx => ?_
      rw [Job.send?] at hx
      split at hx
      · rw [← Option.some.inj hx]
      · cases hx
    · exact h
  | attach r =>
    refine ⟨List.forall_mem_append.mpr ⟨h.retry, List.forall_mem_singleton.mpr patient⟩,
      fun job hjob => ?_, h.lined⟩
    rw [Network.apply, List.length_append]
    exact (h.fits job hjob).mono (Nat.le_refl _) (Nat.le_add_right _ _)
  | listen i r =>
    rw [Network.apply]
    split
    · next hlt => exact h.begin hlt nofun
    · exact h
  | closeReceiver i =>
    refine ⟨fun r hr => ?_, fun job hjob => ?_, h.lined⟩
    · obtain ⟨j, hj⟩ := List.mem_iff_getElem?.mp hr
      rw [Network.apply, List.getElem?_modify] at hj
      obtain ⟨q, hq, rfl⟩ := Option.map_eq_some_iff.mp hj
      have hpos := h.retry q (List.mem_of_getElem? hq)
      split <;> exact hpos
    · rw [Network.apply, List.length_modify]
      exact h.fits job hjob

end Sound

theorem sound_of_reachable {p : Network} (h : p.Reachable) : p.Sound := by
  obtain ⟨events, patient, rfl⟩ := h
  induction events using List.reverseRecOn with
  | nil => exact .start
  | append_singleton events e ih =>
    obtain ⟨hbefore, he⟩ := List.forall_mem_append.mp patient
    rw [applyAll, List.foldl_append]
    exact (ih hbefore).apply (List.forall_mem_singleton.mp he)

end Network

end BlockFeed
