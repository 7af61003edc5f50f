import BlockFeed.Proofs.Delivery.Audit
import BlockFeed.Proofs.Pipeline.Course

/-!
# Acknowledged delivery

A report that is sent with success, while acknowledgments are asked for and the sender is open, was
handed over by a receiver, under the one counter that it was given.

## Main definitions

* `Pipeline.Reliable`: the pipeline passes its audit, and so do its activities.
* `Pipeline.Single`: no send is given a second counter.

## Main results

* `Pipeline.delivered_of_report_ok`: success means delivery.

## Design notes

A run may connect anything to anything: several connections may lead to one receiver, several
receivers may read one connection, and connections may fail, be closed, open again and be
registered again at any point. Counters have 64 bits, so they tell payloads apart as long as there
are fewer assignments than that.
-/

namespace BlockFeed

def Activity.Accounted (R : List Receiver) (log : Ledger) (place : Nat) : Activity → Prop
  | .send x => x.Accounted R log place
  | .refused _ => True
  | .listen i l => l.AccountedBy R i

theorem Activity.Accounted.mono {R R' : List Receiver} {log log' : Ledger} {place : Nat}
    {a : Activity} (h : a.Accounted R log place) (hlog : log ⊆ log') (hR : GrowAll R R') :
    a.Accounted R' log' place := by
  cases a with
  | send x => exact Send.Accounted.mono h hlog hR
  | refused e => trivial
  | listen i l => exact Listen.AccountedBy.mono h hR

namespace Pipeline

/-- The pipeline passes its audit, and so do its activities; acknowledgments are asked for, and the
sender is open. -/
structure Reliable (p : Pipeline) (log : Ledger) : Prop where
  acks : p.sender.withAcknowledge = true
  isOpen : p.sender.cancel.closed = false
  audited : Audited p.sender p.receivers p.wire log
  activities : ∀ (place : Nat) (a : Activity), p.activities[place]? = some a →
    a.Accounted p.receivers log place

namespace Reliable

variable {p : Pipeline} {log : Ledger}

theorem start : Reliable (beginning true) [] where
  acks := rfl
  isOpen := rfl
  audited := .empty rfl
  activities := fun _ _ h => nomatch h

/-- What happens besides moves brings no message and hands nothing over. -/
theorem audited_around {p' : Pipeline} {e : Event} (h : p.Reliable log) (hp : p.Around e p')
    (quiet : e.Quiet) : Audited p'.sender p'.receivers p'.wire log := by
  have hwire : Audited p.sender p.receivers p'.wire log := by
    rcases hp.wire with hkeeps | ⟨c, rfl, heq⟩ | ⟨a, b, rfl, heq⟩
    · exact h.audited.keeps hkeeps
    · exact heq ▸ h.audited.add quiet.2 quiet.1
    · exact heq ▸ h.audited.join a b
  refine (hwire.sender hp.lastCounter).grow hp.receivers ?_
  intro r hr d hd
  obtain ⟨i, hi⟩ := List.mem_iff_getElem?.mp hr
  rcases hp.deliveries i r hi with hnone | ⟨q, hq, hsame⟩
  · rw [hnone] at hd
    cases hd
  · exact h.audited.handled q (List.mem_of_getElem? hq) d (hsame ▸ hd)

/-- What happens besides moves lets activities begin, which know nothing yet. -/
theorem around {p' : Pipeline} {e : Event} (h : p.Reliable log) (hp : p.Around e p')
    (quiet : e.Quiet) (hopen : e ≠ .closeSender) : p'.Reliable log where
  acks := hp.withAcknowledge.trans h.acks
  isOpen := hp.cancel hopen ▸ h.isOpen
  audited := h.audited_around hp quiet
  activities := by
    intro place a ha
    obtain ⟨more, hmore, hnew⟩ := hp.activities
    rw [hmore] at ha
    rcases Nat.lt_or_ge place p.activities.length with hlt | hge
    · rw [List.getElem?_append_left hlt] at ha
      exact (h.activities place a ha).mono (List.Subset.refl log) hp.receivers
    · rw [List.getElem?_append_right hge] at ha
      rcases hnew a (List.mem_of_getElem? ha) with ⟨_, rfl⟩ | ⟨_, rfl⟩ | ⟨i, r, _, rfl⟩
      · trivial
      · trivial
      · exact Listen.accountedBy_called p'.receivers i r

theorem move (h : p.Reliable log) (place pick : Nat) :
    Reliable (p.apply (.move place pick)) (log ++ p.assigned (.move place pick)) := by
  have hmoved := p.moved_apply place pick
  generalize happly : p.apply (.move place pick) = p' at hmoved
  cases hmoved with
  | @send x x' sender wire hx hmove =>
    have hacc : x.Accounted p.receivers log place := h.activities place _ hx
    have hkeeps := hmove.settings
    rw [assigned_send hx happly]
    refine ⟨hkeeps.1.trans h.acks, hkeeps.2 ▸ h.isOpen, hmove.audited h.audited hacc, ?_⟩
    intro q a ha
    rcases getElem?_of_set ha with ⟨rfl, rfl⟩ | ⟨-, ha⟩
    · exact hmove.accounted h.audited h.acks h.isOpen hacc
    · exact (h.activities q a ha).mono (List.subset_append_left log _) (.refl _)
  | @listen i l l' r r' wire hl hr hmove =>
    have hacc : l.Accounted r := Listen.AccountedBy.accounted (h.activities place _ hl) hr
    rw [assigned_listen hl happly rfl, List.append_nil]
    refine ⟨h.acks, h.isOpen, hmove.audited h.audited hr hacc, ?_⟩
    intro q a ha
    rcases getElem?_of_set ha with ⟨rfl, rfl⟩ | ⟨-, ha⟩
    · exact hmove.accountedBy hr hacc
    · exact (h.activities q a ha).mono (List.Subset.refl log) (GrowAll.set hr hmove.grows)
  | stay =>
    rw [assigned_stay happly, List.append_nil]
    exact h

/-- Nothing that may happen makes the pipeline unreliable, unless the sender is closed. -/
theorem apply (h : p.Reliable log) {e : Event} (quiet : e.Quiet) (hopen : e ≠ .closeSender) :
    Reliable (p.apply e) (log ++ p.assigned e) := by
  by_cases he : ∃ place pick, e = .move place pick
  · obtain ⟨place, pick, rfl⟩ := he
    exact h.move place pick
  · have hmove : ∀ place pick, e ≠ .move place pick := fun q pick heq => he ⟨q, pick, heq⟩
    rw [assigned_of_ne_move hmove, List.append_nil]
    exact h.around (around_apply h.audited.mute quiet hmove) quiet hopen

end Reliable

/-- Nothing is assigned to an activity twice, and nothing to a send before its turn. -/
def Single (p : Pipeline) (log : Ledger) : Prop :=
  ∀ place, log.of place = [] ∨
    ∃ x a, p.sendAt? place = some x ∧ x.Begun ∧ log.of place = [a]

namespace Single

variable {p : Pipeline} {log : Ledger}

theorem start : Single (beginning true) [] := fun _ => .inl rfl

theorem send (h : p.Single log) {place pick : Nat} {x x' : Send} {sender : Sender} {wire : Wire}
    (hx : p.activities[place]? = some (.send x))
    (hmove : Send.Move place pick p.sender p.wire x sender wire x') :
    Single { p with sender, wire, activities := p.activities.set place (.send x') }
      (log ++ Ledger.taken place (some x) (some x')) := by
  intro q
  have hafter : Pipeline.sendAt?
      { p with sender, wire, activities := p.activities.set place (.send x') } q
        = if q = place then some x' else p.sendAt? q := sendAt?_set_send hx q
  rw [Ledger.of_append]
  by_cases hq : q = place
  · subst hq
    rw [if_pos rfl] at hafter
    rcases h q with hnone | ⟨y, a, hy, hbegun, hone⟩
    · rw [hnone, List.nil_append]
      rcases hmove.taken with ⟨htaken, -⟩ | ⟨htaken, -⟩
      · exact .inl (by rw [htaken]; rfl)
      · have hbegun : x'.Begun := hmove.begun_of_taken (by simp [htaken])
        refine .inr ⟨x', ⟨q, x.payload, p.sender.lastCounter + 1⟩, hafter, hbegun, ?_⟩
        rw [htaken]
        simp [Ledger.of]
    · obtain rfl : x = y := Option.some.inj ((sendAt?_eq_some.mpr hx).symm.trans hy)
      refine .inr ⟨x', a, hafter, hmove.begun hbegun, ?_⟩
      rw [Ledger.taken_of_ne_queued hbegun.2, hone]
      rfl
  · rw [if_neg hq] at hafter
    rw [Ledger.of_taken_ne (Ne.symm hq), List.append_nil, hafter]
    exact h q

theorem apply (h : p.Single log) (e : Event) : Single (p.apply e) (log ++ p.assigned e) := by
  have heffect := p.effect_apply e
  generalize p.apply e = p', p.assigned e = more at heffect ⊢
  cases heffect with
  | send _ hx hmove => exact h.send hx hmove
  | listen _ hl =>
    rw [List.append_nil]
    intro q
    rw [sendAt?_set_listen hl]
    exact h q
  | aside hp =>
    rw [List.append_nil]
    intro q
    refine (h q).imp_right ?_
    rintro ⟨y, a, hy, hrest⟩
    exact ⟨y, a, hp.sendAt?_of_some hy, hrest⟩

/-- Whoever was assigned something was assigned nothing else. -/
theorem of_eq (h : p.Single log) {a : Assignment} (ha : a ∈ log) : log.of a.place = [a] := by
  have hof : a ∈ log.of a.place := List.mem_filter.mpr ⟨ha, by simp⟩
  rcases h a.place with hnone | ⟨_, b, -, -, hone⟩
  · rw [hnone] at hof
    cases hof
  · rw [hone] at hof ⊢
    rw [List.mem_singleton.mp hof]

end Single

/-- What the call at a place was given one counter for has been handed over under it, and if the
receiver that did so blocks on errors, its handler did not refuse. -/
def Delivered (p : Pipeline) (log : Ledger) (place : Nat) (payload : Bytes) : Prop :=
  ∃ counter, log.of place = [⟨place, payload, counter⟩] ∧
    ∃ receiver ∈ p.receivers, ∃ h ∈ receiver.handled, h.delivery.counter = counter ∧
      (log.length < UInt64.size → h.delivery.payload = payload) ∧
      (receiver.blockOnError = true → h.result.isOk = true)

theorem Reliable.delivered {p : Pipeline} {log : Ledger} (h : p.Reliable log)
    (single : p.Single log) {place : Nat} {x : Send} (hx : p.sendAt? place = some x)
    (ok : x.phase = .done (.ok ())) :
    p.Delivered log place x.payload := by
  have hacc : x.Accounted p.receivers log place := h.activities place _ (sendAt?_eq_some.mp hx)
  rw [Send.Accounted, ok] at hacc
  obtain ⟨counter, hmem, receiver, hreceiver, d, hd, hcounter, hresult⟩ := hacc rfl
  refine ⟨counter, single.of_eq hmem, receiver, hreceiver, d, hd, hcounter, fun few => ?_, hresult⟩
  -- the payload that was handed over was assigned as well, and to the same counter
  have hdel : d.delivery ∈ receiver.deliveries := List.mem_map_of_mem hd
  have hassigned := h.audited.handled receiver hreceiver _ hdel
  obtain ⟨a, ha, heq⟩ := List.mem_map.mp hassigned
  have hsame : a.counter = counter := by
    rw [← hcounter, ← heq]
    rfl
  have hone := h.audited.numbered.eq_of_counter few ha hmem hsame
  rw [← heq, hone]
  rfl

/-- If the call of a report returns with success, while acknowledgments are asked for, the sender is
open, and nobody else puts messages on the connections, then the payload of the report was
delivered. -/
theorem delivered_of_report_ok (before after : List Event) (m : Marshaler) (r : Report)
    (course : ∀ e ∈ before ++ .report m r :: after, e.Quiet ∧ e ≠ .closeSender)
    (ok : ((beginning true).applyAll (before ++ .report m r :: after)).sent?
      ((beginning true).applyAll before).activities.length = some (.ok ())) :
    ∃ payload, r.payload m = .ok payload ∧
      ((beginning true).applyAll (before ++ .report m r :: after)).Delivered
        ((beginning true).ledger (before ++ .report m r :: after))
        ((beginning true).applyAll before).activities.length payload := by
  have hcourse := along_of_forall apply course (beginning true)
  have hreliable := collect_invariant Reliable
    (fun p log e he h => Reliable.apply h he.1 he.2) hcourse .start
  have hsingle := collect_invariant Single (fun p log e _ h => h.apply e) hcourse .start
  rw [List.nil_append] at hreliable hsingle
  obtain ⟨x, hx, hdone⟩ := sent?_eq_some.mp ok
  obtain ⟨hlt, hreport⟩ := ((beginning true).applyAll before).payloadAt?_report m r
  have hpay : some x.payload = (r.payload m).toOption := by
    rw [← hreport, ← payloadAt?_applyAll hlt after, payloadAt?]
    rw [applyAll_append] at hx
    exact (congrArg (Option.map (·.payload)) hx).symm
  cases hpayload : r.payload m with
  | error e =>
    rw [hpayload] at hpay
    cases hpay
  | ok payload =>
    rw [hpayload] at hpay
    obtain rfl : x.payload = payload := Option.some.inj hpay
    exact ⟨x.payload, rfl, hreliable.delivered hsingle hx hdone⟩

/-- A report that makes a round trip is delivered. -/
theorem delivered_roundTrip :
    ∃ payload, (Report.raw .saveBlock [1]).payload .json = .ok payload ∧
      ((beginning true).applyAll
        (linked ++ .report .json (.raw .saveBlock [1]) :: roundTrip)).Delivered
        ((beginning true).ledger (linked ++ .report .json (.raw .saveBlock [1]) :: roundTrip)) 1
        payload :=
  delivered_of_report_ok linked roundTrip .json (.raw .saveBlock [1])
    (by simp [linked, roundTrip, Event.Quiet, Connection.messages]) (by rfl)

end Pipeline

end BlockFeed
