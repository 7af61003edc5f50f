import BlockFeed.Proofs.Pipeline.Wiring
import BlockFeed.Proofs.Receiver.Deeds

/-!
# Flow of frames

On links with two ends each, frames arrive at every end in the order of their assignments and at
most once, whatever fails in the meantime.

## Main definitions

* `Send.Writes`: what holds while a send writes its frame to one connection after the other.
* `Pipeline.Flowing`: every connection holds frames in the order of the ledger.

## Design notes

The one send that writes is the last in the ledger, so a frame that arrives is later than all that
have arrived before. The connections that it has not written to yet are as they were before its
assignment; that is why registered connections have to lead to different ends.
-/

namespace BlockFeed

/-- A send that writes is the last in the ledger, and what the connections that it has not written
to lead to holds what was assigned before. -/
def Send.Writes (w : Wire) (log : Ledger) (me : Nat) (x : Send) : Prop :=
  ∀ counter rest written failures, x.phase = .writing counter rest written failures →
    (rest.map Prod.snd).Nodup ∧ ∃ past : Ledger, log = past ++ [⟨me, x.payload, counter⟩] ∧
      ∀ c ∈ rest, ∀ f, w.peer? c.2 = some f →
        (handed (w.conn f).messages).Sublist past.deliveries

namespace Send.Writes

variable {w w' : Wire} {log : Ledger} {me : Nat} {x : Send}

/-- Nothing changes for a send that writes if no frame arrives. -/
theorem still (h : x.Writes w log me) (hpeer : ∀ r, w'.peer? r = w.peer? r)
    (hsame : ∀ f, handed (w'.conn f).messages = handed (w.conn f).messages) :
    x.Writes w' log me := by
  intro counter rest written failures hp
  obtain ⟨hnodup, past, hlog, hrest⟩ := h counter rest written failures hp
  refine ⟨hnodup, past, hlog, fun c hc f hf => ?_⟩
  rw [hpeer] at hf
  rw [hsame]
  exact hrest c hc f hf

theorem of_not_turn (h : ¬x.HasTurn) : x.Writes w log me := by
  intro counter rest written failures hp
  exact absurd (by simp [HasTurn, hp]) h

end Send.Writes

namespace Pipeline

/-- Every connection holds frames in the order of the ledger. -/
structure Flowing (p : Pipeline) (log : Ledger) : Prop where
  flow : ∀ f, (handed (p.wire.conn f).messages).Sublist log.deliveries
  writes : ∀ place x, p.sendAt? place = some x → x.Writes p.wire log place

namespace Flowing

variable {p p' : Pipeline} {log : Ledger}

theorem start (withAcknowledge : Bool) : (beginning withAcknowledge).Flowing [] where
  flow := fun _ => List.Sublist.refl _
  writes := nofun

theorem around (h : p.Flowing log) (wired : p.Wired) {e : Event} (hp : p.Around e p')
    (allowed : p.Allows e) : p'.Flowing log := by
  have hsame : ∀ f, handed (p'.wire.conn f).messages = handed (p.wire.conn f).messages := by
    intro f
    rcases hp.wire with hkeeps | ⟨c, rfl, heq⟩ | ⟨a, b, rfl, heq⟩
    · rw [Wire.Keeps.messages hkeeps]
    · rw [heq, Wire.messages_add _ allowed.1.1]
    · rw [heq]
      rfl
  constructor
  · intro f
    rw [hsame]
    exact h.flow f
  · intro place x hx counter rest written failures hphase
    rcases hp.sendAt? hx with hold | ⟨-, hcalled⟩
    · obtain ⟨hnodup, past, hlog, hrest⟩ :=
        h.writes place x hold counter rest written failures hphase
      refine ⟨hnodup, past, hlog, fun c hc f hf => ?_⟩
      rw [hsame]
      rcases hp.wire with hkeeps | ⟨c', rfl, heq⟩ | ⟨a, b, rfl, heq⟩
      · rw [hkeeps.peer?] at hf
        exact hrest c hc f hf
      · rw [heq] at hf
        exact hrest c hc f hf
      · -- an end that has just been joined holds no message
        obtain ⟨-, ha, hb⟩ := allowed
        rw [heq, Wire.peer?_join] at hf
        split at hf
        · obtain rfl := Option.some.inj hf
          rw [wired.unjoined b hb]
          exact List.nil_sublist _
        · split at hf
          · obtain rfl := Option.some.inj hf
            rw [wired.unjoined a ha]
            exact List.nil_sublist _
          · exact hrest c hc f hf
    · cases hcalled.symm.trans hphase

/-- Nobody but the send that moves can be writing: it has the turn. -/
theorem others (turned : p.Turned) {place q : Nat} (hhead : p.sender.line.head? = some place)
    (hq : q ≠ place) {y : Send} (hy : p.sendAt? q = some y) {w : Wire} {log : Ledger} :
    y.Writes w log q := by
  refine Send.Writes.of_not_turn fun hturn => hq ?_
  exact Option.some.inj ((turned q y hy hturn).symm.trans hhead)

/-- A send takes a counter: it becomes the last in the ledger. -/
theorem assign (h : p.Flowing log) (wired : p.Wired) (turned : p.Turned) {place : Nat}
    {x : Send} (hhead : p.sender.line.head? = some place) (counter : UInt64) (sender : Sender) :
    Flowing { p with
      sender
      activities := p.activities.set place
        (.send { x with phase := .writing counter p.sender.registry.entries [] [] }) }
      (log ++ [⟨place, x.payload, counter⟩]) where
  flow := by
    intro f
    refine (h.flow f).trans ?_
    rw [Ledger.deliveries, Ledger.deliveries, List.map_append]
    exact List.sublist_append_left _ _
  writes := by
    intro q y hy
    rcases sendAt?_of_set hy with ⟨rfl, heq⟩ | ⟨hq, hy⟩
    · obtain rfl := Activity.send.inj heq
      intro c rest written failures hp
      obtain ⟨rfl, rfl, -, -⟩ := SendPhase.writing.inj hp
      exact ⟨wired.nodup, log, rfl, fun c _ f _ => h.flow f⟩
    · exact others turned hhead hq hy

theorem accept (h : p.Flowing log) (wired : p.Wired) (turned : p.Turned) {place : Nat}
    {x x' : Send} {counter : UInt64} {id : String} {r : Ref} {rest written : List (String × Ref)}
    {failures : List Failure} {sender : Sender} {wire : Wire}
    (hx : p.activities[place]? = some (.send x))
    (hphase : x.phase = .writing counter ((id, r) :: rest) written failures)
    (hphase' : x'.phase = .writing counter rest (written ++ [(id, r)]) failures)
    (hpayload : x'.payload = x.payload)
    (hbrings : p.wire.Brings (p.wire.arrivals r (x.frame p.sender counter)) wire) :
    Flowing { p with sender, wire, activities := p.activities.set place (.send x') } log := by
  have hsend := sendAt?_eq_some.mpr hx
  obtain ⟨hnodup, past, hlog, hrest⟩ := h.writes place x hsend _ _ _ _ hphase
  obtain ⟨hr, hnodup'⟩ := List.nodup_cons.mp hnodup
  have hframe : handed [x.frame p.sender counter] = [⟨x.payload, counter⟩] :=
    handed_singleton (Frame.decode_encode _)
  constructor
  · intro f
    change (handed (wire.conn f).messages).Sublist log.deliveries
    rw [(hbrings.conn f).messages, Wire.arrivals]
    split
    · next hf =>
      -- what has arrived here before was assigned before, and the frame is the last
      rw [handed_append, hframe, hlog, Ledger.deliveries, List.map_append]
      exact (hrest _ List.mem_cons_self f hf.1).append (List.Sublist.refl _)
    · rw [List.append_nil]
      exact h.flow f
  · intro q y hy
    rcases sendAt?_of_set hy with ⟨rfl, heq⟩ | ⟨hq, hy⟩
    · obtain rfl := Activity.send.inj heq
      intro c rest' written' failures' hp
      obtain ⟨rfl, rfl, -, -⟩ := SendPhase.writing.inj (hphase'.symm.trans hp)
      refine ⟨hnodup', past, hpayload ▸ hlog, fun c hc f hf => ?_⟩
      change wire.peer? c.2 = some f at hf
      rw [hbrings.peer?] at hf
      change (handed (wire.conn f).messages).Sublist past.deliveries
      -- what the others lead to is not where the frame has arrived
      have hne : ¬(p.wire.peer? r = some f ∧ f < p.wire.connections.length) := by
        rintro ⟨hrf, -⟩
        exact hr (List.mem_map.mpr ⟨c, hc, wired.peer?_inj hf hrf⟩)
      rw [(hbrings.conn f).messages, Wire.arrivals, if_neg hne, List.append_nil]
      exact hrest c (List.mem_cons_of_mem _ hc) f hf
    · have hhead := turned place x hsend (by simp [Send.HasTurn, hphase])
      exact others turned hhead hq hy

/-- No frame arrives, and the activity that moves is as it should be. -/
theorem still (h : p.Flowing log) {place : Nat} {a : Activity} {wire : Wire}
    (hpeer : ∀ r, wire.peer? r = p.wire.peer? r)
    (hsame : ∀ f, handed (wire.conn f).messages = handed (p.wire.conn f).messages)
    (ha : ∀ x, a = .send x → x.Writes p.wire log place) (sender : Sender)
    (receivers : List Receiver) :
    Flowing { p with sender, receivers, wire, activities := p.activities.set place a } log where
  flow := by
    intro f
    change (handed (wire.conn f).messages).Sublist log.deliveries
    rw [hsame]
    exact h.flow f
  writes := by
    intro q y hy
    refine Send.Writes.still ?_ hpeer hsame
    rcases sendAt?_of_set hy with ⟨rfl, heq⟩ | ⟨-, hy⟩
    · exact ha y heq
    · exact h.writes q y hy

/-- A step of a send keeps every connection in the order of the ledger. -/
theorem send (h : p.Flowing log) (wired : p.Wired) (turned : p.Turned) {place pick : Nat}
    {x x' : Send} {sender : Sender} {wire : Wire} (hx : p.activities[place]? = some (.send x))
    (hmove : Send.Move place pick p.sender p.wire x sender wire x') :
    Flowing { p with sender, wire, activities := p.activities.set place (.send x') }
      (log ++ Ledger.taken place (some x) (some x')) := by
  have hstill (hnone : Ledger.taken place (some x) (some x') = []) (hkeeps : p.wire.Keeps wire)
      (hwrites : x'.Writes p.wire log place) :
      Flowing { p with sender, wire, activities := p.activities.set place (.send x') }
        (log ++ Ledger.taken place (some x) (some x')) := by
    rw [hnone, List.append_nil]
    refine h.still hkeeps.peer? (fun f => congrArg handed (Wire.Keeps.messages hkeeps f)) ?_ _ _
    intro y hy
    exact Activity.send.inj hy ▸ hwrites
  cases hmove with
  | start hp hhead _ =>
    -- everything that was assigned before is the past of this send
    rw [Ledger.taken_of_writing hp rfl]
    exact h.assign wired turned hhead _ _
  | accept hp hw =>
    rw [Ledger.taken_of_ne_queued (by simp [hp]), List.append_nil]
    exact h.accept wired turned hx hp rfl rfl (Wire.brings_of_write wired.mute hw)
  | @reject counter id r rest written failures e w' hp hw =>
    refine hstill (Ledger.taken_of_ne_queued (by simp [hp]))
      (Wire.keeps_of_write_error wired.mute hw) ?_
    intro counter' rest' written' failures' hp'
    obtain ⟨rfl, rfl, -, -⟩ := SendPhase.writing.inj hp'
    obtain ⟨hnodup, past, hlog, hrest⟩ :=
      h.writes place x (sendAt?_eq_some.mpr hx) _ _ _ _ hp
    -- a connection that takes no frame leaves a gap, but the order is kept
    exact ⟨(List.nodup_cons.mp hnodup).2, past, hlog,
      fun c hc => hrest c (List.mem_cons_of_mem _ hc)⟩
  | abandon hp =>
    exact hstill (Ledger.taken_of_done rfl) (.refl _) (by simp [Send.Writes])
  | refuse hp | enqueue hp | fail hp | succeed hp =>
    exact hstill (Ledger.taken_of_ne_queued (by simp [hp])) (.refl _) (by simp [Send.Writes])
  | await hp =>
    exact hstill (Ledger.taken_of_ne_queued (by simp [hp])) (.refl _) (by simp [Send.Writes])
  | wait hp _ hstep =>
    have hkeeps := (AckWait.move_of_step hstep).wire wired.mute
    exact hstill (Ledger.taken_of_ne_queued (by simp [hp])) hkeeps (by simp [Send.Writes])
  | conclude hp _ hstep =>
    have hkeeps := (AckWait.move_of_step hstep).wire wired.mute
    exact hstill (Ledger.taken_of_ne_queued (by simp [hp])) hkeeps (by simp [Send.Writes])

theorem move (h : p.Flowing log) (wired : p.Wired) (turned : p.Turned) (place pick : Nat) :
    Flowing (p.apply (.move place pick)) (log ++ p.assigned (.move place pick)) := by
  have hmoved := p.moved_apply place pick
  generalize happly : p.apply (.move place pick) = p' at hmoved
  cases hmoved with
  | send hx hmove =>
    rw [assigned_send hx happly]
    exact h.send wired turned hx hmove
  | @listen i l l' _ _ _ hl _ hmove =>
    obtain ⟨news, hbrings, hnews⟩ := hmove.brings wired.mute
    rw [assigned_listen hl happly rfl, List.append_nil]
    have hread : ∀ x, Activity.listen i l' = .send x → x.Writes p.wire log place := by
      intro x heq
      cases heq
    refine h.still hbrings.peer? ?_ hread _ _
    intro f
    have hacks : handed (news f) = [] := by
      refine handed_acks fun bytes hb => ?_
      obtain ⟨-, counter, -, heq⟩ := hnews f bytes hb
      exact ⟨counter, heq⟩
    rw [(hbrings.conn f).messages, handed_append, hacks, List.append_nil]
  | stay =>
    rw [assigned_stay happly, List.append_nil]
    exact h

end Flowing

end Pipeline

end BlockFeed
