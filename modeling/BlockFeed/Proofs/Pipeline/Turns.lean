import Mathlib.Data.List.Basic
import BlockFeed.Proofs.Pipeline.Flow

/-!
# Turns of a sender

Sends take their turns in the order in which they joined the line, and each turn that finds a
connection takes the next counter and writes one frame, under that counter, once to each of the
connections that it found.

## Main definitions

* `Turn`: a send has its turn and finds connections.
* `Pipeline.turns`, `Pipeline.queue`: the turns of a run, and who joined the line in its course.
* `Send.Kept`: what a send has written, phase by phase, and under which counter.
* `Pipeline.Counted`: the counters, the line and all sends are as the turns say.

## Main results

* `Pipeline.Counted.apply`: so they are after everything that may happen.

## Design notes

A turn is recognized by what it finds, a registry that is not empty, and not by what it does. That
it takes a counter, and which one, is what has to be shown.
-/

namespace BlockFeed

/-- A send has its turn and finds connections. -/
structure Turn where
  /-- The number of the activity that sends the payload. -/
  place : Nat
  payload : Bytes
  /-- The connections that are registered then. -/
  snapshot : List (String × Ref)

/-- The writes of a turn under a counter: its frame, once to each of the connections. -/
def Turn.calls (withAcknowledge : Bool) (counter : UInt64) (t : Turn) : List (Ref × Bytes) :=
  t.snapshot.map fun c => (c.2, Frame.encode ⟨withAcknowledge, counter, t.payload⟩)

/-- What a turn amounts to in the ledger, if so many turns came before. -/
def Turn.assignment (before : Nat) (t : Turn) : Assignment :=
  ⟨t.place, t.payload, UInt64.ofNat (before + 1)⟩

namespace Send

/-- The turn that the next step of the send under a number is, if it has its turn and finds
connections. -/
def turn? (me : Nat) (s : Sender) (x : Send) : Option Turn :=
  match x.phase with
  | .queued =>
    if s.line.head? = some me ∧ s.registry.isEmpty = false then
      some ⟨me, x.payload, s.registry.entries⟩
    else none
  | _ => none

/-- No turn of the send has found a connection. -/
def Unserved (x : Send) : Prop :=
  match x.phase with
  | .called | .queued | .done (.error .noConnections) | .done (.error .emptyPayload) => True
  | _ => False

/-- What the writes that a send has called for are: none before it has had a turn, and all that
its turn asks for, but for those that it still owes, afterwards. -/
structure Kept (s : Sender) (turns : List Turn) (calls : List (Ref × Bytes)) (me : Nat)
    (x : Send) : Prop where
  unserved : x.Unserved → me ∉ turns.map (·.place) ∧ calls = []
  served : ¬x.Unserved → ∃ (i : Nat) (t : Turn), turns[i]? = some t ∧ t.place = me ∧
    t.payload = x.payload ∧
    calls ++ x.owes s = t.calls s.withAcknowledge (UInt64.ofNat (i + 1))

variable {me pick : Nat} {s s' : Sender} {w w' : Wire} {x x' : Send} {turns : List Turn}
  {calls : List (Ref × Bytes)}

/-- Turns of others change nothing for a send. -/
theorem Kept.extend (h : x.Kept s turns calls me) {more : List Turn}
    (others : ∀ t ∈ more, t.place ≠ me) (hack : s'.withAcknowledge = s.withAcknowledge) :
    x.Kept s' (turns ++ more) calls me where
  unserved := by
    intro hun
    obtain ⟨hnot, hcalls⟩ := h.unserved hun
    refine ⟨?_, hcalls⟩
    rw [List.map_append, List.mem_append, not_or]
    refine ⟨hnot, fun hmem => ?_⟩
    obtain ⟨t, ht, heq⟩ := List.mem_map.mp hmem
    exact others t ht heq
  served := by
    intro hserved
    obtain ⟨i, t, hi, hplace, hpayload, hcalls⟩ := h.served hserved
    have hlt := (List.getElem?_eq_some_iff.mp hi).1
    rw [owes_congr hack, hack]
    exact ⟨i, t, (List.getElem?_append_left hlt).trans hi, hplace, hpayload, hcalls⟩

theorem turn?_eq_none (h : x.phase ≠ .queued) : x.turn? me s = none := by
  rw [turn?]
  split
  · next hq => exact absurd hq h
  · rfl

theorem eq_of_turn? {t : Turn} (h : x.turn? me s = some t) :
    t = ⟨me, x.payload, s.registry.entries⟩ := by
  rw [turn?] at h
  split at h
  · split at h
    · exact (Option.some.inj h).symm
    · cases h
  · cases h

theorem step_ne_none_of_turn? {t : Turn} (h : x.turn? me s = some t) :
    x.step me pick s w ≠ none := by
  rw [turn?] at h
  split at h
  · next hp =>
    split at h
    · next hturn => simp [step, hp, hturn.1]
    · cases h
  · cases h

theorem not_unserved_verdict {waits : List AckWait} {failures : List Failure}
    (h : x.phase = .done (verdict waits failures)) : ¬x.Unserved := by
  rcases verdict_cases waits failures with heq | ⟨_, heq⟩ <;> simp [Unserved, h, heq]

/-- What a step of a send has to do with its turn. -/
inductive Service (me : Nat) (s : Sender) (x : Send) (s' : Sender) (x' : Send) : Prop where
  /-- It is none, or a turn that finds no connection: nothing is written. -/
  | before : x.Unserved → x'.Unserved → x.offers s = [] → x.turn? me s = none →
      Ledger.taken me (some x) (some x') = [] → s'.lastCounter = s.lastCounter →
      Service me s x s' x'
  /-- It is a turn that finds connections, and takes the next counter. -/
  | turn : x.Unserved → ¬x'.Unserved → x.offers s = [] → s.line.head? = some me →
      x.turn? me s = some ⟨me, x.payload, s.registry.entries⟩ →
      x'.owes s' = Turn.calls s.withAcknowledge (s.lastCounter + 1)
        ⟨me, x.payload, s.registry.entries⟩ →
      Ledger.taken me (some x) (some x') = [⟨me, x.payload, s.lastCounter + 1⟩] →
      s'.lastCounter = s.lastCounter + 1 → s'.line = s.line → Service me s x s' x'
  /-- It comes after that, and writes what is owed next. -/
  | after : ¬x.Unserved → ¬x'.Unserved → x.owes s = x.offers s ++ x'.owes s' →
      x.turn? me s = none → Ledger.taken me (some x) (some x') = [] →
      s'.lastCounter = s.lastCounter → Service me s x s' x'

theorem Move.service (h : Move me pick s w x s' w' x') : Service me s x s' x' := by
  have howes := h.owes
  cases h with
  | refuse hp he =>
    refine .before (by simp [Unserved, hp]) ?_ (by simp [offers, hp]) (turn?_eq_none (by simp [hp]))
      (Ledger.taken_of_ne_queued (by simp [hp])) rfl
    rcases he with ⟨-, rfl⟩ | ⟨-, -, rfl⟩ <;> trivial
  | enqueue hp =>
    exact .before (by simp [Unserved, hp]) trivial (by simp [offers, hp])
      (turn?_eq_none (by simp [hp])) (Ledger.taken_of_ne_queued (by simp [hp])) rfl
  | abandon hp hhead hempty =>
    exact .before (by simp [Unserved, hp]) trivial (by simp [offers, hp])
      (by simp [turn?, hp, hempty]) (Ledger.taken_of_done rfl) rfl
  | start hp hhead hreg =>
    exact .turn (by simp [Unserved, hp]) (by simp [Unserved]) (by simp [offers, hp]) hhead
      (by simp [turn?, hp, hhead, hreg]) (by simp [Send.owes, Turn.calls, frame])
      (Ledger.taken_of_writing hp rfl) rfl rfl
  | accept hp | reject hp | fail hp | succeed hp | await hp =>
    exact .after (by simp [Unserved, hp]) (by simp [Unserved]) (howes (by simp [hp]))
      (turn?_eq_none (by simp [hp])) (Ledger.taken_of_ne_queued (by simp [hp])) rfl
  | wait hp _ hstep =>
    exact .after (by simp [Unserved, hp]) (by simp [Unserved]) (howes (by simp [hp]))
      (turn?_eq_none (by simp [hp])) (Ledger.taken_of_ne_queued (by simp [hp]))
      (AckWait.move_of_step hstep).keeps.lastCounter
  | conclude hp _ hstep =>
    exact .after (by simp [Unserved, hp]) (not_unserved_verdict rfl) (howes (by simp [hp]))
      (turn?_eq_none (by simp [hp])) (Ledger.taken_of_ne_queued (by simp [hp]))
      (AckWait.move_of_step hstep).keeps.lastCounter

theorem next_counter (last : s.lastCounter = UInt64.ofNat turns.length) :
    s.lastCounter + 1 = UInt64.ofNat (turns.length + 1) := by
  rw [last, UInt64.ofNat_add]
  rfl

/-- What a send has written after one of its steps is again what its turn asks for. -/
theorem Move.kept (h : Move me pick s w x s' w' x') (hx : x.Kept s turns calls me)
    (last : s.lastCounter = UInt64.ofNat turns.length) :
    x'.Kept s' (turns ++ (x.turn? me s).toList) (calls ++ x.offers s) me := by
  have hack := h.settings.1
  have hpayload := h.payload
  cases h.service with
  | before hun hun' hoffers hturn =>
    rw [hturn, hoffers, Option.toList_none, List.append_nil, List.append_nil]
    exact ⟨fun _ => hx.unserved hun, fun hserved => absurd hun' hserved⟩
  | turn hun hserved' hoffers _ hturn howes =>
    refine ⟨fun hun' => absurd hun' hserved', fun _ => ?_⟩
    refine ⟨turns.length, ⟨me, x.payload, s.registry.entries⟩, ?_, rfl, hpayload.symm, ?_⟩
    · rw [hturn, Option.toList_some, List.getElem?_concat_length]
    · rw [(hx.unserved hun).2, hoffers, howes, next_counter last, hack]
      rfl
  | after hserved hserved' howes hturn =>
    rw [hturn, Option.toList_none, List.append_nil]
    refine ⟨fun hun' => absurd hun' hserved', fun _ => ?_⟩
    obtain ⟨i, t, hi, hplace, hsame, hcalls⟩ := hx.served hserved
    refine ⟨i, t, hi, hplace, hsame.trans hpayload.symm, ?_⟩
    rw [hack, ← hcalls, howes, List.append_assoc]

end Send

namespace Pipeline

/-- The turn that an event is, if it is one that finds connections. -/
def turnsAt (p : Pipeline) (e : Event) : List Turn :=
  match e with
  | .move place _ => ((p.sendAt? place).bind (·.turn? place p.sender)).toList
  | _ => []

/-- The turns of a run that find connections, from the first to the last. -/
def turns (p : Pipeline) (events : List Event) : List Turn := collect apply turnsAt p events

/-- Who joins the line of the sender in an event. -/
def joined (p : Pipeline) (e : Event) : List Nat :=
  (p.apply e).sender.line.drop p.sender.line.length

/-- Who has joined the line of the sender in the course of a run, from the first to the last. -/
def queue (p : Pipeline) (events : List Event) : List Nat := collect apply joined p events

/-- What is registered exists, and connections come without a history of writes. -/
def Registers (p : Pipeline) (e : Event) : Prop :=
  match e with
  | .connect c => c.writes = []
  | .register r => r < p.wire.connections.length
  | _ => True

/-- The counters, the line and all sends are as the turns say. -/
structure Counted (p : Pipeline) (log : Ledger) (turns : List Turn) (queue : List Nat)
    (calls : Nat → List (Ref × Bytes)) : Prop where
  named : p.Named
  turned : p.Turned
  last : p.sender.lastCounter = UInt64.ofNat turns.length
  ledger : log = turns.mapIdx fun i t => t.assignment i
  /-- Whoever had a turn has left the line, or is the first in it. -/
  line : ∃ past, queue = past ++ p.sender.line ∧
    (turns.map (·.place)).Sublist (past ++ p.sender.line.take 1)
  nodup : queue.Nodup
  begun : ∀ place ∈ queue, ∃ x, p.sendAt? place = some x ∧ x.phase ≠ .called
  snapshots : ∀ t ∈ turns, (t.snapshot.map Prod.snd).Nodup ∧
    ∀ c ∈ t.snapshot, c.2 < p.wire.connections.length
  sends : ∀ place x, p.sendAt? place = some x → x.Kept p.sender turns (calls place) place
  fresh : ∀ place, p.activities.length ≤ place → calls place = []

namespace Counted

variable {p p' : Pipeline} {log : Ledger} {turns : List Turn} {queue : List Nat}
  {calls : Nat → List (Ref × Bytes)}

theorem start (withAcknowledge : Bool) :
    (beginning withAcknowledge).Counted [] [] [] fun _ => [] where
  named := ⟨nofun⟩
  turned := .start withAcknowledge
  last := rfl
  ledger := rfl
  line := ⟨[], rfl, List.nil_sublist _⟩
  nodup := List.nodup_nil
  begun := nofun
  snapshots := nofun
  sends := nofun
  fresh := fun _ _ => rfl

theorem mem_queue (h : p.Counted log turns queue calls) {t : Turn} (ht : t ∈ turns) :
    t.place ∈ queue := by
  obtain ⟨past, hqueue, hsub⟩ := h.line
  have hmem := hsub.subset (List.mem_map_of_mem ht)
  rw [hqueue]
  rcases List.mem_append.mp hmem with hpast | hhead
  · exact List.mem_append_left _ hpast
  · exact List.mem_append_right _ (List.mem_of_mem_take hhead)

theorem aside (h : p.Counted log turns queue calls) {e : Event} (hp : p.Aside e p')
    (registers : p.Registers e) : p'.Counted log turns queue calls where
  named := h.named.aside hp fun r he => by
    subst he
    exact registers
  turned := Turned.aside h.turned hp
  last := hp.lastCounter.trans h.last
  ledger := h.ledger
  line := by
    rw [hp.line]
    exact h.line
  nodup := h.nodup
  begun := by
    intro place hplace
    obtain ⟨x, hx, hne⟩ := h.begun place hplace
    exact ⟨x, hp.sendAt?_of_some hx, hne⟩
  snapshots := by
    intro t ht
    obtain ⟨hnodup, hexist⟩ := h.snapshots t ht
    refine ⟨hnodup, fun c hc => ?_⟩
    have hlt := hexist c hc
    rcases hp.logs with hstill | ⟨d, -, heq⟩
    · exact hstill.size ▸ hlt
    · rw [heq, Wire.length_add]
      exact Nat.lt_succ_of_lt hlt
  sends := by
    intro place x hx
    rcases hp.sendAt? hx with hold | ⟨hge, hcalled⟩
    · have hkept : x.Kept p'.sender (turns ++ []) (calls place) place :=
        (h.sends place x hold).extend nofun hp.withAcknowledge
      rwa [List.append_nil] at hkept
    · refine ⟨fun _ => ⟨fun hmem => ?_, h.fresh place hge⟩, fun hserved => ?_⟩
      · -- whoever had a turn began before
        obtain ⟨t, ht, rfl⟩ := List.mem_map.mp hmem
        obtain ⟨y, hy, -⟩ := h.begun _ (h.mem_queue ht)
        have hlt := (List.getElem?_eq_some_iff.mp (sendAt?_eq_some.mp hy)).1
        exact absurd hge (Nat.not_le_of_lt hlt)
      · exact absurd (by rw [Send.Unserved, hcalled]; trivial) hserved
  fresh := by
    intro place hge
    obtain ⟨more, hmore, -⟩ := hp.activities
    rw [hmore, List.length_append] at hge
    exact h.fresh place (by omega)

/-- The line after a step of a send: it stays, the send joins it, or the first leaves it. -/
theorem line_send (h : p.Counted log turns queue calls) {place pick : Nat} {x x' : Send}
    {sender : Sender} {wire : Wire} (hx : p.sendAt? place = some x)
    (hmove : Send.Move place pick p.sender p.wire x sender wire x') :
    ∃ past, queue ++ sender.line.drop p.sender.line.length = past ++ sender.line ∧
      ((turns ++ (x.turn? place p.sender).toList).map (·.place)).Sublist
        (past ++ sender.line.take 1) := by
  obtain ⟨past, hqueue, hsub⟩ := h.line
  have hserved := (h.sends place x hx).unserved
  have hline := hmove.line (h.turned place x hx)
  cases hmove.service with
  | turn hun _ _ hhead hturn _ _ _ hsame =>
    -- the send is the first in the line, and has had no turn before
    refine ⟨past, by rw [hsame, hqueue, List.drop_length, List.append_nil], ?_⟩
    have hfirst : p.sender.line.take 1 = [place] := by
      rw [List.take_one, hhead]
      rfl
    rw [hfirst] at hsub
    obtain ⟨before, last, hsplit, hbefore, hlast⟩ := List.sublist_append_iff.mp hsub
    have hnone : last = [] := by
      rcases List.sublist_singleton.mp hlast with hnil | hone
      · exact hnil
      · refine absurd ?_ (hserved hun).1
        rw [hsplit, hone]
        exact List.mem_append_right _ (List.mem_singleton_self _)
    rw [hnone, List.append_nil] at hsplit
    rw [hturn, Option.toList_some, List.map_append, hsplit, hsame, hfirst]
    exact hbefore.append (List.Sublist.refl _)
  | before _ _ _ hturn | after _ _ _ hturn =>
    rw [hturn, Option.toList_none, List.append_nil]
    cases hline with
    | stay hsame =>
      exact ⟨past, by rw [hsame, hqueue, List.drop_length, List.append_nil], by rwa [hsame]⟩
    | join _ _ hjoin =>
      refine ⟨past, by rw [hjoin, hqueue, List.drop_left, List.append_assoc], hsub.trans ?_⟩
      rw [hjoin]
      refine (List.Sublist.refl _).append ?_
      cases p.sender.line <;> simp
    | leave _ _ htail hhead =>
      obtain ⟨rest, hrest⟩ := List.head?_eq_some_iff.mp hhead
      refine ⟨past ++ [place], ?_, ?_⟩
      · rw [htail, hqueue, hrest]
        simp
      · rw [hrest] at hsub
        exact hsub.trans (List.sublist_append_left _ _)

/-- Only a send that begins joins the line, so nobody joins it twice. -/
theorem joined_send (h : p.Counted log turns queue calls) {place pick : Nat} {x x' : Send}
    {sender : Sender} {wire : Wire} (hx : p.sendAt? place = some x)
    (hmove : Send.Move place pick p.sender p.wire x sender wire x') :
    (queue ++ sender.line.drop p.sender.line.length).Nodup ∧
      ∀ q ≠ place, q ∉ sender.line.drop p.sender.line.length := by
  cases hmove.line (h.turned place x hx) with
  | stay hsame =>
    rw [hsame, List.drop_length, List.append_nil]
    exact ⟨h.nodup, fun _ _ => List.not_mem_nil⟩
  | join hcalled _ hjoin =>
    rw [hjoin, List.drop_left]
    refine ⟨List.nodup_append.mpr ⟨h.nodup, by simp, ?_⟩, by simp⟩
    rintro q hq r hr rfl
    obtain rfl := List.mem_singleton.mp hr
    obtain ⟨y, hy, hne⟩ := h.begun q hq
    obtain rfl := Option.some.inj (hx.symm.trans hy)
    exact hne hcalled
  | leave _ _ htail =>
    have hnone : sender.line.drop p.sender.line.length = [] := by
      rw [htail, List.drop_eq_nil_iff, List.length_tail]
      omega
    rw [hnone, List.append_nil]
    exact ⟨h.nodup, fun _ _ => List.not_mem_nil⟩

/-- A turn takes the next counter, and no other step of a send takes one. -/
theorem ledger_send (h : p.Counted log turns queue calls) {place pick : Nat} {x x' : Send}
    {sender : Sender} {wire : Wire}
    (hmove : Send.Move place pick p.sender p.wire x sender wire x') :
    log ++ Ledger.taken place (some x) (some x')
        = (turns ++ (x.turn? place p.sender).toList).mapIdx (fun i t => t.assignment i) ∧
      sender.lastCounter = UInt64.ofNat (turns ++ (x.turn? place p.sender).toList).length := by
  cases hmove.service with
  | turn _ _ _ _ hturn _ htaken hlast =>
    have hnext := Send.next_counter h.last
    rw [hturn, htaken, hlast, Option.toList_some, List.mapIdx_concat, ← h.ledger, hnext,
      List.length_append]
    exact ⟨rfl, rfl⟩
  | before _ _ _ hturn htaken hlast | after _ _ _ hturn htaken hlast =>
    rw [hturn, htaken, hlast, Option.toList_none, List.append_nil, List.append_nil]
    exact ⟨h.ledger, h.last⟩

theorem snapshots_send (h : p.Counted log turns queue calls) {place : Nat} {x : Send} {t : Turn}
    (ht : t ∈ turns ++ (x.turn? place p.sender).toList) :
    (t.snapshot.map Prod.snd).Nodup ∧ ∀ c ∈ t.snapshot, c.2 < p.wire.connections.length := by
  rcases List.mem_append.mp ht with hold | hnew
  · exact h.snapshots t hold
  · obtain rfl := Send.eq_of_turn? (Option.mem_toList.mp hnew)
    exact ⟨h.named.nodup, fun c hc => (h.named.entries c hc).1⟩

/-- What a send calls for next is one of the writes of its turn, so its connection exists. -/
theorem exists_of_offers (h : p.Counted log turns queue calls) {place pick : Nat} {x x' : Send}
    {sender : Sender} {wire : Wire} (hx : p.sendAt? place = some x)
    (hmove : Send.Move place pick p.sender p.wire x sender wire x') {o : Ref × Bytes}
    (ho : o ∈ x.offers p.sender) : o.1 < p.wire.connections.length := by
  cases hmove.service with
  | before _ _ hnone | turn _ _ hnone =>
    rw [hnone] at ho
    cases ho
  | after hserved _ howes =>
    obtain ⟨i, t, hi, -, -, hcalls⟩ := (h.sends place x hx).served hserved
    have hmem : o ∈ t.calls p.sender.withAcknowledge (UInt64.ofNat (i + 1)) := by
      rw [← hcalls, howes]
      exact List.mem_append_right _ (List.mem_append_left _ ho)
    obtain ⟨c, hc, rfl⟩ := List.mem_map.mp hmem
    exact (h.snapshots t (List.mem_of_getElem? hi)).2 c hc

theorem send (h : p.Counted log turns queue calls) {place pick : Nat} {x x' : Send}
    {sender : Sender} {wire : Wire} (hx : p.activities[place]? = some (.send x))
    (hmove : Send.Move place pick p.sender p.wire x sender wire x')
    (happly : p.apply (.move place pick)
      = { p with sender, wire, activities := p.activities.set place (.send x') }) :
    Counted (p.apply (.move place pick)) (log ++ p.assigned (.move place pick))
      (turns ++ p.turnsAt (.move place pick)) (queue ++ p.joined (.move place pick))
      fun q => calls q ++ gainedAt Connection.offered q p (.move place pick) := by
  have hsend : p.sendAt? place = some x := sendAt?_eq_some.mpr hx
  have hturns : p.turnsAt (.move place pick) = (x.turn? place p.sender).toList := by
    rw [turnsAt, hsend]
    rfl
  have hjoined : p.joined (.move place pick) = sender.line.drop p.sender.line.length := by
    rw [joined, happly]
  have hnamed := h.named.move place pick
  have hturned := h.turned.move place pick
  have hgained (q : Nat) : gainedAt Connection.offered q p (.move place pick)
      = if place = q then x.offers p.sender else [] := by
    rw [gainedAt, happly]
    dsimp only
    rw [hmove.news_offered fun o ho => h.exists_of_offers hsend hmove ho]
  have hledger := h.ledger_send hmove
  rw [hturns, hjoined, assigned_send hx happly]
  simp only [hgained]
  rw [happly] at hnamed hturned ⊢
  have hafter (q : Nat) : Pipeline.sendAt?
      { p with sender, wire, activities := p.activities.set place (.send x') } q
        = if q = place then some x' else p.sendAt? q := sendAt?_set_send hx q
  have hjoins := h.joined_send hsend hmove
  -- what is left says something of every place, and only this one has changed
  refine ⟨hnamed, hturned, hledger.2, hledger.1, h.line_send hsend hmove, hjoins.1, ?_, ?_, ?_, ?_⟩
  · intro q hq
    rw [hafter]
    split
    · exact ⟨x', rfl, hmove.ne_called⟩
    · next hne => exact h.begun q (Or.resolve_right (List.mem_append.mp hq) (hjoins.2 q hne))
  · intro t ht
    obtain ⟨_, _, hlogs⟩ := hmove.logs
    have hsnapshot := h.snapshots_send ht
    exact ⟨hsnapshot.1, fun c hc => hlogs.size ▸ hsnapshot.2 c hc⟩
  · intro q y hy
    rcases sendAt?_of_set hy with ⟨rfl, heq⟩ | ⟨hq, hy⟩
    · obtain rfl := Activity.send.inj heq
      rw [if_pos rfl]
      exact hmove.kept (h.sends q x hsend) h.last
    · rw [if_neg fun heq => hq heq.symm, List.append_nil]
      refine (h.sends q y hy).extend (fun t ht => ?_) hmove.settings.1
      rw [Send.eq_of_turn? (Option.mem_toList.mp ht)]
      exact fun heq => hq heq.symm
  · intro q hge
    have hlt := (List.getElem?_eq_some_iff.mp hx).1
    rw [List.length_set] at hge
    rw [h.fresh q hge, if_neg (by omega)]
    rfl

theorem listen (h : p.Counted log turns queue calls) {place pick i : Nat} {l l' : Listen}
    {r r' : Receiver} {wire : Wire} (hl : p.activities[place]? = some (.listen i l))
    (hmove : Listen.Move p.now r p.wire l r' wire l')
    (happly : p.apply (.move place pick) = { p with
      receivers := p.receivers.set i r', wire
      activities := p.activities.set place (.listen i l') }) :
    Counted (p.apply (.move place pick)) (log ++ p.assigned (.move place pick))
      (turns ++ p.turnsAt (.move place pick)) (queue ++ p.joined (.move place pick))
      fun q => calls q ++ gainedAt Connection.offered q p (.move place pick) := by
  have hnone : p.sendAt? place = none := by rw [sendAt?, hl]
  have hturns : p.turnsAt (.move place pick) = [] := by
    rw [turnsAt, hnone]
    rfl
  have hjoined : p.joined (.move place pick) = [] := by
    rw [joined, happly]
    exact List.drop_length
  have hnamed := h.named.move place pick
  have hturned := h.turned.move place pick
  rw [hturns, hjoined, assigned_listen hl happly rfl, List.append_nil, List.append_nil,
    List.append_nil]
  have hcalls {q : Nat} (hq : place ≠ q) :
      calls q ++ gainedAt Connection.offered q p (.move place pick) = calls q := by
    simp [gainedAt, hq]
  rw [happly] at hnamed hturned ⊢
  have hafter (q : Nat) : Pipeline.sendAt? { p with
      receivers := p.receivers.set i r', wire
      activities := p.activities.set place (.listen i l') } q = p.sendAt? q :=
    sendAt?_set_listen hl q
  -- a reading writes acknowledgments, but no send has called for them
  refine ⟨hnamed, hturned, h.last, h.ledger, h.line, h.nodup, ?_, ?_, ?_, ?_⟩
  · intro q hq
    rw [hafter]
    exact h.begun q hq
  · intro t ht
    obtain ⟨_, _, hlogs, -⟩ := hmove.logs
    obtain ⟨hnodup, hexist⟩ := h.snapshots t ht
    exact ⟨hnodup, fun c hc => hlogs.size ▸ hexist c hc⟩
  · intro q y hy
    rw [hafter] at hy
    have hq : place ≠ q := by
      rintro rfl
      cases hnone.symm.trans hy
    rw [hcalls hq]
    exact h.sends q y hy
  · intro q hge
    have hlt := (List.getElem?_eq_some_iff.mp hl).1
    rw [List.length_set] at hge
    rw [hcalls (by omega), h.fresh q hge]

theorem turnsAt_of_move_eq_none {place pick : Nat} (h : p.move place pick = none) :
    p.turnsAt (.move place pick) = [] := by
  rw [turnsAt]
  cases hx : p.sendAt? place with
  | none => rfl
  | some x =>
    cases hturn : x.turn? place p.sender with
    | none => simp [hturn]
    | some t =>
      exact absurd ((move_send_eq_none_iff (sendAt?_eq_some.mp hx)).mp h)
        (Send.step_ne_none_of_turn? hturn)

theorem apply (h : p.Counted log turns queue calls) {e : Event} (registers : p.Registers e) :
    Counted (p.apply e) (log ++ p.assigned e) (turns ++ p.turnsAt e) (queue ++ p.joined e)
      fun q => calls q ++ gainedAt Connection.offered q p e := by
  by_cases he : ∃ place pick, e = .move place pick
  · obtain ⟨place, pick, rfl⟩ := he
    have hmoved := p.moved_apply place pick
    generalize happly : p.apply (.move place pick) = p' at hmoved
    cases hmoved with
    | send hx hmove => exact happly ▸ h.send hx hmove happly
    | listen hl _ hmove => exact happly ▸ h.listen hl hmove happly
    | stay hnone =>
      have hgained (q : Nat) : gainedAt Connection.offered q p (.move place pick) = [] := by
        rw [gainedAt, happly, Wire.news_eq_nil rfl fun _ => rfl, ite_self]
      have hjoined : p.joined (.move place pick) = [] := by
        rw [joined, happly, List.drop_length]
      simp only [hgained, hjoined, turnsAt_of_move_eq_none hnone, assigned_stay happly,
        List.append_nil]
      exact h
  · have hmove : ∀ place pick, e ≠ .move place pick := fun q pick heq => he ⟨q, pick, heq⟩
    have haside := aside_apply (p := p) hmove
    have hgained (q : Nat) : gainedAt Connection.offered q p e = [] := by
      rw [gainedAt]
      exact hmove
    have hturns : p.turnsAt e = [] := by
      rw [turnsAt]
      exact hmove
    have hjoined : p.joined e = [] := by
      rw [joined, haside.line, List.drop_length]
    simp only [hgained, hturns, hjoined, assigned_of_ne_move hmove, List.append_nil]
    exact h.aside haside registers

end Counted

end Pipeline

end BlockFeed
