import BlockFeed.Proofs.Pipeline.Turns

/-!
# Counters of a sender

Every connection accepts frames in the order of their assignments, whatever happens to it, and what
counters have to do with turns, writes and frames comes out of that and of the turns of a run.

## Main definitions

* `Send.Leads`: what holds while a send writes its frame to one connection after the other.
* `Pipeline.Rising`: every connection has accepted frames in the order of the ledger.

## Main results

* `Pipeline.counters_of_turns`: how counters go with turns, with writes and with frames.
-/

namespace BlockFeed

/-- Writes that are not accepted, or that are acknowledgments, leave no frame. -/
theorem Connection.Logs.handed_written {c c' : Connection} {calls : List WriteCall}
    {reads : List Bytes} (h : c.Logs calls reads c')
    (none : ∀ call ∈ calls, call.error.isNone = true → ∃ n, call.bytes = Ack.encode n) :
    handed c'.written = handed c.written := by
  have hnone : handed ((calls.filter fun w => w.error.isNone).map (·.bytes)) = [] := by
    refine handed_acks fun bytes hb => ?_
    obtain ⟨call, hcall, rfl⟩ := List.mem_map.mp hb
    obtain ⟨hmem, hok⟩ := List.mem_filter.mp hcall
    exact none call hmem hok
  rw [h.written, handed_append, hnone, List.append_nil]

namespace Send

variable {me pick : Nat} {s s' : Sender} {w w' : Wire} {x x' : Send} {log : Ledger}

/-- A step of a send leaves no frame at any connection, or its frame at the next one. -/
theorem Move.handed_written (h : Move me pick s w x s' w' x') :
    (∀ r, handed (w'.conn r).written = handed (w.conn r).written) ∨
      ∃ counter id r rest written failures,
        x.phase = .writing counter ((id, r) :: rest) written failures ∧
        x'.phase = .writing counter rest (written ++ [(id, r)]) failures ∧
        ∀ f, handed (w'.conn f).written
          = handed (w.conn f).written ++ w.only r [⟨x.payload, counter⟩] f := by
  cases h with
  | refuse | enqueue | abandon | start | fail | succeed | await => exact .inl fun _ => rfl
  | wait _ _ hstep | conclude _ _ hstep =>
    obtain ⟨_, hlogs⟩ := (AckWait.move_of_step hstep).logs
    exact .inl fun r => (hlogs.conn r).handed_written (by simp)
  | reject hp hw =>
    refine .inl fun r => ((Wire.logs_write hw).conn r).handed_written fun call hcall hok => ?_
    rw [Wire.only] at hcall
    split at hcall
    · rw [List.mem_singleton.mp hcall] at hok
      cases hok
    · cases hcall
  | @accept counter id r rest written failures _ hp hw =>
    refine .inr ⟨counter, id, r, rest, written, failures, hp, rfl, fun f => ?_⟩
    have hwritten := ((Wire.logs_write hw).conn f).written
    rw [hwritten, handed_append, Wire.only, Wire.only]
    congr 1
    split
    · exact handed_singleton (Frame.decode_encode _)
    · rfl

/-- A send that writes is the last in the ledger, and the connections that it has not written to
have accepted what was assigned before. -/
def Leads (w : Wire) (log : Ledger) (me : Nat) (x : Send) : Prop :=
  ∀ counter rest written failures, x.phase = .writing counter rest written failures →
    (rest.map Prod.snd).Nodup ∧ ∃ past : Ledger, log = past ++ [⟨me, x.payload, counter⟩] ∧
      ∀ c ∈ rest, (handed (w.conn c.2).written).Sublist past.deliveries

theorem Leads.of_not_turn (h : ¬x.HasTurn) : x.Leads w log me := by
  intro counter rest written failures hp
  exact absurd (by simp [HasTurn, hp]) h

theorem Leads.still (h : x.Leads w log me)
    (hsame : ∀ r, handed (w'.conn r).written = handed (w.conn r).written) :
    x.Leads w' log me := by
  intro counter rest written failures hp
  obtain ⟨hnodup, past, hlog, hrest⟩ := h counter rest written failures hp
  refine ⟨hnodup, past, hlog, fun c hc => ?_⟩
  rw [hsame]
  exact hrest c hc

/-- A send that writes goes on to lead: what it has written to is no longer among the rest. -/
theorem Move.leads (h : Move me pick s w x s' w' x') (hx : x.Leads w log me)
    (nodup : (s.registry.entries.map Prod.snd).Nodup)
    (flow : ∀ r, (handed (w.conn r).written).Sublist log.deliveries) :
    x'.Leads w' (log ++ Ledger.taken me (some x) (some x')) me := by
  rcases h.handed_written with hsame | ⟨counter, id, r, rest, written, failures, hp, hp', hgains⟩
  · -- no connection gains a frame, so at most the rest gets shorter
    cases h with
    | start hp =>
      intro counter rest written failures hp'
      obtain ⟨rfl, rfl, -, -⟩ := SendPhase.writing.inj hp'
      exact ⟨nodup, log, by rw [Ledger.taken_of_writing hp rfl], fun c _ => flow c.2⟩
    | accept hp | reject hp =>
      rw [Ledger.taken_of_ne_queued (by simp [hp]), List.append_nil]
      intro counter rest written failures hp'
      obtain ⟨rfl, rfl, -, -⟩ := SendPhase.writing.inj hp'
      obtain ⟨hnodup, past, hlog, hrest⟩ := hx _ _ _ _ hp
      refine ⟨(List.nodup_cons.mp hnodup).2, past, hlog, fun c hc => ?_⟩
      rw [hsame]
      exact hrest c (List.mem_cons_of_mem _ hc)
    | refuse | enqueue | abandon | fail | succeed | await | wait | conclude =>
      intro counter rest written failures hp'
      cases hp'
  · rw [Ledger.taken_of_ne_queued (by simp [hp]), List.append_nil]
    intro counter' rest' written' failures' hp''
    obtain ⟨rfl, rfl, -, -⟩ := SendPhase.writing.inj (hp'.symm.trans hp'')
    obtain ⟨hnodup, past, hlog, hrest⟩ := hx _ _ _ _ hp
    obtain ⟨hnot, hnodup⟩ := List.nodup_cons.mp hnodup
    rw [h.payload]
    refine ⟨hnodup, past, hlog, fun c hc => ?_⟩
    -- the connection that was written to is not one of those that are left
    have hmem : c.2 ∈ rest.map Prod.snd := List.mem_map_of_mem hc
    have hne : c.2 ≠ r := fun heq => hnot (heq ▸ hmem)
    rw [hgains, Wire.only, if_neg fun heq => hne heq.1, List.append_nil]
    exact hrest c (List.mem_cons_of_mem _ hc)

/-- What the connections have accepted goes on to be in the order of the ledger. -/
theorem Move.flow (h : Move me pick s w x s' w' x') (hx : x.Leads w log me)
    (flow : ∀ r, (handed (w.conn r).written).Sublist log.deliveries) (r : Ref) :
    (handed (w'.conn r).written).Sublist log.deliveries := by
  rcases h.handed_written with hsame | ⟨counter, id, f, rest, written, failures, hp, -, hgains⟩
  · rw [hsame]
    exact flow r
  · rw [hgains, Wire.only]
    split
    · next heq =>
      obtain ⟨rfl, -⟩ := heq
      obtain ⟨-, past, rfl, hrest⟩ := hx _ _ _ _ hp
      rw [Ledger.deliveries, List.map_append]
      exact (hrest (id, r) List.mem_cons_self).append (List.Sublist.refl _)
    · rw [List.append_nil]
      exact flow r

end Send

namespace Pipeline

/-- Every connection has accepted frames in the order of the ledger. -/
structure Rising (p : Pipeline) (log : Ledger) : Prop where
  flow : ∀ r, (handed (p.wire.conn r).written).Sublist log.deliveries
  leads : ∀ place x, p.sendAt? place = some x → x.Leads p.wire log place

namespace Rising

variable {p p' : Pipeline} {log : Ledger}

theorem start (withAcknowledge : Bool) : (beginning withAcknowledge).Rising [] where
  flow := fun _ => List.Sublist.refl _
  leads := nofun

/-- Only writes leave frames. -/
theorem aside (h : p.Rising log) {e : Event} (hp : p.Aside e p') (registers : p.Registers e) :
    p'.Rising log := by
  have hsame (r : Ref) : handed (p'.wire.conn r).written = handed (p.wire.conn r).written := by
    rcases hp.logs with hstill | ⟨c, rfl, heq⟩
    · exact (hstill.conn r).handed_written (by simp)
    · rw [heq, Wire.conn_add]
      split
      · next hr =>
        have hnone : c.writes = [] := registers
        rw [Wire.conn_of_le (Nat.le_of_eq hr.symm), Connection.written, hnone]
        rfl
      · rfl
  refine ⟨fun r => hsame r ▸ h.flow r, fun place x hx => ?_⟩
  rcases hp.sendAt? hx with hold | ⟨-, hcalled⟩
  · exact (h.leads place x hold).still hsame
  · exact .of_not_turn (by simp [Send.HasTurn, hcalled])

/-- Nobody but the send that moves can be writing once it has its turn. -/
theorem send (h : p.Rising log) (named : p.Named) (turned : p.Turned) {place pick : Nat}
    {x x' : Send} {sender : Sender} {wire : Wire} (hx : p.activities[place]? = some (.send x))
    (hmove : Send.Move place pick p.sender p.wire x sender wire x') :
    Rising { p with sender, wire, activities := p.activities.set place (.send x') }
      (log ++ Ledger.taken place (some x) (some x')) := by
  have hsend : p.sendAt? place = some x := sendAt?_eq_some.mpr hx
  have hleads := h.leads place x hsend
  refine ⟨fun r => (hmove.flow hleads h.flow r).trans ?_, fun q y hy => ?_⟩
  · exact (List.sublist_append_left _ _).map _
  · rcases sendAt?_of_set hy with ⟨rfl, heq⟩ | ⟨hq, hy⟩
    · obtain rfl := Activity.send.inj heq
      exact hmove.leads hleads named.nodup h.flow
    · have hother (hhead : p.sender.line.head? = some place) : ¬y.HasTurn := by
        intro hturn
        exact hq (Option.some.inj ((turned q y hy hturn).symm.trans hhead))
      have hold := h.leads q y hy
      rcases hmove.handed_written with hsame | ⟨_, _, _, _, _, _, hp, -⟩
      · cases hmove.service with
        | turn _ _ _ hhead => exact .of_not_turn (hother hhead)
        | before _ _ _ _ htaken | after _ _ _ _ htaken =>
          rw [htaken, List.append_nil]
          exact hold.still hsame
      · exact .of_not_turn (hother (turned place x hsend (by simp [Send.HasTurn, hp])))

theorem apply (h : p.Rising log) (named : p.Named) (turned : p.Turned) {e : Event}
    (registers : p.Registers e) : Rising (p.apply e) (log ++ p.assigned e) := by
  have heffect := p.effect_apply e
  generalize p.apply e = p', p.assigned e = more at heffect ⊢
  cases heffect with
  | send _ hx hmove => exact h.send named turned hx hmove
  | listen _ hl _ hmove =>
    rw [List.append_nil]
    obtain ⟨_, _, hlogs, hacks⟩ := hmove.logs
    have hsame := fun f => (hlogs.conn f).handed_written fun call hcall _ => by
      obtain ⟨n, -, heq⟩ := hacks call (Wire.mem_only hcall).2
      exact ⟨n, heq⟩
    refine ⟨fun r => hsame r ▸ h.flow r, fun q y hy => ?_⟩
    exact (h.leads q y ((sendAt?_set_listen hl q).symm.trans hy)).still hsame
  | aside hp =>
    rw [List.append_nil]
    exact h.aside hp registers

end Rising

/-- How counters go with the turns of a run: with their order, with the writes that they call for
and with the frames that connections accept. -/
structure Discipline (withAcknowledge : Bool) (events : List Event) : Prop where
  /-- Sends have their turns in the order in which they joined the line, and join it once. -/
  order : (((beginning withAcknowledge).turns events).map (·.place)).Sublist
      ((beginning withAcknowledge).queue events) ∧
    ((beginning withAcknowledge).queue events).Nodup
  /-- The counters are given out from 1 on, one for each turn that finds connections. -/
  numbered : (beginning withAcknowledge).ledger events
    = ((beginning withAcknowledge).turns events).mapIdx fun i t =>
      ⟨t.place, t.payload, UInt64.ofNat (i + 1)⟩
  last : ((beginning withAcknowledge).applyAll events).sender.lastCounter
    = UInt64.ofNat ((beginning withAcknowledge).turns events).length
  /-- The send of a turn writes its frame, under the counter of the turn, once to each of the
  connections that the turn found, as far as it does not owe it yet. -/
  writes : ∀ (i : Nat) (t : Turn), ((beginning withAcknowledge).turns events)[i]? = some t →
    (t.snapshot.map Prod.snd).Nodup ∧
    ∃ x, ((beginning withAcknowledge).applyAll events).sendAt? t.place = some x ∧
      gained Connection.offered t.place (beginning withAcknowledge) events
          ++ x.owes ((beginning withAcknowledge).applyAll events).sender
        = t.snapshot.map fun c =>
          (c.2, Frame.encode ⟨withAcknowledge, UInt64.ofNat (i + 1), t.payload⟩)
  /-- While 64 bits are enough, the counters that a connection accepts grow. -/
  rising : ((beginning withAcknowledge).turns events).length < UInt64.size → ∀ r,
    (handed (((beginning withAcknowledge).applyAll events).wire.conn r).written).Pairwise
      fun d e => d.counter < e.counter
  /-- A send that found no connection, or that had no payload, took no counter and wrote nothing. -/
  refused : ∀ place e, ((beginning withAcknowledge).applyAll events).sent? place = some (.error e) →
    e = .noConnections ∨ e = .emptyPayload →
    place ∉ ((beginning withAcknowledge).turns events).map (·.place) ∧
      gained Connection.offered place (beginning withAcknowledge) events = []

theorem numbered_mapIdx (turns : List Turn) :
    Ledger.Numbered (turns.mapIdx fun i t => t.assignment i) := by
  rw [Ledger.Numbered, List.length_mapIdx]
  refine List.ext_getElem (by simp) fun i _ _ => ?_
  simp [Turn.assignment]

theorem counted_applyAll {withAcknowledge : Bool} {events : List Event}
    (course : Along apply Registers (beginning withAcknowledge) events) :
    ((beginning withAcknowledge).applyAll events).Counted
      ((beginning withAcknowledge).ledger events) ((beginning withAcknowledge).turns events)
      ((beginning withAcknowledge).queue events)
      (fun place => gained Connection.offered place (beginning withAcknowledge) events) ∧
    ((beginning withAcknowledge).applyAll events).Rising
      ((beginning withAcknowledge).ledger events) := by
  refine along_induction ⟨.start withAcknowledge, .start withAcknowledge⟩ ?_ course
  rintro events e - registers ⟨hcounted, hrising⟩
  have happly := hcounted.apply registers
  have hrises := hrising.apply hcounted.named hcounted.turned registers
  simp only [turns, queue, gained, ledger, collect_concat, applyAll_append]
  exact ⟨happly, hrises⟩

/-- Counters go with turns: whatever is registered, unregistered and closed, and however many sends
wait for their turn, the turns that find connections take the counters 1, 2, 3 and so on, each for
the frame that it writes once to each of its connections, and nothing else takes a counter. -/
theorem counters_of_turns (withAcknowledge : Bool) (events : List Event)
    (course : Along apply Registers (beginning withAcknowledge) events) :
    Discipline withAcknowledge events := by
  obtain ⟨hcounted, hrising⟩ := counted_applyAll course
  have hack := withAcknowledge_applyAll (beginning withAcknowledge) events
  obtain ⟨past, hqueue, hsub⟩ := hcounted.line
  have hplaces : ((((beginning withAcknowledge).turns events).map (·.place))).Nodup := by
    refine hcounted.nodup.sublist (hsub.trans ?_)
    rw [hqueue]
    exact (List.Sublist.refl _).append (List.take_sublist _ _)
  refine ⟨⟨?_, hcounted.nodup⟩, hcounted.ledger, hcounted.last, ?_, ?_, ?_⟩
  · rw [hqueue]
    exact hsub.trans ((List.Sublist.refl _).append (List.take_sublist _ _))
  · intro i t hi
    have ht := List.mem_of_getElem? hi
    obtain ⟨x, hx, -⟩ := hcounted.begun _ (hcounted.mem_queue ht)
    have hkept := hcounted.sends _ x hx
    have hserved : ¬x.Unserved := fun hun => (hkept.unserved hun).1 (List.mem_map_of_mem ht)
    obtain ⟨j, u, hj, hplace, -, hcalls⟩ := hkept.served hserved
    -- no send has two turns
    obtain rfl : i = j := by
      have hlt := (List.getElem?_eq_some_iff.mp hi).1
      refine (List.getElem?_inj (by simpa using hlt) hplaces).mp ?_
      rw [List.getElem?_map, List.getElem?_map, hi, hj]
      exact congrArg some hplace.symm
    obtain rfl := Option.some.inj (hi.symm.trans hj)
    rw [hack] at hcalls
    exact ⟨(hcounted.snapshots t ht).1, x, hx, hcalls⟩
  · intro few r
    have hpairs : ((beginning withAcknowledge).ledger events).Pairwise
        fun a b => a.counter < b.counter := by
      refine Ledger.Numbered.pairwise ?_ ?_
      · rw [hcounted.ledger]
        exact numbered_mapIdx _
      · rwa [hcounted.ledger, List.length_mapIdx]
    exact (List.pairwise_map.mpr hpairs : List.Pairwise _ (Ledger.deliveries _)).sublist
      (hrising.flow r)
  · intro place e hsent he
    obtain ⟨x, hx, hdone⟩ := sent?_eq_some.mp hsent
    refine (hcounted.sends place x hx).unserved ?_
    rcases he with rfl | rfl <;> simp [Send.Unserved, hdone]

/-- Two sends wait for their turn, and the only connection is unregistered between the two turns. -/
def emptied : List Event :=
  [.connect { id := "near", isOpen := true }, .register 0, .send [1], .send [2], .move 0 0,
    .move 1 0, .move 0 0, .move 0 0, .move 0 0, .unregister "near", .move 1 0]

/-- A send that waited for its turn while the registry was emptied has taken no counter and has
written nothing. -/
theorem counters_emptied : ((beginning false).applyAll emptied).sent? 1
      = some (.error .noConnections) ∧
    gained Connection.offered 1 (beginning false) emptied = [] ∧
    ((beginning false).ledger emptied).map (·.counter) = [1] := by
  have hcourse : Along apply Registers (beginning false) emptied := by
    simp [Along, Registers, emptied, apply, Wire.add, beginning]
  have hdiscipline := counters_of_turns false emptied hcourse
  have hsent : ((beginning false).applyAll emptied).sent? 1 = some (.error .noConnections) := rfl
  exact ⟨hsent, (hdiscipline.refused 1 _ hsent (.inl rfl)).2, rfl⟩

end Pipeline

end BlockFeed
