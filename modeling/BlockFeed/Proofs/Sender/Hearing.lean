import BlockFeed.Proofs.Codec.Exact
import BlockFeed.Proofs.Link.Queues
import BlockFeed.Proofs.Run
import BlockFeed.Proofs.Sender.Closing

/-!
# What a wait hears

The wait for one acknowledgment on its own, on a connection that nobody else reads. What it hears
are the items that it takes, from the first that waits to be read to the one that decides.

## Main definitions

* `AckWait.Solo`: a wait with its sender and the connections; `AckWait.Solo.apply`: it takes a
  step, or the sender and the connections change meanwhile.
* `AckWait.Solo.Unheard`: nobody else reads its connection.
* `AckWait.Solo.Hears`, `AckWait.Solo.Follows`: what one step hears, and what a run has heard.
* `AckWait.Told`: how a wait ends, told by what it has heard.
* `AckWait.Solo.Reacts`: what the next step does to all that is around.

## Main results

* `AckWait.Solo.hears_of_unheard`: the wait hears what arrives in its order, up to the first item
  that decides; it ends as that item tells, and what it passes over changes nothing.

## Design notes

What arrives for a wait is no part of its run: a change meanwhile may put any items behind those
that wait to be read. So a statement about all runs is one about all that may arrive, at any time.
-/

namespace BlockFeed

namespace AckWait

section Step

variable {counter : UInt64} {s s' : Sender} {w w' : Wire} {a a' : AckWait}

/-- A pending wait has no step only where nothing waits to be read and its sender is open. -/
theorem dry_of_step (h : a.step counter s w = none) (pending : a.outcome = none) :
    (w.conn a.conn).Dry ∧ s.cancel.closed = false := by
  have hopen : s.cancel.closed = false := by
    refine Bool.eq_false_iff.mpr fun hclosed => ?_
    cases (step_of_closed hclosed pending).symm.trans h
  have hread := Wire.read?_eq_none.mp (read?_eq_none_of_step h pending hopen)
  exact ⟨Connection.dry_of_read_eq_none hread, hopen⟩

/-- A step that does not end a wait takes one item. -/
theorem takes_of_step (h : a.step counter s w = some (s', w', a')) (pending : a'.outcome = none) :
    ∃ i, (w.conn a.conn).Takes i (w'.conn a.conn) := by
  cases move_of_step h with
  | cancel | acknowledge | fail => cases pending
  | ignore _ _ hread => exact Wire.takes_of_read hread nofun

end Step

/-- The items pass without deciding the wait for the acknowledgment of a counter. -/
def Passing (counter : UInt64) (items : List Inbound) : Prop :=
  ∀ i ∈ items, ∃ bytes, i = .data bytes ∧ bytes ≠ Ack.encode counter

/-- How the wait for the acknowledgment of a counter ends, told by what it has heard and by the
errors that were reported without being heard. -/
inductive Told (counter : UInt64) (lost : ConnectionError → Prop) (heard : List Inbound) :
    Option AckOutcome → Prop where
  | pending : Passing counter heard → Told counter lost heard none
  | cancelled : Passing counter heard → Told counter lost heard (some .cancelled)
  | acknowledged {front : List Inbound} : Passing counter front →
      heard = front ++ [.data (Ack.encode counter)] → Told counter lost heard (some .acknowledged)
  | failed {front : List Inbound} {e : ConnectionError} : Passing counter front →
      heard = front ++ [.failure e] → Told counter lost heard (some (.failed e))
  | lost {e : ConnectionError} : Passing counter heard → lost e →
      Told counter lost heard (some (.failed e))

theorem Told.passing {counter : UInt64} {lost : ConnectionError → Prop} {heard : List Inbound}
    (h : Told counter lost heard none) : Passing counter heard := by
  cases h with | pending h => exact h

theorem Told.mono {counter : UInt64} {lost lost' : ConnectionError → Prop} {heard : List Inbound}
    {outcome : Option AckOutcome} (h : Told counter lost heard outcome)
    (mono : ∀ e, lost e → lost' e) : Told counter lost' heard outcome := by
  cases h with
  | pending h => exact .pending h
  | cancelled h => exact .cancelled h
  | acknowledged h heq => exact .acknowledged h heq
  | failed h heq => exact .failed h heq
  | lost h he => exact .lost h (mono _ he)

/-- A wait with its sender and the connections. -/
structure Solo where
  sender : Sender
  wire : Wire
  wait : AckWait

namespace Solo

variable {counter : UInt64} {z z' : Solo}

def conn (z : Solo) : Connection := z.wire.conn z.wait.conn

/-- What has arrived for the wait and was not read yet. -/
def unread (z : Solo) : List Inbound := z.conn.inbound

def step (counter : UInt64) (z : Solo) : Option Solo :=
  (z.wait.step counter z.sender z.wire).map fun r => ⟨r.1, r.2.1, r.2.2⟩

/-- What may happen to a wait on its own. -/
inductive Event where
  | step
  /-- Others have left the sender and the connections like this. -/
  | meanwhile (sender : Sender) (wire : Wire)

def apply (counter : UInt64) (z : Solo) : Event → Solo
  | .step => (z.step counter).getD z
  | .meanwhile sender wire => { z with sender, wire }

def applyAll (counter : UInt64) (z : Solo) (events : List Event) : Solo :=
  events.foldl (apply counter) z

/-- Nobody else reads the connection of the wait, and a sender that was closed stays so. -/
def Unheard (z : Solo) : Event → Prop
  | .step => True
  | .meanwhile sender wire => z.conn.Fills (wire.conn z.wait.conn) ∧
      (z.sender.cancel.closed = true → sender.cancel.closed = true)

/-- The wait fails with an error that left its connection like this: whatever is registered under
its id is unregistered and closed. -/
def giveUp (z : Solo) (e : ConnectionError) (c : Connection) : Solo :=
  let r := z.sender.closeAndRemove (z.wire.set z.wait.conn c) z.wait.id
  ⟨r.2.1, r.2.2, { z.wait with outcome := some (.failed e) }⟩

/-- There is nothing to hear: the connection is not open, or has come to its end. -/
inductive Gone (z : Solo) : ConnectionError → Prop where
  | notOpen : z.conn.isOpen = false → Gone z .notOpen
  | ended : z.unread = [] → z.conn.ended = true → Gone z .closedByPeer

/-- What one step of a wait hears, and what comes of it. -/
inductive Hears (counter : UInt64) (z : Solo) : List Inbound → Solo → Prop where
  | cancel : z.sender.cancel.closed = true →
      Hears counter z [] { z with wait := { z.wait with outcome := some .cancelled } }
  | pass {bytes : Bytes} {rest : List Inbound} : z.sender.cancel.closed = false →
      z.unread = .data bytes :: rest → bytes ≠ Ack.encode counter →
      Hears counter z [.data bytes]
        { z with wire := z.wire.set z.wait.conn (z.conn.take (.data bytes) rest) }
  | acknowledge {rest : List Inbound} : z.sender.cancel.closed = false →
      z.unread = .data (Ack.encode counter) :: rest →
      Hears counter z [.data (Ack.encode counter)]
        ⟨z.sender, z.wire.set z.wait.conn (z.conn.take (.data (Ack.encode counter)) rest),
          { z.wait with outcome := some .acknowledged }⟩
  | fail {e : ConnectionError} {rest : List Inbound} : z.sender.cancel.closed = false →
      z.unread = .failure e :: rest →
      Hears counter z [.failure e] (z.giveUp e ((z.conn.take (.failure e) rest).afterError e))
  | lose {e : ConnectionError} {c : Connection} : z.sender.cancel.closed = false → z.Gone e →
      z.conn.Fills c → Hears counter z [] (z.giveUp e c)

theorem hears_of_step (h : z.step counter = some z') :
    z.wait.outcome = none ∧ ∃ heard, Hears counter z heard z' := by
  obtain ⟨⟨s, w, a⟩, hstep, rfl⟩ := Option.map_eq_some_iff.mp h
  have hread {result : Except ConnectionError Bytes} {w' : Wire}
      (hr : z.wire.read? z.wait.conn = some (result, w')) :
      ∃ c, z.conn.Finds result c ∧ w' = z.wire.set z.wait.conn c := by
    obtain ⟨c, hc, rfl⟩ := Wire.conn_read hr
    exact ⟨c, Connection.finds_of_read hc, rfl⟩
  cases move_of_step hstep with
  | cancel hnone hclosed => exact ⟨hnone, _, .cancel hclosed⟩
  | acknowledge hnone hopen hr hdec =>
    obtain rfl := Ack.decode_eq_ok_iff.mp hdec
    obtain ⟨c, hfinds, rfl⟩ := hread hr
    cases hfinds with | message _ hin => exact ⟨hnone, _, .acknowledge hopen hin⟩
  | ignore hnone hopen hr hdec =>
    obtain ⟨c, hfinds, rfl⟩ := hread hr
    cases hfinds with | message _ hin =>
    exact ⟨hnone, _, .pass hopen hin fun heq => hdec (Ack.decode_eq_ok_iff.mpr heq)⟩
  | fail hnone hopen hr =>
    obtain ⟨c, hfinds, rfl⟩ := hread hr
    refine ⟨hnone, ?_⟩
    cases hfinds with
    | failure _ hin => exact ⟨_, .fail hopen hin⟩
    | ended _ hin hended =>
      exact ⟨_, .lose hopen (.ended hin hended) (Connection.fills_afterError _ _)⟩
    | notOpen hout => exact ⟨_, .lose hopen (.notOpen hout) (.refl _)⟩

theorem fills_giveUp (e : ConnectionError) (c : Connection) :
    ((z.wire.set z.wait.conn c).conn z.wait.conn).Fills (z.giveUp e c).conn :=
  Registry.fills_closeAndRemove z.sender.registry _ _ _

/-- What is heard is taken from the front of what waits to be read. -/
theorem Hears.takes {heard : List Inbound} (h : Hears counter z heard z') :
    z'.conn.taken = z.conn.taken ++ heard ∧ z.unread <+: heard ++ z'.unread := by
  have htake {i : Inbound} {rest : List Inbound} {c : Connection} (hin : z.unread = i :: rest)
      (hc : (z.conn.take i rest).Fills c) :
      c.taken = z.conn.taken ++ [i] ∧ z.unread <+: [i] ++ c.inbound := by
    rw [hin, List.singleton_append, List.cons_prefix_cons]
    exact ⟨hc.taken, rfl, hc.inbound⟩
  cases h with
  | cancel => exact ⟨(List.append_nil _).symm, List.prefix_rfl⟩
  | pass _ hin | acknowledge _ hin =>
    exact htake hin (.of_eq (Wire.conn_set_of_inbound hin _).symm)
  | @fail e rest _ hin =>
    refine htake hin (.trans (Connection.fills_afterError _ e) ?_)
    have hfills := z.fills_giveUp e ((z.conn.take (.failure e) rest).afterError e)
    rwa [Wire.conn_set_of_inbound hin] at hfills
  | @lose e c _ _ hc =>
    have hfills := (Wire.fills_set hc _).trans (z.fills_giveUp e c)
    exact ⟨hfills.taken.trans (List.append_nil _).symm, hfills.inbound⟩

/-- What a pending wait has heard, with what one more step hears, tells how it ends. -/
theorem Hears.told {before heard : List Inbound} (h : Hears counter z heard z')
    (pending : z.wait.outcome = none) (passing : Passing counter before) :
    Told counter z.Gone (before ++ heard) z'.wait.outcome := by
  cases h with
  | cancel => exact .cancelled (by rwa [List.append_nil])
  | @pass bytes _ _ _ hne =>
    rw [pending]
    exact .pending (List.forall_mem_append.mpr
      ⟨passing, List.forall_mem_singleton.mpr ⟨bytes, rfl, hne⟩⟩)
  | acknowledge => exact .acknowledged passing rfl
  | fail => exact .failed passing rfl
  | lose _ hgone => exact .lost (by rwa [List.append_nil]) hgone

theorem Hears.sender {heard : List Inbound} (h : Hears counter z heard z') :
    z'.sender.cancel = z.sender.cancel ∧
      z'.wait = { z.wait with outcome := z'.wait.outcome } := by
  cases h <;> exact ⟨rfl, rfl⟩

/-- A step of a wait whose sender is closed hears nothing, and ends it. -/
theorem Hears.cancelled_iff {heard : List Inbound} (h : Hears counter z heard z')
    (pending : z.wait.outcome = none) :
    z'.wait.outcome = some .cancelled ↔ z.sender.cancel.closed = true := by
  cases h with
  | cancel hclosed => exact iff_of_true rfl hclosed
  | pass hopen => simp [pending, hopen]
  | acknowledge hopen | fail hopen | lose hopen => simp [giveUp, hopen]

theorem Hears.heard_of_closed {heard : List Inbound} (h : Hears counter z heard z')
    (closed : z.sender.cancel.closed = true) : heard = [] := by
  cases h with
  | cancel => rfl
  | pass hopen | acknowledge hopen | fail hopen | lose hopen =>
    exact absurd closed (by simp [hopen])

/-- At a step of a run there was nothing to hear. -/
def Loses (counter : UInt64) (z : Solo) (events : List Event) (e : ConnectionError) : Prop :=
  ∃ before behind, events = before ++ .step :: behind ∧ (z.applyAll counter before).Gone e

theorem Loses.concat {events : List Event} {e : ConnectionError} (h : Loses counter z events e)
    (event : Event) : Loses counter z (events ++ [event]) e := by
  obtain ⟨before, behind, rfl, hgone⟩ := h
  exact ⟨before, behind ++ [event], by rw [List.append_assoc, List.cons_append], hgone⟩

/-- What a wait has heard in a run, and what it has come to in `z'`. -/
structure Follows (counter : UInt64) (z : Solo) (events : List Event) (z' : Solo)
    (heard : List Inbound) : Prop where
  wait : z'.wait = { z.wait with outcome := z'.wait.outcome }
  taken : z'.conn.taken = z.conn.taken ++ heard
  /-- What waited to be read comes first, and then what has arrived since. -/
  unread : z.unread <+: heard ++ z'.unread
  told : Told counter (Loses counter z events) heard z'.wait.outcome
  /-- Nothing is heard once the sender is closed. -/
  closed : z.sender.cancel.closed = true → heard = [] ∧ z'.sender.cancel.closed = true ∧
    (z'.wait.outcome = none ∨ z'.wait.outcome = some .cancelled)
  cancelled : z'.wait.outcome = some .cancelled → z'.sender.cancel.closed = true

theorem follows_nil (pending : z.wait.outcome = none) : Follows counter z [] z [] where
  wait := rfl
  taken := (List.append_nil _).symm
  unread := List.prefix_rfl
  told := pending ▸ .pending (List.forall_mem_nil _)
  closed h := ⟨rfl, h, .inl pending⟩
  cancelled h := by simp [pending] at h

variable {events : List Event} {heard : List Inbound}

theorem Follows.step (h : Follows counter z events (z.applyAll counter events) heard)
    (hstep : (z.applyAll counter events).step counter = some z') :
    ∃ more, Follows counter z (events ++ [.step]) z' (heard ++ more) := by
  obtain ⟨pending, more, hears⟩ := hears_of_step hstep
  have htold := h.told
  rw [pending] at htold
  obtain ⟨htaken, hunread⟩ := hears.takes
  obtain ⟨hcancel, hwait⟩ := hears.sender
  refine ⟨more, ⟨?_, ?_, ?_, ?_, fun hclosed => ?_, fun hc => ?_⟩⟩
  · rw [hwait, h.wait]
  · rw [htaken, h.taken, List.append_assoc]
  · rw [List.append_assoc]
    exact h.unread.trans ((List.prefix_append_right_inj _).mpr hunread)
  · exact (hears.told pending htold.passing).mono fun e hgone => ⟨events, [], rfl, hgone⟩
  · obtain ⟨rfl, hclosed', -⟩ := h.closed hclosed
    rw [hears.heard_of_closed hclosed', hcancel]
    exact ⟨rfl, hclosed', .inr ((hears.cancelled_iff pending).mpr hclosed')⟩
  · rw [hcancel]
    exact (hears.cancelled_iff pending).mp hc

/-- Where the wait itself does nothing, what it has heard and come to stays. -/
theorem Follows.still (h : Follows counter z events z' heard) (e : Event) {sender : Sender}
    {wire : Wire} (unheard : z'.Unheard (.meanwhile sender wire)) :
    Follows counter z (events ++ [e]) { z' with sender, wire } heard where
  wait := h.wait
  taken := unheard.1.taken.trans h.taken
  unread := h.unread.trans ((List.prefix_append_right_inj _).mpr unheard.1.inbound)
  told := h.told.mono fun _ hlost => hlost.concat e
  closed hclosed := (h.closed hclosed).imp_right fun hend => hend.imp_left unheard.2
  cancelled hc := unheard.2 (h.cancelled hc)

theorem follows_applyAll (unheard : Along (apply counter) Unheard z events)
    (pending : z.wait.outcome = none) :
    ∃ heard, Follows counter z events (z.applyAll counter events) heard := by
  refine along_induction ⟨[], follows_nil pending⟩ (fun events e _ hkind ih => ?_) unheard
  obtain ⟨heard, hfollows⟩ := ih
  rw [applyAll, List.foldl_append]
  change ∃ heard, Follows counter z _ ((z.applyAll counter events).apply counter e) heard
  cases e with
  | step =>
    rw [apply]
    cases hstep : (z.applyAll counter events).step counter with
    | none => exact ⟨heard, hfollows.still .step ⟨.refl _, fun h => h⟩⟩
    | some z' => exact (hfollows.step hstep).imp' (heard ++ ·) fun _ h => h
  | meanwhile sender wire => exact ⟨heard, hfollows.still _ hkind⟩

/-- What the next step of a wait does to what is around it. -/
structure Reacts (counter : UInt64) (z : Solo) : Prop where
  hears : ∀ z', z.step counter = some z' → ∃ heard, Hears counter z heard z'
  /-- A wait that fails leaves nothing registered under its id, and all else as it was. -/
  unregisters : ∀ z' e, z.step counter = some z' → z'.wait.outcome = some (.failed e) →
    z'.sender.registry.entries = z.sender.registry.entries.filter fun c => c.1 != z.wait.id
  /-- A pending wait has no step only where nothing waits to be read and more may arrive. -/
  rests : z.step counter = none → z.wait.outcome = none →
    z.conn.Dry ∧ z.sender.cancel.closed = false

theorem reacts (counter : UInt64) (z : Solo) : Reacts counter z where
  hears z' hstep := (hears_of_step hstep).2
  unregisters z' e hstep hfailed := by
    obtain ⟨pending, heard, hears⟩ := hears_of_step hstep
    cases hears with
    | cancel | acknowledge => cases hfailed
    | pass => cases pending.symm.trans hfailed
    | fail | lose => exact Registry.entries_closeAndRemove_eq _ _ _
  rests hstep := dry_of_step (Option.map_eq_none_iff.mp hstep)

theorem step_of_ended {o : AckOutcome} (h : z.wait.outcome = some o) : z.step counter = none := by
  rw [step, AckWait.step, h]
  rfl

theorem length_unread (h : z.step counter = some z') (pending : z'.wait.outcome = none) :
    z'.unread.length + 1 = z.unread.length := by
  obtain ⟨-, heard, hears⟩ := hears_of_step h
  obtain ⟨r, hstep, rfl⟩ := Option.map_eq_some_iff.mp h
  obtain ⟨i, htakes, -⟩ := takes_of_step hstep pending
  obtain ⟨-, hwait⟩ := hears.sender
  rw [unread, unread, conn, conn, hwait, htakes, List.length_cons]

/-- A wait without a step stays as it is. -/
theorem applyAll_of_rests (h : z.step counter = none) (n : Nat) :
    z.applyAll counter (.replicate n .step) = z := by
  induction n with
  | zero => rfl
  | succ n ih => rwa [List.replicate_succ, applyAll, List.foldl_cons, apply, h, Option.getD_none]

/-- By itself a wait comes to rest: each step but the last takes one item. -/
theorem rests_alone (counter : UInt64) (z : Solo) {n : Nat} (hn : z.unread.length ≤ n) :
    (z.applyAll counter (.replicate (n + 1) .step)).step counter = none := by
  cases hstep : z.step counter with
  | none => rwa [applyAll_of_rests hstep]
  | some z' =>
    rw [List.replicate_succ, applyAll, List.foldl_cons, apply, hstep, Option.getD_some, ← applyAll]
    cases hend : z'.wait.outcome with
    | some o => rw [applyAll_of_rests (step_of_ended hend), step_of_ended hend]
    | none =>
      have hlength := length_unread hstep hend
      cases n with
      | zero => omega
      | succ n => exact rests_alone counter z' (by omega)

/-- A wait that nobody else reads for hears what arrives in its order, and nothing after the first
item that decides: an error, or the acknowledgment of its counter. It ends as that item tells; all
that it passes over changes nothing, and while nothing decides it goes on. Once its sender is closed
it hears nothing more. -/
theorem hears_of_unheard (unheard : Along (apply counter) Unheard z events)
    (pending : z.wait.outcome = none) :
    let z' := z.applyAll counter events
    (∃ heard, Follows counter z events z' heard) ∧ Reacts counter z' ∧
      (z'.applyAll counter (.replicate (z'.unread.length + 1) .step)).step counter = none :=
  ⟨follows_applyAll unheard pending, reacts counter _, rests_alone counter _ le_rfl⟩

/-- A wait for counter 5 passes over three bytes, the acknowledgment of another counter, and a frame
that arrives meanwhile; what is behind its acknowledgment is left. -/
theorem hears_of_unheard_sample :
    let c : Connection := { id := "a", isOpen := true, inbound :=
      [.data [1, 2, 3], .data (Ack.encode 6)] }
    let late : List Inbound :=
      [.data (Frame.encode ⟨true, 5, [7]⟩), .data (Ack.encode 5), .data (Ack.encode 5)]
    let z : Solo := ⟨{ withAcknowledge := true }, ⟨[c], []⟩, ⟨"a", 0, none⟩⟩
    let c' : Connection := { c with inbound := late, taken := c.inbound }
    let events : List Event :=
      [.step, .step, .meanwhile z.sender ⟨[c'], []⟩, .step, .step, .step]
    Along (apply 5) Unheard z events ∧ z.wait.outcome = none ∧
      (∃ heard, Follows 5 z events (z.applyAll 5 events) heard) ∧
      (z.applyAll 5 events).wait.outcome = some .acknowledged ∧
      (z.applyAll 5 events).unread = [.data (Ack.encode 5)] := by
  intro c late z c' events
  have halong : Along (apply 5) Unheard z events :=
    ⟨trivial, trivial, ⟨⟨by rfl, late, by rfl⟩, fun h => h⟩, trivial, trivial, trivial, trivial⟩
  exact ⟨halong, rfl, (hears_of_unheard halong rfl).1, by rfl, by rfl⟩

end Solo

end AckWait

end BlockFeed
