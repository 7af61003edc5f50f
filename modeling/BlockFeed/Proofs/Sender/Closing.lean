import BlockFeed.Proofs.Run
import BlockFeed.Proofs.Sender.Writes

/-!
# Closing a sender

What closing a sender does to its connections, and what its sends do once it is closed.

## Main definitions

* `Send.Unturned`: a send that has not had its turn.
* `Send.left`: the steps that a send takes at most while nothing is registered.
* `Send.Settles`: what becomes of a send while nothing is registered.
* `Send.Prompt`: a send that had its turn with a closed sender, and what it has come to.

## Main results

* `Registry.closeAll_closes`: every registered connection is closed once, the others are not.
* `Send.Move.settles`: while nothing is registered, sends end without a counter or a write.
* `Send.Move.prompt`: a send reads nothing, and its result tells whether a write was accepted.

## Design notes

A wait looks at whether the sender is closed before it reads. So it does not matter for a wait that
closing the sender has closed its connection as well.
-/

namespace BlockFeed

namespace Wire

variable {w : Wire} {r : Ref}

/-- An arrival changes neither whether a connection is open nor how often it was closed. -/
theorem conn_hangUp (w : Wire) (r f : Ref) :
    ((w.hangUp r).conn f).closes = (w.conn f).closes ∧
      ((w.hangUp r).conn f).isOpen = (w.conn f).isOpen := by
  rw [hangUp]
  split
  · next q _ =>
    rw [undergo, conn_set]
    split
    · next hq => exact hq.1 ▸ ⟨rfl, rfl⟩
    · exact ⟨rfl, rfl⟩
  · exact ⟨rfl, rfl⟩

/-- Closing closes the connection at its place once, whether or not that fails. -/
theorem conn_close (hr : r < w.connections.length) (f : Ref) :
    ((w.close r).2.conn f).closes = (w.conn f).closes + (if r = f then 1 else 0) ∧
      (((w.close r).2.conn f).isOpen = true ↔ r ≠ f ∧ (w.conn f).isOpen = true) := by
  have hset : ((w.set r (w.conn r).close.2).conn f).closes
        = (w.conn f).closes + (if r = f then 1 else 0) ∧
      (((w.set r (w.conn r).close.2).conn f).isOpen = true ↔
        r ≠ f ∧ (w.conn f).isOpen = true) := by
    rw [conn_set]
    by_cases hf : r = f
    · subst hf
      rw [if_pos ⟨rfl, hr⟩, Connection.close]
      dsimp only
      split <;> simp_all
    · rw [if_neg fun h => hf h.1]
      simp [hf]
  rw [close]
  dsimp only
  split
  · obtain ⟨hcloses, hopen⟩ := (w.set r (w.conn r).close.2).conn_hangUp r f
    rw [hcloses, hopen]
    exact hset
  · exact hset

theorem not_open_of_close (hr : r < w.connections.length) :
    ((w.close r).2.conn r).isOpen = false :=
  Bool.eq_false_iff.mpr fun hopen => ((conn_close hr r).2.mp hopen).1 rfl

/-- What is not accepted is not written. -/
theorem news_written_of_error {bytes : Bytes} {e : ConnectionError} {w' : Wire}
    (h : w.write r bytes = (.error e, w')) : w.news Connection.written w' = [] := by
  have hlogs := logs_write h
  refine news_eq_nil hlogs.size fun f => ?_
  rw [(hlogs.conn f).written, only]
  split <;> simp [Connection.refusal]

end Wire

namespace Registry

variable {g : Registry} {w : Wire}

/-- A connection that is registered is unregistered and closed, whether or not closing it fails. -/
theorem closeAndRemove_of_get? {id : String} {r : Ref} (h : g.get? id = some r) :
    (g.closeAndRemove w id).2 = (g.erase id, (w.close r).2) := by
  rw [closeAndRemove, h]
  dsimp only
  split <;> next heq => rw [heq]

/-- The first connection of a registry is closed first. -/
theorem closeAll_cons {id : String} {r : Ref} {rest : List (String × Ref)}
    (h : g.entries = (id, r) :: rest) :
    (g.erase id).entries = rest ∧ g.closeAll w = closeAll (g.erase id) (w.close r).2 := by
  have hnodup := g.nodup
  rw [h, List.map_cons, List.nodup_cons] at hnodup
  have herase : (g.erase id).entries = rest := by
    have hfilter : (g.erase id).entries = g.entries.filter fun e => e.1 != id := rfl
    rw [hfilter, h, List.filter_cons_of_neg (by simp)]
    refine List.filter_eq_self.mpr fun d hd => bne_iff_ne.mpr fun heq => hnodup.1 ?_
    have hmem : d.1 ∈ rest.map Prod.fst := List.mem_map_of_mem hd
    exact heq ▸ hmem
  have hnames : g.names = id :: (g.erase id).names := by
    rw [Table.names, h, Table.names, herase, List.map_cons]
  have hget : g.get? id = some r := by simp [Table.get?, h]
  have hsplit : g.closeAll w = closeEach (g.closeAndRemove w id).2.1 (g.closeAndRemove w id).2.2
      (g.erase id).names := by rw [closeAll, hnames, closeEach]
  rw [closeAndRemove_of_get? hget] at hsplit
  exact ⟨herase, hsplit⟩

/-- All connections that are registered are closed, as often as they are registered, and no
others. -/
theorem closeAll_closes (exist : ∀ c ∈ g.entries, c.2 < w.connections.length) :
    (g.closeAll w).1.entries = [] ∧ ∀ f,
      ((g.closeAll w).2.conn f).closes = (w.conn f).closes + (g.entries.map Prod.snd).count f ∧
      (((g.closeAll w).2.conn f).isOpen = true ↔
        f ∉ g.entries.map Prod.snd ∧ (w.conn f).isOpen = true) := by
  induction hentries : g.entries generalizing g w with
  | nil => simp [closeAll, Table.names, closeEach, hentries]
  | cons c rest ih =>
    obtain ⟨id, r⟩ := c
    obtain ⟨herase, hrest⟩ := closeAll_cons (w := w) hentries
    have hr : r < w.connections.length := exist (id, r) (hentries ▸ List.mem_cons_self)
    have hexist : ∀ c ∈ (g.erase id).entries, c.2 < (w.close r).2.connections.length := by
      intro c hc
      rw [(w.still_close r).size]
      exact exist c (hentries ▸ List.mem_cons_of_mem _ (herase ▸ hc))
    obtain ⟨hempty, hconn⟩ := ih hexist herase
    rw [hrest]
    refine ⟨hempty, fun f => ?_⟩
    obtain ⟨hcloses, hopen⟩ := hconn f
    obtain ⟨hcloses', hopen'⟩ := Wire.conn_close hr f
    constructor
    · rw [hcloses, hcloses', List.map_cons, List.count_cons]
      simp only [beq_iff_eq]
      omega
    · rw [hopen, hopen', List.map_cons, List.mem_cons, not_or, ne_comm]
      exact ⟨fun h => ⟨⟨h.2.1, h.1⟩, h.2.2⟩, fun h => ⟨h.1.2, h.1.1, h.2⟩⟩

end Registry

namespace AckWait

variable {counter : UInt64} {s s' : Sender} {w w' : Wire} {a a' : AckWait}

/-- A wait for a closed sender ends at once, whatever its connection has to tell. -/
theorem step_of_closed (closed : s.cancel.closed = true) (hnone : a.outcome = none) :
    a.step counter s w = some (s, w, { a with outcome := some .cancelled }) := by
  rw [step, hnone, closed]
  rfl

theorem Move.of_closed (h : Move counter s w a s' w' a') (closed : s.cancel.closed = true) :
    s' = s ∧ w' = w ∧ a.outcome = none ∧ a' = { a with outcome := some .cancelled } := by
  cases h with
  | cancel hnone => exact ⟨rfl, rfl, hnone, rfl⟩
  | acknowledge _ hopen | ignore _ hopen | fail _ hopen => exact absurd closed (by simp [hopen])

end AckWait

namespace Send

/-- The send has not had its turn. -/
def Unturned (x : Send) : Prop := x.phase = .called ∨ x.phase = .queued

/-- The steps that a send takes at most once its sender is closed and nothing is registered. -/
def left (x : Send) : Nat :=
  match x.phase with
  | .called | .queued | .writing .. => 1
  | .waiting _ waits _ => waits.countP (·.outcome.isNone)
  | .done _ => 0

/-- What a send has come to that has its turn only once its sender is closed, if these writes were
accepted: it waits for acknowledgments or succeeds exactly if there are any. -/
def Prompt (accepted : List (Ref × Bytes)) (x : Send) : Prop :=
  match x.phase with
  | .called | .queued => accepted = []
  | .writing _ _ written _ => written = [] ↔ accepted = []
  | .waiting _ _ _ => accepted ≠ []
  | .done result => result = .ok () ↔ accepted ≠ []

variable {me pick : Nat} {s s' : Sender} {w w' : Wire} {x x' : Send}

/-- One wait that was cancelled is enough for a send to succeed. -/
theorem verdict_of_mem {waits : List AckWait} {a : AckWait} (ha : a ∈ waits)
    (hout : a.outcome = some .cancelled) (failures : List Failure) :
    verdict waits failures = .ok () :=
  if_pos (List.any_eq_true.mpr ⟨a, ha, by rw [AckWait.delivered, hout]⟩)

/-- What has become of a send whose sender is closed while nothing is registered. -/
inductive Settles (x x' : Send) : Prop where
  | stay : x' = x → Settles x x'
  /-- It has not had its turn, and ends without connections. -/
  | refuse : x.Unturned → x'.phase = .done (.error .noConnections) → Settles x x'
  /-- Some of its waits have ended. -/
  | wait {counter : UInt64} {waits waits' : List AckWait} {failures : List Failure} :
      x.phase = .waiting counter waits failures → x'.phase = .waiting counter waits' failures →
      Settles x x'
  /-- All of its waits have ended. -/
  | conclude {counter : UInt64} {waits : List AckWait} {failures : List Failure} :
      x.phase = .waiting counter waits failures → x'.phase = .done (.ok ()) → Settles x x'

theorem Settles.trans {x x' x'' : Send} (h : Settles x x') (h' : Settles x' x'') :
    Settles x x'' := by
  cases h with
  | stay hsame => exact hsame ▸ h'
  | refuse hun hdone =>
    cases h' with
    | stay hsame => exact .refuse hun (hsame ▸ hdone)
    | refuse hun' => simp [Unturned, hdone] at hun'
    | wait hp' | conclude hp' => cases hdone.symm.trans hp'
  | wait hp hp' =>
    cases h' with
    | stay hsame => exact .wait hp (hsame ▸ hp')
    | refuse hun' => simp [Unturned, hp'] at hun'
    | wait hq hq' =>
      obtain ⟨rfl, -, rfl⟩ := SendPhase.waiting.inj (hp'.symm.trans hq)
      exact .wait hp hq'
    | conclude _ hdone => exact .conclude hp hdone
  | conclude hp hdone =>
    cases h' with
    | stay hsame => exact .conclude hp (hsame ▸ hdone)
    | refuse hun' => simp [Unturned, hdone] at hun'
    | wait hp' | conclude hp' => cases hdone.symm.trans hp'

section Closed

variable (h : Move me pick s w x s' w' x') (closed : s.cancel.closed = true)

include h closed

/-- While nothing is registered, a send of a closed sender takes no counter, leaves the wire as it
is, and comes nearer to its end. -/
theorem Move.settles (empty : s.registry.isEmpty = true)
    (hx : ∀ counter rest written failures, x.phase ≠ .writing counter rest written failures) :
    Settles x x' ∧ s'.lastCounter = s.lastCounter ∧ w' = w ∧ x'.left < x.left := by
  have hwait {counter : UInt64} {waits : List AckWait} {a a' : AckWait} {s₁ : Sender} {w₁ : Wire}
      (ha : waits[pick]? = some a) (hstep : a.step counter s w = some (s₁, w₁, a')) :
      s₁ = s ∧ w₁ = w ∧ (∃ b ∈ waits.set pick a', b.outcome = some .cancelled) ∧
        (waits.set pick a').countP (·.outcome.isNone) < waits.countP (·.outcome.isNone) := by
    obtain ⟨rfl, rfl, hnone, rfl⟩ := (AckWait.move_of_step hstep).of_closed closed
    obtain ⟨before, behind, hsplit, hset⟩ := exists_around ha
    rw [hset, hsplit]
    refine ⟨rfl, rfl, ⟨_, List.mem_append_right _ List.mem_cons_self, rfl⟩, ?_⟩
    simp [List.countP_append, hnone]
  cases h with
  | refuse hp he =>
    rcases he with ⟨-, rfl⟩ | ⟨-, hregistered, -⟩
    · exact ⟨.refuse (.inl hp) rfl, rfl, rfl, by simp [left, hp]⟩
    · exact absurd empty (by simp [hregistered])
  | enqueue _ hregistered | start _ _ hregistered => exact absurd empty (by simp [hregistered])
  | abandon hp => exact ⟨.refuse (.inr hp) rfl, rfl, rfl, by simp [left, hp]⟩
  | accept hp | reject hp | fail hp | succeed hp | await hp => exact absurd hp (hx _ _ _ _)
  | wait hp ha hstep =>
    obtain ⟨rfl, rfl, -, hless⟩ := hwait ha hstep
    exact ⟨.wait hp rfl, rfl, rfl, by simpa [left, hp] using hless⟩
  | conclude hp ha hstep =>
    obtain ⟨rfl, rfl, ⟨b, hb, hout⟩, hless⟩ := hwait ha hstep
    refine ⟨.conclude hp ?_, rfl, rfl, ?_⟩
    · dsimp only
      rw [verdict_of_mem hb hout]
    · simp only [left, hp]
      omega

/-- A send of a closed sender reads nothing. -/
theorem Move.news_consumed : w.news Connection.consumed w' = [] := by
  cases h with
  | refuse | enqueue | abandon | start | fail | succeed | await => exact Wire.news_self _ w
  | accept _ hw | reject _ hw =>
    have hlogs := Wire.logs_write hw
    exact Wire.news_eq_nil hlogs.size fun f => (hlogs.conn f).consumed.trans (List.append_nil _)
  | wait _ _ hstep | conclude _ _ hstep =>
    obtain ⟨-, rfl, -⟩ := (AckWait.move_of_step hstep).of_closed closed
    exact Wire.news_self _ w'

/-- A send of a closed sender that has its turn only now succeeds exactly if a write is accepted. -/
theorem Move.prompt {accepted : List (Ref × Bytes)} (hx : x.Prompt accepted) :
    x'.Prompt (accepted ++ w.news Connection.written w') := by
  rw [Prompt] at hx
  cases h with
  | refuse hp he =>
    rw [hp] at hx
    rw [hx, Wire.news_self]
    rcases he with ⟨-, rfl⟩ | ⟨-, -, rfl⟩ <;> simp [Prompt]
  | enqueue hp | abandon hp | start hp =>
    rw [hp] at hx
    rw [hx, Wire.news_self]
    simp [Prompt]
  | accept _ hw =>
    rw [Wire.news_written hw]
    simp [Prompt]
  | reject hp hw =>
    rw [hp] at hx
    rw [Wire.news_written_of_error hw, List.append_nil]
    exact hx
  | fail hp =>
    rw [hp] at hx
    rw [Wire.news_self, hx.mp rfl]
    simp [Prompt]
  | succeed hp hwritten | await hp hwritten =>
    rw [hp] at hx
    rw [Wire.news_self, List.append_nil]
    simpa [Prompt] using fun hnil => hwritten (hx.mpr hnil)
  | wait hp _ hstep =>
    obtain ⟨-, rfl, -⟩ := (AckWait.move_of_step hstep).of_closed closed
    rw [hp] at hx
    rw [Wire.news_self, List.append_nil]
    exact hx
  | @conclude _ waits failures a _ _ _ hp ha hstep =>
    obtain ⟨-, rfl, -, rfl⟩ := (AckWait.move_of_step hstep).of_closed closed
    rw [hp] at hx
    have hmem : { a with outcome := some .cancelled }
        ∈ waits.set pick { a with outcome := some .cancelled } :=
      List.mem_set (List.getElem?_eq_some_iff.mp ha).1 _
    rw [Wire.news_self, List.append_nil, Prompt, verdict_of_mem hmem rfl]
    exact iff_of_true rfl hx

end Closed

/-- A send that waits for acknowledgments takes a step in every wait that has not ended. -/
theorem step_isSome_of_closed {counter : UInt64} {waits : List AckWait} {failures : List Failure}
    {a : AckWait} (me : Nat) (w : Wire) (closed : s.cancel.closed = true)
    (hp : x.phase = .waiting counter waits failures) (ha : waits[pick]? = some a)
    (hnone : a.outcome = none) :
    (x.step me pick s w).isSome = true := by
  rw [step, hp]
  dsimp only
  rw [ha]
  dsimp only
  rw [AckWait.step_of_closed closed hnone]
  dsimp only
  split <;> rfl

end Send

end BlockFeed
