import BlockFeed.Proofs.Run
import BlockFeed.Proofs.Sender.Tally

/-!
# Sends on their own

A send with its sender and the connections, where no other send does anything. The connections are
those of others as well, so they may be found changed between two steps.

## Main definitions

* `Send.Solo`: the sender, the connections and how far the send has got.
* `Send.Solo.apply`: the send takes a step, or the connections change meanwhile.
* `Send.Among`: what a send has in hand is among some connections.

## Main results

* `Send.Solo.stays_registered`: a connection stays registered as long as it could be read.
* `Send.Solo.deserted`: without connections a send comes to nothing, and does nothing to the
  connections.
-/

namespace BlockFeed

namespace Send

/-- What a send has in hand is among some connections, under the ids that they have there. -/
def Among (entries : List (String × Ref)) (x : Send) : Prop :=
  match x.phase with
  | .writing _ rest written _ => rest ⊆ entries ∧ written ⊆ entries
  | .waiting _ waits _ => ∀ a ∈ waits, (a.id, a.conn) ∈ entries
  | .called | .queued | .done _ => True

variable {me pick : Nat} {s s' : Sender} {w w' : Wire} {x x' : Send} {entries : List (String × Ref)}
  {c : String × Ref}

/-- A send takes what it has in hand from what is registered. -/
theorem Move.among (h : Move me pick s w x s' w' x') (registered : s.registry.entries ⊆ entries)
    (among : x.Among entries) : x'.Among entries := by
  have hset {counter : UInt64} {waits : List AckWait} {failures : List Failure} {a a' : AckWait}
      {s' : Sender} {w' : Wire} (hp : x.phase = .waiting counter waits failures)
      (ha : waits[pick]? = some a) (hstep : a.step counter s w = some (s', w', a')) :
      ∀ b ∈ waits.set pick a', (b.id, b.conn) ∈ entries := by
    simp only [Among, hp] at among
    intro b hb
    rcases List.mem_or_eq_of_mem_set hb with hold | rfl
    · exact among b hold
    · -- a wait stands for its connection to its end
      obtain ⟨-, ⟨-, rfl⟩ | ⟨outcome, -, rfl⟩⟩ := (AckWait.move_of_step hstep).resolves
      · exact among b (List.mem_of_getElem? ha)
      · exact among a (List.mem_of_getElem? ha)
  cases h with
  | refuse | enqueue | abandon | fail | succeed | conclude => trivial
  | start => exact ⟨registered, List.nil_subset _⟩
  | accept hp =>
    simp only [Among, hp] at among
    obtain ⟨hrest, hwritten⟩ := among
    exact ⟨List.Subset.trans (List.subset_cons_self _ _) hrest,
      List.append_subset.mpr ⟨hwritten, by simpa using hrest List.mem_cons_self⟩⟩
  | reject hp =>
    simp only [Among, hp] at among
    exact ⟨List.Subset.trans (List.subset_cons_self _ _) among.1, among.2⟩
  | await hp =>
    simp only [Among, hp] at among
    intro a ha
    obtain ⟨c, hc, rfl⟩ := List.mem_map.mp ha
    exact among.2 hc
  | wait hp ha hstep => exact hset hp ha hstep

/-- A step of a send leaves a connection registered that it does not fail to read. -/
theorem Move.stays_registered (h : Move me pick s w x s' w' x') (among : x.Among entries)
    (ids : (entries.map Prod.fst).Nodup) (hc : c ∈ entries)
    (kept : ∀ e, (c.2, .failed e) ∉ x.resolves pick s w) (registered : c ∈ s.registry.entries) :
    c ∈ s'.registry.entries := by
  cases h.toll with
  | use _ hsame => exact hsame ▸ registered
  | @lose id w₁ hloses _ hg =>
    rw [hg, Registry.entries_closeAndRemove_eq]
    refine List.mem_filter.mpr ⟨registered, bne_iff_ne.mpr ?_⟩
    rintro rfl
    obtain ⟨counter, waits, failures, a, hp, ha, hid, hnone, hopen, e, w₂, hread⟩ := hloses
    simp only [Among, hp] at among
    have hconn : (a.id, a.conn) = c :=
      List.inj_on_of_nodup_map ids (among a (List.mem_of_getElem? ha)) hc hid
    refine kept e ?_
    rw [resolves_of_waiting hp ha, ← hconn]
    simp [AckWait.resolves?, hnone, hopen, hread]

/-- A send with its sender and the connections. -/
structure Solo where
  sender : Sender
  wire : Wire
  send : Send

namespace Solo

/-- What may happen to a send on its own. -/
inductive Event where
  | step (pick : Nat)
  /-- Others have left the connections like this. -/
  | meanwhile (wire : Wire)

/-- The send under a number after something has happened. -/
def apply (me : Nat) (z : Solo) : Event → Solo
  | .step pick =>
    match z.send.step me pick z.sender z.wire with
    | some (sender, wire, send) => ⟨sender, wire, send⟩
    | none => z
  | .meanwhile wire => { z with wire }

def applyAll (me : Nat) (z : Solo) (events : List Event) : Solo := events.foldl (apply me) z

/-- The wait that an event ends, with how it does. -/
def ending (z : Solo) : Event → List (Ref × AckOutcome)
  | .step pick => z.send.resolves pick z.sender z.wire
  | .meanwhile _ => []

/-- The waits that have ended in the course of a send, with how they have. -/
def ends (me : Nat) (z : Solo) (events : List Event) : List (Ref × AckOutcome) :=
  collect (apply me) ending z events

variable {me pick : Nat} {z : Solo} {events : List Event} {c : String × Ref}

theorem applyAll_concat (me : Nat) (z : Solo) (events : List Event) (e : Event) :
    applyAll me z (events ++ [e]) = apply me (applyAll me z events) e := List.foldl_append

theorem ends_concat (me : Nat) (z : Solo) (events : List Event) (e : Event) :
    ends me z (events ++ [e]) = ends me z events ++ ending (applyAll me z events) e :=
  collect_concat ..

/-- A send takes a step, or has none to take. -/
theorem apply_step (me pick : Nat) (z : Solo) :
    (z.send.step me pick z.sender z.wire = none ∧ z.apply me (.step pick) = z) ∨
      Move me pick z.sender z.wire z.send (z.apply me (.step pick)).sender
        (z.apply me (.step pick)).wire (z.apply me (.step pick)).send := by
  rw [apply]
  cases hstep : z.send.step me pick z.sender z.wire with
  | none => exact .inl ⟨rfl, rfl⟩
  | some y => exact .inr (move_of_step hstep)

/-- From its call on, what a send has in hand is among what was registered then. -/
theorem among_applyAll (called : z.send.phase = .called) (events : List Event) :
    (z.applyAll me events).sender.registry.entries ⊆ z.sender.registry.entries ∧
      (z.applyAll me events).send.Among z.sender.registry.entries := by
  induction events using List.reverseRecOn with
  | nil => exact ⟨List.Subset.refl _, by simp [applyAll, Among, called]⟩
  | append_singleton events e ih =>
    obtain ⟨hsub, hamong⟩ := ih
    rw [applyAll_concat]
    cases e with
    | meanwhile => exact ⟨hsub, hamong⟩
    | step pick =>
      rcases apply_step me pick (z.applyAll me events) with ⟨-, hstay⟩ | hmove
      · rw [hstay]
        exact ⟨hsub, hamong⟩
      · exact ⟨List.Subset.trans hmove.entries.subset hsub, hmove.among hsub hamong⟩

/-- A connection stays registered as long as it could be read. -/
theorem stays_registered (called : z.send.phase = .called) (hc : c ∈ z.sender.registry.entries)
    (kept : ∀ e, (c.2, .failed e) ∉ z.ends me events) :
    c ∈ (z.applyAll me events).sender.registry.entries := by
  induction events using List.reverseRecOn with
  | nil => exact hc
  | append_singleton events e ih =>
    simp only [ends_concat, List.mem_append, not_or] at kept
    have hbefore := ih fun error => (kept error).1
    rw [applyAll_concat]
    cases e with
    | meanwhile => exact hbefore
    | step pick =>
      rcases apply_step me pick (z.applyAll me events) with ⟨-, hstay⟩ | hmove
      · rwa [hstay]
      · exact hmove.stays_registered (among_applyAll called events).2 z.sender.registry.nodup hc
          (fun error => (kept error).2) hbefore

/-- Where nothing is registered, the first step of a send is its last, and does nothing else. -/
theorem apply_deserted (called : z.send.phase = .called) (empty : z.sender.registry.entries = [])
    (me pick : Nat) : z.apply me (.step pick)
      = { z with send := { z.send with phase := .done (.error .noConnections) } } := by
  have hbegin : begin me z.sender z.wire z.send
      = (z.sender, z.wire, { z.send with phase := .done (.error .noConnections) }) :=
    if_pos (by simp [Table.isEmpty, empty])
  rw [apply, step, called]
  dsimp only
  rw [hbegin]

/-- A send that is done stays as it is. -/
theorem apply_done {result : Except SendError Unit} (done : z.send.phase = .done result)
    (me pick : Nat) : z.apply me (.step pick) = z := by
  rw [apply, step, done]

/-- Without connections a send does nothing to its sender or to the connections, and its first step
tells so. -/
theorem deserted (called : z.send.phase = .called) (empty : z.sender.registry.entries = [])
    (me : Nat) (events : List Event) : (z.applyAll me events).sender = z.sender ∧
      (∀ pick, ((z.applyAll me events).apply me (.step pick)).wire
        = (z.applyAll me events).wire) ∧
      ∀ pick, .step pick ∈ events →
        (z.applyAll me events).send.result? = some (.error .noConnections) := by
  -- before its first step the send is as it was, and after it done
  have hrun : (z.applyAll me events).sender = z.sender ∧
      (((z.applyAll me events).send.phase = .called ∧ ∀ pick, .step pick ∉ events) ∨
        (z.applyAll me events).send.phase = .done (.error .noConnections)) := by
    induction events using List.reverseRecOn with
    | nil => exact ⟨rfl, .inl ⟨called, by simp⟩⟩
    | append_singleton events e ih =>
      obtain ⟨hsender, hsend⟩ := ih
      rw [applyAll_concat]
      cases e with
      | meanwhile => exact ⟨hsender, by simpa [apply] using hsend⟩
      | step pick =>
        rcases hsend with ⟨hcalled, -⟩ | hdone
        · rw [apply_deserted hcalled (hsender ▸ empty)]
          exact ⟨hsender, .inr rfl⟩
        · rw [apply_done hdone]
          exact ⟨hsender, .inr hdone⟩
  obtain ⟨hsender, hsend⟩ := hrun
  refine ⟨hsender, fun pick => ?_, fun pick hpick => ?_⟩
  · rcases hsend with ⟨hcalled, -⟩ | hdone
    · rw [apply_deserted hcalled (hsender ▸ empty)]
    · rw [apply_done hdone]
  · rcases hsend with ⟨-, hnone⟩ | hdone
    · exact absurd hpick (hnone pick)
    · rw [result?, hdone]

end Solo

end Send

end BlockFeed
