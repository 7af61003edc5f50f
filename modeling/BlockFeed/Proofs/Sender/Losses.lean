import BlockFeed.Proofs.Link.Registrations
import BlockFeed.Proofs.Sender.Moves

/-!
# Connections that a send loses

A send reads from connections and writes to them, and gives up those whose acknowledgment it cannot
read. It does nothing else to connections, nor to what is registered.

## Main definitions

* `Send.Loses`: the send is about to give up what is registered under an id.
* `Send.Toll`: what a step of a send does to the connections and the registry.

## Main results

* `Send.Move.toll`: every step of a send uses the connections, or gives up one of them.
* `Send.Move.quiet`, `Send.Move.spares`: what a step leaves as it is.
-/

namespace BlockFeed

/-- The wait is about to find that its connection cannot be read. -/
def AckWait.Fails (s : Sender) (w : Wire) (a : AckWait) : Prop :=
  a.outcome = none ∧ s.cancel.closed = false ∧
    ∃ e w', w.read? a.conn = some (.error e, w')

theorem AckWait.Fails.step_ne_none {s : Sender} {w : Wire} {a : AckWait} (h : a.Fails s w)
    (counter : UInt64) : a.step counter s w ≠ none := by
  obtain ⟨hnone, hopen, e, w', hread⟩ := h
  simp [step, hnone, hopen, hread]

/-- Whether a wait gives up its connection is told by what its connection has to tell. -/
theorem AckWait.Move.cases_fails {counter : UInt64} {s s' : Sender} {w w' : Wire} {a a' : AckWait}
    (h : Move counter s w a s' w' a') :
    (¬a.Fails s w ∧ s' = s ∧ w.Used w') ∨
      a.Fails s w ∧ ∃ w₁, w.Used w₁ ∧ s' = (s.closeAndRemove w₁ a.id).2.1 ∧
        w' = (s.closeAndRemove w₁ a.id).2.2 := by
  cases h with
  | cancel _ hclosed =>
    refine .inl ⟨fun hfails => ?_, rfl, .refl w⟩
    rw [hfails.2.1] at hclosed
    cases hclosed
  | acknowledge _ _ hread | ignore _ _ hread =>
    refine .inl ⟨fun hfails => ?_, rfl, Wire.used_read hread⟩
    obtain ⟨-, -, e, w₁, herror⟩ := hfails
    cases hread.symm.trans herror
  | fail hnone hopen hread =>
    exact .inr ⟨⟨hnone, hopen, _, _, hread⟩, _, Wire.used_read hread, rfl, rfl⟩

namespace Send

/-- The send is about to give up what is registered under an id, for the connection that it has
written to under this id cannot be read any more. -/
def Loses (pick : Nat) (s : Sender) (w : Wire) (x : Send) (id : String) : Prop :=
  ∃ counter waits failures a, x.phase = .waiting counter waits failures ∧ waits[pick]? = some a ∧
    a.id = id ∧ a.Fails s w

variable {me pick : Nat} {s s' : Sender} {w w' : Wire} {x x' : Send} {id : String}

theorem loses_iff {counter : UInt64} {waits : List AckWait} {failures : List Failure} {a : AckWait}
    (hp : x.phase = .waiting counter waits failures) (ha : waits[pick]? = some a) :
    x.Loses pick s w id ↔ a.id = id ∧ a.Fails s w := by
  constructor
  · rintro ⟨_, _, _, b, hq, hb, hid, hfails⟩
    obtain ⟨rfl, rfl, rfl⟩ := SendPhase.waiting.inj (hp.symm.trans hq)
    obtain rfl := Option.some.inj (ha.symm.trans hb)
    exact ⟨hid, hfails⟩
  · exact fun ⟨hid, hfails⟩ => ⟨counter, waits, failures, a, hp, ha, hid, hfails⟩

theorem not_loses (h : ∀ counter waits failures, x.phase ≠ .waiting counter waits failures)
    (id : String) : ¬x.Loses pick s w id := by
  rintro ⟨_, _, _, _, hp, -⟩
  exact h _ _ _ hp

theorem Loses.step_ne_none (h : x.Loses pick s w id) (me : Nat) : x.step me pick s w ≠ none := by
  obtain ⟨counter, waits, failures, a, hp, ha, -, hfails⟩ := h
  have hstep := hfails.step_ne_none counter
  rw [step, hp]
  dsimp only
  rw [ha]
  dsimp only
  split
  · next hnone => exact absurd hnone hstep
  · split <;> simp

/-- What a step of a send does to the registry and the connections. -/
inductive Toll (pick : Nat) (s : Sender) (w : Wire) (x : Send) (g' : Registry) (w' : Wire) :
    Prop where
  /-- It uses the connections, and leaves the registry as it is. -/
  | use : (∀ id, ¬x.Loses pick s w id) → g' = s.registry → w.Used w' → Toll pick s w x g' w'
  /-- It gives up what is registered under an id. -/
  | lose {id : String} {w₁ : Wire} : x.Loses pick s w id → w.Used w₁ →
      g' = (s.registry.closeAndRemove w₁ id).2.1 → w' = (s.registry.closeAndRemove w₁ id).2.2 →
      Toll pick s w x g' w'

theorem Move.toll (h : Move me pick s w x s' w' x') : Toll pick s w x s'.registry w' := by
  have hwait {counter : UInt64} {waits : List AckWait} {failures : List Failure} {a a' : AckWait}
      {s₁ : Sender} {w₁ : Wire} (hp : x.phase = .waiting counter waits failures)
      (ha : waits[pick]? = some a) (hstep : a.step counter s w = some (s₁, w₁, a')) :
      Toll pick s w x s₁.registry w₁ := by
    rcases (AckWait.move_of_step hstep).cases_fails with ⟨hnot, rfl, hused⟩ | ⟨hfails, w₂, hused,
      rfl, rfl⟩
    · exact .use (fun id hloses => hnot ((loses_iff hp ha).mp hloses).2) rfl hused
    · exact .lose ((loses_iff hp ha).mpr ⟨rfl, hfails⟩) hused rfl rfl
  cases h with
  | refuse hp | enqueue hp | abandon hp | start hp | fail hp | succeed hp | await hp =>
    exact .use (not_loses (by simp [hp])) rfl (.refl w)
  | accept hp hw | reject hp hw =>
    exact .use (not_loses (by simp [hp])) rfl (Wire.used_write hw)
  | wait hp ha hstep | conclude hp ha hstep =>
    have htoll := hwait hp ha hstep
    exact htoll

/-- A send opens no connection. -/
theorem Toll.wanes {g' : Registry} (h : Toll pick s w x g' w') : w.Wanes w' := by
  cases h with
  | use _ _ hused => exact hused.wanes
  | lose _ hused _ hw => exact hused.wanes.trans (hw ▸ Registry.wanes_closeAndRemove _ _ _)

/-- A send that waits for nothing removes, closes and reads nothing. -/
theorem Move.quiet (h : Move me pick s w x s' w' x')
    (hx : ∀ counter waits failures, x.phase ≠ .waiting counter waits failures) :
    s'.registry = s.registry ∧ ∀ f, (w'.conn f).closes = (w.conn f).closes ∧
      (w'.conn f).taken = (w.conn f).taken := by
  have htaken : ∀ f, (w'.conn f).taken = (w.conn f).taken := by
    cases h with
    | refuse | enqueue | abandon | start | fail | succeed | await => exact fun _ => rfl
    | @accept counter _ r _ _ _ _ _ hw | @reject counter _ r _ _ _ _ _ _ hw =>
      intro f
      have htaken := w.taken_write r f (x.frame s counter)
      rwa [hw] at htaken
    | wait hp | conclude hp => exact absurd hp (hx _ _ _)
  cases h.toll with
  | use _ hsame hused => exact ⟨hsame, fun f => ⟨(hused.conn f).closes, htaken f⟩⟩
  | lose hloses => exact absurd hloses (not_loses hx _)

/-- A step of a send spares what is registered under an id, and the connection that has this id,
unless it is about to give up what is registered under this id. -/
theorem Move.spares (h : Move me pick s w x s' w' x') {id : String} {r : Ref}
    (named : ∀ d ∈ s.registry.entries, d.2 < w.connections.length ∧ (w.conn d.2).id = d.1)
    (hid : (w.conn r).id = id) (hnot : ¬x.Loses pick s w id) :
    (∀ q, (id, q) ∈ s'.registry.entries ↔ (id, q) ∈ s.registry.entries) ∧
      (w'.conn r).closes = (w.conn r).closes := by
  cases h.toll with
  | use _ hsame hused => exact ⟨fun q => by rw [hsame], (hused.conn r).closes⟩
  | @lose lost w₁ hloses hused hg hw =>
    have hne : id ≠ lost := fun heq => hnot (heq ▸ hloses)
    refine ⟨fun q => ?_, ?_⟩
    · rw [hg, Registry.entries_closeAndRemove_eq, List.mem_filter]
      simp [hne]
    · rw [hw, ← (hused.conn r).closes]
      cases hget : s.registry.get? lost with
      | none => rw [Registry.closeAndRemove_of_none hget]
      | some q =>
        obtain ⟨hq, hname⟩ := named (lost, q) (Table.mem_entries_iff.mpr hget)
        have hother : q ≠ r := by
          rintro rfl
          exact hne (hid.symm.trans hname)
        rw [Registry.closeAndRemove_of_get? hget, (Wire.conn_close (hused.size ▸ hq) r).1,
          if_neg hother, Nat.add_zero]

end Send

end BlockFeed
