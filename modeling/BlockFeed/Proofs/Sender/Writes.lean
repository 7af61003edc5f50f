import BlockFeed.Proofs.Link.Histories
import BlockFeed.Proofs.Sender.Moves

/-!
# Writes of a send

Which writes a step of a send calls for, and at which connections it leaves a frame.

## Main definitions

* `Send.offers`: the write that the next step calls for.
* `Send.owes`: the writes that a send has still to call for.
-/

namespace BlockFeed

theorem AckWait.Move.logs {counter : UInt64} {s s' : Sender} {w w' : Wire} {a a' : AckWait}
    (h : Move counter s w a s' w' a') : ∃ reads, w.Logs (fun _ => []) reads w' := by
  cases h with
  | cancel => exact ⟨_, Wire.Still.refl w⟩
  | acknowledge _ _ hread | ignore _ _ hread => exact ⟨_, Wire.logs_read hread⟩
  | fail _ _ hread =>
    exact ⟨_, (Wire.logs_read hread).still (Registry.still_closeAndRemove a.id)⟩

namespace Send

/-- The write that the next step calls for, if it calls for one. -/
def offers (s : Sender) (x : Send) : List (Ref × Bytes) :=
  match x.phase with
  | .writing counter ((_, r) :: _) _ _ => [(r, x.frame s counter)]
  | _ => []

/-- The writes that a send which has taken its counter has still to call for. -/
def owes (s : Sender) (x : Send) : List (Ref × Bytes) :=
  match x.phase with
  | .writing counter rest _ _ => rest.map fun c => (c.2, x.frame s counter)
  | _ => []

variable {me pick : Nat} {s s' : Sender} {w w' : Wire} {x x' : Send}

theorem owes_congr (h : s'.withAcknowledge = s.withAcknowledge) (x : Send) :
    x.owes s' = x.owes s := by
  simp only [owes, frame, h]

/-- A step of a send writes nothing, or it writes its frame to the next connection. -/
theorem Move.silent_or_writes (h : Move me pick s w x s' w' x') :
    ((∃ reads, w.Logs (fun _ => []) reads w') ∧ x.offers s = []) ∨
      ∃ counter id r rest written failures result,
        x.phase = .writing counter ((id, r) :: rest) written failures ∧
        w.write r (x.frame s counter) = (result, w') := by
  cases h with
  | accept hp hw | reject hp hw => exact .inr ⟨_, _, _, _, _, _, _, hp, hw⟩
  | wait hp _ hstep | conclude hp _ hstep =>
    exact .inl ⟨(AckWait.move_of_step hstep).logs, by simp [offers, hp]⟩
  | refuse hp | enqueue hp | abandon hp | start hp | fail hp | succeed hp | await hp =>
    exact .inl ⟨⟨_, Wire.Still.refl w⟩, by simp [offers, hp]⟩

theorem Move.logs (h : Move me pick s w x s' w' x') : ∃ calls reads, w.Logs calls reads w' := by
  rcases h.silent_or_writes with ⟨⟨_, hlogs⟩, -⟩ | ⟨_, _, _, _, _, _, _, -, hw⟩
  · exact ⟨_, _, hlogs⟩
  · exact ⟨_, _, Wire.logs_write hw⟩

/-- The connections gain the write that the step called for, if there is such a connection, and
nothing else. -/
theorem Move.news_offered_eq (h : Move me pick s w x s' w' x') :
    w.news Connection.offered w' = (x.offers s).filter fun o => o.1 < w.connections.length := by
  rcases h.silent_or_writes with ⟨⟨reads, hlogs⟩, hnone⟩ | ⟨counter, id, r, _, _, _, _, hp, hw⟩
  · rw [hnone]
    refine Wire.news_eq_nil hlogs.size fun r => ?_
    have hoffered := (hlogs.conn r).offered
    simpa using hoffered
  · have hlogs := Wire.logs_write hw
    have hgains : w.news Connection.offered w'
        = if r < w.connections.length then [x.frame s counter].map (r, ·) else [] := by
      refine Wire.news_only hlogs.size fun r' => ?_
      rw [(hlogs.conn r').offered, Wire.only, Wire.only]
      split <;> rfl
    rw [hgains]
    simp [offers, hp, List.filter_cons]

theorem Move.news_offered (h : Move me pick s w x s' w' x')
    (exist : ∀ o ∈ x.offers s, o.1 < w.connections.length) :
    w.news Connection.offered w' = x.offers s := by
  rw [h.news_offered_eq, List.filter_eq_self]
  exact fun o ho => decide_eq_true (exist o ho)

/-- Once a send has taken its counter, what it owes is what it calls for next and what it owes
after that. -/
theorem Move.owes (h : Move me pick s w x s' w' x') (hq : x.phase ≠ .queued) :
    x.owes s = x.offers s ++ x'.owes s' := by
  have hsettings := h.settings.1
  rw [owes_congr hsettings]
  cases h with
  | start hp => exact absurd hp hq
  | accept hp | reject hp => simp [Send.owes, offers, hp, frame]
  | fail hp | succeed hp | await hp => simp [Send.owes, offers, hp]
  | refuse hp | enqueue hp | abandon hp | wait hp | conclude hp => simp [Send.owes, offers, hp]

end Send

end BlockFeed
