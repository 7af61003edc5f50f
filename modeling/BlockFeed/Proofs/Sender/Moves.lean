import BlockFeed.Proofs.Link.Traffic
import BlockFeed.Sender

/-!
# Moves of a send

Everything that one step of a send, or of the wait for one acknowledgment, can do. Statements
about senders follow these cases and do not open the step functions again.

## Main definitions

* `Sender.Keeps`: at most connections have been unregistered in between.
* `AckWait.Move`: what a step of the wait for an acknowledgment does.
* `Send.Move`: what a step of a send does.
-/

namespace BlockFeed

namespace Sender

/-- The sender is as before, but connections may have been unregistered. -/
structure Keeps (s s' : Sender) : Prop where
  withAcknowledge : s'.withAcknowledge = s.withAcknowledge
  lastCounter : s'.lastCounter = s.lastCounter
  line : s'.line = s.line
  cancel : s'.cancel = s.cancel
  entries : s'.registry.entries.Sublist s.registry.entries

theorem Keeps.refl (s : Sender) : s.Keeps s := ⟨rfl, rfl, rfl, rfl, List.Sublist.refl _⟩

theorem keeps_closeAndRemove (s : Sender) (w : Wire) (id : String) :
    s.Keeps (s.closeAndRemove w id).2.1 :=
  ⟨rfl, rfl, rfl, rfl, Registry.entries_closeAndRemove id⟩

theorem wire_closeAndRemove {s : Sender} {w : Wire} (mute : w.Mute) (id : String) :
    w.Keeps (s.closeAndRemove w id).2.2 :=
  Registry.keeps_closeAndRemove mute id

end Sender

namespace AckWait

/-- What a step of the wait for the acknowledgment of a counter does. -/
inductive Move (counter : UInt64) (s : Sender) (w : Wire) (a : AckWait) :
    Sender → Wire → AckWait → Prop where
  /-- The sender was closed. -/
  | cancel : a.outcome = none → s.cancel.closed = true →
      Move counter s w a s w { a with outcome := some .cancelled }
  /-- The acknowledgment was read. -/
  | acknowledge {bytes : Bytes} {w' : Wire} : a.outcome = none → s.cancel.closed = false →
      w.read? a.conn = some (.ok bytes, w') → Ack.decode bytes = .ok counter →
      Move counter s w a s w' { a with outcome := some .acknowledged }
  /-- Something else was read. -/
  | ignore {bytes : Bytes} {w' : Wire} : a.outcome = none → s.cancel.closed = false →
      w.read? a.conn = some (.ok bytes, w') → Ack.decode bytes ≠ .ok counter →
      Move counter s w a s w' a
  /-- Reading failed, and the connection is given up. -/
  | fail {e : ConnectionError} {w' : Wire} : a.outcome = none → s.cancel.closed = false →
      w.read? a.conn = some (.error e, w') →
      Move counter s w a (s.closeAndRemove w' a.id).2.1 (s.closeAndRemove w' a.id).2.2
        { a with outcome := some (.failed e) }

theorem move_of_step {counter : UInt64} {s s' : Sender} {w w' : Wire} {a a' : AckWait}
    (h : a.step counter s w = some (s', w', a')) : Move counter s w a s' w' a' := by
  rw [step] at h
  split at h
  · cases h
  next hout =>
  have hnone : a.outcome = none := by simpa using hout
  split at h
  · next hclosed =>
    obtain ⟨rfl, rfl, rfl⟩ : s = s' ∧ w = w' ∧ { a with outcome := some .cancelled } = a' := by
      simpa using h
    exact .cancel hnone hclosed
  next hopen =>
  have hopen : s.cancel.closed = false := by simpa using hopen
  split at h
  · cases h
  · next bytes w₁ hread =>
    split at h
    · next n hdec =>
      split at h
      · next hn =>
        obtain ⟨rfl, rfl, rfl⟩ :
            s = s' ∧ w₁ = w' ∧ { a with outcome := some .acknowledged } = a' := by simpa using h
        exact .acknowledge hnone hopen hread (hn ▸ hdec)
      · next hn =>
        obtain ⟨rfl, rfl, rfl⟩ : s = s' ∧ w₁ = w' ∧ a = a' := by simpa using h
        exact .ignore hnone hopen hread fun hc => hn (Except.ok.inj (hdec.symm.trans hc))
    · next e hdec =>
      obtain ⟨rfl, rfl, rfl⟩ : s = s' ∧ w₁ = w' ∧ a = a' := by simpa using h
      exact .ignore hnone hopen hread fun hc => by cases hdec.symm.trans hc
  · next e w₁ hread =>
    obtain ⟨rfl, rfl, rfl⟩ : (s.closeAndRemove w₁ a.id).2.1 = s' ∧
        (s.closeAndRemove w₁ a.id).2.2 = w' ∧ { a with outcome := some (.failed e) } = a' := by
      simpa using h
    exact .fail hnone hopen hread

variable {counter : UInt64} {s s' : Sender} {w w' : Wire} {a a' : AckWait}

/-- A wait that has not ended can move, unless there is nothing to read. -/
theorem read?_eq_none_of_step (h : a.step counter s w = none) (hnone : a.outcome = none)
    (isOpen : s.cancel.closed = false) : w.read? a.conn = none := by
  rw [step, hnone, isOpen] at h
  cases hread : w.read? a.conn with
  | none => rfl
  | some result =>
    obtain ⟨result, w'⟩ := result
    simp only [hread, Option.isSome_none, Bool.false_eq_true, if_false] at h
    cases result with
    | error e => cases h
    | ok bytes =>
      dsimp only at h
      split at h
      · split at h <;> cases h
      · cases h

theorem Move.keeps (h : Move counter s w a s' w' a') : s.Keeps s' := by
  cases h with
  | cancel | acknowledge | ignore => exact .refl s
  | @fail e w₁ _ _ _ => exact s.keeps_closeAndRemove w₁ a.id

theorem Move.wire (h : Move counter s w a s' w' a') (mute : w.Mute) : w.Keeps w' := by
  cases h with
  | cancel => exact .refl w
  | acknowledge _ _ hread | ignore _ _ hread => exact Wire.keeps_read hread
  | fail _ _ hread =>
    have hkeeps := Wire.keeps_read hread
    exact hkeeps.trans (Sender.wire_closeAndRemove (hkeeps.mute mute) a.id)

end AckWait

namespace Send

theorem verdict_cases (waits : List AckWait) (failures : List Failure) :
    verdict waits failures = .ok () ∨
      ∃ lost, verdict waits failures = .error (.allWritesFailed lost) := by
  rw [verdict]
  split
  · exact .inl rfl
  · exact .inr ⟨_, rfl⟩

/-- What a step of the send under a number does. -/
inductive Move (me pick : Nat) (s : Sender) (w : Wire) (x : Send) :
    Sender → Wire → Send → Prop where
  /-- There is no connection, or no payload. -/
  | refuse {e : SendError} : x.phase = .called →
      (s.registry.isEmpty = true ∧ e = .noConnections) ∨
        (x.payload = [] ∧ s.registry.isEmpty = false ∧ e = .emptyPayload) →
      Move me pick s w x s w { x with phase := .done (.error e) }
  /-- It joins the line. -/
  | enqueue : x.phase = .called → s.registry.isEmpty = false → x.payload ≠ [] →
      Move me pick s w x { s with line := s.line ++ [me] } w { x with phase := .queued }
  /-- It has its turn, and there is no connection any more. -/
  | abandon : x.phase = .queued → s.line.head? = some me → s.registry.isEmpty = true →
      Move me pick s w x { s with line := s.line.tail } w
        { x with phase := .done (.error .noConnections) }
  /-- It has its turn, and takes the next counter. -/
  | start : x.phase = .queued → s.line.head? = some me → s.registry.isEmpty = false →
      Move me pick s w x { s with lastCounter := s.lastCounter + 1 } w
        { x with phase := .writing (s.lastCounter + 1) s.registry.entries [] [] }
  /-- A connection accepts the frame. -/
  | accept {counter : UInt64} {id : String} {r : Ref} {rest written : List (String × Ref)}
      {failures : List Failure} {w' : Wire} :
      x.phase = .writing counter ((id, r) :: rest) written failures →
      w.write r (frame s counter x) = (.ok (), w') →
      Move me pick s w x s w'
        { x with phase := .writing counter rest (written ++ [(id, r)]) failures }
  /-- A connection does not accept the frame. -/
  | reject {counter : UInt64} {id : String} {r : Ref} {rest written : List (String × Ref)}
      {failures : List Failure} {e : ConnectionError} {w' : Wire} :
      x.phase = .writing counter ((id, r) :: rest) written failures →
      w.write r (frame s counter x) = (.error e, w') →
      Move me pick s w x s w'
        { x with phase := .writing counter rest written (failures ++ [⟨id, e⟩]) }
  /-- No connection has accepted the frame. -/
  | fail {counter : UInt64} {failures : List Failure} :
      x.phase = .writing counter [] [] failures →
      Move me pick s w x { s with line := s.line.tail } w
        { x with phase := .done (.error (.allWritesFailed failures)) }
  /-- A connection has accepted the frame, and acknowledgments are not asked for. -/
  | succeed {counter : UInt64} {written : List (String × Ref)} {failures : List Failure} :
      x.phase = .writing counter [] written failures → written ≠ [] → s.withAcknowledge = false →
      Move me pick s w x { s with line := s.line.tail } w { x with phase := .done (.ok ()) }
  /-- A connection has accepted the frame, and acknowledgments are waited for. -/
  | await {counter : UInt64} {written : List (String × Ref)} {failures : List Failure} :
      x.phase = .writing counter [] written failures → written ≠ [] → s.withAcknowledge = true →
      Move me pick s w x s w
        { x with phase := .waiting counter (written.map fun c => ⟨c.1, c.2, none⟩) failures }
  /-- A wait moves, and some wait has not ended. -/
  | wait {counter : UInt64} {waits : List AckWait} {failures : List Failure} {a a' : AckWait}
      {s' : Sender} {w' : Wire} : x.phase = .waiting counter waits failures →
      waits[pick]? = some a → a.step counter s w = some (s', w', a') →
      (waits.set pick a').all (·.outcome.isSome) = false →
      Move me pick s w x s' w' { x with phase := .waiting counter (waits.set pick a') failures }
  /-- A wait moves, and now all have ended. -/
  | conclude {counter : UInt64} {waits : List AckWait} {failures : List Failure} {a a' : AckWait}
      {s' : Sender} {w' : Wire} : x.phase = .waiting counter waits failures →
      waits[pick]? = some a → a.step counter s w = some (s', w', a') →
      (waits.set pick a').all (·.outcome.isSome) = true →
      Move me pick s w x { s' with line := s'.line.tail } w'
        { x with phase := .done (verdict (waits.set pick a') failures) }

theorem move_of_begin {me pick : Nat} {s s' : Sender} {w w' : Wire} {x x' : Send}
    (hp : x.phase = .called) (h : begin me s w x = (s', w', x')) : Move me pick s w x s' w' x' := by
  rw [begin] at h
  split at h
  · next hempty =>
    obtain ⟨rfl, rfl, rfl⟩ := h
    exact .refuse hp (.inl ⟨hempty, rfl⟩)
  next hreg =>
  split at h
  · next hempty =>
    obtain ⟨rfl, rfl, rfl⟩ := h
    exact .refuse hp (.inr ⟨by simpa using hempty, by simpa using hreg, rfl⟩)
  · next hpay =>
    obtain ⟨rfl, rfl, rfl⟩ := h
    exact .enqueue hp (by simpa using hreg) (by simpa using hpay)

theorem move_of_settle {me pick : Nat} {counter : UInt64} {written : List (String × Ref)}
    {failures : List Failure} {s s' : Sender} {w w' : Wire} {x x' : Send}
    (hp : x.phase = .writing counter [] written failures)
    (h : settle counter written failures s w x = (s', w', x')) : Move me pick s w x s' w' x' := by
  rw [settle] at h
  split at h
  · next hempty =>
    obtain rfl : written = [] := by simpa using hempty
    obtain ⟨rfl, rfl, rfl⟩ := h
    exact .fail hp
  next hwritten =>
  have hwritten : written ≠ [] := by simpa using hwritten
  split at h
  · next hack =>
    obtain ⟨rfl, rfl, rfl⟩ := h
    exact .await hp hwritten hack
  · next hack =>
    obtain ⟨rfl, rfl, rfl⟩ := h
    exact .succeed hp hwritten (by simpa using hack)

theorem move_of_step {me pick : Nat} {s s' : Sender} {w w' : Wire} {x x' : Send}
    (h : x.step me pick s w = some (s', w', x')) : Move me pick s w x s' w' x' := by
  rw [step] at h
  split at h
  · next hp => exact move_of_begin hp (Option.some.inj h)
  · next hp =>
    split at h
    · next hhead =>
      have h := Option.some.inj h
      rw [start] at h
      split at h
      · next hempty =>
        obtain ⟨rfl, rfl, rfl⟩ := h
        exact .abandon hp hhead hempty
      · next hreg =>
        obtain ⟨rfl, rfl, rfl⟩ := h
        exact .start hp hhead (by simpa using hreg)
    · cases h
  · next counter id r rest written failures hp =>
    split at h
    · next w₁ hw =>
      obtain ⟨rfl, rfl, rfl⟩ := Option.some.inj h
      exact .accept hp hw
    · next e w₁ hw =>
      obtain ⟨rfl, rfl, rfl⟩ := Option.some.inj h
      exact .reject hp hw
  · next hp => exact move_of_settle hp (Option.some.inj h)
  · next counter waits failures hp =>
    split at h
    · cases h
    next a ha =>
    split at h
    · cases h
    next s₁ w₁ a₁ hstep =>
    dsimp only at h
    split at h
    · next hall =>
      obtain ⟨rfl, rfl, rfl⟩ := Option.some.inj h
      exact .conclude hp ha hstep hall
    · next hall =>
      obtain ⟨rfl, rfl, rfl⟩ := Option.some.inj h
      exact .wait hp ha hstep (by simpa using hall)
  · cases h

variable {me pick : Nat} {s s' : Sender} {w w' : Wire} {x x' : Send}

theorem Move.payload (h : Move me pick s w x s' w' x') : x'.payload = x.payload := by
  cases h <;> rfl

/-- Sends do not change what was asked of the sender. -/
theorem Move.settings (h : Move me pick s w x s' w' x') :
    s'.withAcknowledge = s.withAcknowledge ∧ s'.cancel = s.cancel := by
  cases h with
  | wait _ _ hstep | conclude _ _ hstep =>
    have hkeeps := (AckWait.move_of_step hstep).keeps
    exact ⟨hkeeps.withAcknowledge, hkeeps.cancel⟩
  | refuse | enqueue | abandon | start | accept | reject | fail | succeed | await =>
    exact ⟨rfl, rfl⟩

/-- A step of a send brings no message, unless a connection accepts the frame: then the frame
arrives at the other end of that connection. -/
theorem Move.brings (h : Move me pick s w x s' w' x') (mute : w.Mute) :
    w.Keeps w' ∨ ∃ counter id r rest written failures,
      x.phase = .writing counter ((id, r) :: rest) written failures ∧
      x'.phase = .writing counter rest (written ++ [(id, r)]) failures ∧
      w.Brings (w.arrivals r (x.frame s counter)) w' := by
  cases h with
  | refuse | enqueue | abandon | start | fail | succeed | await => exact .inl (.refl w)
  | accept hp hw => exact .inr ⟨_, _, _, _, _, _, hp, rfl, Wire.brings_of_write mute hw⟩
  | reject hp hw => exact .inl (Wire.keeps_of_write_error mute hw)
  | wait _ _ hstep | conclude _ _ hstep => exact .inl ((AckWait.move_of_step hstep).wire mute)

def HasTurn (x : Send) : Prop :=
  match x.phase with
  | .writing .. | .waiting .. => True
  | .called | .queued | .done _ => False

/-- The send waits for its turn, or has it. -/
def InLine (x : Send) : Prop :=
  match x.phase with
  | .queued | .writing .. | .waiting .. => True
  | .called | .done _ => False

theorem HasTurn.inLine (h : x.HasTurn) : x.InLine := by
  rw [HasTurn] at h
  split at h
  · next hp => simp [InLine, hp]
  · next hp => simp [InLine, hp]
  all_goals exact h.elim

/-- A send that has not had its turn takes it, with the connections that are registered, or does not
have it in its next step either. -/
theorem Move.of_not_hasTurn (h : Move me pick s w x s' w' x') (turn : ¬x.HasTurn) :
    ¬x'.HasTurn ∨ ∃ counter, x' = { x with phase := .writing counter s.registry.entries [] [] } ∧
      w' = w := by
  cases h with
  | refuse | enqueue | abandon => exact .inl (by simp [HasTurn])
  | start => exact .inr ⟨_, rfl, rfl⟩
  | accept hp | reject hp | fail hp | succeed hp | await hp | wait hp | conclude hp =>
    exact absurd (by simp [HasTurn, hp]) turn

/-- What a step of a send does to the line. -/
inductive Lines (me : Nat) (s : Sender) (x : Send) (s' : Sender) (x' : Send) : Prop where
  | stay : s'.line = s.line → (x'.InLine ↔ x.InLine) → (x'.HasTurn → s.line.head? = some me) →
      Lines me s x s' x'
  /-- The send joins it. -/
  | join : x.phase = .called → x'.phase = .queued → s'.line = s.line ++ [me] → Lines me s x s' x'
  /-- The send has its turn and leaves it. -/
  | leave : x.InLine → ¬x'.InLine → s'.line = s.line.tail → s.line.head? = some me →
      Lines me s x s' x'

theorem Move.line (h : Move me pick s w x s' w' x') (turn : x.HasTurn → s.line.head? = some me) :
    Lines me s x s' x' := by
  cases h with
  | refuse hp => exact .stay rfl (by simp [InLine, hp]) False.elim
  | enqueue hp => exact .join hp rfl rfl
  | abandon hp hhead => exact .leave (by simp [InLine, hp]) (by simp [InLine]) rfl hhead
  | start hp hhead => exact .stay rfl (by simp [InLine, hp]) fun _ => hhead
  | accept hp | reject hp | await hp =>
    exact .stay rfl (by simp [InLine, hp]) fun _ => turn (by simp [HasTurn, hp])
  | fail hp | succeed hp =>
    exact .leave (by simp [InLine, hp]) (by simp [InLine]) rfl (turn (by simp [HasTurn, hp]))
  | wait hp _ hstep =>
    have hline := (AckWait.move_of_step hstep).keeps.line
    exact .stay hline (by simp [InLine, hp]) fun _ => turn (by simp [HasTurn, hp])
  | conclude hp _ hstep =>
    have hline := (AckWait.move_of_step hstep).keeps.line
    exact .leave (by simp [InLine, hp]) (by simp [InLine]) (congrArg List.tail hline)
      (turn (by simp [HasTurn, hp]))

theorem Move.ne_called (h : Move me pick s w x s' w' x') : x'.phase ≠ .called := by
  cases h <;> simp

theorem Move.entries (h : Move me pick s w x s' w' x') :
    s'.registry.entries.Sublist s.registry.entries := by
  cases h with
  | wait _ _ hstep | conclude _ _ hstep => exact (AckWait.move_of_step hstep).keeps.entries
  | refuse | enqueue | abandon | start | accept | reject | fail | succeed | await =>
    exact List.Sublist.refl _

end Send

end BlockFeed
