import Mathlib.Data.List.GetD
import Mathlib.Data.List.Induction
import BlockFeed.Signal

/-!
# Histories of a signal

What the handles of a signal observe, told from the operations alone.

## Main definitions

* `Signal.Op`, `Signal.run`: the operations, and the signal after some of them.
* `Signal.EndsClosed`: the signal was closed, and not reset after that.
* `Signal.Settled`: every former token has fired.

## Main results

* `Signal.history_observed`: which handles have fired and whether the signal is closed.

## Design notes

A token that is no longer current is never fired any more. That no handle is left on a token that
did not fire is owed to `reset`, which gives up fired tokens only.
-/

namespace BlockFeed.Signal

/-- What may be asked of a signal. -/
inductive Op where
  | close
  | reset
  /-- Take a handle. -/
  | wait
  | isClosed
  deriving DecidableEq, Repr

/-- The signal after an operation. -/
def apply (s : Signal) : Op → Signal
  | .close => s.close
  | .reset => s.reset
  | .wait | .isClosed => s

/-- A new signal after some operations. -/
def run (ops : List Op) : Signal := ops.foldl apply {}

/-- The signal was closed, and not reset after that. -/
def EndsClosed (ops : List Op) : Prop :=
  ∃ before after, ops = before ++ .close :: after ∧ Op.reset ∉ after

theorem run_concat (ops : List Op) (op : Op) : run (ops ++ [op]) = (run ops).apply op :=
  List.foldl_append

theorem not_endsClosed_nil : ¬EndsClosed [] := by
  rintro ⟨before, after, h, -⟩
  simp at h

theorem endsClosed_concat {ops : List Op} {op : Op} :
    EndsClosed (ops ++ [op]) ↔ op = .close ∨ (op ≠ .reset ∧ EndsClosed ops) := by
  constructor
  · rintro ⟨before, after, h, hnot⟩
    induction after using List.reverseRecOn with
    | nil => exact .inl (List.singleton_inj.mp (List.append_inj_right' h rfl))
    | append_singleton rest last =>
      rw [← List.cons_append, ← List.append_assoc] at h
      obtain ⟨rfl, hlast⟩ := List.append_inj' h rfl
      obtain rfl := List.singleton_inj.mp hlast
      rw [List.mem_append, not_or, List.mem_singleton] at hnot
      exact .inr ⟨fun heq => hnot.2 heq.symm, before, rest, rfl, hnot.1⟩
  · rintro (rfl | ⟨hne, before, after, rfl, hnot⟩)
    · exact ⟨ops, [], rfl, List.not_mem_nil⟩
    · refine ⟨before, after ++ [op], by simp, ?_⟩
      simpa [hnot] using fun heq => hne heq.symm

/-- A signal is closed exactly if it was closed and not reset after that. -/
theorem closed_run_iff (ops : List Op) : (run ops).closed = true ↔ EndsClosed ops := by
  induction ops using List.reverseRecOn with
  | nil => simp [run, not_endsClosed_nil]
  | append_singleton ops op ih =>
    rw [run_concat, endsClosed_concat, ← ih]
    cases op with
    | close => simp [apply, close]
    | reset => by_cases h : (run ops).closed <;> simp [apply, reset, h]
    | wait | isClosed => simp [apply]

/-- A handle that is taken observes what the signal is. -/
theorem fired_wait (s : Signal) : s.fired s.wait = s.closed := by
  simp [fired, wait, tokens]

/-- Every former token has fired. -/
def Settled (s : Signal) : Prop := ∀ b ∈ s.former, b = true

theorem Settled.apply {s : Signal} (h : s.Settled) (op : Op) : (s.apply op).Settled := by
  cases op with
  | reset =>
    rw [Signal.apply, reset]
    split
    · next hclosed => simpa [Settled, tokens, hclosed] using h
    · exact h
  | close | wait | isClosed => exact h

theorem settled_run (ops : List Op) : (run ops).Settled := by
  induction ops using List.reverseRecOn with
  | nil => exact nofun
  | append_singleton ops op ih =>
    rw [run_concat]
    exact ih.apply op

/-- The handle is on a token of the signal. -/
def Given (s : Signal) (h : Handle) : Prop := h.token < s.tokens.length

theorem given_wait (s : Signal) : s.Given s.wait := by
  simp [Given, wait, tokens]

theorem Given.apply {s : Signal} {h : Handle} (given : s.Given h) (op : Op) :
    (s.apply op).Given h := by
  cases op with
  | close => simpa [Given, Signal.apply, close, tokens] using given
  | reset =>
    rw [Signal.apply, reset]
    split
    · rw [Given, tokens, List.length_append]
      exact Nat.lt_add_right _ given
    · exact given
  | wait | isClosed => exact given

/-- Closing the signal fires every handle, and nothing else changes what a handle observes. -/
theorem fired_apply {s : Signal} {h : Handle} (settled : s.Settled) (given : s.Given h) (op : Op) :
    (s.apply op).fired h = true ↔ s.fired h = true ∨ op = .close := by
  cases op with
  | close =>
    have hall : ∀ b ∈ s.close.tokens, b = true := by
      simpa [Settled, tokens, close] using settled
    have hlt : h.token < s.close.tokens.length := given.apply .close
    have hfired : s.close.fired h = true := by
      rw [fired, List.getD_eq_getElem _ _ hlt]
      exact hall _ (List.getElem_mem hlt)
    simp [Signal.apply, hfired]
  | reset =>
    -- the token of the handle keeps its place when a new one follows
    have hsame : s.reset.fired h = s.fired h := by
      rw [reset]
      split
      · exact List.getD_append _ _ _ _ given
      · rfl
    simp [Signal.apply, hsame]
  | wait | isClosed => simp [Signal.apply]

theorem fired_foldl {s : Signal} {h : Handle} (settled : s.Settled) (given : s.Given h)
    (ops : List Op) : (ops.foldl apply s).fired h = true ↔ s.fired h = true ∨ .close ∈ ops := by
  induction ops generalizing s with
  | nil => simp
  | cons op rest ih =>
    rw [List.foldl_cons, ih (settled.apply op) (given.apply op), fired_apply settled given,
      or_assoc, List.mem_cons, eq_comm (a := op)]

/-- What can be observed of a signal after some operations. -/
structure Observed (ops : List Op) : Prop where
  /-- It is closed exactly if it was closed and not reset after that. -/
  closed : (run ops).closed = true ↔ EndsClosed ops
  /-- Whoever takes a handle now observes the same. -/
  current : (run ops).fired (run ops).wait = (run ops).closed
  /-- A handle has fired exactly if the signal was closed when it was taken, or since. -/
  handle : ∀ before after, ops = before ++ .wait :: after →
    ((run ops).fired (run before).wait = true ↔ (run before).closed = true ∨ .close ∈ after)

/-- However often a signal is closed and reset, its handles tell of every closing since they were
taken, and of no other that was over by then. -/
theorem history_observed (ops : List Op) : Observed ops where
  closed := closed_run_iff ops
  current := fired_wait _
  handle := by
    rintro before after rfl
    have hfired := fired_foldl (settled_run before) (given_wait _) (.wait :: after)
    rw [fired_wait, List.mem_cons] at hfired
    simpa [run] using hfired

/-- A handle that was taken before a closing stays released after a reset, and a new one is not. -/
example : ((run [.wait, .reset, .close, .reset]).fired ⟨0⟩,
    (run [.wait, .reset, .close, .reset]).fired ⟨1⟩) = (true, false) := by decide

end BlockFeed.Signal
