import Mathlib.Data.List.Nodup
import Mathlib.Logic.Function.Basic

/-!
# Lines

Whoever wants something that only one can have stands in a line for it, and the first in the line
has it.

## Main definitions

* `InTurn`: a line holds the places of those who stand in it, and whoever has what it is for is the
  first.

## Main results

* `InTurn.stay`, `InTurn.join`, `InTurn.leave`: the ways in which one step at a place may change it.
-/

namespace BlockFeed

/-- The line holds the places at which somebody stands in it, each once, and whoever has his turn is
the first. -/
structure InTurn {α : Type} (line : List Nat) (who : Nat → α) (stands turn : α → Prop) :
    Prop where
  nodup : line.Nodup
  mem : ∀ q, q ∈ line ↔ stands (who q)
  first : ∀ q, turn (who q) → line.head? = some q

namespace InTurn

variable {α : Type} {line : List Nat} {who : Nat → α} {stands turn : α → Prop} {me : Nat} {b : α}

/-- If anybody stands in the line, somebody is the first. -/
theorem exists_first (h : InTurn line who stands turn) {q : Nat} (hq : stands (who q)) :
    ∃ first, line.head? = some first ∧ stands (who first) := by
  have hmem := (h.mem q).mpr hq
  cases line with
  | nil => cases hmem
  | cons first rest => exact ⟨first, rfl, (h.mem first).mp List.mem_cons_self⟩

section Change

variable (h : InTurn line who stands turn)

include h

theorem stay (same : stands b ↔ stands (who me)) (hturn : turn b → line.head? = some me) :
    InTurn line (Function.update who me b) stands turn where
  nodup := h.nodup
  mem q := by
    rw [h.mem]
    by_cases hq : q = me
    · rw [hq, Function.update_self, same]
    · rw [Function.update_of_ne hq]
  first q hq' := by
    by_cases hq : q = me
    · subst hq
      rw [Function.update_self] at hq'
      exact hturn hq'
    · rw [Function.update_of_ne hq] at hq'
      exact h.first q hq'

theorem join (out : ¬stands (who me)) (hstands : stands b) (noTurn : ¬turn b) :
    InTurn (line ++ [me]) (Function.update who me b) stands turn where
  nodup := by
    refine List.nodup_append.mpr ⟨h.nodup, List.nodup_singleton me, ?_⟩
    rintro q hq r hr rfl
    exact out ((h.mem _).mp (List.mem_singleton.mp hr ▸ hq))
  mem q := by
    rw [List.mem_append, List.mem_singleton]
    by_cases hq : q = me
    · subst hq
      rw [Function.update_self]
      exact iff_of_true (.inr rfl) hstands
    · rw [Function.update_of_ne hq, h.mem, or_iff_left hq]
  first q hq' := by
    by_cases hq : q = me
    · subst hq
      rw [Function.update_self] at hq'
      exact absurd hq' noTurn
    · rw [Function.update_of_ne hq] at hq'
      rw [List.head?_append, h.first q hq']
      rfl

theorem leave (head : line.head? = some me) (out : ¬stands b) (noTurn : ¬turn b) :
    InTurn line.tail (Function.update who me b) stands turn := by
  obtain ⟨rest, rfl⟩ := List.head?_eq_some_iff.mp head
  obtain ⟨hout, hnodup⟩ := List.nodup_cons.mp h.nodup
  refine ⟨hnodup, fun q => ?_, fun q hq' => ?_⟩
  · by_cases hq : q = me
    · subst hq
      rw [Function.update_self]
      exact iff_of_false hout out
    · rw [Function.update_of_ne hq, ← h.mem, List.mem_cons, or_iff_right hq, List.tail_cons]
  · by_cases hq : q = me
    · subst hq
      rw [Function.update_self] at hq'
      exact absurd hq' noTurn
    · -- the one that leaves had its turn, and nobody else has
      rw [Function.update_of_ne hq] at hq'
      exact absurd (Option.some.inj (head.symm.trans (h.first q hq'))) (Ne.symm hq)

end Change

end InTurn

end BlockFeed
