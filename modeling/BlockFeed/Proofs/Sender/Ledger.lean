import BlockFeed.Proofs.Sender.Moves
import BlockFeed.Receiver

/-!
# Ledgers

The counters that a sender has given out, each with the payload that got it. A ledger is not part
of a sender: it is read off a run, by watching sends go from waiting for their turn to writing.

## Main definitions

* `Assignment`, `Ledger`: who got which counter for which payload, from the first to the last.
* `Ledger.taken`: what a step of a send adds.
* `Ledger.Numbered`: the counters are 1, 2, 3, and so on, in 64 bits.

## Design notes

A counter comes back after `2 ^ 64` assignments. Below that, counters grow from each assignment to
the next, and a counter tells its assignment.
-/

namespace BlockFeed

/-- A payload has been given a counter. -/
structure Assignment where
  /-- The number of the activity that sends the payload. -/
  place : Nat
  payload : Bytes
  counter : UInt64
  deriving DecidableEq, Repr

def Assignment.delivery (a : Assignment) : Delivery := ⟨a.payload, a.counter⟩

/-- The assignments of a sender, from the first to the last. -/
abbrev Ledger := List Assignment

/-- The counter that a send takes on the way from one state of it to another, if it takes one. -/
def Send.taken? (before after : Send) : Option UInt64 :=
  match before.phase, after.phase with
  | .queued, .writing counter _ _ _ => some counter
  | _, _ => none

namespace Ledger

/-- What is assigned to the activity under a number if the send it has in hand changes so. -/
def taken (place : Nat) (before after : Option Send) : Ledger :=
  match before, after with
  | some x, some y => ((x.taken? y).map fun counter => ⟨place, x.payload, counter⟩).toList
  | _, _ => []

/-- What has been assigned to the activity under a number. -/
def of (log : Ledger) (place : Nat) : Ledger := log.filter (·.place == place)

def deliveries (log : Ledger) : List Delivery := log.map (·.delivery)

/-- The assignments carry the numbers from 1 on, in 64 bits. -/
def Numbered (log : Ledger) : Prop :=
  log.map (·.counter) = (List.range log.length).map fun k => UInt64.ofNat (k + 1)

theorem numbered_nil : Numbered [] := rfl

theorem Numbered.append {log : Ledger} (h : log.Numbered) {a : Assignment}
    (ha : a.counter = UInt64.ofNat (log.length + 1)) : Numbered (log ++ [a]) := by
  rw [Numbered] at h ⊢
  rw [List.map_append, h, List.length_append, List.length_singleton, List.range_succ,
    List.map_append, List.map_singleton, List.map_singleton, ha]

/-- While 64 bits are enough, counters grow from each assignment to the next. -/
theorem Numbered.pairwise {log : Ledger} (h : log.Numbered) (few : log.length < UInt64.size) :
    log.Pairwise fun a b => a.counter < b.counter := by
  have hfew : log.length < 18446744073709551616 := few
  have hp : (log.map (·.counter)).Pairwise (· < ·) := by
    rw [h, List.pairwise_map]
    refine List.pairwise_lt_range.imp_of_mem fun {k l} hk hl hlt => ?_
    have hk : k < log.length := List.mem_range.mp hk
    have hl : l < log.length := List.mem_range.mp hl
    rw [UInt64.lt_iff_toNat_lt, UInt64.toNat_ofNat', UInt64.toNat_ofNat',
      Nat.mod_eq_of_lt (by omega), Nat.mod_eq_of_lt (by omega)]
    omega
  exact List.pairwise_map.mp hp

/-- While 64 bits are enough, a counter tells its assignment. -/
theorem Numbered.eq_of_counter {log : Ledger} (h : log.Numbered) (few : log.length < UInt64.size)
    {a b : Assignment} (ha : a ∈ log) (hb : b ∈ log) (he : a.counter = b.counter) : a = b := by
  have hp := h.pairwise few
  obtain ⟨i, hi, rfl⟩ := List.mem_iff_getElem.mp ha
  obtain ⟨j, hj, rfl⟩ := List.mem_iff_getElem.mp hb
  rcases Nat.lt_trichotomy i j with hij | rfl | hij
  · have hlt := List.pairwise_iff_getElem.mp hp i j hi hj hij
    rw [he] at hlt
    exact absurd hlt (UInt64.lt_irrefl _)
  · rfl
  · have hlt := List.pairwise_iff_getElem.mp hp j i hj hi hij
    rw [he] at hlt
    exact absurd hlt (UInt64.lt_irrefl _)

@[simp] theorem of_append (log more : Ledger) (place : Nat) :
    of (log ++ more) place = of log place ++ of more place :=
  List.filter_append _ _

/-- Nothing is taken by an activity that goes on with no send in hand. -/
@[simp] theorem taken_none (place : Nat) (before : Option Send) : taken place before none = [] := by
  cases before <;> rfl

theorem place_of_mem_taken {place : Nat} {before after : Option Send} {a : Assignment}
    (h : a ∈ taken place before after) : a.place = place := by
  cases before with
  | none => cases h
  | some x =>
    cases after with
    | none => cases h
    | some y =>
      obtain ⟨counter, -, rfl⟩ := Option.map_eq_some_iff.mp (Option.mem_toList.mp h)
      rfl

/-- What an activity takes is for the payload of its send. -/
theorem payload_of_mem_taken {place : Nat} {before after : Option Send} {a : Assignment}
    (h : a ∈ taken place before after) : ∃ x, before = some x ∧ x.payload = a.payload := by
  cases before with
  | none => cases h
  | some x =>
    cases after with
    | none => cases h
    | some y =>
      obtain ⟨counter, -, rfl⟩ := Option.map_eq_some_iff.mp (Option.mem_toList.mp h)
      exact ⟨x, rfl, rfl⟩

theorem of_taken_ne {place other : Nat} (h : place ≠ other) (before after : Option Send) :
    of (taken place before after) other = [] := by
  rw [of, List.filter_eq_nil_iff]
  intro a ha heq
  exact h ((place_of_mem_taken ha).symm.trans (eq_of_beq heq))

/-- A send that does not wait for its turn takes nothing. -/
theorem taken_of_ne_queued {place : Nat} {x y : Send} (h : x.phase ≠ .queued) :
    taken place (some x) (some y) = [] := by
  rw [taken, Send.taken?]
  split
  · next hp _ => exact absurd hp h
  · rfl

/-- A send that begins to write takes the counter that it writes. -/
theorem taken_of_writing {place : Nat} {x y : Send} {counter : UInt64}
    {rest written : List (String × Ref)} {failures : List Failure} (hx : x.phase = .queued)
    (hy : y.phase = .writing counter rest written failures) :
    taken place (some x) (some y) = [⟨place, x.payload, counter⟩] := by
  rw [taken, Send.taken?, hx, hy]
  rfl

theorem taken_of_done {place : Nat} {before : Option Send} {y : Send}
    {result : Except SendError Unit} (h : y.phase = .done result) :
    taken place before (some y) = [] := by
  cases before with
  | none => rfl
  | some x =>
    rw [taken, Send.taken?]
    split
    · next hp => cases h.symm.trans hp
    · rfl

theorem taken_self (place : Nat) (send : Option Send) : taken place send send = [] := by
  cases send with
  | none => rfl
  | some x => cases hp : x.phase <;> simp [taken, Send.taken?, hp]

end Ledger

namespace Send

variable {me pick : Nat} {s s' : Sender} {w w' : Wire} {x x' : Send}

/-- A step of a send takes a counter exactly if it is the one that begins to write, and then it
takes the next one. -/
theorem Move.taken (h : Move me pick s w x s' w' x') :
    (Ledger.taken me (some x) (some x') = [] ∧ s'.lastCounter = s.lastCounter) ∨
      (Ledger.taken me (some x) (some x') = [⟨me, x.payload, s.lastCounter + 1⟩] ∧
        s'.lastCounter = s.lastCounter + 1) := by
  cases h with
  | start hp =>
    exact .inr ⟨Ledger.taken_of_writing hp rfl, rfl⟩
  | abandon hp =>
    exact .inl ⟨Ledger.taken_of_done rfl, rfl⟩
  | wait hp _ hstep | conclude hp _ hstep =>
    refine .inl ⟨Ledger.taken_of_ne_queued (by simp [hp]), ?_⟩
    exact (AckWait.move_of_step hstep).keeps.lastCounter
  | refuse hp | enqueue hp | accept hp | reject hp | fail hp | succeed hp | await hp =>
    exact .inl ⟨Ledger.taken_of_ne_queued (by simp [hp]), rfl⟩

def Begun (x : Send) : Prop := x.phase ≠ .called ∧ x.phase ≠ .queued

theorem Move.begun (h : Move me pick s w x s' w' x') (hx : x.Begun) : x'.Begun := by
  cases h with
  | enqueue hp => exact absurd hp hx.1
  | refuse | abandon | start | accept | reject | fail | succeed | await | wait | conclude =>
    simp [Begun]

/-- A send that was given a counter has had its turn. -/
theorem Move.begun_of_taken (h : Move me pick s w x s' w' x')
    (hsome : Ledger.taken me (some x) (some x') ≠ []) : x'.Begun := by
  cases h with
  | enqueue hp => exact absurd (Ledger.taken_of_ne_queued (by simp [hp])) hsome
  | refuse | abandon | start | accept | reject | fail | succeed | await | wait | conclude =>
    simp [Begun]

theorem Move.numbered {log : Ledger} (h : Move me pick s w x s' w' x') (numbered : log.Numbered)
    (last : s.lastCounter = UInt64.ofNat log.length) :
    (log ++ Ledger.taken me (some x) (some x')).Numbered ∧
      s'.lastCounter = UInt64.ofNat (log ++ Ledger.taken me (some x) (some x')).length := by
  rcases h.taken with ⟨hnone, hlast⟩ | ⟨hone, hlast⟩
  · rw [hnone, List.append_nil]
    exact ⟨numbered, hlast.trans last⟩
  · have hnext : s.lastCounter + 1 = UInt64.ofNat (log.length + 1) := by
      rw [last, UInt64.ofNat_add]
      rfl
    rw [hone, List.length_append, List.length_singleton]
    exact ⟨numbered.append hnext, hlast.trans hnext⟩

end Send

end BlockFeed
