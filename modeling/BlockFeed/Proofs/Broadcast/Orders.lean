import BlockFeed.Proofs.Broadcast.Undisturbed

/-!
# Orders of a fan-out

A send takes the connections that are registered in the order in which the registry lists them, and
its waits for acknowledgments move in any order. What it comes to depends on neither.

## Main definitions

* `Send.SameResult`: two results that differ at most in the order of their failures.
* `Send.Agrees`: two ends of a send that differ at most in that, and in the order of the registry.
* `Send.OrderFree`: a send ends, and with the registry in any order it ends the same.

## Main results

* `Send.orderFree_of_apart`: fan-outs do not depend on any order.
-/

namespace BlockFeed

namespace Send

/-- Two results that differ at most in the order of their failures. -/
inductive SameResult : Except SendError Unit → Except SendError Unit → Prop where
  | refl (result : Except SendError Unit) : SameResult result result
  | failures {lost lost' : List Failure} : lost.Perm lost' →
      SameResult (.error (.allWritesFailed lost)) (.error (.allWritesFailed lost'))

/-- Two ends of a send that differ at most in the order of failures and of the registry. -/
structure Agrees (g : Registry) (w : Wire) (σ τ : Sender × Wire × Send) : Prop where
  /-- The results are the same, or both sends are pending. -/
  result : Option.Rel SameResult σ.2.2.result? τ.2.2.result?
  /-- So is each connection: what was written to it, what has arrived and was not read, how often it
  was closed; only those at the other end of what is registered are left out. -/
  conn : ∀ r, (∀ c ∈ g.entries, w.peer? c.2 ≠ some r) → σ.2.1.conn r = τ.2.1.conn r
  registry : σ.1.registry.entries.Perm τ.1.registry.entries
  lastCounter : σ.1.lastCounter = τ.1.lastCounter

/-- A send ends, and with the registry in any order it ends the same. -/
structure OrderFree (me : Nat) (s : Sender) (w : Wire) (payload : Bytes) : Prop where
  ends : ∀ g : Registry, ∃ σ, ComesTo me ({ s with registry := g }, w, ⟨payload, .called⟩) σ
  agrees : ∀ g : Registry, g.entries.Perm s.registry.entries → ∀ σ τ,
    ComesTo me (s, w, ⟨payload, .called⟩) σ →
    ComesTo me ({ s with registry := g }, w, ⟨payload, .called⟩) τ → Agrees s.registry w σ τ

end Send

/-- A verdict does not depend on the order of the fates. -/
theorem Fate.verdict_of_perm {fates fates' : List (String × Fate)} (perm : fates.Perm fates') :
    Option.Rel Send.SameResult (verdict fates) (verdict fates') := by
  rw [verdict, verdict, perm.any_eq, perm.any_eq]
  split
  · exact .none
  · split
    · exact .some (.refl _)
    · exact .some (.failures ((perm.filterMap _).append (perm.filterMap _)))

namespace Send

variable {me : Nat} {s : Sender} {w : Wire} {payload : Bytes} {g : Registry}

theorem Fated.agrees {σ τ : Sender × Wire × Send} (perm : g.entries.Perm s.registry.entries)
    (h : Fated s w payload σ) (h' : Fated { s with registry := g } w payload τ) :
    Agrees s.registry w σ τ := by
  have hmem (c : String × Ref) : c ∈ g.entries ↔ c ∈ s.registry.entries := perm.mem_iff
  have hfates : (s.fates w payload).Perm (Sender.fates { s with registry := g } w payload) := by
    have hmap := perm.symm.map fun c : String × Ref => (c.1, (s.fate w payload c.2).1)
    exact hmap
  constructor
  · rw [h.result, h'.result]
    exact Fate.verdict_of_perm hfates
  · intro r hfar
    by_cases hr : ∃ c ∈ s.registry.entries, c.2 = r
    · obtain ⟨c, hc, rfl⟩ := hr
      rw [← h.conn c hc, ← h'.conn c ((hmem c).mpr hc)]
      rfl
    · have hout (c : String × Ref) (hc : c ∈ s.registry.entries) :
          c.2 ≠ r ∧ w.peer? c.2 ≠ some r := ⟨fun heq => hr ⟨c, hc, heq⟩, hfar c hc⟩
      rw [h.others r hout, h'.others r fun c hc => hout c ((hmem c).mp hc)]
  · refine (List.perm_ext_iff_of_nodup (List.Nodup.of_map _ σ.1.registry.nodup)
      (List.Nodup.of_map _ τ.1.registry.nodup)).mpr fun c => ?_
    rw [h.registry, h'.registry, hmem]
    rfl
  · rw [h.lastCounter, h'.lastCounter]

/-- What a send comes to depends neither on the order in which the registry lists its connections
nor on the order in which its waits for acknowledgments move. -/
theorem orderFree_of_apart (me : Nat) (s : Sender) (w : Wire) (payload : Bytes)
    (apart : s.Apart w) : OrderFree me s w payload where
  ends := fun _ => exists_comesTo me _
  agrees := by
    intro g perm σ τ hσ hτ
    have hempty : g.isEmpty = s.registry.isEmpty := perm.isEmpty_eq
    have hapart : Sender.Apart { s with registry := g } w :=
      ⟨fun c hc => apart.named c (perm.mem_iff.mp hc), fun c hc d hd =>
        apart.apart c (perm.mem_iff.mp hc) d (perm.mem_iff.mp hd)⟩
    have hcomes := comes_of_comesTo hapart hτ
    -- both are refused, stall or have their turn for the same reason
    cases comes_of_comesTo apart hσ with
    | refused hwhy =>
      rw [← hempty] at hwhy
      cases hcomes with
      | refused hwhy' =>
        refine ⟨?_, fun _ _ => rfl, perm.symm, rfl⟩
        rcases hwhy with ⟨hreg, rfl⟩ | ⟨-, hreg, rfl⟩ <;>
          rcases hwhy' with ⟨hreg', rfl⟩ | ⟨-, hreg', rfl⟩
        · exact .some (.refl _)
        · cases hreg.symm.trans hreg'
        · cases hreg.symm.trans hreg'
        · exact .some (.refl _)
      | stalled hreg hpayload | fated hreg hpayload => simp [hreg, hpayload] at hwhy
    | stalled hreg hpayload hhead =>
      rw [← hempty] at hreg
      cases hcomes with
      | refused hwhy' => simp [hreg, hpayload] at hwhy'
      | stalled => exact ⟨.none, fun _ _ => rfl, perm.symm, rfl⟩
      | fated _ _ hhead' => exact absurd hhead' hhead
    | fated hreg hpayload hhead hfated =>
      rw [← hempty] at hreg
      cases hcomes with
      | refused hwhy' => simp [hreg, hpayload] at hwhy'
      | stalled _ _ hhead' => exact absurd hhead hhead'
      | fated _ _ _ hfated' => exact hfated.agrees perm hfated'

/-- The first connection does not accept any message; from the second an earlier acknowledgment is
left over, and its own has arrived; the third is gone. -/
def assortment : Wire where
  connections :=
    [{ id := "a", isOpen := true, afterPlan := some .notOpen },
      { id := "b", isOpen := true, inbound := [.data (Ack.encode 4), .data (Ack.encode 5)] },
      { id := "c", isOpen := true, inbound := [.failure .closedByPeer] }]

def assorted : Sender where
  withAcknowledge := true
  lastCounter := 4
  registry := { entries := [("a", 0), ("b", 1), ("c", 2)], nodup := by decide }

/-- A send to such connections is free of order, and each of them meets another fate. -/
theorem orderFree_assorted : OrderFree 0 assorted assortment [1] ∧
    assorted.fates assortment [1]
      = [("a", .refused .notOpen), ("b", .delivered), ("c", .lost .closedByPeer)] := by
  refine ⟨orderFree_of_apart 0 assorted assortment [1] ⟨by decide, by decide⟩, ?_⟩
  decide +kernel

end Send

end BlockFeed
