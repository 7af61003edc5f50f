import BlockFeed.OrderedMap
import Mathlib.Data.List.Induction
import Mathlib.Data.List.Nodup
import Mathlib.Data.String.Basic

/-!
# Entries in order

Which entries there are after some were put in their places, and what is found under a key.

## Main results

* `Entries.ofList_of_pairwise`: entries that are in order are kept as they are.
* `Entries.lookup_insert`, `Entries.lookup_ofList`: of entries under one key the last is found.
* `Entries.Ascending.eq_of_lookup`: entries in order are determined by what is found.
-/

namespace BlockFeed

namespace Entries

variable {K V : Type} [LT K] [Trans (α := K) (· < ·) (· < ·) (· < ·)]

/-- In an increasing list the keys increase from any entry to any later one. -/
theorem Ascending.pairwise {m : List (K × V)} (h : Ascending m) :
    m.Pairwise fun a b => a.1 < b.1 := by
  induction m with
  | nil => exact .nil
  | cons a rest ih =>
    have hrest := ih h.tail
    refine .cons ?_ hrest
    cases rest with
    | nil => simp
    | cons b rest =>
      intro c hc
      rcases List.mem_cons.mp hc with rfl | hc
      · exact h.1
      · exact Trans.trans h.1 (List.rel_of_pairwise_cons hrest hc)

variable [DecidableLT K] [Std.Asymm (α := K) (· < ·)]

omit [Trans (α := K) (· < ·) (· < ·) (· < ·)] in
/-- An entry that comes after all others is put at the end. -/
theorem insert_of_forall_lt {k : K} (v : V) {m : List (K × V)} (h : ∀ e ∈ m, e.1 < k) :
    insert k v m = m ++ [(k, v)] := by
  induction m with
  | nil => rfl
  | cons e rest ih =>
    have he : e.1 < k := h e List.mem_cons_self
    have hnot : ¬k < e.1 := Std.Asymm.asymm _ _ he
    rw [insert, if_neg hnot, if_pos he, ih fun e he => h e (List.mem_cons_of_mem _ he),
      List.cons_append]

omit [Trans (α := K) (· < ·) (· < ·) (· < ·)] in
/-- Entries that are in order already are kept as they are. -/
theorem ofList_of_pairwise {m : List (K × V)} (h : m.Pairwise fun a b => a.1 < b.1) :
    ofList m = m := by
  induction m using List.reverseRecOn with
  | nil => rfl
  | append_singleton m e ih =>
    obtain ⟨hm, -, hlast⟩ := List.pairwise_append.mp h
    rw [ofList, List.foldl_append, List.foldl_cons, List.foldl_nil, ← ofList, ih hm]
    exact insert_of_forall_lt e.2 fun a ha => hlast a ha e (List.mem_singleton_self e)

section Lookup

variable {K V : Type} [LT K] [DecidableLT K] [BEq K] [LawfulBEq K]
  [Std.Trichotomous (α := K) (· < ·)]

theorem lookup_insert (k key : K) (v : V) (m : List (K × V)) :
    (insert k v m).lookup key = if key == k then some v else m.lookup key := by
  induction m with
  | nil =>
    rw [insert, List.lookup_cons]
    cases key == k <;> rfl
  | cons e rest ih =>
    obtain ⟨k', v'⟩ := e
    rw [insert]
    split
    · rw [List.lookup_cons]
      cases key == k <;> rfl
    split
    · next hlt hgt =>
      have hne : k ≠ k' := by
        rintro rfl
        exact hlt hgt
      rw [List.lookup_cons, ih, List.lookup_cons]
      by_cases hk : key = k
      · -- the entry in front stands under another key
        rw [hk, beq_false_of_ne hne, beq_self_eq_true]
      · rw [beq_false_of_ne hk]
        cases key == k' <;> rfl
    · next hlt hgt =>
      obtain rfl : k = k' := Std.Trichotomous.trichotomous k k' hlt hgt
      rw [List.lookup_cons, List.lookup_cons]
      cases key == k <;> rfl

theorem lookup_ofList (key : K) (entries : List (K × V)) :
    (ofList entries).lookup key = entries.reverse.lookup key := by
  induction entries using List.reverseRecOn with
  | nil => rfl
  | append_singleton entries e ih =>
    rw [ofList, List.foldl_append, List.foldl_cons, List.foldl_nil, ← ofList, lookup_insert, ih,
      List.reverse_append, List.reverse_singleton, List.singleton_append, List.lookup_cons]
    cases key == e.1 <;> rfl

omit [LT K] [DecidableLT K] [Std.Trichotomous (α := K) (· < ·)] in
/-- Where no key stands twice, an entry is what is found under its key. -/
theorem mem_iff_lookup {m : List (K × V)} (nodup : (m.map Prod.fst).Nodup) {key : K} {v : V} :
    (key, v) ∈ m ↔ m.lookup key = some v := by
  induction m with
  | nil => simp
  | cons e rest ih =>
    obtain ⟨k, u⟩ := e
    obtain ⟨hout, hrest⟩ := List.nodup_cons.mp nodup
    have ih := ih hrest
    rw [List.mem_cons, List.lookup_cons, ih]
    by_cases hk : key = k
    · -- the key stands nowhere else
      subst hk
      have hnone : rest.lookup key ≠ some v := fun hlookup =>
        hout (List.mem_map.mpr ⟨_, ih.mpr hlookup, rfl⟩)
      simp [hnone, eq_comm]
    · simp [hk, beq_false_of_ne hk]

end Lookup

section Ascending

variable {K V : Type} [LT K] [Trans (α := K) (· < ·) (· < ·) (· < ·)]
  [Std.Irrefl (α := K) (· < ·)]

/-- Where the keys increase no key stands twice. -/
theorem Ascending.nodup {m : List (K × V)} (h : Ascending m) : (m.map Prod.fst).Nodup := by
  refine List.pairwise_map.mpr (h.pairwise.imp fun hlt heq => ?_)
  exact Std.Irrefl.irrefl _ (heq ▸ hlt)

/-- No key stands twice. -/
theorem nodup_ofList [DecidableLT K] (entries : List (K × V)) :
    ((ofList entries).map Prod.fst).Nodup := (ascending_ofList entries).nodup

/-- Entries in increasing order are determined by what is found under each key. -/
theorem Ascending.eq_of_lookup [BEq K] [LawfulBEq K] {m m' : List (K × V)} (h : Ascending m)
    (h' : Ascending m') (same : ∀ key, m.lookup key = m'.lookup key) : m = m' := by
  have hperm : m.Perm m' :=
    (List.perm_ext_iff_of_nodup (.of_map _ h.nodup) (.of_map _ h'.nodup)).mpr fun e => by
      rw [← Prod.mk.eta (p := e), mem_iff_lookup h.nodup, mem_iff_lookup h'.nodup, same]
  refine hperm.eq_of_pairwise (fun a b _ _ hab hba => ?_) h.pairwise h'.pairwise
  exact absurd (Trans.trans hab hba) (Std.Irrefl.irrefl _)

end Ascending

end Entries

namespace OrderedMap

variable {K V : Type} [LT K] [DecidableLT K] [Trans (α := K) (· < ·) (· < ·) (· < ·)]
  [Std.Asymm (α := K) (· < ·)]

@[simp] theorem ofList_entries (m : OrderedMap K V) : ofList m.entries = m := by
  have h := Entries.ofList_of_pairwise m.ascending.pairwise
  cases m
  simp only [ofList, h]

end OrderedMap

end BlockFeed
