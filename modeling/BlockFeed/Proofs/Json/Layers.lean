import BlockFeed.Proofs.Json.Members

/-!
# Laws of layers

What stands where when one JSON value is laid over another, at every depth.

## Main definitions

* `Json.Ordered`: the members of every object in a value stand in the order of their keys.
* `Json.at?`: what stands at a path of keys; `Json.Shares`: a path down to which both values hold
  objects.
* `Json.Overlaid`: what a value becomes where another one is laid over it.

## Main results

* `Json.ordered_merge`, `Json.ordered_of_read`: values stay ordered, and are so once they are read.
* `Json.merge_laws`: laying a value over itself, or over what it was laid over before, changes
  nothing; and at every shared path the value is overlaid.

## Design notes

Objects are lists of members, and lists that differ may hold the same members. In ordered values
there is one list for each object, so equality of values is equality of objects.
-/

namespace BlockFeed.Json

/-- The members of every object in a value stand in the order of their keys, each key once. -/
inductive Ordered : Json → Prop where
  | null : Ordered null
  | bool (b : Bool) : Ordered (bool b)
  | number (n : Number) : Ordered (number n)
  | string (s : String) : Ordered (string s)
  | array {items : List Json} : (∀ v ∈ items, Ordered v) → Ordered (array items)
  | object {members : List (String × Json)} : Entries.Ascending members →
      (∀ m ∈ members, Ordered m.2) → Ordered (object members)

def IsObject : Json → Prop
  | object _ => True
  | null | bool _ | number _ | string _ | array _ => False

theorem IsObject.exists {v : Json} (h : v.IsObject) : ∃ members, v = object members := by
  cases v with
  | object members => exact ⟨members, rfl⟩
  | null | bool | number | string | array => exact h.elim

/-- What stands at a path of keys. -/
def at? : List String → Json → Option Json
  | [], v => some v
  | key :: rest, v => (v.get? key).bind (at? rest)

@[simp] theorem at?_nil : at? [] = some := by
  funext v
  rw [at?]

theorem at?_cons (key : String) (rest : List String) (members : List (String × Json)) :
    at? (key :: rest) (object members) = (members.lookup key).bind (at? rest) := by
  rw [at?, get?]

/-- Down to a path, what stands before its end is an object in both values. -/
def Shares (t s : Json) (path : List String) : Prop :=
  ∀ front, front <+: path → front ≠ path →
    ∃ old new, at? front t = some (object old) ∧ at? front s = some (object new)

/-- What a value, if there is one, becomes where another one is laid over it. -/
inductive Overlaid (old new : Option Json) : Option Json → Prop where
  /-- Nothing is laid over it. -/
  | keep : new = none ∨ new = some null → Overlaid old new old
  | replace {v : Json} : new = some v → v ≠ null →
      (old = none ∨ ∃ u, old = some u ∧ ¬(u.IsObject ∧ v.IsObject)) → Overlaid old new (some v)
  /-- Of two objects all keys are kept, but not those that are to hold a null. -/
  | unite {a b members : List (String × Json)} : old = some (object a) → new = some (object b) →
      (∀ key, key ∈ members.map Prod.fst ↔
        key ∈ a.map Prod.fst ∨ ∃ v, (key, v) ∈ b ∧ v ≠ null) →
      Overlaid old new (some (object members))

theorem Ordered.ascending {members : List (String × Json)} (h : (Json.object members).Ordered) :
    Entries.Ascending members := by
  cases h with | object hasc _ => exact hasc

theorem Ordered.of_lookup {members : List (String × Json)} (h : (Json.object members).Ordered)
    {key : String} {v : Json} (hv : members.lookup key = some v) : v.Ordered := by
  cases h with | object hasc hvalues =>
  exact hvalues (key, v) ((Entries.mem_iff_lookup hasc.nodup).mpr hv)

section Members

variable {members layer : List (String × Json)}

theorem ascending_mergeMembers (h : Entries.Ascending members) (layer : List (String × Json)) :
    Entries.Ascending (mergeMembers members layer) := by
  induction layer generalizing members with
  | nil => rwa [mergeMembers]
  | cons e rest ih =>
    obtain ⟨k, v⟩ := e
    by_cases hv : v = null
    · rw [hv, mergeMembers]
      exact ih h
    · rw [mergeMembers_cons hv]
      exact ih (h.insert k _)

theorem mem_keys_iff {key : String} :
    key ∈ members.map Prod.fst ↔ (members.lookup key).isSome = true := by
  rw [List.lookup_isSome_iff, List.mem_map]
  exact exists_congr fun m => and_congr_right fun _ => by rw [beq_iff_eq, eq_comm]

/-- What stands under a key where members were laid over others, told by the two sides. -/
theorem lookup_mergeMembers_of_none (hlayer : Entries.Ascending layer) {key : String}
    (h : layer.lookup key = none ∨ layer.lookup key = some null) :
    (mergeMembers members layer).lookup key = members.lookup key := by
  rw [lookup_mergeMembers hlayer.nodup]
  rcases h with h | h <;> rw [h]

theorem lookup_mergeMembers_of_some (hlayer : Entries.Ascending layer) {key : String} {v : Json}
    (h : layer.lookup key = some v) (hv : v ≠ null) :
    (mergeMembers members layer).lookup key = some (mergeOver (members.lookup key) v) := by
  rw [lookup_mergeMembers hlayer.nodup, h]
  cases v with
  | null => exact absurd rfl hv
  | bool | number | string | array | object => rfl

/-- Each key is of the one kind or of the other. -/
theorem lookup_cases (layer : List (String × Json)) (key : String) :
    (layer.lookup key = none ∨ layer.lookup key = some null) ∨
      ∃ v, layer.lookup key = some v ∧ v ≠ null := by
  cases hkey : layer.lookup key with
  | none => exact .inl (.inl rfl)
  | some v =>
    by_cases hv : v = null
    · exact .inl (.inr (congrArg some hv))
    · exact .inr ⟨v, rfl, hv⟩

theorem mem_keys_mergeMembers (hlayer : Entries.Ascending layer) (key : String) :
    key ∈ (mergeMembers members layer).map Prod.fst ↔
      key ∈ members.map Prod.fst ∨ ∃ v, (key, v) ∈ layer ∧ v ≠ null := by
  have hmem (v : Json) : (key, v) ∈ layer ↔ layer.lookup key = some v :=
    Entries.mem_iff_lookup hlayer.nodup
  simp only [mem_keys_iff, hmem]
  rcases lookup_cases layer key with hnone | ⟨v, hv, hne⟩
  · rw [lookup_mergeMembers_of_none hlayer hnone]
    refine ⟨.inl, ?_⟩
    rintro (hold | ⟨v, hv, hne⟩)
    · exact hold
    · rcases hnone with hnone | hnone
      · cases hv.symm.trans hnone
      · exact absurd (Option.some.inj (hv.symm.trans hnone)) hne
  · rw [lookup_mergeMembers_of_some hlayer hv hne]
    exact iff_of_true rfl (.inr ⟨v, hv, hne⟩)

end Members

theorem merge_object (members layer : List (String × Json)) :
    merge (object members) (object layer) = object (mergeMembers members layer) := by
  rw [merge]

/-- Where not both are objects the upper value stands for itself. -/
theorem merge_of_not_objects {t s : Json} (h : ¬(t.IsObject ∧ s.IsObject)) : merge t s = s := by
  cases s with
  | object layer =>
    refine merge_of_ne_object (fun members heq => h ⟨?_, trivial⟩) _
    rw [heq]
    trivial
  | null | bool | number | string | array =>
    rw [merge]
    intro _ heq
    cases heq

/-- A value that is laid over itself stays as it is. -/
theorem merge_self {t : Json} (ht : t.Ordered) : merge t t = t := by
  induction ht with
  | null | bool | number | string | array => exact merge_of_not_objects fun h => h.1
  | @object members hasc _ ih =>
    rw [merge_object]
    refine congrArg object ((ascending_mergeMembers hasc members).eq_of_lookup hasc fun key => ?_)
    rcases lookup_cases members key with hnone | ⟨v, hv, hne⟩
    · exact lookup_mergeMembers_of_none hasc hnone
    · rw [lookup_mergeMembers_of_some hasc hv hne, hv, mergeOver, Option.elim_some,
        ih (key, v) ((Entries.mem_iff_lookup hasc.nodup).mpr hv)]

theorem merge_again_of_plain {s : Json} (h : ¬s.IsObject) (t : Json) :
    merge (merge t s) s = merge t s := by
  rw [merge_of_not_objects fun both => h both.2, merge_of_not_objects fun both => h both.2]

/-- A value that is laid over another a second time changes nothing any more. -/
theorem merge_again {t s : Json} (ht : t.Ordered) (hs : s.Ordered) :
    merge (merge t s) s = merge t s := by
  induction hs generalizing t with
  | null | bool | number | string | array =>
    refine merge_again_of_plain ?_ t
    exact fun h => h
  | @object layer hlayer hmembers ih =>
    have hplain {t : Json} (h : ¬t.IsObject) :
        merge (merge t (object layer)) (object layer) = merge t (object layer) := by
      rw [merge_of_not_objects fun both => h both.1, merge_self (.object hlayer hmembers)]
    cases ht with
    | null | bool | number | string | array => exact hplain fun h => h
    | @object members hasc hold =>
      rw [merge_object, merge_object]
      refine congrArg object ((ascending_mergeMembers (ascending_mergeMembers hasc layer) layer)
        |>.eq_of_lookup (ascending_mergeMembers hasc layer) fun key => ?_)
      rcases lookup_cases layer key with hnone | ⟨v, hv, hne⟩
      · exact lookup_mergeMembers_of_none hlayer hnone
      · have hmem : (key, v) ∈ layer := (Entries.mem_iff_lookup hlayer.nodup).mpr hv
        rw [lookup_mergeMembers_of_some hlayer hv hne, lookup_mergeMembers_of_some hlayer hv hne]
        cases hkey : members.lookup key with
        | none =>
          rw [mergeOver, mergeOver, Option.elim_some, Option.elim_none,
            merge_self (hmembers _ hmem)]
        | some old =>
          rw [mergeOver, mergeOver, Option.elim_some, Option.elim_some,
            ih _ hmem (hold _ ((Entries.mem_iff_lookup hasc.nodup).mpr hkey))]

/-- What becomes of a member where a layer was put over it. -/
theorem overlaid_member (members : List (String × Json)) {layer : List (String × Json)}
    (hlayer : (object layer).Ordered) (key : String) :
    Overlaid (members.lookup key) (layer.lookup key) ((mergeMembers members layer).lookup key) := by
  cases hlayer with | object hasc hvalues =>
  rcases lookup_cases layer key with hnone | ⟨v, hv, hne⟩
  · rw [lookup_mergeMembers_of_none hasc hnone]
    exact .keep hnone
  rw [lookup_mergeMembers_of_some hasc hv hne]
  cases hold : members.lookup key with
  | none => exact .replace hv hne (.inl rfl)
  | some u =>
    rw [mergeOver, Option.elim_some]
    by_cases hboth : u.IsObject ∧ v.IsObject
    · obtain ⟨a, rfl⟩ := hboth.1.exists
      obtain ⟨b, rfl⟩ := hboth.2.exists
      have hb := hvalues _ ((Entries.mem_iff_lookup hasc.nodup).mpr hv)
      cases hb with | object hascb _ =>
      rw [merge_object]
      exact .unite rfl hv (mem_keys_mergeMembers hascb)
    · rw [merge_of_not_objects hboth]
      exact .replace hv hne (.inr ⟨u, rfl, hboth⟩)

/-- At every path that two values share, the merged value is the lower one with the upper laid over
it. -/
theorem overlaid_merge {path : List String} (hpath : path ≠ []) {t s : Json} (ht : t.Ordered)
    (hs : s.Ordered) (hshares : Shares t s path) :
    Overlaid (at? path t) (at? path s) (at? path (merge t s)) := by
  induction path generalizing t s with
  | nil => exact absurd rfl hpath
  | cons key rest ih =>
    obtain ⟨members, layer, ht', hs'⟩ := hshares [] List.nil_prefix (List.cons_ne_nil _ _).symm
    obtain rfl := Option.some.inj ht'
    obtain rfl := Option.some.inj hs'
    rw [merge_object, at?_cons, at?_cons, at?_cons]
    cases rest with
    | nil =>
      simp only [at?_nil, Option.bind_fun_some]
      exact overlaid_member members hs key
    | cons next rest =>
      -- the path goes on, so what stands under the key is an object in both
      have hfront : [key] <+: key :: next :: rest := ⟨next :: rest, rfl⟩
      obtain ⟨old, new, hold, hnew⟩ := hshares [key] hfront (by simp)
      have hold : members.lookup key = some (object old) := by
        simpa [at?_cons, at?_nil, Option.bind_fun_some] using hold
      have hnew : layer.lookup key = some (object new) := by
        simpa [at?_cons, at?_nil, Option.bind_fun_some] using hnew
      have hlayer := hs.ascending
      rw [lookup_mergeMembers_of_some hlayer hnew nofun, hold, hnew, mergeOver, Option.elim_some]
      refine ih (List.cons_ne_nil _ _) (ht.of_lookup hold) (hs.of_lookup hnew)
        fun front hpre hne => ?_
      have hdeep := hshares (key :: front) (List.cons_prefix_cons.mpr ⟨rfl, hpre⟩)
        fun heq => hne (List.cons.inj heq).2
      rwa [at?_cons, at?_cons, hold, hnew] at hdeep

/-- Nothing that was there is lost, and under a null all stays as it is. -/
theorem Overlaid.keeps {old new merged : Option Json} (h : Overlaid old new merged) :
    (old.isSome = true → merged.isSome = true) ∧ (new = some null → merged = old) := by
  cases h with
  | keep => exact ⟨id, fun _ => rfl⟩
  | replace hnew hne =>
    exact ⟨fun _ => rfl, fun hnull => absurd (Option.some.inj (hnew.symm.trans hnull)) hne⟩
  | unite _ hnew => exact ⟨fun _ => rfl, fun hnull => by cases hnew.symm.trans hnull⟩

theorem ordered_merge_of_plain {s : Json} (hs : s.Ordered) (h : ¬s.IsObject) (t : Json) :
    (merge t s).Ordered := by
  rwa [merge_of_not_objects fun both => h both.2]

theorem ordered_merge {t s : Json} (ht : t.Ordered) (hs : s.Ordered) : (merge t s).Ordered := by
  induction hs generalizing t with
  | null => exact ordered_merge_of_plain .null (fun h => h) t
  | bool b => exact ordered_merge_of_plain (.bool b) (fun h => h) t
  | number n => exact ordered_merge_of_plain (.number n) (fun h => h) t
  | string s => exact ordered_merge_of_plain (.string s) (fun h => h) t
  | array hitems => exact ordered_merge_of_plain (.array hitems) (fun h => h) t
  | @object layer hlayer hmembers ih =>
    have hs : (object layer).Ordered := .object hlayer hmembers
    by_cases hobj : t.IsObject
    · obtain ⟨members, rfl⟩ := hobj.exists
      rw [merge_object]
      have hasc := ascending_mergeMembers ht.ascending layer
      refine .object hasc fun m hm => ?_
      have hlookup := (Entries.mem_iff_lookup hasc.nodup).mp hm
      rcases lookup_cases layer m.1 with hnone | ⟨v, hv, hne⟩
      · rw [lookup_mergeMembers_of_none hlayer hnone] at hlookup
        exact ht.of_lookup hlookup
      · rw [lookup_mergeMembers_of_some hlayer hv hne] at hlookup
        have hmem : (m.1, v) ∈ layer := (Entries.mem_iff_lookup hlayer.nodup).mpr hv
        rw [← Option.some.inj hlookup]
        cases hold : members.lookup m.1 with
        | none => exact hs.of_lookup hv
        | some old => exact ih _ hmem (ht.of_lookup hold)
    · rwa [merge_of_not_objects fun both => hobj both.1]

/-- Members that are put in their places come from the list they were in. -/
theorem mem_of_mem_ofList {members : List (String × Json)} {m : String × Json}
    (hm : m ∈ Entries.ofList members) : m ∈ members := by
  have hlookup := (Entries.mem_iff_lookup (Entries.nodup_ofList members)).mp hm
  rw [Entries.lookup_ofList] at hlookup
  obtain ⟨front, back, heq, -⟩ := List.lookup_eq_some_iff.mp hlookup
  exact List.mem_reverse.mp (heq ▸ List.mem_append_right _ List.mem_cons_self)

mutual

/-- Values that are made of a tree are ordered. -/
theorem ordered_of_written {depth : Nat} {w : Written} {v : Json}
    (h : ofWritten? depth w = some v) : v.Ordered := by
  cases w with
  | null =>
    rw [ofWritten?] at h
    exact Option.some.inj h ▸ .null
  | bool b =>
    rw [ofWritten?] at h
    exact Option.some.inj h ▸ .bool b
  | number t =>
    rw [ofWritten?] at h
    obtain ⟨n, -, rfl⟩ := Option.map_eq_some_iff.mp h
    exact .number n
  | string s =>
    rw [ofWritten?] at h
    obtain ⟨s, -, rfl⟩ := Option.map_eq_some_iff.mp h
    exact .string s
  | array items =>
    cases depth with
    | zero => cases h
    | succ depth =>
      rw [ofWritten?] at h
      obtain ⟨vs, hvs, rfl⟩ := Option.map_eq_some_iff.mp h
      exact .array (ordered_items hvs)
  | object members =>
    cases depth with
    | zero => cases h
    | succ depth =>
      rw [ofWritten?] at h
      obtain ⟨ms, hms, rfl⟩ := Option.map_eq_some_iff.mp h
      exact .object (Entries.ascending_ofList ms) fun m hm =>
        ordered_members hms m (mem_of_mem_ofList hm)

theorem ordered_items {depth : Nat} {items : List Written} {vs : List Json}
    (h : itemsOfWritten? depth items = some vs) : ∀ v ∈ vs, v.Ordered := by
  cases items with
  | nil =>
    rw [itemsOfWritten?] at h
    rw [← Option.some.inj h]
    exact List.forall_mem_nil _
  | cons w rest =>
    rw [itemsOfWritten?] at h
    split at h
    · next v vs' hv hvs =>
      rw [← Option.some.inj h]
      exact List.forall_mem_cons.mpr ⟨ordered_of_written hv, ordered_items hvs⟩
    · cases h

theorem ordered_members {depth : Nat} {members : List (StringText × Written)}
    {ms : List (String × Json)} (h : membersOfWritten? depth members = some ms) :
    ∀ m ∈ ms, m.2.Ordered := by
  cases members with
  | nil =>
    rw [membersOfWritten?] at h
    rw [← Option.some.inj h]
    exact List.forall_mem_nil _
  | cons m rest =>
    obtain ⟨k, w⟩ := m
    rw [membersOfWritten?] at h
    split at h
    · next key v ms' _ hv hms =>
      rw [← Option.some.inj h]
      exact List.forall_mem_cons.mpr ⟨ordered_of_written hv, ordered_members hms⟩
    · cases h

end

/-- Whatever a text is read as is ordered. -/
theorem ordered_of_read {bs : Bytes} {v : Json} (h : read? bs = some v) : v.Ordered := by
  obtain ⟨w, -, hv⟩ := Option.bind_eq_some_iff.mp h
  exact ordered_of_written hv

/-- Laying a value over itself, or over what it was laid over before, changes nothing. At every path
down to which two values hold objects, the merged value is the lower one with the upper laid over
it: no key is lost there, and no null takes the place of a value. -/
theorem merge_laws {t s : Json} (ht : t.Ordered) (hs : s.Ordered) :
    merge t t = t ∧ merge (merge t s) s = merge t s ∧
      ∀ path, path ≠ [] → Shares t s path →
        Overlaid (at? path t) (at? path s) (at? path (merge t s)) ∧
          ((at? path t).isSome = true → (at? path (merge t s)).isSome = true) ∧
          (at? path s = some null → at? path (merge t s) = at? path t) :=
  ⟨merge_self ht, merge_again ht hs, fun _ hpath hshares =>
    ⟨overlaid_merge hpath ht hs hshares, (overlaid_merge hpath ht hs hshares).keeps⟩⟩

/-- An upper value with nulls of both kinds: under `a` and `b` they are passed over, and under `c`
one is put in with what is around it. -/
theorem merge_laws_sample :
    let t := object [("a", object [("x", bool true), ("y", null)]), ("b", bool false)]
    let s := object [("a", object [("x", null), ("z", array [null])]), ("b", null),
      ("c", object [("n", null)])]
    t.Ordered ∧ s.Ordered ∧ Shares t s ["a", "x"] ∧ merge (merge t s) s = merge t s ∧
      at? ["a", "x"] (merge t s) = some (bool true) ∧
      at? ["c", "n"] (merge t s) = some null := by
  intro t s
  have ht : t.Ordered := by
    refine .object ⟨by decide, trivial⟩ ?_
    simp only [List.forall_mem_cons, List.not_mem_nil, false_imp_iff, implies_true, and_true]
    refine ⟨.object ⟨by decide, trivial⟩ ?_, .bool false⟩
    simp only [List.forall_mem_cons, List.not_mem_nil, false_imp_iff, implies_true, and_true]
    exact ⟨.bool true, .null⟩
  have hs : s.Ordered := by
    refine .object ⟨by decide, by decide, trivial⟩ ?_
    simp only [List.forall_mem_cons, List.not_mem_nil, false_imp_iff, implies_true, and_true]
    refine ⟨.object ⟨by decide, trivial⟩ ?_, .null, .object trivial ?_⟩
    · simp only [List.forall_mem_cons, List.not_mem_nil, false_imp_iff, implies_true, and_true]
      exact ⟨.null, .array (List.forall_mem_singleton.mpr .null)⟩
    · exact List.forall_mem_singleton.mpr .null
  have hshares : Shares t s ["a", "x"] := by
    intro front hfront hne
    rcases List.prefix_cons_iff.mp hfront with rfl | ⟨inner, rfl, hinner⟩
    · exact ⟨_, _, rfl, rfl⟩
    rcases List.prefix_cons_iff.mp hinner with rfl | ⟨rest, rfl, hrest⟩
    · exact ⟨_, _, rfl, rfl⟩
    · obtain rfl := List.prefix_nil.mp hrest
      exact absurd rfl hne
  obtain ⟨-, hagain, hpaths⟩ := merge_laws ht hs
  obtain ⟨-, -, hnull⟩ := hpaths ["a", "x"] (by decide) hshares
  exact ⟨ht, hs, hshares, hagain, hnull rfl, by rfl⟩

end BlockFeed.Json
