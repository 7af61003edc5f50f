import BlockFeed.Config.Merge
import BlockFeed.Proofs.OrderedMap

/-!
# Members of objects

What stands under a key of an object: of the members as they are written the last, and where one
object was laid over another the upper member, unless that is null.

## Main definitions

* `Json.mergeOver`: what a member becomes when a value is laid over it.
* `Json.given?`: the value that written members give to a key.

## Main results

* `Json.lookup_mergeMembers`: what stands under a key where members were laid over others.
* `Json.lookup_merge_given`: the same for members as they are written.
-/

namespace BlockFeed.Json

/-- A value that is no object is replaced as a whole. -/
theorem merge_of_ne_object {target : Json} (h : ∀ members, target ≠ object members)
    (source : Json) : merge target source = source := by
  cases source with
  | object layer =>
    cases target with
    | object members => exact absurd rfl (h members)
    | null | bool | number | string | array => rw [merge]; nofun
  | null | bool | number | string | array => rw [merge]; nofun

/-- What a member becomes when a value is laid over it, if it was there. -/
def mergeOver (old : Option Json) (v : Json) : Json := old.elim v (merge · v)

theorem mergeMembers_cons {v : Json} (hv : v ≠ null) (members : List (String × Json)) (k : String)
    (rest : List (String × Json)) : mergeMembers members ((k, v) :: rest) =
      mergeMembers (Entries.insert k (mergeOver (members.lookup k) v) members) rest := by
  rw [mergeMembers]
  · rw [mergeOver]
    cases members.lookup k <;> rfl
  · exact hv

theorem lookup_mergeMembers {layer : List (String × Json)} (hnodup : (layer.map Prod.fst).Nodup)
    (members : List (String × Json)) (key : String) :
    (mergeMembers members layer).lookup key =
      match layer.lookup key with
      | none | some null => members.lookup key
      | some v => some (mergeOver (members.lookup key) v) := by
  induction layer generalizing members with
  | nil => rw [mergeMembers]; rfl
  | cons e rest ih =>
    obtain ⟨k, v⟩ := e
    obtain ⟨hout, hrest⟩ := List.nodup_cons.mp hnodup
    have hnone : rest.lookup k = none := by
      rw [List.lookup_eq_none_iff]
      intro p hp
      refine bne_iff_ne.mpr ?_
      rintro rfl
      exact hout (List.mem_map.mpr ⟨p, hp, rfl⟩)
    rw [List.lookup_cons]
    by_cases hv : v = null
    · rw [hv, mergeMembers, ih hrest]
      by_cases hk : key = k
      · rw [hk, hnone, beq_self_eq_true]
      · rw [beq_false_of_ne hk]
    · rw [mergeMembers_cons hv, ih hrest, Entries.lookup_insert]
      by_cases hk : key = k
      · -- nothing that comes later stands under this key
        rw [hk, hnone, beq_self_eq_true]
        cases v with
        | null => exact absurd rfl hv
        | bool | number | string | array | object => rfl
      · rw [beq_false_of_ne hk]
        rfl

/-- The value that the members of an object, as they are written, give to a key: the last of those
under the key, unless that is null. -/
def given? (members : List (String × Json)) (key : String) : Option Json :=
  match members.reverse.lookup key with
  | some null => none
  | v => v

/-- A key that an object as it is written gives no value keeps what it had. -/
theorem lookup_merge_given (members written : List (String × Json)) (key : String) :
    (mergeMembers members (Entries.ofList written)).lookup key =
      match given? written key with
      | none => members.lookup key
      | some v => some (mergeOver (members.lookup key) v) := by
  rw [lookup_mergeMembers (Entries.nodup_ofList written), Entries.lookup_ofList, given?]
  cases written.reverse.lookup key with
  | none => rfl
  | some v => cases v <;> rfl

end BlockFeed.Json
