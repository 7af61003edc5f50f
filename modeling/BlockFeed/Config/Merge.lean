import BlockFeed.Json.Value

/-!
# Layers of settings

Laying one JSON value over another.

## Main definitions

* `Json.merge`: the members of an object over those of another, level by level.

## Design notes

A `null` in the upper object leaves the lower member as it is, but only where both sides are
objects: a subtree that is put in whole keeps its nulls.
-/

namespace BlockFeed.Json

mutual

/-- `source` over `target`: where both are objects, member by member; elsewhere `source`. -/
def merge (target : Json) : Json → Json
  | object layer =>
    match target with
    | object members => object (mergeMembers members layer)
    | _ => object layer
  | source => source

/-- The members `layer` over the members `members`, from the first to the last. -/
def mergeMembers (members : List (String × Json)) : List (String × Json) → List (String × Json)
  | [] => members
  | (k, v) :: rest =>
    match v with
    | null => mergeMembers members rest
    | v =>
      let v := match members.lookup k with
        | some old => merge old v
        | none => v
      mergeMembers (Entries.insert k v members) rest

end

end BlockFeed.Json
