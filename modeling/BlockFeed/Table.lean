/-!
# Tables

Values under names, at most one under each name, in no order that matters.

## Main definitions

* `Table`: entries under distinct names.
* `Table.get?`, `Table.insert`, `Table.erase`, `Table.filter`: look up, put in place, remove.

## Design notes

`get?_insert` and `get?_erase` say what an operation does to look-ups.
-/

namespace BlockFeed

/-- Values under distinct names. -/
structure Table (V : Type) where
  entries : List (String × V) := []
  /-- No name stands twice. -/
  nodup : (entries.map Prod.fst).Nodup := by simp

namespace Table

variable {V : Type}

def empty : Table V := {}

def get? (t : Table V) (name : String) : Option V := t.entries.lookup name

def contains (t : Table V) (name : String) : Bool := (t.get? name).isSome

def names (t : Table V) : List String := t.entries.map Prod.fst

def values (t : Table V) : List V := t.entries.map Prod.snd

def size (t : Table V) : Nat := t.entries.length

def isEmpty (t : Table V) : Bool := t.entries.isEmpty

def filter (keep : String → V → Bool) (t : Table V) : Table V where
  entries := t.entries.filter fun e => keep e.1 e.2
  nodup := t.nodup.sublist (List.filter_sublist.map Prod.fst)

def erase (t : Table V) (name : String) : Table V := t.filter fun n _ => n != name

theorem not_mem_names_erase (t : Table V) (name : String) : name ∉ (t.erase name).names := by
  simp [names, erase, filter]

/-- Put a value under a name, in the place of the value that was there. -/
def insert (t : Table V) (name : String) (value : V) : Table V where
  entries := (t.erase name).entries ++ [(name, value)]
  nodup := by
    have h := t.not_mem_names_erase name
    rw [List.map_append, List.nodup_append]
    refine ⟨(t.erase name).nodup, by simp, fun a ha b hb hab => h ?_⟩
    simp only [List.map_cons, List.map_nil, List.mem_singleton] at hb
    subst hb hab
    exact ha

theorem lookup_filter_ne (entries : List (String × V)) (name other : String) :
    (entries.filter fun e => e.1 != name).lookup other =
      if other = name then none else entries.lookup other := by
  induction entries with
  | nil => simp
  | cons e rest ih =>
    obtain ⟨k, v⟩ := e
    rw [List.filter_cons, List.lookup_cons]
    by_cases hk : k = name
    · subst hk
      by_cases ho : other = k
      · simpa [ho] using ih
      · simpa [ho, beq_false_of_ne ho] using ih
    · by_cases ho : other = k
      · simp [hk, ho]
      · simpa [hk, List.lookup_cons, beq_false_of_ne ho] using ih

@[simp] theorem get?_erase (t : Table V) (name other : String) :
    (t.erase name).get? other = if other = name then none else t.get? other :=
  lookup_filter_ne t.entries name other

@[simp] theorem get?_insert (t : Table V) (name other : String) (value : V) :
    (t.insert name value).get? other = if other = name then some value else t.get? other := by
  have h := t.get?_erase name other
  simp only [get?] at h
  simp only [get?, insert, List.lookup_append, h]
  by_cases ho : other = name
  · subst ho; simp
  · have : (other == name) = false := by simpa using ho
    simp [ho, List.lookup_cons, this]

end Table

end BlockFeed
