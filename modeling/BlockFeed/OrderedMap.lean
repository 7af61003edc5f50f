/-!
# Ordered maps

Finite maps kept as lists of entries in increasing order of their keys.

## Main definitions

* `Entries.insert`: put an entry in its place; an entry under the same key is replaced.
* `OrderedMap`: entries whose keys increase.
-/

namespace BlockFeed

namespace Entries

variable {K V : Type} [LT K]

def Ascending : List (K × V) → Prop
  | [] => True
  | [_] => True
  | a :: b :: rest => a.1 < b.1 ∧ Ascending (b :: rest)

theorem Ascending.tail {a : K × V} {m : List (K × V)} (h : Ascending (a :: m)) : Ascending m := by
  cases m with
  | nil => trivial
  | cons b rest => exact h.2

/-- An increasing list stays so when its first value changes. -/
theorem Ascending.replace {k : K} {v w : V} {m : List (K × V)} (h : Ascending ((k, v) :: m)) :
    Ascending ((k, w) :: m) := by
  cases m with
  | nil => trivial
  | cons b rest => exact h

variable [DecidableLT K]

/-- Put an entry in its place; an entry under the same key is replaced. -/
def insert (k : K) (v : V) : List (K × V) → List (K × V)
  | [] => [(k, v)]
  | (k', v') :: rest =>
    if k < k' then (k, v) :: (k', v') :: rest
    else if k' < k then (k', v') :: insert k v rest
    else (k', v) :: rest

/-- The entries of a list, inserted from the first to the last. -/
def ofList (entries : List (K × V)) : List (K × V) :=
  entries.foldl (fun m e => insert e.1 e.2 m) []

theorem Ascending.insert (k : K) (v : V) {m : List (K × V)} (h : Ascending m) :
    Ascending (insert k v m) := by
  induction m with
  | nil => trivial
  | cons a rest ih =>
    obtain ⟨k', v'⟩ := a
    rw [Entries.insert]
    split
    · exact ⟨by assumption, h⟩
    split
    · rename_i hlt
      have ih := ih h.tail
      cases rest with
      | nil => exact ⟨hlt, trivial⟩
      | cons b rest =>
        obtain ⟨k'', v''⟩ := b
        rw [Entries.insert] at ih ⊢
        split
        · exact ⟨hlt, by simp_all⟩
        split
        · exact ⟨h.1, by simp_all⟩
        · exact ⟨h.1, h.2.replace⟩
    · exact h.replace

theorem ascending_ofList (entries : List (K × V)) : Ascending (ofList entries) := by
  suffices ∀ m : List (K × V), Ascending m →
      Ascending (entries.foldl (fun m e => Entries.insert e.1 e.2 m) m) from this [] trivial
  induction entries with
  | nil => exact fun _ h => h
  | cons e rest ih => exact fun m h => ih _ (h.insert e.1 e.2)

end Entries

/-- A finite map, its entries in increasing order of their keys. -/
structure OrderedMap (K V : Type) [LT K] where
  entries : List (K × V) := []
  /-- The keys increase. -/
  ascending : Entries.Ascending entries := by trivial

namespace OrderedMap

variable {K V : Type} [LT K] [DecidableLT K]

/-- The map of a list of entries; of entries under one key the last is kept. -/
def ofList (entries : List (K × V)) : OrderedMap K V :=
  ⟨Entries.ofList entries, Entries.ascending_ofList entries⟩

end OrderedMap

end BlockFeed
