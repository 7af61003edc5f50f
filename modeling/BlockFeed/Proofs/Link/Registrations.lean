import BlockFeed.Proofs.Link.Usage
import BlockFeed.Proofs.OrderedMap
import BlockFeed.Proofs.Sender.Closing
import Mathlib.Data.List.Nodup

/-!
# Registrations

What is registered after each operation of a registry, and how often the operation closes a
connection.

## Main definitions

* `Registry.enrolled`: how often a connection is registered.
* `Registry.Sound`: what the operations of a registry answer and do.

## Main results

* `Registry.sound_of_exist`: a registry whose connections exist is sound.
* `Registry.conserves_closeAndRemove`, `Registry.conserves_closeAll`: a registry that closes a
  connection gives up a registration of it for that.
-/

namespace BlockFeed

theorem Table.mem_entries_iff {V : Type} {t : Table V} {name : String} {value : V} :
    (name, value) ∈ t.entries ↔ t.get? name = some value := Entries.mem_iff_lookup t.nodup

theorem Table.not_mem_names_iff {V : Type} {t : Table V} {name : String} :
    name ∉ t.names ↔ t.get? name = none := by
  rw [Option.eq_none_iff_forall_ne_some, names, List.mem_map]
  constructor
  · exact fun h value hvalue => h ⟨(name, value), mem_entries_iff.mpr hvalue, rfl⟩
  · rintro h ⟨⟨_, value⟩, hmem, rfl⟩
    exact h value (mem_entries_iff.mp hmem)

namespace Registry

/-- How often a connection is registered. -/
def enrolled (g : Registry) (f : Ref) : Nat := (g.entries.map Prod.snd).count f

variable {g : Registry} {w : Wire} {id : String} {r : Ref}

theorem closeAndRemove_of_none (h : g.get? id = none) :
    g.closeAndRemove w id = (.error (.notFound id), g, w) := by
  rw [closeAndRemove, h]

/-- The result tells how closing has gone. -/
theorem result_closeAndRemove (h : g.get? id = some r) :
    (g.closeAndRemove w id).1 = (w.conn r).close.1.mapError .close := by
  have hresult : (w.close r).1 = (w.conn r).close.1 := rfl
  rw [closeAndRemove, h, ← hresult]
  dsimp only
  split <;> next heq => rw [heq]; rfl

/-- Nothing is registered under the id any more, and all else stays as it is. -/
theorem entries_closeAndRemove_eq (g : Registry) (w : Wire) (id : String) :
    (g.closeAndRemove w id).2.1.entries = g.entries.filter fun c => c.1 != id := by
  cases h : g.get? id with
  | none =>
    rw [closeAndRemove_of_none h, eq_comm, List.filter_eq_self]
    rintro ⟨name, r⟩ hc
    refine bne_iff_ne.mpr ?_
    rintro rfl
    rw [Table.mem_entries_iff.mp hc] at h
    cases h
  | some r =>
    rw [closeAndRemove_of_get? h]
    rfl

/-- One of the entries of a registry stands under the id, and the rest is what is left without. -/
theorem exists_split (h : g.get? id = some r) :
    ∃ before behind, g.entries = before ++ (id, r) :: behind ∧
      g.entries.filter (fun c => c.1 != id) = before ++ behind := by
  obtain ⟨before, behind, hsplit⟩ := List.append_of_mem (Table.mem_entries_iff.mpr h)
  refine ⟨before, behind, hsplit, ?_⟩
  have hnodup := g.nodup
  rw [hsplit, List.map_append, List.map_cons, List.nodup_middle, List.nodup_cons] at hnodup
  have hkeep : ∀ c ∈ before ++ behind, (c.1 != id) = true := by
    intro c hc
    refine bne_iff_ne.mpr ?_
    rintro rfl
    rw [← List.map_append] at hnodup
    exact hnodup.1 (List.mem_map.mpr ⟨c, hc, rfl⟩)
  obtain ⟨hbefore, hbehind⟩ := List.forall_mem_append.mp hkeep
  rw [hsplit, List.filter_append, List.filter_eq_self.mpr hbefore,
    List.filter_cons_of_neg (by simp), List.filter_eq_self.mpr hbehind]

/-- A connection that is closed gives up a registration for that. -/
theorem conserves_closeAndRemove (exist : ∀ c ∈ g.entries, c.2 < w.connections.length)
    (id : String) (f : Ref) :
    ((g.closeAndRemove w id).2.2.conn f).closes + (g.closeAndRemove w id).2.1.enrolled f =
      (w.conn f).closes + g.enrolled f := by
  rw [enrolled, entries_closeAndRemove_eq, enrolled]
  cases h : g.get? id with
  | none =>
    rw [closeAndRemove_of_none h, ← entries_closeAndRemove_eq g w, closeAndRemove_of_none h]
  | some r =>
    obtain ⟨before, behind, hsplit, hleft⟩ := exists_split h
    have hr := exist (id, r) (Table.mem_entries_iff.mpr h)
    rw [hleft, hsplit, closeAndRemove_of_get? h, (Wire.conn_close hr f).1]
    simp only [List.map_append, List.map_cons, List.count_append, List.count_cons, beq_iff_eq]
    omega

theorem conserves_closeAll (exist : ∀ c ∈ g.entries, c.2 < w.connections.length) (f : Ref) :
    (g.closeAll w).1.entries = [] ∧
      ((g.closeAll w).2.conn f).closes = (w.conn f).closes + g.enrolled f :=
  ⟨(closeAll_closes exist).1, ((closeAll_closes exist).2 f).1⟩

/-- Whatever was registered under the id of a connection that is added, now it is that one. -/
theorem mem_add_iff {name : String} {f : Ref} : (name, f) ∈ (g.add w r).entries ↔
    (name = (w.conn r).id ∧ f = r) ∨ (name ≠ (w.conn r).id ∧ (name, f) ∈ g.entries) := by
  rw [Table.mem_entries_iff, Table.mem_entries_iff, add, Table.get?_insert]
  split
  · next heq => simp [heq, eq_comm]
  · next hne => simp [hne]

theorem enrolled_add (g : Registry) (w : Wire) (r f : Ref) :
    (g.add w r).enrolled f ≤ g.enrolled f + if r = f then 1 else 0 := by
  have hsub : ((g.erase (w.conn r).id).entries.map Prod.snd).Sublist (g.entries.map Prod.snd) :=
    List.filter_sublist.map Prod.snd
  have hcount := hsub.count_le f
  rw [enrolled, add, Table.insert, List.map_append, List.count_append, List.map_singleton,
    List.count_singleton, enrolled]
  simp only [beq_iff_eq]
  omega

theorem size_add_le (g : Registry) (w : Wire) (r : Ref) : (g.add w r).size ≤ g.size + 1 := by
  have herase : (g.erase (w.conn r).id).entries.length ≤ g.entries.length :=
    List.length_filter_le _ _
  rw [add, Table.size, Table.insert, List.length_append, List.length_singleton]
  exact Nat.succ_le_succ herase

theorem mem_removeClosed_iff {name : String} {f : Ref} : (name, f) ∈ (g.removeClosed w).entries ↔
    (name, f) ∈ g.entries ∧ (w.conn f).isOpen = true := List.mem_filter

theorem closedCount_eq (g : Registry) (w : Wire) :
    g.closedCount w = g.entries.countP fun c => !(w.conn c.2).isOpen := by
  have hlength := List.length_eq_countP_add_countP (fun c => (w.conn c.2).isOpen) (l := g.entries)
  have hkept : (g.removeClosed w).size = g.entries.countP fun c => (w.conn c.2).isOpen :=
    List.countP_eq_length_filter.symm
  rw [closedCount, hkept, Table.size, hlength]
  simp

/-- What the operations of a registry answer and do. -/
structure Sound (g : Registry) (w : Wire) : Prop where
  /-- What is not registered cannot be removed, and nothing is closed. -/
  absent : ∀ id, id ∉ g.names → g.closeAndRemove w id = (.error (.notFound id), g, w)
  /-- What is registered is removed and closed once, and the result tells how that went. -/
  present : ∀ id r, (id, r) ∈ g.entries →
    (g.closeAndRemove w id).1 = (w.conn r).close.1.mapError .close ∧
    (g.closeAndRemove w id).2.1.entries = g.entries.filter (fun c => c.1 != id) ∧
    ∀ f, ((g.closeAndRemove w id).2.2.conn f).closes
      = (w.conn f).closes + if r = f then 1 else 0
  /-- Forgetting the connections that are not open keeps the others, and tells how many went. -/
  forgets : (∀ id r, (id, r) ∈ (g.removeClosed w).entries ↔
      (id, r) ∈ g.entries ∧ (w.conn r).isOpen = true) ∧
    g.closedCount w = g.entries.countP fun c => !(w.conn c.2).isOpen
  /-- Closing all closes once for each entry, and leaves none. -/
  closesAll : (g.closeAll w).1.entries = [] ∧
    ∀ f, ((g.closeAll w).2.conn f).closes = (w.conn f).closes + g.enrolled f

theorem sound_of_exist (exist : ∀ c ∈ g.entries, c.2 < w.connections.length) : g.Sound w where
  absent := fun _ hout => closeAndRemove_of_none (Table.not_mem_names_iff.mp hout)
  present := by
    intro id r hr
    have hget := Table.mem_entries_iff.mp hr
    refine ⟨result_closeAndRemove hget, entries_closeAndRemove_eq g w id, fun f => ?_⟩
    rw [closeAndRemove_of_get? hget]
    exact (Wire.conn_close (exist _ hr) f).1
  forgets := ⟨fun _ _ => mem_removeClosed_iff, closedCount_eq g w⟩
  closesAll := ⟨(conserves_closeAll exist 0).1, fun f => (conserves_closeAll exist f).2⟩

end Registry

end BlockFeed
