import Mathlib.Data.List.Induction

/-!
# Runs

What is read off a run, event by event. The activities of a system stand at places of a list, and a
step changes the one at its place.

## Main definitions

* `collect`: what the events of a run contribute, from the first to the last; `tally`: how often
  what happens is of a kind.
* `Along`: every event of a run is of a kind, where it happens; `Sometime`: some event is.
* `path`: moves taken one after the other, each of which may be impossible.

## Main results

* `along_induction`: what one more event preserves holds after every run.
* `collect_invariant`: so does what each event preserves of the state and of what was contributed.
* `path_lowers`, `exists_stuck`: moves that make a number smaller come to an end.

## Design notes

Nothing of this is part of a system: a history is a function of where a run starts and of its
events, so statements about histories are statements about runs.
-/

namespace BlockFeed

/-- After the item at a place has changed, an item is that one, or as it was. -/
theorem getElem?_of_set {α : Type} {items : List α} {place q : Nat} {a b : α}
    (h : (items.set place a)[q]? = some b) :
    (q = place ∧ a = b) ∨ (q ≠ place ∧ items[q]? = some b) := by
  rw [List.getElem?_set] at h
  split at h
  · next hq =>
    split at h
    · exact .inl ⟨hq.symm, Option.some.inj h⟩
    · cases h
  · next hq => exact .inr ⟨fun heq => hq heq.symm, h⟩

/-- A change of the item at a place that keeps a property of it keeps that property of all. -/
theorem map_set_of_eq {α β : Type} {f : α → β} {items : List α} {place : Nat} {a b : α}
    (h : items[place]? = some a) (hsame : f b = f a) : (items.set place b).map f = items.map f := by
  obtain ⟨hlt, rfl⟩ := List.getElem?_eq_some_iff.mp h
  rw [List.map_set, hsame, ← List.getElem_map f (h := by simpa using hlt), List.set_getElem_self]

/-- The item at a place has items before and behind it, also after it has changed. -/
theorem exists_around {α : Type} {items : List α} {place : Nat} {a : α}
    (h : items[place]? = some a) :
    ∃ before behind, items = before ++ a :: behind ∧
      ∀ b, items.set place b = before ++ b :: behind := by
  obtain ⟨hlt, rfl⟩ := List.getElem?_eq_some_iff.mp h
  refine ⟨items.take place, items.drop (place + 1), ?_, fun b => ?_⟩
  · rw [← List.drop_eq_getElem_cons, List.take_append_drop]
  · rw [List.set_eq_take_append_cons_drop, if_pos hlt]

/-- A change of the item at a place that keeps what is picked from it keeps all that is picked. -/
theorem filterMap_set_of_eq {α β : Type} {f : α → Option β} {items : List α} {place : Nat}
    {a b : α} (h : items[place]? = some a) (hsame : f b = f a) :
    (items.set place b).filterMap f = items.filterMap f := by
  obtain ⟨before, behind, rfl, hset⟩ := exists_around h
  rw [hset, List.filterMap_append, List.filterMap_append, List.filterMap_cons, List.filterMap_cons,
    hsame]

section Collect

variable {S E α : Type} (apply : S → E → S) (gain : S → E → List α)

/-- What the events of a run contribute, from the first to the last. -/
def collect (s : S) : List E → List α
  | [] => []
  | e :: rest => gain s e ++ collect (apply s e) rest

theorem collect_append (s : S) (before after : List E) :
    collect apply gain s (before ++ after)
      = collect apply gain s before ++ collect apply gain (before.foldl apply s) after := by
  induction before generalizing s with
  | nil => rfl
  | cons e rest ih =>
    rw [List.cons_append, collect, collect, ih, List.append_assoc, List.foldl_cons]

theorem collect_concat (s : S) (events : List E) (e : E) :
    collect apply gain s (events ++ [e])
      = collect apply gain s events ++ gain (events.foldl apply s) e := by
  rw [collect_append, collect, collect, List.append_nil]

end Collect

section Tally

variable {S E : Type} (apply : S → E → S) (kind : S → E → Bool)

/-- How often what happens in a run is of a kind. -/
def tally (s : S) : List E → Nat
  | [] => 0
  | e :: rest => (kind s e).toNat + tally (apply s e) rest

end Tally

section Along

variable {S E : Type}

/-- Every event of a run is of a kind, where it happens. -/
def Along (apply : S → E → S) (kind : S → E → Prop) (s : S) : List E → Prop
  | [] => True
  | e :: rest => kind s e ∧ Along apply kind (apply s e) rest

variable {apply : S → E → S} {kind : S → E → Prop} {s : S}

theorem along_append {before after : List E} : Along apply kind s (before ++ after) ↔
    Along apply kind s before ∧ Along apply kind (before.foldl apply s) after := by
  induction before generalizing s with
  | nil => simp [Along]
  | cons e rest ih => rw [List.cons_append, Along, Along, ih, and_assoc, List.foldl_cons]

theorem along_concat {events : List E} {e : E} : Along apply kind s (events ++ [e]) ↔
    Along apply kind s events ∧ kind (events.foldl apply s) e := by
  rw [along_append, Along, Along, and_true]

theorem along_of_forall (apply : S → E → S) {kind : E → Prop} {events : List E}
    (h : ∀ e ∈ events, kind e) (s : S) : Along apply (fun _ => kind) s events := by
  induction events generalizing s with
  | nil => trivial
  | cons e rest ih =>
    obtain ⟨hkind, hrest⟩ := List.forall_mem_cons.mp h
    exact ⟨hkind, ih hrest _⟩

theorem Along.and {kind' : S → E → Prop} {events : List E} (h : Along apply kind s events)
    (h' : Along apply kind' s events) : Along apply (fun s e => kind s e ∧ kind' s e) s events := by
  induction events generalizing s with
  | nil => trivial
  | cons e rest ih => exact ⟨⟨h.1, h'.1⟩, ih h.2 h'.2⟩

instance decidableAlong [∀ s, DecidablePred (kind s)] (s : S) :
    DecidablePred (Along apply kind s)
  | [] => isTrue trivial
  | e :: rest =>
    have := decidableAlong (apply s e) rest
    inferInstanceAs (Decidable (kind s e ∧ Along apply kind (apply s e) rest))

/-- What holds where a run starts and is preserved by one more event holds after every run. -/
@[elab_as_elim]
theorem along_induction {motive : List E → Prop} (nil : motive [])
    (concat : ∀ events e, Along apply kind s events → kind (events.foldl apply s) e →
      motive events → motive (events ++ [e]))
    {events : List E} (along : Along apply kind s events) : motive events := by
  induction events using List.reverseRecOn with
  | nil => exact nil
  | append_singleton events e ih =>
    obtain ⟨hbefore, hkind⟩ := along_concat.mp along
    exact concat events e hbefore hkind (ih hbefore)

/-- A property of the state and of what has been contributed that no event of a kind destroys holds
after every run of such events. -/
theorem collect_invariant {α : Type} {gain : S → E → List α} (Inv : S → List α → Prop)
    (preserves : ∀ s log e, kind s e → Inv s log → Inv (apply s e) (log ++ gain s e))
    {log : List α} {events : List E} (along : Along apply kind s events) (initial : Inv s log) :
    Inv (events.foldl apply s) (log ++ collect apply gain s events) := by
  induction events generalizing s log with
  | nil =>
    rw [collect, List.append_nil]
    exact initial
  | cons e rest ih =>
    obtain ⟨hkind, hrest⟩ := along
    rw [collect, ← List.append_assoc]
    exact ih hrest (preserves s log e hkind initial)

/-- Some event of a run is of a kind, where it happens. -/
def Sometime (apply : S → E → S) (kind : S → E → Prop) (s : S) : List E → Prop
  | [] => False
  | e :: rest => kind s e ∨ Sometime apply kind (apply s e) rest

end Along

section Path

variable {S M : Type}

/-- Moves taken one after the other, if all can be taken. -/
def path (move : S → M → Option S) (s : S) : List M → Option S
  | [] => some s
  | m :: rest => (move s m).bind (path move · rest)

variable {move : S → M → Option S} {Inv : S → Prop} {work : S → Nat}
  (lowers : ∀ s m s', Inv s → move s m = some s' → Inv s' ∧ work s' < work s)

include lowers

/-- Where every move takes some of the work that is left, there are only so many. -/
theorem path_lowers {s s' : S} {ms : List M} (h : path move s ms = some s') (inv : Inv s) :
    Inv s' ∧ work s' + ms.length ≤ work s := by
  induction ms generalizing s with
  | nil =>
    obtain rfl := Option.some.inj h
    exact ⟨inv, Nat.le_refl _⟩
  | cons m rest ih =>
    obtain ⟨q, hq, hrest⟩ := Option.bind_eq_some_iff.mp h
    obtain ⟨hinv, hless⟩ := lowers s m q inv hq
    obtain ⟨hinv', hmore⟩ := ih hrest hinv
    rw [List.length_cons]
    exact ⟨hinv', by omega⟩

/-- Where every move takes some of the work that is left, some moves lead to where there is none. -/
theorem exists_stuck {s : S} (inv : Inv s) :
    ∃ ms s', path move s ms = some s' ∧ ∀ m, move s' m = none := by
  induction hwork : work s using Nat.strongRecOn generalizing s with
  | ind n ih =>
    by_cases hstuck : ∀ m, move s m = none
    · exact ⟨[], s, rfl, hstuck⟩
    · obtain ⟨m, hm⟩ := Classical.not_forall.mp hstuck
      obtain ⟨q, hq⟩ := Option.ne_none_iff_exists'.mp hm
      obtain ⟨hinv, hless⟩ := lowers s m q inv hq
      obtain ⟨ms, s', hms, hend⟩ := ih (work q) (hwork ▸ hless) hinv rfl
      exact ⟨m :: ms, s', by rw [path, hq, Option.bind_some, hms], hend⟩

end Path

end BlockFeed
