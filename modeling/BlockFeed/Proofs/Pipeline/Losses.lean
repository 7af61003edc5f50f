import BlockFeed.Proofs.Pipeline.Fanout

/-!
# Failed reads in a run

What it costs that a send cannot read the acknowledgment of a connection, whatever was registered
since the send wrote to that connection.

## Main definitions

* `Pipeline.ReadFails`: a send finds that it cannot read from a connection.
* `Pipeline.Intact`: the id of a connection still stands for it.
* `Pipeline.Confined`: failed reads cost those connections that cannot be read, and no other.

## Main results

* `Pipeline.gives_of_failed`: a failed read costs whatever is registered under the id of the
  connection.
* `Pipeline.losing_of_course`: the failed reads of a send are confined exactly if each of them finds
  its connection intact.

## Design notes

A send waits for a connection and gives it up by its id. The two part when another connection is
registered under that id in between: then the other one is closed, and the one that failed is not.
-/

namespace BlockFeed

namespace Pipeline

/-- In a step of the send at a place a connection cannot be read. -/
def ReadFails (p : Pipeline) (place : Nat) (e : Event) (r : Ref) (error : ConnectionError) : Prop :=
  (r, .failed error) ∈ p.resolutionsAt place e

/-- A connection is not open once an error has been read from it. -/
def Shut (p : Pipeline) (r : Ref) (error : ConnectionError) : Prop :=
  (p.wire.conn r).isOpen = false ∨ (p.wire.conn r).drops = true ∧ error.isClosed = true

/-- The id of a connection stands for it, or for none: then it is not open once the error has been
read. -/
def Intact (p : Pipeline) (r : Ref) (error : ConnectionError) : Prop :=
  p.sender.registry.get? (p.wire.conn r).id = some r ∨
    p.sender.registry.get? (p.wire.conn r).id = none ∧ p.Shut r error

/-- Whatever is registered under the id of a connection is unregistered and closed. -/
structure GivesUp (p : Pipeline) (e : Event) (r : Ref) (error : ConnectionError) : Prop where
  entries : (p.apply e).sender.registry.entries
    = p.sender.registry.entries.filter fun c => c.1 != (p.wire.conn r).id
  closes : ∀ f, ((p.apply e).wire.conn f).closes = (p.wire.conn f).closes
    + if p.sender.registry.get? (p.wire.conn r).id = some f then 1 else 0
  shut : ((p.apply e).wire.conn r).isOpen = false ↔
    p.sender.registry.get? (p.wire.conn r).id = some r ∨ p.Shut r error

/-- Failed reads of the send at a place cost those connections that cannot be read, and no other. -/
structure Confined (place : Nat) (p : Pipeline) (events : List Event) : Prop where
  /-- A connection that cannot be read is neither open nor registered. -/
  ends : ∀ before e after, events = before ++ e :: after → ∀ r error,
    (p.applyAll before).ReadFails place e r error →
      (((p.applyAll before).apply e).wire.conn r).isOpen = false ∧
      ∀ name, (name, r) ∉ ((p.applyAll before).apply e).sender.registry.entries
  /-- A connection that could be read as long as the send has read from it is neither closed nor
  unregistered in a step of the send. -/
  spares : ∀ before e after, events = before ++ e :: after → e.moves place = true → ∀ f,
    (∀ error, (f, .failed error) ∉ p.resolutions place (before ++ [e])) →
      (((p.applyAll before).apply e).wire.conn f).closes
        = ((p.applyAll before).wire.conn f).closes ∧
      ∀ name, (name, f) ∈ ((p.applyAll before).apply e).sender.registry.entries ↔
        (name, f) ∈ (p.applyAll before).sender.registry.entries

/-- What failed reads of the send at a place cost in the course of a run. -/
structure Losing (place : Nat) (p : Pipeline) (events : List Event) : Prop where
  /-- A failed read costs whatever is registered under the id of the connection. -/
  gives : ∀ before e after, events = before ++ e :: after → ∀ r error,
    (p.applyAll before).ReadFails place e r error → (p.applyAll before).GivesUp e r error
  /-- As long as no read fails, nothing is unregistered or closed. -/
  keeps : ∀ before e after, events = before ++ e :: after → e.moves place = true →
    (∀ r error, ¬(p.applyAll before).ReadFails place e r error) →
      ((p.applyAll before).apply e).sender.registry = (p.applyAll before).sender.registry ∧
      ∀ f, (((p.applyAll before).apply e).wire.conn f).closes
        = ((p.applyAll before).wire.conn f).closes
  /-- So it costs the connection itself, and no other, exactly if it finds the connection intact. -/
  confined_iff : Confined place p events ↔
    ∀ before e after, events = before ++ e :: after → ∀ r error,
      (p.applyAll before).ReadFails place e r error → (p.applyAll before).Intact r error

variable {p : Pipeline} {place : Nat} {e : Event} {events : List Event} {x : Send}

/-- How far the send at a place has got by the end of a run. -/
inductive Stage (place : Nat) (p : Pipeline) (events : List Event) (x : Send) : Prop where
  /-- It has not had its turn, and has waited for nothing. -/
  | unturned : ¬x.HasTurn → p.resolutions place events = [] → Stage place p events x
  /-- It is at a fan-out to connections with different ids. -/
  | fanning {ack : Bool} {frame : Bytes} {counter : UInt64} {f : Fanout} {steps : Nat} :
      (p.applyAll events).sender.withAcknowledge = ack →
      x.frame (p.applyAll events).sender counter = frame → f.Sound frame →
      x.Tally ack frame counter f steps →
      (∀ c ∈ f.snapshot, c.2 < (p.applyAll events).wire.connections.length ∧
        ((p.applyAll events).wire.conn c.2).id = c.1) →
      f.ends = p.resolutions place events → Stage place p events x

theorem resolutionsAt_of_none (h : p.sendAt? place = none) (e : Event) :
    p.resolutionsAt place e = [] := by
  cases e with
  | move q pick =>
    rw [resolutionsAt, h]
    split <;> rfl
  | _ => rfl

theorem resolutionsAt_of_le (h : p.activities.length ≤ place) (e : Event) :
    p.resolutionsAt place e = [] :=
  resolutionsAt_of_none (by rw [sendAt?, List.getElem?_eq_none h]) e

theorem resolutions_of_le (h : (p.applyAll events).activities.length ≤ place) :
    p.resolutions place events = [] := by
  induction events generalizing p with
  | nil => rfl
  | cons e rest ih =>
    have hfirst : (p.apply e).activities.length ≤ place :=
      Nat.le_trans (length_le_applyAll (p.apply e) rest) h
    rw [resolutions, collect, resolutionsAt_of_le (Nat.le_trans (p.length_le_apply e) hfirst)]
    exact ih h

namespace Stage

/-- A send that takes no step stays where it is. -/
theorem stay (h : Stage place p events x) (hx : (p.applyAll events).sendAt? place = some x)
    (hstay : (p.applyAll events).stepsAt place e = []) : Stage place p (events ++ [e]) x := by
  have hsame : p.resolutions place (events ++ [e]) = p.resolutions place events := by
    rw [resolutions_concat, resolutionsAt_of_stay hx hstay, List.append_nil]
  have hasked := (p.applyAll events).withAcknowledge_apply e
  cases h with
  | unturned hturn hnone => exact .unturned hturn (hsame.trans hnone)
  | fanning hack hframe hsound htally hnamed hends =>
    refine .fanning ?_ ?_ hsound htally (fun c hc => ?_) (hends.trans hsame.symm)
    · rw [applyAll_concat, hasked, hack]
    · rw [applyAll_concat, ← hframe, Send.frame, Send.frame, hasked]
    · obtain ⟨hlt, hid⟩ := (p.applyAll events).keeps_apply e (hnamed c hc).1
      rw [applyAll_concat]
      exact ⟨hlt, hid.trans (hnamed c hc).2⟩

/-- A send that has not had its turn begins a fan-out when it has it, and otherwise waits for
nothing. -/
theorem of_unturned {pick : Nat} {x' : Send} (hturn : ¬x.HasTurn)
    (hnone : p.resolutions place events = []) (named : (p.applyAll events).Named)
    (hx : (p.applyAll events).sendAt? place = some x)
    (hmove : Send.Move place pick (p.applyAll events).sender (p.applyAll events).wire x
      ((p.applyAll events).apply (.move place pick)).sender
      ((p.applyAll events).apply (.move place pick)).wire x') :
    Stage place p (events ++ [.move place pick]) x' := by
  have hsame : p.resolutions place (events ++ [.move place pick]) = [] := by
    have hidle : x.resolves pick (p.applyAll events).sender (p.applyAll events).wire = [] :=
      Send.resolves_of_ne_waiting fun counter waits failures hp =>
        hturn (by simp [Send.HasTurn, hp])
    rw [resolutions_concat, hnone, resolutionsAt, if_pos rfl, hx, Option.elim_some, hidle,
      List.append_nil]
  rcases hmove.of_not_hasTurn hturn with hstill | ⟨counter, hx', hwire⟩
  · exact .unturned hstill hsame
  · have hsound (frame : Bytes) :=
      Fanout.sound_start frame (p.applyAll events).sender.registry.nodup named.nodup
    rw [hx']
    refine .fanning rfl rfl (hsound _) (Send.tally_start x counter _ _) ?_ hsame.symm
    rw [applyAll_concat, hwire]
    exact named.entries

/-- A step of a send carries its fan-out on. -/
theorem step {pick : Nat} {x' : Send} (h : Stage place p events x)
    (named : (p.applyAll events).Named)
    (hx : (p.applyAll events).sendAt? place = some x)
    (hmove : Send.Move place pick (p.applyAll events).sender (p.applyAll events).wire x
      ((p.applyAll events).apply (.move place pick)).sender
      ((p.applyAll events).apply (.move place pick)).wire x') :
    Stage place p (events ++ [.move place pick]) x' := by
  cases h with
  | unturned hturn hnone => exact of_unturned hturn hnone named hx hmove
  | @fanning ack frame counter f steps hack hframe hsound htally hnamed hends =>
    have hasked := (p.applyAll events).withAcknowledge_apply (.move place pick)
    obtain ⟨f', hsnapshot, hsound', htally', -, hends'⟩ := hmove.tally hsound htally hack hframe
      fun c hc => (hnamed c hc).1
    refine .fanning ?_ ?_ hsound' htally' (fun c hc => ?_) ?_
    · rw [applyAll_concat, hasked, hack]
    · rw [applyAll_concat, ← hframe, Send.frame, Send.frame, hmove.payload, hasked]
    · rw [hsnapshot] at hc
      obtain ⟨hlt, hid⟩ := (p.applyAll events).keeps_apply (.move place pick) (hnamed c hc).1
      rw [applyAll_concat]
      exact ⟨hlt, hid.trans (hnamed c hc).2⟩
    · rw [hends', hends, resolutions_concat, resolutionsAt, if_pos rfl, hx, Option.elim_some]

theorem concat (h : ∀ x, (p.applyAll events).sendAt? place = some x → Stage place p events x)
    (named : (p.applyAll events).Named) {x' : Send}
    (hx' : ((p.applyAll events).apply e).sendAt? place = some x') :
    Stage place p (events ++ [e]) x' := by
  cases sends_apply hx' with
  | @step pick x he hx _ hmove =>
    subst he
    exact (h x hx).step named hx hmove
  | same hsame _ hstay => exact (h x' hsame).stay hsame hstay
  | call hplace hcalled =>
    refine .unturned (by simp [Send.HasTurn, hcalled]) ?_
    rw [resolutions_concat, resolutions_of_le hplace, resolutionsAt_of_le hplace, List.append_nil]

theorem applyAll (withAcknowledge : Bool)
    (course : Along apply Provides (beginning withAcknowledge) events)
    (hx : ((beginning withAcknowledge).applyAll events).sendAt? place = some x) :
    Stage place (beginning withAcknowledge) events x := by
  induction events using List.reverseRecOn generalizing x with
  | nil => cases hx
  | append_singleton events e ih =>
    obtain ⟨hbefore, -⟩ := along_append.mp course
    rw [applyAll_concat] at hx
    exact concat (fun _ hx => ih hbefore hx) (named_applyAll withAcknowledge hbefore) hx

/-- A send waits for connections under the ids that they have. -/
theorem named_waits (h : Stage place p events x) {counter : UInt64} {waits : List AckWait}
    {failures : List Failure} (hp : x.phase = .waiting counter waits failures) {a : AckWait}
    (ha : a ∈ waits) : a.conn < (p.applyAll events).wire.connections.length ∧
      ((p.applyAll events).wire.conn a.conn).id = a.id := by
  cases h with
  | unturned hturn => exact absurd (by simp [Send.HasTurn, hp]) hturn
  | fanning _ _ hsound htally hnamed =>
    cases htally with
    | writing hq | done _ hq => cases hp.symm.trans hq
    | waiting _ hq =>
      obtain ⟨-, rfl, -⟩ := SendPhase.waiting.inj (hp.symm.trans hq)
      obtain ⟨c, hc, rfl⟩ := List.mem_map.mp ha
      exact hnamed c ((Fanout.takers_sublist hsound).subset hc)

/-- Whatever a send has waited for has been in its snapshot. -/
theorem exists_snapshot (h : Stage place p events x) : ∃ snapshot : List (String × Ref),
    (snapshot.map Prod.fst).Nodup ∧
    (∀ c ∈ snapshot, c.2 < (p.applyAll events).wire.connections.length ∧
      ((p.applyAll events).wire.conn c.2).id = c.1) ∧
    ∀ k ∈ p.resolutions place events, ∃ c ∈ snapshot, c.2 = k.1 := by
  cases h with
  | unturned _ hnone => exact ⟨[], List.nodup_nil, nofun, by simp [hnone]⟩
  | @fanning _ _ _ f _ _ _ hsound _ hnamed hends =>
    refine ⟨f.snapshot, hsound.ids, hnamed, fun k hk => ?_⟩
    rw [← hends] at hk
    obtain ⟨c, hc, hsame⟩ := hsound.among k hk
    exact ⟨c, (Fanout.takers_sublist hsound).subset hc, hsame⟩

/-- Two connections that a send has waited for have different ids. -/
theorem eq_of_id (h : Stage place p events x) {k k' : Ref × AckOutcome}
    (hk : k ∈ p.resolutions place events) (hk' : k' ∈ p.resolutions place events)
    (same : ((p.applyAll events).wire.conn k.1).id = ((p.applyAll events).wire.conn k'.1).id) :
    k.1 = k'.1 := by
  obtain ⟨snapshot, hids, hnamed, hamong⟩ := h.exists_snapshot
  obtain ⟨c, hc, hck⟩ := hamong k hk
  obtain ⟨c', hc', hck'⟩ := hamong k' hk'
  rw [← hck, ← hck', (hnamed c hc).2, (hnamed c' hc').2] at same
  rw [← hck, ← hck', List.inj_on_of_nodup_map hids hc hc' same]

end Stage

/-- A connection that cannot be read is one that a send has written to. -/
theorem ReadFails.exists_move {r : Ref} {error : ConnectionError}
    (h : p.ReadFails place e r error) : ∃ pick x x', e = .move place pick ∧
      p.sendAt? place = some x ∧ (r, .failed error) ∈ x.resolves pick p.sender p.wire ∧
      Send.Move place pick p.sender p.wire x (p.apply e).sender (p.apply e).wire x' := by
  obtain ⟨x, hx⟩ : ∃ x, p.sendAt? place = some x := by
    rw [← Option.isSome_iff_exists, Option.isSome_iff_ne_none]
    intro hnone
    rw [ReadFails, resolutionsAt_of_none hnone] at h
    cases h
  obtain ⟨x', hx'⟩ : ∃ x', (p.apply e).sendAt? place = some x' := exists_sendAt?_applyAll hx [e]
  cases sends_apply hx' with
  | @step pick y he hy _ hmove =>
    obtain rfl : y = x := Option.some.inj (hy.symm.trans hx)
    subst he
    rw [ReadFails, resolutionsAt, if_pos rfl, hx, Option.elim_some] at h
    exact ⟨pick, y, x', rfl, hx, h, hmove⟩
  | same hsame _ hstay =>
    rw [ReadFails, resolutionsAt_of_stay hsame hstay] at h
    cases h
  | call hplace =>
    have hlt := (List.getElem?_eq_some_iff.mp (sendAt?_eq_some.mp hx)).1
    exact absurd hlt (Nat.not_lt_of_le hplace)

/-- As long as an activity can read whatever it reads, nothing is unregistered or closed. -/
theorem keeps_of_not_failed (hmoves : e.moves place = true)
    (kept : ∀ r error, ¬p.ReadFails place e r error) :
    (p.apply e).sender.registry = p.sender.registry ∧
      ∀ f, ((p.apply e).wire.conn f).closes = (p.wire.conn f).closes := by
  cases e with
  | move q pick =>
    obtain rfl : q = place := beq_iff_eq.mp hmoves
    have hmoved := p.moved_apply q pick
    generalize p.apply (.move q pick) = p' at hmoved ⊢
    cases hmoved with
    | send hx hmove =>
      refine hmove.keeps_of_not_failed fun r error hfailed => kept r error ?_
      rwa [ReadFails, resolutionsAt, if_pos rfl, sendAt?_eq_some.mpr hx, Option.elim_some]
    | listen _ _ hmove => exact ⟨rfl, fun f => (hmove.used.conn f).closes⟩
    | stay => exact ⟨rfl, fun _ => rfl⟩
  | _ => cases hmoves

/-- What is registered under the id of a connection is given up in the step that cannot read from
it, if the send waits for it under that id. -/
theorem GivesUp.of_closeAndRemove {r : Ref} {error : ConnectionError} {w₁ : Wire}
    (named : p.Named) (hr : r < p.wire.connections.length)
    (hread : p.wire.read? r = some (.error error, w₁))
    (hregistry : (p.apply e).sender.registry
      = (p.sender.registry.closeAndRemove w₁ (p.wire.conn r).id).2.1)
    (hwire : (p.apply e).wire = (p.sender.registry.closeAndRemove w₁ (p.wire.conn r).id).2.2) :
    p.GivesUp e r error := by
  have hused := Wire.used_read hread
  have hshut : (w₁.conn r).isOpen = false ↔ p.Shut r error := by
    obtain ⟨⟨result, c⟩, hc, heq⟩ := Option.map_eq_some_iff.mp hread
    obtain ⟨rfl, rfl⟩ := Prod.mk.inj heq
    rw [Wire.conn_set, if_pos ⟨rfl, hr⟩]
    exact Connection.isOpen_of_read_error hc
  have hclose (f : Ref) : ((p.apply e).wire.conn f).closes = (p.wire.conn f).closes
        + (if p.sender.registry.get? (p.wire.conn r).id = some f then 1 else 0) ∧
      (((p.apply e).wire.conn f).isOpen = false ↔
        p.sender.registry.get? (p.wire.conn r).id = some f ∨ (w₁.conn f).isOpen = false) := by
    rw [hwire, ← (hused.conn f).closes]
    cases hget : p.sender.registry.get? (p.wire.conn r).id with
    | none =>
      rw [Registry.closeAndRemove_of_none hget]
      simp
    | some q =>
      have hq := (named.entries _ (Table.mem_entries_iff.mpr hget)).1
      obtain ⟨hcloses, hopen⟩ := Wire.conn_close (hused.size ▸ hq) f
      rw [Registry.closeAndRemove_of_get? hget, hcloses, ← Bool.not_eq_true, hopen]
      by_cases hf : q = f <;> simp [hf]
  exact {
    entries := by rw [hregistry, Registry.entries_closeAndRemove_eq]
    closes := fun f => (hclose f).1
    shut := (hclose r).2.trans (or_congr_right hshut) }

section Beginning

variable {withAcknowledge : Bool} {r : Ref} {error : ConnectionError}
  (course : Along apply Provides (beginning withAcknowledge) events)

include course

/-- A failed read costs whatever is registered under the id of the connection. -/
theorem gives_of_failed
    (failed : ((beginning withAcknowledge).applyAll events).ReadFails place e r error) :
    ((beginning withAcknowledge).applyAll events).GivesUp e r error := by
  obtain ⟨pick, x, x', rfl, hx, hfailed, hmove⟩ := failed.exists_move
  obtain ⟨counter, waits, failures, a, w₁, hp, ha, rfl, hread, hregistry, hwire⟩ :=
    hmove.gives_up hfailed
  obtain ⟨hlt, hid⟩ := (Stage.applyAll withAcknowledge course hx).named_waits hp
    (List.mem_of_getElem? ha)
  rw [← hid] at hregistry hwire
  exact .of_closeAndRemove (named_applyAll withAcknowledge course) hlt hread hregistry hwire

/-- Of the connections that a send cannot read, no two have one id. -/
theorem eq_of_failed {f : Ref} {error' : ConnectionError} (provides :
      ((beginning withAcknowledge).applyAll events).Provides e)
    (failed : ((beginning withAcknowledge).applyAll events).ReadFails place e r error)
    (also : (f, .failed error') ∈ (beginning withAcknowledge).resolutions place (events ++ [e]))
    (same : (((beginning withAcknowledge).applyAll events).wire.conn f).id
      = (((beginning withAcknowledge).applyAll events).wire.conn r).id) : f = r := by
  have hcourse : Along apply Provides (beginning withAcknowledge) (events ++ [e]) :=
    along_append.mpr ⟨course, provides, trivial⟩
  have hmem : (r, .failed error)
      ∈ (beginning withAcknowledge).resolutions place (events ++ [e]) := by
    rw [resolutions_concat]
    exact List.mem_append_right _ failed
  obtain ⟨pick, x, x', rfl, hx, -, hmove⟩ := failed.exists_move
  obtain ⟨y, hy⟩ := exists_sendAt?_applyAll hx [.move place pick]
  rw [← applyAll_append] at hy
  refine (Stage.applyAll withAcknowledge hcourse hy).eq_of_id also hmem ?_
  have hid := hmove.toll.wanes.id
  rw [applyAll_concat, hid, hid]
  exact same

end Beginning

section

variable {r : Ref} {error : ConnectionError}

/-- The connection that cannot be read is not registered afterwards, whatever was registered under
its id. -/
theorem GivesUp.not_mem (named : p.Named) (h : p.GivesUp e r error) (name : String) :
    (name, r) ∉ (p.apply e).sender.registry.entries := by
  rw [h.entries, List.mem_filter]
  rintro ⟨hmem, hne⟩
  exact bne_iff_ne.mp hne (named.entries _ hmem).2.symm

/-- If the connection is intact, no other is unregistered or closed. -/
theorem GivesUp.spares (h : p.GivesUp e r error) (intact : p.Intact r error)
    {f : Ref} (hf : f ≠ r) : ((p.apply e).wire.conn f).closes = (p.wire.conn f).closes ∧
      ∀ name, (name, f) ∈ (p.apply e).sender.registry.entries ↔
        (name, f) ∈ p.sender.registry.entries := by
  have hout : p.sender.registry.get? (p.wire.conn r).id ≠ some f := by
    rcases intact with hsome | ⟨hnone, -⟩
    · rw [hsome]
      exact fun heq => hf (Option.some.inj heq).symm
    · rw [hnone]
      nofun
  refine ⟨by rw [h.closes, if_neg hout, Nat.add_zero], fun name => ?_⟩
  rw [h.entries, List.mem_filter, and_iff_left_iff_imp]
  refine fun hmem => bne_iff_ne.mpr ?_
  rintro rfl
  exact hout (Table.mem_entries_iff.mp hmem)

end

/-- In every run, what a send loses by a failed read is what is registered under the id of the
connection. That it is this connection, and no other, is so exactly if the id stands for it, or for
none. -/
theorem losing_of_course (withAcknowledge : Bool) (events : List Event) (place : Nat)
    (course : Along apply Provides (beginning withAcknowledge) events) :
    Losing place (beginning withAcknowledge) events := by
  have hgives {before after : List Event} {e : Event} (hsplit : events = before ++ e :: after)
      {r : Ref} {error : ConnectionError}
      (hfailed : ((beginning withAcknowledge).applyAll before).ReadFails place e r error) :
      ((beginning withAcknowledge).applyAll before).Named ∧
        ((beginning withAcknowledge).applyAll before).GivesUp e r error := by
    obtain ⟨hbefore, -⟩ := along_append.mp (hsplit ▸ course)
    exact ⟨named_applyAll withAcknowledge hbefore, gives_of_failed hbefore hfailed⟩
  refine ⟨fun _ _ _ hsplit _ _ hfailed => (hgives hsplit hfailed).2,
    fun _ _ _ _ hmoves kept => keeps_of_not_failed hmoves kept, fun hconfined => ?_,
    fun hintact => ⟨?_, ?_⟩⟩
  · intro before e after hsplit r error hfailed
    obtain ⟨hnamed, hgiven⟩ := hgives hsplit hfailed
    have hshut := hgiven.shut.mp (hconfined.ends before e after hsplit r error hfailed).1
    cases hget : ((beginning withAcknowledge).applyAll before).sender.registry.get?
        (((beginning withAcknowledge).applyAll before).wire.conn r).id with
    | none => exact .inr ⟨hget, hshut.resolve_left (by simp [hget])⟩
    | some f =>
      -- the step closes this one, so the send could not read from it either
      have hid := (hnamed.entries _ (Table.mem_entries_iff.mpr hget)).2
      obtain ⟨error', halso⟩ : ∃ error', (f, .failed error') ∈
          (beginning withAcknowledge).resolutions place (before ++ [e]) := by
        by_contra hkept
        obtain ⟨pick, -, -, rfl, -⟩ := hfailed.exists_move
        have hsame := (hconfined.spares before _ after hsplit (beq_self_eq_true place) f
          fun error' halso => hkept ⟨error', halso⟩).1
        rw [hgiven.closes, if_pos hget] at hsame
        omega
      obtain ⟨hbefore, hprovides, -⟩ := along_append.mp (hsplit ▸ course)
      obtain rfl := eq_of_failed hbefore hprovides hfailed halso hid
      exact .inl hget
  · intro before e after hsplit r error hfailed
    obtain ⟨hnamed, hgiven⟩ := hgives hsplit hfailed
    refine ⟨hgiven.shut.mpr ?_, hgiven.not_mem hnamed⟩
    exact (hintact before e after hsplit r error hfailed).imp_right And.right
  · intro before e after hsplit hmoves f hkept
    by_cases hfails : ∃ r error,
        ((beginning withAcknowledge).applyAll before).ReadFails place e r error
    · obtain ⟨r, error, hfailed⟩ := hfails
      obtain ⟨-, hgiven⟩ := hgives hsplit hfailed
      refine hgiven.spares (hintact before e after hsplit r error hfailed) ?_
      rintro rfl
      refine hkept error ?_
      rw [resolutions_concat]
      exact List.mem_append_right _ hfailed
    · obtain ⟨hregistry, hcloses⟩ := keeps_of_not_failed hmoves
        fun r error hfailed => hfails ⟨r, error, hfailed⟩
      exact ⟨hcloses f, fun name => by rw [hregistry]⟩

/-- A send waits for a connection when another one with its id is registered; then the connection
that it waits for cannot be read. -/
def replaced : List Event :=
  [.connect { id := "a", isOpen := true }, .connect { id := "a", isOpen := true }, .register 0,
    .send [1], .move 0 0, .move 0 0, .move 0 0, .move 0 0, .register 1,
    .occur 0 (.arrive [.failure .closedByPeer]), .move 0 0]

theorem course_replaced : Along apply Provides (beginning true) replaced := by
  refine ⟨nofun, nofun, ?_, nofun, nofun, nofun, nofun, nofun, ?_, nofun, nofun, trivial⟩
  all_goals
    rintro r ⟨⟩
    decide

/-- The one that was registered meanwhile is closed and unregistered. -/
theorem losing_replaced : Losing 0 (beginning true) replaced ∧
    (List.range 2).map (fun r => (((beginning true).applyAll replaced).wire.conn r).closes) = [0, 1]
      ∧ ((beginning true).applyAll replaced).sender.registry.entries = [] :=
  ⟨losing_of_course true replaced 0 course_replaced, rfl, rfl⟩

/-- The one that cannot be read stays open, so failed reads are not confined in every run. -/
theorem not_confined_replaced : ¬∀ events, Along apply Provides (beginning true) events →
    ∀ place, Confined place (beginning true) events := by
  intro hall
  have hends := (hall replaced course_replaced 0).ends replaced.dropLast (.move 0 0) [] rfl 0
    .closedByPeer (List.mem_singleton_self _)
  cases hends.1

end Pipeline

end BlockFeed
