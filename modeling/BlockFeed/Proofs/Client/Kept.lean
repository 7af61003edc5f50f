import BlockFeed.Proofs.Client.Slot

/-!
# Kept clients

What the activities of a client keep up together: they take turns with the slot, every connection
that is open is somebody's to close, and the client is closed once.

## Main definitions

* `Client.Orderly`: the line for the slot, and who has it.
* `Client.Named`: connections are told apart by their ids, and registered under them.
* `Client.Accounted`: an open connection is in the slot, or somebody has still to close it.
* `Client.Vacated`, `Client.Closing`: how far closing has got.
* `Client.Kept`: all of these.

## Main results

* `Client.Kept.step`: every step leaves a client kept.
* `Client.Kept.link`, `Client.Kept.fail`: so does the end of a dial.

## Design notes

How the activities stand to the slot is a function of their places, and a step changes it at one
place. A connection that is open is in the slot, or somebody has taken it out and has still to close
it. So when nobody has, and the slot is empty, no connection is open. Whoever closes the client
empties the slot only when nobody has a dial out, for that one would have the slot.
-/

namespace BlockFeed

/-- Whatever is registered meanwhile, the slot stays, and the next in line has it. -/
theorem Obtain.finish_frame (register : Bool) (r : Ref) (c : Client) (w : Wire) :
    c.Alike (finish register r c w).1 ∧ (finish register r c w).1.slot = c.slot ∧
      (finish register r c w).1.line = c.line.tail := by
  rw [finish]
  split
  · rw [Client.register]
    split <;> exact ⟨⟨rfl, rfl, rfl, rfl, fun _ => ⟨rfl, rfl⟩⟩, rfl, rfl⟩
  · exact ⟨⟨rfl, rfl, rfl, rfl, fun _ => ⟨rfl, rfl⟩⟩, rfl, rfl⟩

theorem Discard.spares_drop (r : Ref) (c : Client) (w : Wire) : c.Spares (drop r c w).1 := by
  rw [drop]
  split
  · split <;> exact .refl c
  · next heq =>
    have hkeeps := c.sender.keeps_closeAndRemove w (w.conn r).id
    rw [heq] at hkeeps
    exact ⟨⟨rfl, rfl, rfl, hkeeps.cancel, fun _ => ⟨rfl, rfl⟩⟩, rfl, rfl, hkeeps.entries.subset⟩

theorem ClientClose.not_open_of_emptySlot {c : Client} {w : Wire} {r : Ref}
    (hr : r < w.connections.length) (hslot : c.slot = some r) :
    ((emptySlot c w).2.conn r).isOpen = false := by
  rw [emptySlot, hslot]
  dsimp only
  split
  · exact Wire.not_open_of_close hr
  · next hshut => exact Bool.eq_false_iff.mpr hshut

namespace Exchange

theorem length_link (w : Wire) (near far : Connection) :
    (link w near far).2.connections.length = w.connections.length + 1 + 1 := by
  change ((w.add near).1.add far).1.connections.length = _
  rw [Wire.length_add, Wire.length_add]

theorem conn_link (w : Wire) (near far : Connection) (r : Ref) : (link w near far).2.conn r =
    if r = w.connections.length + 1 then far
    else if r = w.connections.length then near else w.conn r := by
  change ((w.add near).1.add far).1.conn r = _
  rw [Wire.conn_add, Wire.conn_add, Wire.length_add]

/-- Of the near ends, one is new. -/
theorem conn_link_of_near {w : Wire} (paired : Near w.connections.length) (near far : Connection)
    {r : Ref} (hr : Near r) : (r = w.connections.length ∧ (link w near far).2.conn r = near) ∨
      ((r < w.connections.length ↔ r < w.connections.length + 1 + 1) ∧
        (link w near far).2.conn r = w.conn r) := by
  have hne : r ≠ w.connections.length + 1 := fun heq => paired.not_next (heq ▸ hr)
  rw [conn_link, if_neg hne]
  by_cases heq : r = w.connections.length
  · exact .inl ⟨heq, if_pos heq⟩
  · refine .inr ⟨⟨fun hlt => Nat.lt_succ_of_lt (Nat.lt_succ_of_lt hlt), fun hlt => ?_⟩, if_neg heq⟩
    exact Nat.lt_of_le_of_ne
      (Nat.le_of_lt_succ (Nat.lt_of_le_of_ne (Nat.le_of_lt_succ hlt) hne)) heq

end Exchange

namespace Client

variable {me : Nat} {c c' : Client} {w w' : Wire} {a b : Stance} {st : Nat → Stance}

/-- The slot stays as it is, or is emptied. -/
theorem Step.slot (h : c.Step me w a c' w' b) : c'.slot = c.slot ∨ c'.slot = none := by
  cases h with
  | spare hspares => exact .inl hspares.slot
  | @find r register => exact .inl (Obtain.finish_frame register r c w).2.1
  | clear r =>
    split
    · exact .inr rfl
    · exact .inl rfl
  | drop r => exact .inl (Discard.spares_drop r c w).slot
  | empty => exact .inr rfl
  | join | enter | pause | dial | refuse | close | queue => exact .inl rfl

theorem Step.retry (h : c.Step me w a c' w' b) : c'.retry = c.retry := by
  cases h with
  | spare hspares => exact hspares.retry
  | @find r register => exact (Obtain.finish_frame register r c w).1.retry
  | clear r => split <;> rfl
  | drop r => exact (Discard.spares_drop r c w).retry
  | join | enter | pause | dial | refuse | close | queue | empty => rfl

theorem Step.slot_eq (h : c.Step me w a c' w' b) {r : Ref} (hr : c'.slot = some r) :
    c.slot = some r := by
  rcases h.slot with hsame | hnone
  · exact hsame ▸ hr
  · cases hnone.symm.trans hr

/-- No step opens a connection. -/
theorem Step.wanes (h : c.Step me w a c' w' b) : w.Wanes w' := by
  cases h with
  | spare _ hwanes => exact hwanes
  | drop r =>
    rw [Discard.drop]
    split
    · split
      · exact w.wanes_close r
      · exact .refl w
    · next heq =>
      have hwanes := c.sender.registry.wanes_closeAndRemove w (w.conn r).id
      have hwire : (c.sender.closeAndRemove w (w.conn r).id).2.2 =
          (c.sender.registry.closeAndRemove w (w.conn r).id).2.2 := rfl
      rw [heq] at hwire
      exact hwire ▸ hwanes
  | close => exact Registry.wanes_closeAll _ _
  | empty =>
    rw [ClientClose.emptySlot]
    dsimp only
    split
    · split
      · exact w.wanes_close _
      · exact .refl w
    · exact .refl w
  | join | find | enter | pause | dial | refuse | clear | queue => exact .refl w

/-- Only the connection in the slot comes to be registered, under its id. -/
theorem entries_register (c : Client) (w : Wire) {r : Ref} {e : String × Ref}
    (he : e ∈ (c.register w r).sender.registry.entries) :
    e ∈ c.sender.registry.entries ∨ e = ((w.conn r).id, r) := by
  rw [register] at he
  split at he
  · exact .inl he
  · rcases Registry.mem_add_iff.mp he with ⟨hid, hr⟩ | ⟨-, hold⟩
    · exact .inr (Prod.ext hid hr)
    · exact .inl hold

theorem entries_finish (register : Bool) (c : Client) (w : Wire) {r : Ref} {e : String × Ref}
    (he : e ∈ (Obtain.finish register r c w).1.sender.registry.entries) :
    e ∈ c.sender.registry.entries ∨ e = ((w.conn r).id, r) := by
  rw [Obtain.finish] at he
  split at he
  · exact c.entries_register w he
  · exact .inl he

theorem Step.entries (h : c.Step me w a c' w' b) {e : String × Ref}
    (he : e ∈ c'.sender.registry.entries) :
    e ∈ c.sender.registry.entries ∨ ∃ r, c.slot = some r ∧ e = ((w.conn r).id, r) := by
  cases h with
  | spare hspares => exact .inl (hspares.entries he)
  | @find r register _ hr =>
    exact (c.entries_finish register w he).imp_right fun heq => ⟨r, hr, heq⟩
  | clear r =>
    rw [release] at he
    split at he <;> exact .inl he
  | drop r => exact .inl ((Discard.spares_drop r c w).entries he)
  | close => exact .inl (Registry.entries_closeAll.subset he)
  | join | enter | pause | dial | refuse | queue | empty => exact .inl he

/-- The line for the slot holds those whose stances tell so, and whoever has it has found no open
connection in it. -/
structure Orderly (c : Client) (w : Wire) (st : Nat → Stance) : Prop where
  inTurn : InTurn c.line st Stance.InLine Stance.HasSlot
  vacant : ∀ q, (st q).HasSlot → ∀ r, c.slot = some r → (w.conn r).isOpen = false

/-- The near ends are told apart by their ids, and those in the slot and in the registry are such,
registered under their ids. -/
structure Named (c : Client) (w : Wire) : Prop where
  paired : Near w.connections.length
  ids : ∀ f g, Near f → Near g → f < w.connections.length → g < w.connections.length →
    (w.conn f).id = (w.conn g).id → f = g
  slot : ∀ r, c.slot = some r → Near r ∧ r < w.connections.length
  entries : ∀ e ∈ c.sender.registry.entries,
    Near e.2 ∧ e.2 < w.connections.length ∧ (w.conn e.2).id = e.1

/-- A near end that is open is in the slot, or somebody has still to close it. -/
def Accounted (c : Client) (w : Wire) (st : Nat → Stance) : Prop :=
  ∀ r, Near r → (w.conn r).isOpen = true → c.slot = some r ∨ ∃ q, st q = .drops r

/-- Closing has come to its end: the slot is empty, and nobody is going to fill it. -/
structure Vacated (c : Client) (st : Nat → Stance) : Prop where
  handlerCloses : c.handlerCloses = 1
  slot : c.slot = none
  stances : ∀ q, st q ≠ .dials ∧ ¬(st q).IsClosing

/-- How far closing has got. -/
structure Closing (c : Client) (st : Nat → Stance) : Prop where
  sender : c.sender.cancel.closed = c.cancel.closed
  receiver : c.receiver.cancel.closed = c.cancel.closed
  stays : ∀ past d, (c.receiver.handler past d).closes = false
  before : c.cancel.closed = false → c.handlerCloses = 0 ∧ ∀ q, ¬(st q).IsClosing
  /-- One activity is about to empty the slot, or it has done so. -/
  after : c.cancel.closed = true →
    (c.handlerCloses = 0 ∧ ∃ q, (st q).IsClosing ∧ ∀ q', (st q').IsClosing → q' = q) ∨
      c.Vacated st

theorem update_iff (P : Stance → Prop) (st : Nat → Stance) (b : Stance) {q : Nat} (hq : q ≠ me) :
    P (Function.update st me b q) ↔ P (st q) := by rw [Function.update_of_ne hq]

/-- A step leaves the line for the slot in order. -/
theorem Step.inTurn (hstep : c.Step me w (st me) c' w' b)
    (h : InTurn c.line st Stance.InLine Stance.HasSlot) :
    InTurn c'.line (Function.update st me b) Stance.InLine Stance.HasSlot := by
  have hfirst := h.first me
  generalize hst : st me = a at hstep hfirst
  cases hstep with
  | spare hspares => exact hspares.line ▸ h.stay (by rw [hst]) False.elim
  | join => exact h.join (by rw [hst]; exact id) trivial id
  | @find r register hhead =>
    rw [(Obtain.finish_frame register r c w).2.2]
    exact h.leave hhead id id
  | enter hhead => exact h.stay (by rw [hst]; exact Iff.rfl) fun _ => hhead
  | pause => exact h.stay (by rw [hst]) hfirst
  | dial => exact h.stay (by rw [hst]; exact Iff.rfl) hfirst
  | refuse => exact h.leave (hfirst trivial) id id
  | clear r hhead =>
    have hleave := h.leave (b := .drops r) hhead id id
    split <;> exact hleave
  | drop r =>
    rw [(Discard.spares_drop r c w).line]
    exact h.stay (by rw [hst]; exact Iff.rfl) False.elim
  | close => exact h.stay (by rw [hst]; exact Iff.rfl) False.elim
  | queue => exact h.join (by rw [hst]; exact id) trivial id
  | empty hhead => exact h.leave hhead id id

/-- Whoever has the slot after a step has found no open connection in it. -/
theorem Step.vacant (hstep : c.Step me w a c' w' b) (h : a.HasSlot → ∀ r, c.slot = some r →
    (w.conn r).isOpen = false) : b.HasSlot → ∀ r, c'.slot = some r → (w.conn r).isOpen = false := by
  cases hstep with
  | enter _ hshut => exact fun _ => hshut
  | pause | dial => exact fun _ => h trivial
  | spare | join | find | refuse | clear | drop | close | queue | empty => exact False.elim

theorem Orderly.step (h : c.Orderly w st) (hstep : c.Step me w (st me) c' w' b) :
    c'.Orderly w' (Function.update st me b) where
  inTurn := hstep.inTurn h.inTurn
  vacant q hq r hr := by
    refine hstep.wanes.shut ?_
    by_cases hme : q = me
    · subst hme
      rw [Function.update_self] at hq
      exact hstep.vacant (h.vacant q) hq r hr
    · rw [Function.update_of_ne hme] at hq
      exact h.vacant q hq r (hstep.slot_eq hr)

namespace Named

/-- What opens no connection and registers at most the one in the slot keeps all named. -/
theorem less (h : c.Named w) (wanes : w.Wanes w') (slot : ∀ r, c'.slot = some r → c.slot = some r)
    (entries : ∀ e ∈ c'.sender.registry.entries,
      e ∈ c.sender.registry.entries ∨ ∃ r, c.slot = some r ∧ e = ((w.conn r).id, r)) :
    c'.Named w' where
  paired := wanes.size.symm ▸ h.paired
  ids f g hf hg hlt hlt' heq := by
    rw [wanes.size] at hlt hlt'
    rw [wanes.id, wanes.id] at heq
    exact h.ids f g hf hg hlt hlt' heq
  slot r hr := wanes.size.symm ▸ h.slot r (slot r hr)
  entries e he := by
    rw [wanes.size, wanes.id]
    rcases entries e he with hold | ⟨r, hr, rfl⟩
    · exact h.entries e hold
    · exact ⟨(h.slot r hr).1, (h.slot r hr).2, rfl⟩

theorem step (h : c.Named w) (hstep : c.Step me w a c' w' b) : c'.Named w' :=
  h.less hstep.wanes (fun _ => hstep.slot_eq) fun _ => hstep.entries

end Named

/-- A connection that is given up is not open any more. -/
theorem not_open_of_drop (h : c.Named w) {r : Ref} (hnear : Near r)
    (hr : r < w.connections.length) : ((Discard.drop r c w).2.conn r).isOpen = false := by
  cases hget : c.sender.registry.get? (w.conn r).id with
  | none =>
    have hdrop : Discard.drop r c w =
        if (w.conn r).isOpen then (c, (w.close r).2) else (c, w) := by
      rw [Discard.drop, Sender.closeAndRemove, Registry.closeAndRemove_of_none hget]
    rw [hdrop]
    split
    · exact Wire.not_open_of_close hr
    · next hshut => exact Bool.eq_false_iff.mpr hshut
  | some q =>
    -- whatever is registered under its id is the connection itself
    obtain ⟨hqnear, hq, hid⟩ := h.entries _ (Table.mem_entries_iff.mpr hget)
    obtain rfl := h.ids q r hqnear hnear hq hr hid
    have hwire : (Discard.drop q c w).2 = (w.close q).2 := by
      rw [Discard.drop, Sender.closeAndRemove, Registry.closeAndRemove, hget]
      dsimp only
      generalize w.close q = closed
      obtain ⟨result, w₁⟩ := closed
      cases result <;> rfl
    rw [hwire]
    exact Wire.not_open_of_close hr

theorem Accounted.step (h : c.Accounted w st) (named : c.Named w)
    (hstep : c.Step me w (st me) c' w' b) : c'.Accounted w' (Function.update st me b) := by
  intro r hnear hopen'
  have hopen := hstep.wanes.isOpen r hopen'
  have hr : r < w.connections.length := by
    refine Nat.lt_of_not_le fun hle => ?_
    rw [Wire.conn_of_le hle] at hopen
    cases hopen
  have hold := h r hnear hopen
  -- another one that drops it still does
  have hother {q : Nat} (hq : st q = .drops r) (hme : st me ≠ .drops r) :
      ∃ q, Function.update st me b q = .drops r := by
    refine ⟨q, (Function.update_of_ne ?_ _ _).trans hq⟩
    rintro rfl
    exact hme hq
  have hkeep (hslot : c'.slot = c.slot) (hme : st me ≠ .drops r) :
      c'.slot = some r ∨ ∃ q, Function.update st me b q = .drops r :=
    hold.imp (hslot.trans ·) fun ⟨_, hq⟩ => hother hq hme
  generalize hst : st me = a at hstep
  cases hstep with
  | spare hspares => exact hkeep hspares.slot (by simp [hst])
  | @find q register => exact hkeep (Obtain.finish_frame register q c w).2.1 (by simp [hst])
  | join | enter | pause | dial | refuse | close | queue => exact hkeep rfl (by simp [hst])
  | clear q =>
    by_cases hq : r = q
    · exact .inr ⟨me, by rw [hq, Function.update_self]⟩
    · rcases hold with hslot | ⟨q', hq'⟩
      · have hne : c.slot ≠ some q := fun heq => hq (Option.some.inj (hslot.symm.trans heq))
        exact .inl (by rw [if_neg hne]; exact hslot)
      · exact .inr (hother hq' (by simp [hst]))
  | drop q =>
    by_cases hq : r = q
    · subst hq
      rw [not_open_of_drop named hnear hr] at hopen'
      cases hopen'
    · exact hkeep (Discard.spares_drop q c w).slot (by simp [hst, Ne.symm hq])
  | empty =>
    rcases hold with hslot | ⟨q', hq'⟩
    · rw [ClientClose.not_open_of_emptySlot hr hslot] at hopen'
      cases hopen'
    · exact .inr (hother hq' (by simp [hst]))

namespace Closing

/-- What closes nothing, and does not belong to closing, leaves closing as far as it is. -/
theorem alike (h : c.Closing st) (halike : c.Alike c') (slot : c.Vacated st → c'.slot = none)
    (hst : ¬(st me).IsClosing) (hb : ¬b.IsClosing) (dials : b = .dials → c.cancel.closed = false) :
    c'.Closing (Function.update st me b) := by
  have hiff (q : Nat) : (Function.update st me b q).IsClosing ↔ (st q).IsClosing := by
    by_cases hq : q = me
    · subst hq
      rw [Function.update_self]
      exact iff_of_false hb hst
    · exact update_iff _ st b hq
  constructor
  · rw [halike.sender, halike.cancel, h.sender]
  · rw [(halike.receiver h.stays).1, halike.cancel, h.receiver]
  · rw [(halike.receiver h.stays).2]
    exact h.stays
  · rw [halike.cancel, halike.handlerCloses]
    intro hopen
    exact (h.before hopen).imp_right fun hnone q => (hiff q).not.mpr (hnone q)
  · rw [halike.cancel, halike.handlerCloses]
    intro hclosed
    rcases h.after hclosed with ⟨hzero, q, hq, hunique⟩ | hvacated
    · exact .inl ⟨hzero, q, (hiff q).mpr hq, fun q' hq' => hunique q' ((hiff q').mp hq')⟩
    · refine .inr ⟨halike.handlerCloses.trans hvacated.handlerCloses, slot hvacated, fun q => ?_⟩
      refine ⟨fun hdials => ?_, (hiff q).not.mpr (hvacated.stances q).2⟩
      by_cases hq : q = me
      · subst hq
        rw [Function.update_self] at hdials
        rw [dials hdials] at hclosed
        cases hclosed
      · rw [Function.update_of_ne hq] at hdials
        exact (hvacated.stances q).1 hdials

/-- If somebody is closing the client, it was closed, and nobody else is. -/
theorem of_isClosing (h : c.Closing st) (hst : (st me).IsClosing) : c.cancel.closed = true ∧
    c.handlerCloses = 0 ∧ ∀ q, (st q).IsClosing → q = me := by
  cases hclosed : c.cancel.closed with
  | false => exact absurd hst ((h.before hclosed).2 me)
  | true =>
    rcases h.after hclosed with ⟨hzero, q, hq, hunique⟩ | hvacated
    · obtain rfl := hunique me hst
      exact ⟨rfl, hzero, hunique⟩
    · exact absurd hst (hvacated.stances me).2

theorem step (h : c.Closing st) (orderly : c.Orderly w st) (hstep : c.Step me w (st me) c' w' b) :
    c'.Closing (Function.update st me b) := by
  have hslot (hvacated : c.Vacated st) : c'.slot = none :=
    hstep.slot.elim (·.trans hvacated.slot) id
  have hclosing (hst : (st me).IsClosing) := h.of_isClosing hst
  generalize hst : st me = a at hstep hclosing
  have hnot (ha : ¬a.IsClosing) : ¬(st me).IsClosing := hst ▸ ha
  cases hstep with
  | spare hspares => exact h.alike hspares.toAlike hslot (hnot id) id nofun
  | join | refuse =>
    exact h.alike ⟨rfl, rfl, rfl, rfl, fun _ => ⟨rfl, rfl⟩⟩ hslot (hnot id) id nofun
  | clear r =>
    refine h.alike ?_ hslot (hnot id) id nofun
    split <;> exact ⟨rfl, rfl, rfl, rfl, fun _ => ⟨rfl, rfl⟩⟩
  | @find r register =>
    exact h.alike (Obtain.finish_frame register r c w).1 hslot (hnot id) id nofun
  | enter | pause => exact h.alike (.refl c) hslot (hnot id) id nofun
  | dial hopen => exact h.alike (.refl c) hslot (hnot id) id fun _ => hopen
  | drop r => exact h.alike (Discard.spares_drop r c w).toAlike hslot (hnot id) id nofun
  | close hopen =>
    obtain ⟨hzero, hnone⟩ := h.before hopen
    refine ⟨rfl, rfl, h.stays, nofun, fun _ => .inl ⟨hzero, me, ?_, fun q hq => ?_⟩⟩
    · rw [Function.update_self]
      trivial
    · by_contra hme
      exact hnone q ((update_iff _ st _ hme).mp hq)
  | queue =>
    obtain ⟨hclosed, hzero, hunique⟩ := hclosing trivial
    refine ⟨h.sender, h.receiver, h.stays,
      fun hopen => absurd hclosed (Bool.eq_false_iff.mp hopen), fun _ => .inl ⟨hzero, me, ?_, ?_⟩⟩
    · rw [Function.update_self]
      trivial
    · intro q hq
      by_contra hme
      exact hme (hunique q ((update_iff _ st _ hme).mp hq))
  | empty hhead =>
    obtain ⟨hclosed, hzero, hunique⟩ := hclosing trivial
    refine ⟨h.sender, h.receiver, h.stays,
      fun hopen => absurd hclosed (Bool.eq_false_iff.mp hopen),
      fun _ => .inr ⟨?_, rfl, fun q => ?_⟩⟩
    · exact congrArg Nat.succ hzero
    · by_cases hq : q = me
      · rw [hq, Function.update_self]
        exact ⟨nofun, id⟩
      · rw [Function.update_of_ne hq]
        refine ⟨fun hdials => ?_, fun hq' => hq (hunique q hq')⟩
        -- whoever has a dial out is the first in line as well
        have hfirst := orderly.inTurn.first q (by rw [hdials]; trivial)
        exact hq (Option.some.inj (hfirst.symm.trans hhead))

end Closing

/-- The line for the slot, the connection in it, and how far closing has got fit the stances of all
activities. -/
structure Kept (c : Client) (w : Wire) (st : Nat → Stance) : Prop where
  orderly : c.Orderly w st
  named : c.Named w
  accounted : c.Accounted w st
  closing : c.Closing st

namespace Kept

theorem step (h : c.Kept w st) (hstep : c.Step me w (st me) c' w' b) :
    c'.Kept w' (Function.update st me b) where
  orderly := h.orderly.step hstep
  named := h.named.step hstep
  accounted := h.accounted.step h.named hstep
  closing := h.closing.step h.orderly hstep

/-- What happens to the connections alone leaves a client kept. -/
theorem wane (h : c.Kept w st) (wanes : w.Wanes w') : c.Kept w' st where
  orderly := ⟨h.orderly.inTurn, fun q hq r hr => wanes.shut (h.orderly.vacant q hq r hr)⟩
  named := h.named.less wanes (fun _ hr => hr) fun _ he => .inl he
  accounted r hnear hopen := h.accounted r hnear (wanes.isOpen r hopen)
  closing := h.closing

/-- A dial that has failed is followed by a pause. -/
theorem fail (h : c.Kept w st) (hst : st me = .dials) :
    c.Kept w (Function.update st me .holds) where
  orderly := by
    refine ⟨h.orderly.inTurn.stay (by rw [hst]; exact Iff.rfl) fun _ =>
      h.orderly.inTurn.first me (by rw [hst]; trivial), fun q hq => h.orderly.vacant q ?_⟩
    by_cases hme : q = me
    · rw [hme, hst]
      trivial
    · rwa [Function.update_of_ne hme] at hq
  named := h.named
  accounted r hnear hopen := by
    refine (h.accounted r hnear hopen).imp_right fun ⟨q, hq⟩ => ⟨q, ?_⟩
    refine (Function.update_of_ne ?_ _ _).trans hq
    rintro rfl
    cases hst.symm.trans hq
  closing := h.closing.alike (.refl c) (·.slot) (by rw [hst]; exact id) id nofun

/-- A dial that has succeeded is followed by the use of the connection, which takes the slot. -/
theorem link (h : c.Kept w st) (hst : st me = .dials) {near : Connection}
    (fresh : ∀ f, Near f → f < w.connections.length → (w.conn f).id ≠ near.id) (far : Connection)
    (register : Bool) :
    (Obtain.finish register (Exchange.link w near far).1
      { c with slot := some (Exchange.link w near far).1 } (Exchange.link w near far).2).1.Kept
        (Exchange.link w near far).2 (Function.update st me .aside) := by
  have hlength := Exchange.length_link w near far
  have hnear {f : Ref} (hf : Near f) := Exchange.conn_link_of_near h.named.paired near far hf
  have hfst : (Exchange.link w near far).1 = w.connections.length := rfl
  rw [hfst]
  generalize (Exchange.link w near far).2 = w' at *
  obtain ⟨⟨hretry, hcloses, hcancel, hsender, hreceiver⟩, hslot, hline⟩ :=
    Obtain.finish_frame register w.connections.length
      { c with slot := some w.connections.length } w'
  have hentries {e : String × Ref} := entries_finish register
    { c with slot := some w.connections.length } w' (r := w.connections.length) (e := e)
  generalize (Obtain.finish register w.connections.length
    { c with slot := some w.connections.length } w').1 = c' at *
  have hhead := h.orderly.inTurn.first me (by rw [hst]; trivial)
  have hlonger : w.connections.length < w'.connections.length := by omega
  refine ⟨⟨?_, fun q hq => ?_⟩, ⟨?_, ?_, fun r hr => ?_, fun e he => ?_⟩, fun r hr hopen => ?_, ?_⟩
  · rw [hline]
    exact h.orderly.inTurn.leave hhead id id
  · -- nobody else had the slot
    by_cases hme : q = me
    · subst hme
      rw [Function.update_self] at hq
      exact hq.elim
    · rw [Function.update_of_ne hme] at hq
      exact absurd (Option.some.inj ((h.orderly.inTurn.first q hq).symm.trans hhead)) hme
  · rw [hlength]
    exact h.named.paired.link
  · intro f g hf hg hlt hlt' heq
    rw [hlength] at hlt hlt'
    rcases hnear hf with ⟨rfl, hf'⟩ | ⟨hfold, hf'⟩ <;>
      rcases hnear hg with ⟨rfl, hg'⟩ | ⟨hgold, hg'⟩
    · rfl
    · rw [hf', hg'] at heq
      exact absurd heq.symm (fresh g hg (hgold.mpr hlt'))
    · rw [hf', hg'] at heq
      exact absurd heq (fresh f hf (hfold.mpr hlt))
    · rw [hf', hg'] at heq
      exact h.named.ids f g hf hg (hfold.mpr hlt) (hgold.mpr hlt') heq
  · obtain rfl := Option.some.inj (hslot.symm.trans hr)
    exact ⟨h.named.paired, hlonger⟩
  · rcases hentries he with hold | rfl
    · obtain ⟨he, hlt, hid⟩ := h.named.entries e hold
      refine ⟨he, Nat.lt_trans hlt hlonger, ?_⟩
      rcases hnear he with ⟨heq, -⟩ | ⟨-, hsame⟩
      · exact absurd heq (Nat.ne_of_lt hlt)
      · rw [hsame, hid]
    · exact ⟨h.named.paired, hlonger, rfl⟩
  · rcases hnear hr with ⟨rfl, -⟩ | ⟨-, hsame⟩
    · exact .inl hslot
    · rw [hsame] at hopen
      rcases h.accounted r hr hopen with hslot' | ⟨q, hq⟩
      · rw [h.orderly.vacant me (by rw [hst]; trivial) r hslot'] at hopen
        cases hopen
      · refine .inr ⟨q, (Function.update_of_ne ?_ _ _).trans hq⟩
        rintro rfl
        cases hst.symm.trans hq
  · exact h.closing.alike ⟨hretry, hcloses, hcancel, hsender, hreceiver⟩
      (fun hvacated => absurd hst (hvacated.stances me).1) (by rw [hst]; exact id) id nofun

end Kept

end Client

end BlockFeed
