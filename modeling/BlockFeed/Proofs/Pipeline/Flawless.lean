import BlockFeed.Proofs.Link.Channel
import BlockFeed.Proofs.Pipeline.Spread

/-!
# Flawless pipelines

A pipeline whose sender and receivers are linked over connections that do not fail, while nothing
but reports and time comes from outside.

## Main definitions

* `Pipeline.Event.Routine`: a step of an activity, or a report that can be sent, or time.
* `Pipeline.Flawless`: how a pipeline over certain links can be in the course of such events.

## Main results

* `Pipeline.Flawless.apply`: such events leave a pipeline flawless.
* `Pipeline.Flawless.complete`: if nothing can move, every send has succeeded, and every receiver
  was handed the whole ledger.
-/

namespace BlockFeed

namespace Channel

variable {w w' : Wire} {ack : Bool} {c d : Link} {r q q' : Receiver} {l k k' : Listen}

theorem still_read (h : Channel w ack c r l) {f : Ref} {result : Except ConnectionError Bytes}
    (hread : w.read? f = some (result, w')) (hf : c.far ≠ f) : Channel w' ack c r l :=
  h.still (Wire.keeps_read hread) (Wire.logs_read hread) (Wire.sturdy_read h.sturdy hread) rfl rfl
    rfl (Wire.only_of_ne hf _)

/-- What arrives at another link does not matter. -/
theorem still_write (h : Channel w ack c r l) (mute : w.Mute) {f g : Ref} {bytes : Bytes}
    (hw : w.write f bytes = (.ok (), w')) (hpeer : w.peer? f = some g) (hf : c.near ≠ f)
    (hnear : c.near ≠ g) (hfar : c.far ≠ g) : Channel w' ack c r l := by
  have hnone {e : Ref} (he : e ≠ g) : w.arrivals f bytes e = [] := by
    refine if_neg ?_
    rintro ⟨heq, -⟩
    exact he (Option.some.inj (heq.symm.trans hpeer))
  exact h.still (Wire.brings_of_write mute hw) (Wire.logs_write hw) (Wire.sturdy_write h.sturdy hw)
    (hnone hnear) (hnone hfar) (Wire.only_of_ne hf _) rfl

/-- Nothing changes for a link if the receiver of another takes a step. -/
theorem aside (h : Channel w ack c r l) (mute : w.Mute) (hd : Channel w ack d q k)
    (apart : c.Apart d) (hk : Listen.Advance ack q w k q' w' k') : Channel w' ack c r l := by
  cases hk with
  | begin | conclude | withhold => exact h
  | handOver _ hread => exact h.still_read hread (hd.conn ▸ apart.far)
  | acknowledge _ hw =>
    rw [hd.conn] at hw
    exact h.still_write mute hw hd.back apart.there apart.near apart.back

end Channel

theorem Link.Apart.symm {c d : Link} (h : c.Apart d) : d.Apart c :=
  ⟨h.near.symm, h.far.symm, h.back.symm, h.there.symm, h.receiver.symm⟩

theorem Link.apart_of_ne {links : List Link} (h : links.Pairwise Link.Apart) {i j : Nat}
    {c d : Link} (hi : links[i]? = some c) (hj : links[j]? = some d) (hne : i ≠ j) :
    c.Apart d := by
  obtain ⟨hilt, rfl⟩ := List.getElem?_eq_some_iff.mp hi
  obtain ⟨hjlt, rfl⟩ := List.getElem?_eq_some_iff.mp hj
  rcases Nat.lt_or_gt_of_ne hne with hlt | hgt
  · exact List.pairwise_iff_getElem.mp h i j hilt hjlt hlt
  · exact (List.pairwise_iff_getElem.mp h j i hjlt hilt hgt).symm

namespace Wire

variable {w w' : Wire}

theorem acceptances_of_read {r : Ref} {result : Except ConnectionError Bytes}
    (h : w.read? r = some (result, w')) : w.acceptances w' = [] := by
  rw [acceptances, news_eq_nil (logs_read h).size (written_of_read h)]
  rfl

theorem acceptances_of_write {r : Ref} {bytes : Bytes} (h : w.write r bytes = (.ok (), w')) :
    w.acceptances w' = [⟨r, bytes, (w.conn r).messages.length⟩] := by
  rw [acceptances, news_written h]
  rfl

theorem acceptances_self (w : Wire) : w.acceptances w = [] := by
  rw [acceptances, news_eq_nil rfl fun _ => rfl]
  rfl

/-- Whatever frame has been accepted was accepted at the near end of a link, where no more
acknowledgments had arrived then than frames had been accepted. -/
def Orderly (w : Wire) (links : List Link) (acc : List Acceptance) : Prop :=
  ∀ a ∈ acc, (∃ counter, a.bytes = Ack.encode counter) ∨
    ∃ c ∈ links, a.conn = c.near ∧
      ∃ m, (w.conn c.near).written[m]? = some a.bytes ∧ a.arrived ≤ m

namespace Orderly

variable {links : List Link} {acc : List Acceptance}

theorem append {more : List Acceptance} (h : w.Orderly links acc)
    (grows : ∀ f, (w.conn f).written <+: (w'.conn f).written) (hmore : w'.Orderly links more) :
    w'.Orderly links (acc ++ more) := by
  intro a ha
  rcases List.mem_append.mp ha with hold | hnew
  · refine (h a hold).imp_right ?_
    rintro ⟨c, hc, hconn, m, hm, harrived⟩
    obtain ⟨more, hmore⟩ := grows c.near
    refine ⟨c, hc, hconn, m, ?_, harrived⟩
    rw [← hmore, List.getElem?_append_left (List.getElem?_eq_some_iff.mp hm).1, hm]
  · exact hmore a hnew

theorem self (h : w.Orderly links acc) : w.Orderly links (acc ++ w.acceptances w) := by
  rw [acceptances_self, List.append_nil]
  exact h

/-- Reading accepts nothing. -/
theorem read {r : Ref} {result : Except ConnectionError Bytes} (h : w.Orderly links acc)
    (hr : w.read? r = some (result, w')) : w'.Orderly links (acc ++ w.acceptances w') := by
  rw [acceptances_of_read hr]
  have hsame (f : Ref) : (w.conn f).written <+: (w'.conn f).written :=
    (written_of_read hr f).symm ▸ List.prefix_refl _
  exact h.append hsame nofun

/-- It is enough that the message that is written is accepted in order. -/
theorem write {r : Ref} {bytes : Bytes} (h : w.Orderly links acc)
    (hw : w.write r bytes = (.ok (), w'))
    (hone : w'.Orderly links [⟨r, bytes, (w.conn r).messages.length⟩]) :
    w'.Orderly links (acc ++ w.acceptances w') := by
  rw [acceptances_of_write hw]
  refine h.append (fun f => ?_) hone
  rw [written_of_write hw]
  exact List.prefix_append _ _

end Orderly

end Wire

namespace Pipeline

/-- A step of an activity, or a report with data that can be enveloped, or time. -/
def Event.Routine : Event → Prop
  | .move .. | .elapse _ => True
  | .report m r => ∃ data, r.data m = .ok data ∧ data.length < UInt32.size
  | _ => False

theorem Event.Routine.calm {e : Event} (h : e.Routine) : e.Calm := by
  cases e with
  | move | elapse | report => trivial
  | connect | join | occur | disconnect | register | unregister | removeClosed | closeAll
  | closeSender | send | attach | listen | closeReceiver => exact h.elim

/-- Only moves change the sender, the connections and the receivers. -/
theorem same_of_routine {p : Pipeline} {e : Event} (h : e.Routine)
    (he : ∀ place pick, e ≠ .move place pick) :
    (p.apply e).sender = p.sender ∧ (p.apply e).wire = p.wire ∧
      (p.apply e).receivers = p.receivers := by
  cases e with
  | move place pick => exact absurd rfl (he place pick)
  | elapse => exact ⟨rfl, rfl, rfl⟩
  | report m r =>
    rw [apply]
    split <;> exact ⟨rfl, rfl, rfl⟩
  | connect | join | occur | disconnect | register | unregister | removeClosed | closeAll
  | closeSender | send | attach | listen | closeReceiver => exact h.elim

/-- The sender is registered with the near ends of links over which nothing fails, each of which is
read by a receiver of its own, and nobody else does anything there. -/
structure Flawless (p : Pipeline) (links : List Link) (log : Ledger) (acc : List Acceptance) :
    Prop extends p.Steady acc, p.Spread log where
  mute : p.wire.Mute
  disjoint : links.Pairwise Link.Apart
  nears : ∀ r, r ∈ p.sender.registry.entries.map Prod.snd ↔ r ∈ links.map Link.near
  channels : ∀ (k : Nat) (c : Link), links[k]? = some c → ∃ r l, p.receivers[c.receiver]? = some r ∧
    p.activities[k]? = some (.listen c.receiver l) ∧
    Channel p.wire p.sender.withAcknowledge c r l
  listens : ∀ (k i : Nat) (l : Listen), p.activities[k]? = some (.listen i l) → k < links.length
  orderly : p.wire.Orderly links acc

namespace Flawless

variable {p : Pipeline} {links : List Link} {log : Ledger} {acc : List Acceptance}

section Send

variable {place pick : Nat} {x x' : Send} {sender : Sender} {wire : Wire}

/-- A step of a send reads at the near end of a link, or writes its frame there, or does nothing at
the connections. -/
theorem effect (h : p.Flawless links log acc) (hx : p.activities[place]? = some (.send x))
    (hmove : Send.Move place pick p.sender p.wire x sender wire x') :
    wire = p.wire ∨
      (∃ (k : Nat) (c : Link) (bytes : Bytes),
        links[k]? = some c ∧ p.wire.read? c.near = some (.ok bytes, wire)) ∨
      ∃ (k : Nat) (c : Link) (d : Delivery), links[k]? = some c ∧
        p.wire.write c.near (d.frame p.sender.withAcknowledge) = (.ok (), wire) := by
  have hsteady := h.steady place x (sendAt?_eq_some.mpr hx)
  have hlink {c : String × Ref} (hc : c ∈ p.sender.registry.entries) :
      ∃ (k : Nat) (d : Link), links[k]? = some d ∧ d.near = c.2 := by
    obtain ⟨d, hd, heq⟩ := List.mem_map.mp ((h.nears c.2).mp (List.mem_map_of_mem hc))
    obtain ⟨k, hk⟩ := List.mem_iff_getElem?.mp hd
    exact ⟨k, d, hk, heq⟩
  have hread {counter : UInt64} {waits : List AckWait} {a : AckWait} {bytes : Bytes}
      (hp : x.phase = .waiting counter waits []) (ha : waits[pick]? = some a)
      (hr : p.wire.read? a.conn = some (.ok bytes, wire)) :
      ∃ (k : Nat) (c : Link) (bytes : Bytes),
        links[k]? = some c ∧ p.wire.read? c.near = some (.ok bytes, wire) := by
    obtain ⟨k, d, hk, heq⟩ := hlink (hsteady.mem_of_waiting hp (List.mem_of_getElem? ha))
    exact ⟨k, d, bytes, hk, heq ▸ hr⟩
  cases hmove.advance hsteady h.isOpen h.registered h.sturdy with
  | enqueue | start | await | succeed => exact .inl rfl
  | @write counter id r rest written _ hp hw =>
    obtain ⟨k, d, hk, heq⟩ := hlink (hsteady.mem_of_writing hp)
    exact .inr (.inr ⟨k, d, ⟨x.payload, counter⟩, hk, heq ▸ hw⟩)
  | ignore hp ha _ hr | acknowledge hp ha _ hr | complete hp ha _ hr =>
    exact .inr (.inl (hread hp ha hr))

theorem registry_of_move (h : p.Flawless links log acc)
    (hx : p.activities[place]? = some (.send x))
    (hmove : Send.Move place pick p.sender p.wire x sender wire x') :
    sender.registry = p.sender.registry := by
  have hsteady := h.steady place x (sendAt?_eq_some.mpr hx)
  exact ((hmove.advance hsteady h.isOpen h.registered h.sturdy).steady hsteady).1

theorem channels_send (h : p.Flawless links log acc) (hx : p.activities[place]? = some (.send x))
    (hmove : Send.Move place pick p.sender p.wire x sender wire x') :
    ∀ (k : Nat) (c : Link), links[k]? = some c → ∃ r l, p.receivers[c.receiver]? = some r ∧
      (p.activities.set place (.send x'))[k]? = some (.listen c.receiver l) ∧
      Channel wire sender.withAcknowledge c r l := by
  intro k c hk
  obtain ⟨r, l, hr, hl, hchannel⟩ := h.channels k c hk
  have hplace : place ≠ k := by
    rintro rfl
    cases hx.symm.trans hl
  refine ⟨r, l, hr, (List.getElem?_set_ne hplace).trans hl, ?_⟩
  rw [hmove.settings.1]
  -- the send is at the near end of some link, which may be this one
  rcases h.effect hx hmove with rfl | ⟨k', d, _, hk', hread⟩ | ⟨k', d, _, hk', hw⟩
  · exact hchannel
  · refine hchannel.still_read hread ?_
    by_cases hkk : k = k'
    · obtain rfl := Option.some.inj ((hkk ▸ hk).symm.trans hk')
      exact hchannel.ends.symm
    · exact (Link.apart_of_ne h.disjoint hk hk' hkk).back
  · by_cases hkk : k = k'
    · obtain rfl := Option.some.inj ((hkk ▸ hk).symm.trans hk')
      exact hchannel.write h.mute hw
    · obtain ⟨_, _, _, _, hother⟩ := h.channels k' d hk'
      have hapart := Link.apart_of_ne h.disjoint hk hk' hkk
      exact hchannel.still_write h.mute hw hother.there hapart.near hapart.there hapart.far

theorem orderly_send (h : p.Flawless links log acc) (hx : p.activities[place]? = some (.send x))
    (hmove : Send.Move place pick p.sender p.wire x sender wire x') :
    wire.Orderly links (acc ++ p.wire.acceptances wire) ∧ wire.Mute := by
  rcases h.effect hx hmove with rfl | ⟨k, c, _, hk, hread⟩ | ⟨k, c, d, hk, hw⟩
  · exact ⟨h.orderly.self, h.mute⟩
  · exact ⟨h.orderly.read hread, (Wire.keeps_read hread).mute h.mute⟩
  · refine ⟨h.orderly.write hw fun a ha => ?_, (Wire.brings_of_write h.mute hw).mute h.mute⟩
    obtain rfl := List.mem_singleton.mp ha
    obtain ⟨_, _, _, _, hchannel⟩ := h.channels k c hk
    refine .inr ⟨c, List.mem_of_getElem? hk, rfl, _, ?_, hchannel.messages_le_written⟩
    rw [Wire.written_of_write hw, Wire.only, if_pos ⟨rfl, hchannel.near⟩]
    exact List.getElem?_concat_length

end Send

section Listen

variable {place i : Nat} {l l' : Listen} {r r' : Receiver} {wire : Wire}

/-- A reading is that of a link, and its step is what a reading does there. -/
theorem advance (h : p.Flawless links log acc) (hl : p.activities[place]? = some (.listen i l))
    (hr : p.receivers[i]? = some r) (hmove : Listen.Move p.now r p.wire l r' wire l') :
    ∃ c, links[place]? = some c ∧ c.receiver = i ∧
      Channel p.wire p.sender.withAcknowledge c r l ∧
      Listen.Advance p.sender.withAcknowledge r p.wire l r' wire l' := by
  have hlt := h.listens place i l hl
  refine ⟨links[place], List.getElem?_eq_getElem hlt, ?_⟩
  obtain ⟨r₀, l₀, hr₀, hl₀, hchannel⟩ := h.channels place _ (List.getElem?_eq_getElem hlt)
  obtain ⟨rfl, rfl⟩ := Activity.listen.inj (Option.some.inj (hl.symm.trans hl₀))
  obtain rfl := Option.some.inj (hr.symm.trans hr₀)
  refine ⟨rfl, hchannel, hmove.advance hchannel.steady hchannel.willing ?_ ?_⟩
  · rw [hchannel.conn]
    exact hchannel.sturdy
  · rw [hchannel.conn, hchannel.arrived]
    exact hchannel.frames

theorem channels_listen (h : p.Flawless links log acc)
    (hl : p.activities[place]? = some (.listen i l)) (hr : p.receivers[i]? = some r)
    (hmove : Listen.Move p.now r p.wire l r' wire l') :
    ∀ (k : Nat) (c : Link), links[k]? = some c → ∃ q m,
      (p.receivers.set i r')[c.receiver]? = some q ∧
      (p.activities.set place (.listen i l'))[k]? = some (.listen c.receiver m) ∧
      Channel wire p.sender.withAcknowledge c q m := by
  obtain ⟨d, hd, rfl, hchannel, hadvance⟩ := h.advance hl hr hmove
  intro k c hk
  by_cases hkk : place = k
  · subst hkk
    obtain rfl := Option.some.inj (hd.symm.trans hk)
    have hlt := (List.getElem?_eq_some_iff.mp hl).1
    have hi := (List.getElem?_eq_some_iff.mp hr).1
    exact ⟨r', l', List.getElem?_set_self hi, List.getElem?_set_self hlt,
      hchannel.advance h.mute hadvance⟩
  · obtain ⟨q, m, hq, hm, hother⟩ := h.channels k c hk
    have hapart := Link.apart_of_ne h.disjoint hd hk hkk
    exact ⟨q, m, (List.getElem?_set_ne hapart.receiver).trans hq,
      (List.getElem?_set_ne hkk).trans hm, hother.aside h.mute hchannel hapart.symm hadvance⟩

theorem orderly_listen (h : p.Flawless links log acc)
    (hl : p.activities[place]? = some (.listen i l)) (hr : p.receivers[i]? = some r)
    (hmove : Listen.Move p.now r p.wire l r' wire l') :
    wire.Orderly links (acc ++ p.wire.acceptances wire) ∧ wire.Mute := by
  obtain ⟨d, hd, rfl, hchannel, hadvance⟩ := h.advance hl hr hmove
  cases hadvance with
  | begin | conclude | withhold => exact ⟨h.orderly.self, h.mute⟩
  | handOver _ hread => exact ⟨h.orderly.read hread, (Wire.keeps_read hread).mute h.mute⟩
  | acknowledge _ hw =>
    refine ⟨h.orderly.write hw fun a ha => .inl ?_, (Wire.brings_of_write h.mute hw).mute h.mute⟩
    exact ⟨_, by rw [List.mem_singleton.mp ha]⟩

end Listen

/-- What happens besides moves leaves a pipeline flawless. -/
theorem around (h : p.Flawless links log acc) {e : Event} (routine : e.Routine)
    (he : ∀ place pick, e ≠ .move place pick) :
    (p.apply e).Flawless links (log ++ p.assigned e)
      (acc ++ p.wire.acceptances (p.apply e).wire) := by
  obtain ⟨hsender, hwire, hreceivers⟩ := same_of_routine (p := p) routine he
  obtain ⟨more, hmore, hnew⟩ := (aside_apply (p := p) he).activities
  refine { h.toSteady.apply routine.calm, h.toSpread.apply h.toSteady routine.calm with
    mute := hwire ▸ h.mute
    disjoint := h.disjoint
    nears := hsender ▸ h.nears
    channels := fun k c hk => ?_
    listens := fun k i l hl => ?_
    orderly := hwire ▸ h.orderly.self }
  · obtain ⟨r, l, hr, hl, hchannel⟩ := h.channels k c hk
    have hlt := (List.getElem?_eq_some_iff.mp hl).1
    rw [hsender, hwire, hreceivers, hmore, List.getElem?_append_left hlt]
    exact ⟨r, l, hr, hl, hchannel⟩
  · rw [hmore] at hl
    rcases Nat.lt_or_ge k p.activities.length with hlt | hge
    · rw [List.getElem?_append_left hlt] at hl
      exact h.listens k i l hl
    · rw [List.getElem?_append_right hge] at hl
      rcases hnew _ (List.mem_of_getElem? hl) with ⟨_, heq⟩ | ⟨_, heq⟩ | ⟨_, _, rfl, -⟩
      · cases heq
      · cases heq
      · exact routine.elim

/-- Such events leave a pipeline flawless. -/
theorem apply (h : p.Flawless links log acc) {e : Event} (routine : e.Routine) :
    (p.apply e).Flawless links (log ++ p.assigned e)
      (acc ++ p.wire.acceptances (p.apply e).wire) := by
  have hsteady := h.toSteady.apply routine.calm
  have hspread := h.toSpread.apply h.toSteady routine.calm
  by_cases he : ∃ place pick, e = .move place pick
  · obtain ⟨place, pick, rfl⟩ := he
    have hmoved := p.moved_apply place pick
    generalize p.assigned (.move place pick) = more at hspread ⊢
    generalize p.apply (.move place pick) = p' at hmoved hsteady hspread ⊢
    cases hmoved with
    | send hx hmove =>
      have hregistry := h.registry_of_move hx hmove
      obtain ⟨horderly, hmute⟩ := h.orderly_send hx hmove
      refine { hsteady, hspread with
        mute := hmute
        disjoint := h.disjoint
        nears := hregistry ▸ h.nears
        channels := h.channels_send hx hmove
        listens := fun k i l hl => ?_
        orderly := horderly }
      rcases getElem?_of_set hl with ⟨-, heq⟩ | ⟨-, hl⟩
      · cases heq
      · exact h.listens k i l hl
    | @listen i l l' _ _ _ hl hr hmove =>
      obtain ⟨horderly, hmute⟩ := h.orderly_listen hl hr hmove
      refine { hsteady, hspread with
        mute := hmute
        disjoint := h.disjoint
        nears := h.nears
        channels := h.channels_listen hl hr hmove
        listens := fun k j m hm => ?_
        orderly := horderly }
      rcases getElem?_of_set hm with ⟨rfl, -⟩ | ⟨-, hm⟩
      · exact h.listens k i l hl
      · exact h.listens k j m hm
    | stay =>
      exact { hsteady, hspread with
        mute := h.mute
        disjoint := h.disjoint
        nears := h.nears
        channels := h.channels
        listens := h.listens
        orderly := h.orderly.self }
  · exact h.around routine fun place pick heq => he ⟨place, pick, heq⟩

theorem applyAll (h : p.Flawless links log acc) {events : List Event}
    (routine : ∀ e ∈ events, e.Routine) :
    (p.applyAll events).Flawless links (log ++ p.ledger events) (acc ++ p.acceptances events) := by
  induction events generalizing p log acc with
  | nil =>
    rw [ledger, acceptances, collect, collect, List.append_nil, List.append_nil]
    exact h
  | cons e rest ih =>
    obtain ⟨hroutine, hrest⟩ := List.forall_mem_cons.mp routine
    rw [ledger, acceptances, collect, collect, ← List.append_assoc, ← List.append_assoc]
    exact ih (h.apply hroutine) hrest

/-- No reading begins to pause. -/
theorem unhurried (h : p.Flawless links log acc) (place : Nat) : ¬p.Hurries place := by
  rintro ⟨i, l, deadline, resume, hl, hp, -⟩
  have hlt := h.listens place i l hl
  obtain ⟨r₀, l₀, -, hl₀, hchannel⟩ := h.channels place _ (List.getElem?_eq_getElem hlt)
  obtain ⟨-, rfl⟩ := Activity.listen.inj (Option.some.inj (hl.symm.trans hl₀))
  have hsteady := hchannel.steady
  rw [Listen.Steady, hp] at hsteady
  exact hsteady

section Blocked

variable (blocked : Schedule.Blocked p)

include blocked

/-- When nothing can move, every link has been read to its end. -/
theorem finished (h : p.Flawless links log acc) {c : Link} (hc : c ∈ links) :
    ∃ r, p.receivers[c.receiver]? = some r ∧
      (p.wire.conn c.near).written = r.deliveries.map (·.frame p.sender.withAcknowledge) ∧
      (p.wire.conn c.near).messages = if p.sender.withAcknowledge then
        r.deliveries.map fun d => Ack.encode d.counter else [] := by
  obtain ⟨k, hk⟩ := List.mem_iff_getElem?.mp hc
  obtain ⟨r, l, hr, hl, hchannel⟩ := h.channels k c hk
  have hnone := (move_listen_eq_none_iff hl hr).mp (p.blocked_iff.mp blocked k 0)
  exact ⟨r, hr, hchannel.finished hnone⟩

/-- When nothing can move, every frame has been answered that asks for it. -/
theorem answers (h : p.Flawless links log acc) : p.wire.Answers acc := by
  intro a ha f hdec hreq
  rcases h.orderly a ha with ⟨counter, hack⟩ | ⟨c, hc, hconn, m, hm, harrived⟩
  · rw [hack, Frame.decode_ack] at hdec
    cases hdec
  · -- the frame at a position is answered at that position
    obtain ⟨r, -, hwritten, hmessages⟩ := h.finished blocked hc
    rw [hwritten, List.getElem?_map] at hm
    obtain ⟨d, hd, hframe⟩ := Option.map_eq_some_iff.mp hm
    rw [← hframe, Delivery.frame, Frame.decode_encode] at hdec
    obtain rfl := Except.ok.inj hdec
    have hack : p.sender.withAcknowledge = true := hreq
    rw [hack, if_pos rfl] at hmessages
    rw [hconn, hmessages]
    refine List.mem_iff_getElem?.mpr ⟨m - a.arrived, ?_⟩
    rw [List.getElem?_drop, Nat.add_sub_cancel' harrived, List.getElem?_map, hd]
    rfl

/-- When nothing can move, every send has succeeded, and every receiver was handed what was
assigned, in that order. -/
theorem complete (h : p.Flawless links log acc) :
    (∀ place x, p.sendAt? place = some x → x.phase = .done (.ok ())) ∧
      ∀ c ∈ links, ∃ r, p.receivers[c.receiver]? = some r ∧ r.deliveries = log.deliveries := by
  have hdone {place : Nat} {x : Send} (hx : p.sendAt? place = some x) : x.phase = .done (.ok ()) :=
    h.toSteady.complete (h.answers blocked) blocked hx
  refine ⟨fun place x hx => hdone hx, fun c hc => ?_⟩
  obtain ⟨r, hr, hwritten, -⟩ := h.finished blocked hc
  obtain ⟨d, hd, hnear⟩ := List.mem_map.mp ((h.nears c.near).mpr (List.mem_map_of_mem hc))
  have heven := h.even (fun place x hx => by simp [Send.Writing, hdone hx]) d hd
  rw [hnear, hwritten] at heven
  exact ⟨r, hr, (List.map_inj_right fun _ _ heq => Delivery.frame_injective _ heq).mp heven⟩

end Blocked

end Flawless

end Pipeline

end BlockFeed
