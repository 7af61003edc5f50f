import BlockFeed.Proofs.Server.Service

/-!
# Sound services

What is registered and tracked by a server fits how far the care for each connection has got.

## Main definitions

* `Server.Fits`: what a server has in hand fits the wire.
* `Accept.Kept`: what holds of a connection, by how far the care for it has got.
* `Service.Sound`: both hold, for all connections that were accepted.

## Main results

* `Accept.Kept.frame`: what is done to the connections of others leaves a connection kept.
* `Accept.Move.kept`: so does what is done to it.
* `Service.Sound.apply`: whatever happens, a service stays sound.

## Design notes

A connection whose care is over is either not open, or it is registered. So when nothing is
registered any more, none of them is open, whichever way the care for it has ended.
-/

namespace BlockFeed

namespace Server

/-- What a server has in hand fits the wire. -/
structure Fits (s : Server) (w : Wire) : Prop where
  /-- Connections are registered under their ids. -/
  named : ∀ c ∈ s.sender.registry.entries, c.2 < w.connections.length ∧ (w.conn c.2).id = c.1
  /-- Whatever id a receiver is tracked under is that of a connection. -/
  tracked : ∀ id i, s.tracked.get? id = some i → ∃ f < w.connections.length, (w.conn f).id = id
  closed : s.cancel.closed = true → s.sender.registry.entries = [] ∧ s.tracked = .empty
  retry : 0 < s.retry ∧ ∀ r ∈ s.receivers, 0 < r.retry

variable {s s' : Server} {w w' : Wire}

theorem Fits.exist (h : s.Fits w) : ∀ c ∈ s.sender.registry.entries, c.2 < w.connections.length :=
  fun c hc => (h.named c hc).1

/-- Whatever is registered or tracked less fits as well. -/
theorem Fits.less (h : s.Fits w) (wanes : w.Wanes w')
    (entries : s'.sender.registry.entries ⊆ s.sender.registry.entries)
    (tracked : ∀ id i, s'.tracked.get? id = some i → s.tracked.get? id = some i)
    (closed : s'.cancel.closed = true → s.cancel.closed = true ∧ s'.tracked = s.tracked)
    (retry : 0 < s'.retry ∧ ∀ r ∈ s'.receivers, 0 < r.retry) : s'.Fits w' where
  named c hc := by
    rw [wanes.size, wanes.id]
    exact h.named c (entries hc)
  tracked id i hi := by
    obtain ⟨f, hf, hid⟩ := h.tracked id i (tracked id i hi)
    exact ⟨f, wanes.size.symm ▸ hf, (wanes.id f).trans hid⟩
  closed hclosed := by
    obtain ⟨hold, hsame⟩ := closed hclosed
    obtain ⟨hempty, hnone⟩ := h.closed hold
    refine ⟨List.subset_nil.mp (hempty ▸ entries), hsame.trans hnone⟩
  retry := retry

end Server

theorem ServerSend.Move.wanes {me pick : Nat} {s s' : Server} {w w' : Wire} {x x' : ServerSend}
    (h : Move me pick s w x s' w' x') : w.Wanes w' := by
  cases h with
  | refuse | call => exact .refl w
  | send _ hmove | finish _ hmove => exact hmove.toll.wanes

theorem ServerSend.Move.entries {me pick : Nat} {s s' : Server} {w w' : Wire} {x x' : ServerSend}
    (h : Move me pick s w x s' w' x') :
    s'.sender.registry.entries.Sublist s.sender.registry.entries := by
  cases h with
  | refuse => exact List.Sublist.refl _
  | call => exact Registry.entries_removeClosed
  | send _ hmove => exact hmove.entries
  | finish _ hmove => exact Registry.entries_removeClosed.trans hmove.entries

theorem ServerSend.Move.fits {me pick : Nat} {s s' : Server} {w w' : Wire} {x x' : ServerSend}
    (h : Move me pick s w x s' w' x') (hfits : s.Fits w) : s'.Fits w' := by
  have hentries := h.entries.subset
  have hwanes := h.wanes
  obtain ⟨sender, rfl⟩ := h.server
  exact hfits.less hwanes hentries (fun _ _ hi => hi) (fun hclosed => ⟨hclosed, rfl⟩) hfits.retry

namespace Accept

/-- The connection is read by a receiver, which is tracked under its id unless the server was
closed: then the receiver is closed. -/
def ReadBy (s : Server) (w : Wire) (a : Accept) (i : Nat) : Prop :=
  ∃ r, s.receivers[i]? = some r ∧
    (s.cancel.closed = false → s.tracked.get? (w.conn a.conn).id = some i) ∧
    (s.cancel.closed = true → r.cancel.closed = true)

/-- What holds of a connection, by how far the care for it has got. -/
def Kept (s : Server) (w : Wire) (a : Accept) : Prop :=
  match a.phase with
  | .called | .stopped => s.tracked.get? (w.conn a.conn).id = none
  | .joined | .done => s.tracked.get? (w.conn a.conn).id = none ∧
      ((w.conn a.conn).isOpen = true →
        ((w.conn a.conn).id, a.conn) ∈ s.sender.registry.entries)
  | .tracked i => a.ReadBy s w i
  | .listening i l => a.ReadBy s w i ∧ l.conn = a.conn ∧ l.result? = none

variable {now : Nat} {s s' : Server} {w w' : Wire} {a a' : Accept}

theorem Kept.congr (h : a.Kept s w) (hconn : w'.conn a.conn = w.conn a.conn) : a.Kept s w' := by
  simp only [Kept, ReadBy, hconn] at h ⊢
  exact h

section Frame

variable (leaves : Registry.Leaves a.conn s.sender.registry w s'.sender.registry w')
  (tracks : s.Tracks (w.conn a.conn).id s')

include leaves tracks

theorem ReadBy.frame {i : Nat} (h : a.ReadBy s w i) : a.ReadBy s' w' i := by
  obtain ⟨r, hr, htracked, hreleased⟩ := h
  have hid := leaves.wanes.id a.conn
  cases hclosed : s.cancel.closed with
  | true =>
    obtain ⟨r', hr', hstays⟩ := tracks.receivers i r hr
    have hclosed' := tracks.cancel hclosed
    refine ⟨r', hr', fun hopen' => ?_, fun _ => hstays (hreleased hclosed)⟩
    rw [hclosed'] at hopen'
    cases hopen'
  | false =>
    cases hclosed' : s'.cancel.closed with
    | true =>
      obtain ⟨r', hr', hr'closed⟩ := tracks.releases hclosed hclosed' i r (htracked hclosed) hr
      refine ⟨r', hr', fun hopen' => ?_, fun _ => hr'closed⟩
      rw [hclosed'] at hopen'
      cases hopen'
    | false =>
      obtain ⟨r', hr', -⟩ := tracks.receivers i r hr
      refine ⟨r', hr', fun _ => ?_, fun hc => ?_⟩
      · rw [hid, tracks.tracked hclosed']
        exact htracked hclosed
      · rw [hclosed'] at hc
        cases hc

/-- What is done to other connections, or by closing the server, leaves a connection kept. -/
theorem Kept.frame (h : a.Kept s w) (fits' : s'.Fits w') : a.Kept s' w' := by
  have hid := leaves.wanes.id a.conn
  have hnone (hnone : s.tracked.get? (w.conn a.conn).id = none) :
      s'.tracked.get? (w'.conn a.conn).id = none := by
    cases hclosed' : s'.cancel.closed with
    | true =>
      rw [(fits'.closed hclosed').2]
      rfl
    | false => rw [hid, tracks.tracked hclosed', hnone]
  have hregistered (h : (w.conn a.conn).isOpen = true →
        ((w.conn a.conn).id, a.conn) ∈ s.sender.registry.entries)
      (hopen : (w'.conn a.conn).isOpen = true) :
      ((w'.conn a.conn).id, a.conn) ∈ s'.sender.registry.entries := by
    rw [hid]
    exact leaves.stays hopen (h (leaves.wanes.isOpen _ hopen))
  rw [Kept] at h ⊢
  split at h
  · exact hnone h
  · exact hnone h
  · exact ⟨hnone h.1, hregistered h.2⟩
  · exact ⟨hnone h.1, hregistered h.2⟩
  · exact h.frame leaves tracks
  · exact ⟨h.1.frame leaves tracks, h.2⟩

end Frame

theorem Move.wanes (h : Move now s w a s' w' a') : w.Wanes w' := by
  cases h with
  | dismiss => exact w.wanes_close a.conn
  | enlist | track | keep | listen => exact .refl w
  | withdraw => exact Registry.wanes_closeAndRemove _ _ _
  | read _ _ hmove | stop _ _ hmove => exact hmove.used.wanes
  | close =>
    split
    · exact w.wanes_close a.conn
    · exact .refl w

/-- The care for a connection keeps what the server has in hand fitting. -/
theorem Move.fits (h : Move now s w a s' w' a') (hconn : a.conn < w.connections.length)
    (hfits : s.Fits w) : s'.Fits w' := by
  have hset {i : Nat} {l l' : Listen} {r r' : Receiver} {w' : Wire}
      (hr : s.receivers[i]? = some r) (hmove : Listen.Move now r w l r' w' l') :
      ∀ q ∈ s.receivers.set i r', 0 < q.retry := by
    intro q hq
    rcases List.mem_or_eq_of_mem_set hq with hq | rfl
    · exact hfits.retry.2 q hq
    · rw [hmove.retry]
      exact hfits.retry.2 r (List.mem_of_getElem? hr)
  have hless {s' : Server} {w' : Wire} (wanes : w.Wanes w')
      (entries : s'.sender.registry.entries ⊆ s.sender.registry.entries)
      (tracked : s'.tracked = s.tracked) (cancel : s'.cancel = s.cancel)
      (retry : s'.retry = s.retry) (receivers : ∀ r ∈ s'.receivers, 0 < r.retry) : s'.Fits w' :=
    hfits.less wanes entries (fun _ _ hi => tracked ▸ hi) (fun hc => ⟨cancel ▸ hc, tracked⟩)
      ⟨retry ▸ hfits.retry.1, receivers⟩
  cases h with
  | dismiss =>
    exact hless (w.wanes_close a.conn) (List.Subset.refl _) rfl rfl rfl hfits.retry.2
  | enlist _ hopen =>
    refine ⟨fun c hc => ?_, hfits.tracked, fun hclosed => ?_, hfits.retry⟩
    · rcases Registry.mem_add_iff.mp hc with ⟨hid, hr⟩ | ⟨-, hold⟩
      · exact ⟨hr ▸ hconn, hr ▸ hid.symm⟩
      · exact hfits.named c hold
    · rw [hopen] at hclosed
      cases hclosed
  | track _ hopen =>
    refine ⟨hfits.named, fun id i hi => ?_, fun hclosed => ?_, hfits.retry.1, fun r hr => ?_⟩
    · rw [Accept.track, Table.get?_insert] at hi
      split at hi
      · next hid => exact ⟨a.conn, hconn, hid.symm⟩
      · exact hfits.tracked id i hi
    · rw [Accept.track, hopen] at hclosed
      cases hclosed
    · rcases List.mem_append.mp hr with hold | hnew
      · exact hfits.retry.2 r hold
      · rw [List.mem_singleton.mp hnew]
        exact hfits.retry.1
  | keep => exact hfits
  | withdraw =>
    exact hless (Registry.wanes_closeAndRemove _ _ _) (Registry.entries_closeAndRemove _).subset
      rfl rfl rfl hfits.retry.2
  | listen =>
    refine hless (.refl w) (List.Subset.refl _) rfl rfl rfl fun r hr => ?_
    dsimp only at hr
    split at hr
    · obtain ⟨j, hj⟩ := List.mem_iff_getElem?.mp hr
      rw [List.getElem?_modify] at hj
      obtain ⟨q, hq, rfl⟩ := Option.map_eq_some_iff.mp hj
      have hpos := hfits.retry.2 q (List.mem_of_getElem? hq)
      split <;> exact hpos
    · exact hfits.retry.2 r hr
  | read _ hr hmove =>
    exact hless hmove.used.wanes (List.Subset.refl _) rfl rfl rfl (hset hr hmove)
  | stop _ hr hmove =>
    refine hfits.less hmove.used.wanes (List.Subset.refl _) (fun id i hi => ?_) (fun hc => ⟨hc, ?_⟩)
      ⟨hfits.retry.1, hset hr hmove⟩
    · rw [Table.get?_erase] at hi
      split at hi
      · cases hi
      · exact hi
    · rw [(hfits.closed hc).2]
      rfl
  | close =>
    refine hless ?_ (List.Subset.refl _) rfl rfl rfl hfits.retry.2
    split
    · exact w.wanes_close a.conn
    · exact .refl w

/-- The care for a connection keeps it. -/
theorem Move.kept (h : Move now s w a s' w' a') (hconn : a.conn < w.connections.length)
    (hfits : s.Fits w) (hkept : a.Kept s w) : a'.Kept s' w' := by
  rw [Kept] at hkept
  cases h with
  | dismiss hp =>
    rw [hp] at hkept
    refine ⟨?_, fun hopen => absurd hopen (by simp [Wire.not_open_of_close hconn])⟩
    rw [(w.wanes_close a.conn).id]
    exact hkept
  | enlist hp =>
    rw [hp] at hkept
    exact ⟨hkept, fun _ => Registry.mem_add_iff.mpr (.inl ⟨rfl, rfl⟩)⟩
  | track hp hopen =>
    refine ⟨_, List.getElem?_concat_length, fun _ => ?_, fun hclosed => ?_⟩
    · exact (Table.get?_insert _ _ _ _).trans (if_pos rfl)
    · rw [Accept.track, hopen] at hclosed
      cases hclosed
  | keep hp =>
    rw [hp] at hkept
    exact hkept
  | withdraw hp hclosed =>
    rw [hp] at hkept
    have hempty := (hfits.closed hclosed).1
    have hwanes : w.Wanes (s.sender.closeAndRemove w (w.conn a.conn).id).2.2 :=
      Registry.wanes_closeAndRemove _ _ _
    refine ⟨?_, fun hopen => ?_⟩
    · rw [hwanes.id]
      exact hkept.1
    · have hmem := hkept.2 (hwanes.isOpen _ hopen)
      rw [hempty] at hmem
      cases hmem
  | @listen i hp =>
    rw [hp] at hkept
    obtain ⟨r, hr, htracked, hreleased⟩ := hkept
    refine ⟨?_, rfl, rfl⟩
    cases hclosed : s.cancel.closed with
    | true =>
      obtain ⟨r', hr', hclosed'⟩ := Receiver.getElem?_modify_close (i := i) hr
      refine ⟨r', hr', fun hopen => ?_, fun _ => hclosed' (.inl rfl)⟩
      rw [hclosed] at hopen
      cases hopen
    | false => exact ⟨r, hr, htracked, hreleased⟩
  | read hp hr hmove hnone =>
    rw [hp] at hkept
    obtain ⟨⟨q, hq, htracked, hreleased⟩, hl, -⟩ := hkept
    obtain rfl := Option.some.inj (hr.symm.trans hq)
    refine ⟨⟨_, List.getElem?_set_self (List.getElem?_eq_some_iff.mp hr).1, fun hopen => ?_,
      fun hclosed => hmove.stays_closed (hreleased hclosed)⟩, hmove.conn.trans hl, hnone⟩
    rw [hmove.used.wanes.id]
    exact htracked hopen
  | stop => exact (Table.get?_erase _ _ _).trans (if_pos rfl)
  | close hp =>
    rw [hp] at hkept
    split
    · refine ⟨?_, fun hopen => absurd hopen (by simp [Wire.not_open_of_close hconn])⟩
      rw [(w.wanes_close a.conn).id]
      exact hkept
    · next hshut => exact ⟨hkept, fun hopen => absurd hopen hshut⟩

end Accept

/-- Closing a server keeps what it has in hand fitting. -/
theorem Server.Fits.close {s : Server} {w : Wire} (h : s.Fits w) :
    (s.close w).1.Fits (s.close w).2 := by
  cases hclosed : s.cancel.closed with
  | true =>
    rw [close_of_closed hclosed]
    exact h
  | false =>
    obtain ⟨hregistry, hwire, htracked, hreceivers, -⟩ := close_of_open (w := w) hclosed
    have hempty : (s.close w).1.sender.registry.entries = [] := by
      rw [hregistry, (Registry.closeAll_closes h.exist).1]
    refine ⟨?_, ?_, fun _ => ⟨hempty, htracked⟩, ?_, ?_⟩
    · rw [hempty]
      exact fun c hc => absurd hc List.not_mem_nil
    · rw [htracked]
      exact fun _ _ hi => nomatch hi
    · rw [Server.close, if_neg (by simp [hclosed])]
      exact h.retry.1
    · rw [hreceivers, Receiver.closeTracked]
      generalize s.tracked.values = places
      have hpos := h.retry.2
      generalize s.receivers = receivers at hpos
      induction places generalizing receivers with
      | nil => exact hpos
      | cons i rest ih =>
        refine ih _ fun r hr => ?_
        obtain ⟨j, hj⟩ := List.mem_iff_getElem?.mp hr
        rw [List.getElem?_modify] at hj
        obtain ⟨q, hq, rfl⟩ := Option.map_eq_some_iff.mp hj
        have hpos := hpos q (List.mem_of_getElem? hq)
        split <;> exact hpos

namespace Service

/-- What is registered and tracked fits what the activities do. -/
structure Sound (p : Service) : Prop where
  fits : p.server.Fits p.wire
  ids : ∀ f < p.wire.connections.length, ∀ g < p.wire.connections.length,
    (p.wire.conn f).id = (p.wire.conn g).id → f = g
  /-- Every connection has a care. -/
  cared : ∀ f < p.wire.connections.length,
    ∃ place a, p.Cares place a ∧ a.conn = f
  own : ∀ place place' a a', p.Cares place a →
    p.Cares place' a' → a.conn = a'.conn → place = place'
  kept : ∀ place a, p.Cares place a →
    a.conn < p.wire.connections.length ∧ a.Kept p.server p.wire

namespace Sound

variable {p p' : Service}

/-- Connections of different cares have different ids. -/
theorem id_ne (h : p.Sound) {place place' : Nat} {a a' : Accept}
    (ha : p.Cares place a)
    (ha' : p.Cares place' a') (hne : place ≠ place') :
    (p.wire.conn a.conn).id ≠ (p.wire.conn a'.conn).id := fun hid =>
  hne (h.own place place' a a' ha ha'
    (h.ids _ (h.kept place a ha).1 _ (h.kept place' a' ha').1 hid))

/-- What changes no care for a connection, and leaves them all as they are, leaves a service
sound. -/
theorem aside (h : p.Sound) (accepts : ∀ place a, p'.Cares place a ↔
      p.Cares place a)
    (fits : p'.server.Fits p'.wire) (wanes : p.wire.Wanes p'.wire)
    (leaves : ∀ f < p.wire.connections.length, Registry.Leaves f p.server.sender.registry p.wire
      p'.server.sender.registry p'.wire)
    (tracks : ∀ id, p.server.Tracks id p'.server) : p'.Sound where
  fits := fits
  ids f hf g hg hid := by
    rw [wanes.size] at hf hg
    rw [wanes.id, wanes.id] at hid
    exact h.ids f hf g hg hid
  cared f hf := by
    obtain ⟨place, a, ha, hconn⟩ := h.cared f (wanes.size ▸ hf)
    exact ⟨place, a, (accepts place a).mpr ha, hconn⟩
  own place place' a a' ha ha' :=
    h.own place place' a a' ((accepts place a).mp ha) ((accepts place' a').mp ha')
  kept place a ha := by
    obtain ⟨hlt, hkept⟩ := h.kept place a ((accepts place a).mp ha)
    exact ⟨wanes.size ▸ hlt, hkept.frame (leaves _ hlt) (tracks _) fits⟩

/-- So does what happens to the connections alone. -/
theorem wane (h : p.Sound) {w : Wire} (wanes : p.wire.Wanes w) : Sound { p with wire := w } :=
  h.aside (fun _ _ => Iff.rfl)
    (h.fits.less wanes (List.Subset.refl _) (fun _ _ hi => hi) (fun hc => ⟨hc, rfl⟩) h.fits.retry)
    wanes (fun f _ => Registry.leaves_of_wanes f _ wanes)
    fun id => Server.tracks_of_same id rfl rfl rfl

theorem send (h : p.Sound) {place pick : Nat} {x x' : ServerSend} {server : Server} {wire : Wire}
    (hx : p.activities[place]? = some (.send x))
    (hmove : ServerSend.Move place pick p.server p.wire x server wire x') :
    Sound { p with server, wire, activities := p.activities.set place (.send x') } := by
  have htracks (id : String) : p.server.Tracks id server := by
    obtain ⟨sender, rfl⟩ := hmove.server
    exact Server.tracks_of_same id rfl rfl rfl
  refine h.aside (fun q a => ⟨fun ha => ?_, fun ha => ?_⟩) (hmove.fits h.fits) hmove.wanes
    (fun f hf => hmove.leaves hf) htracks
  · exact ((getElem?_of_set ha).resolve_left fun hq => nomatch hq.2).2
  · refine (List.getElem?_set_ne ?_).trans ha
    rintro rfl
    cases hx.symm.trans ha

theorem accept (h : p.Sound) {place : Nat} {a a' : Accept} {server : Server} {wire : Wire}
    (ha : p.Cares place a)
    (hmove : Accept.Move p.now p.server p.wire a server wire a') :
    Sound { p with server, wire, activities := p.activities.set place (.accept a') } := by
  obtain ⟨hlt, hkept⟩ := h.kept place a ha
  have hfits := hmove.fits hlt h.fits
  have hwanes : p.wire.Wanes wire := hmove.wanes
  -- a care keeps its place and its connection
  have hold {q : Nat} {b : Accept}
      (hb : (p.activities.set place (.accept a'))[q]? = some (.accept b)) :
      ∃ b₀, p.Cares q b₀ ∧ b₀.conn = b.conn := by
    rcases getElem?_of_set hb with ⟨rfl, heq⟩ | ⟨-, hb⟩
    · obtain rfl := ServiceActivity.accept.inj heq
      exact ⟨a, ha, hmove.conn.symm⟩
    · exact ⟨b, hb, rfl⟩
  refine ⟨hfits, ?_, ?_, ?_, ?_⟩
  · intro f hf g hg hid
    rw [hwanes.size] at hf hg
    rw [hwanes.id, hwanes.id] at hid
    exact h.ids f hf g hg hid
  · intro f hf
    obtain ⟨q, b, hb, hconn⟩ := h.cared f (hwanes.size ▸ hf)
    by_cases hq : place = q
    · subst hq
      obtain rfl := ServiceActivity.accept.inj (Option.some.inj (ha.symm.trans hb))
      exact ⟨place, a', List.getElem?_set_self (List.getElem?_eq_some_iff.mp ha).1,
        hmove.conn.trans hconn⟩
    · exact ⟨q, b, (List.getElem?_set_ne hq).trans hb, hconn⟩
  · intro q q' b b' hb hb' hconn
    obtain ⟨b₀, hb₀, heq⟩ := hold hb
    obtain ⟨b₀', hb₀', heq'⟩ := hold hb'
    exact h.own q q' b₀ b₀' hb₀ hb₀' (heq.trans (hconn.trans heq'.symm))
  · intro q b hb
    rcases getElem?_of_set hb with ⟨rfl, heq⟩ | ⟨hq, hb⟩
    · obtain rfl := ServiceActivity.accept.inj heq
      exact ⟨hmove.conn ▸ hwanes.size ▸ hlt, hmove.kept hlt h.fits hkept⟩
    · obtain ⟨hblt, hbkept⟩ := h.kept q b hb
      have hid := h.id_ne ha hb (Ne.symm hq)
      exact ⟨hwanes.size ▸ hblt, hbkept.frame (hmove.leaves hblt hid) (hmove.tracks hid) hfits⟩

/-- A socket that is accepted under an id of its own is cared for from now on. -/
theorem newcomer (h : p.Sound) {c : Connection}
    (hid : ∀ f < p.wire.connections.length, (p.wire.conn f).id ≠ c.id) :
    (p.apply (.accept c)).Sound := by
  have hlength : (p.apply (.accept c)).wire.connections.length = p.wire.connections.length + 1 :=
    p.wire.length_add c
  have hnew : (p.apply (.accept c)).wire.conn p.wire.connections.length = c :=
    (p.wire.conn_add c _).trans (if_pos rfl)
  have hold {f : Ref} (hf : f < p.wire.connections.length) :
      (p.apply (.accept c)).wire.conn f = p.wire.conn f :=
    (p.wire.conn_add c f).trans (if_neg (Nat.ne_of_lt hf))
  have hcares {place : Nat} {a : Accept} : (p.apply (.accept c)).Cares place a ↔
      p.Cares place a ∨
        (place = p.activities.length ∧ a = ⟨p.wire.connections.length, .called⟩) := by
    refine cares_begin.trans (or_congr Iff.rfl (and_congr_right fun _ => ?_))
    rw [ServiceActivity.accept.injEq, eq_comm]
  refine ⟨⟨fun e he => ?_, fun id i hi => ?_, h.fits.closed, h.fits.retry⟩, ?_, ?_, ?_, ?_⟩
  · obtain ⟨hlt, hnamed⟩ := h.fits.named e he
    rw [hlength, hold hlt]
    exact ⟨Nat.lt_succ_of_lt hlt, hnamed⟩
  · obtain ⟨f, hf, hfid⟩ := h.fits.tracked id i hi
    exact ⟨f, hlength ▸ Nat.lt_succ_of_lt hf, (hold hf).symm ▸ hfid⟩
  · intro f hf g hg heq
    rw [hlength] at hf hg
    rcases Nat.lt_succ_iff_lt_or_eq.mp hf with hf | rfl <;>
      rcases Nat.lt_succ_iff_lt_or_eq.mp hg with hg | rfl
    · rw [hold hf, hold hg] at heq
      exact h.ids f hf g hg heq
    · rw [hold hf, hnew] at heq
      exact absurd heq (hid f hf)
    · rw [hnew, hold hg] at heq
      exact absurd heq.symm (hid g hg)
    · rfl
  · intro f hf
    rw [hlength] at hf
    rcases Nat.lt_succ_iff_lt_or_eq.mp hf with hf | rfl
    · obtain ⟨place, a, ha, hconn⟩ := h.cared f hf
      exact ⟨place, a, hcares.mpr (.inl ha), hconn⟩
    · exact ⟨_, _, hcares.mpr (.inr ⟨rfl, rfl⟩), rfl⟩
  · intro place place' a a' ha ha' hconn
    rcases hcares.mp ha with ha | ⟨rfl, rfl⟩ <;> rcases hcares.mp ha' with ha' | ⟨rfl, rfl⟩
    · exact h.own place place' a a' ha ha' hconn
    · exact absurd hconn (Nat.ne_of_lt (h.kept place a ha).1)
    · exact absurd hconn.symm (Nat.ne_of_lt (h.kept place' a' ha').1)
    · rfl
  · intro place a ha
    rcases hcares.mp ha with ha | ⟨rfl, rfl⟩
    · obtain ⟨hlt, hkept⟩ := h.kept place a ha
      exact ⟨hlength ▸ Nat.lt_succ_of_lt hlt, hkept.congr (hold hlt)⟩
    · refine ⟨hlength ▸ Nat.lt_succ_self _, ?_⟩
      -- nothing is tracked under an id that no connection has had
      have hnone : p.server.tracked.get? c.id = none := by
        refine Option.eq_none_iff_forall_ne_some.mpr fun i hi => ?_
        obtain ⟨f, hf, hfid⟩ := h.fits.tracked _ i hi
        exact hid f hf hfid
      rw [Accept.Kept, hnew]
      exact hnone

theorem apply (h : p.Sound) {e : Event} (provides : p.Provides e) : (p.apply e).Sound := by
  cases e with
  | move place pick =>
    have hmoved := p.moved_apply place pick
    generalize p.apply (.move place pick) = p' at hmoved
    cases hmoved with
    | send hx hmove => exact h.send hx hmove
    | accept ha hmove => exact h.accept ha hmove
    | stay => exact h
  | elapse =>
    exact h.aside (fun _ _ => Iff.rfl) h.fits (.refl _)
      (fun f _ => Registry.leaves_of_wanes f _ (.refl _))
      fun id => Server.tracks_of_same id rfl rfl rfl
  | accept c => exact h.newcomer provides
  | register handler =>
    exact h.aside (fun _ _ => Iff.rfl)
      (h.fits.less (.refl _) (List.Subset.refl _) (fun _ _ hi => hi) (fun hc => ⟨hc, rfl⟩)
        h.fits.retry)
      (.refl _) (fun f _ => Registry.leaves_of_wanes f _ (.refl _))
      fun id => Server.tracks_of_same id rfl rfl rfl
  | occur r o => exact h.wane (Wire.wanes_undergo _ r provides)
  | send payload =>
    refine h.aside (fun q a => ?_) h.fits (.refl _)
      (fun f _ => Registry.leaves_of_wanes f _ (.refl _))
      fun id => Server.tracks_of_same id rfl rfl rfl
    rw [Service.apply, cares_begin]
    simp
  | close =>
    exact h.aside (fun _ _ => Iff.rfl) h.fits.close
      (Server.leaves_close h.fits.exist 0).wanes
      (fun f _ => Server.leaves_close h.fits.exist f) fun id => p.server.tracks_close p.wire id

end Sound

end Service

end BlockFeed
