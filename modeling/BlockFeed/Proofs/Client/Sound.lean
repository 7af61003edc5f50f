import BlockFeed.Proofs.Client.Exchange
import BlockFeed.Proofs.Delivery.Audit

/-!
# Sound clients

What an open client that asks for acknowledgments keeps up, whatever its activities and its peers
do: its sender passes the audit, and nothing but acknowledgments arrives at its ends of the links.

## Main definitions

* `Near`, `Wire.Sided`: the ends of the client, and what may arrive there.
* `Client.Sound`: the invariant.
* `Send.WritesNear`, `Listen.Passive`: what it needs of the activities of the client.

## Design notes

A client reads the connection that it sends over, and so it may read an acknowledgment that one of
its sends waits for, or one that comes too late. That costs the send its acknowledgment, but it
hands nothing over: to the reading an acknowledgment is not a frame. The audit is about the
receivers of the peers only, so it has to be known that the client itself never acknowledges.
-/

namespace BlockFeed

/-- The place is that of a near end: links take two places each, and the client has the first. -/
def Near (place : Nat) : Prop := place % 2 = 0

theorem Near.not_next {place : Nat} (h : Near place) : ¬Near (place + 1) := by
  unfold Near at *
  omega

theorem Near.link {place : Nat} (h : Near place) : Near (place + 1 + 1) := by
  unfold Near at *
  omega

namespace Wire

/-- Links lead from near ends to far ones, and only acknowledgments have arrived at near ends. -/
structure Sided (w : Wire) : Prop where
  paired : Near w.connections.length
  across : ∀ r f, w.peer? r = some f → Near r → ¬Near f
  acks : ∀ r, Near r → ∀ bytes ∈ (w.conn r).messages, ∃ counter, bytes = Ack.encode counter

namespace Sided

variable {w w' : Wire}

theorem empty : Sided {} where
  paired := rfl
  across := fun _ _ h => nomatch h
  acks := fun _ _ _ hm => nomatch hm

theorem brings (h : w.Sided) {news : Ref → List Bytes} (hw : w.Brings news w')
    (hnews : ∀ r, Near r → ∀ bytes ∈ news r, ∃ counter, bytes = Ack.encode counter) :
    w'.Sided where
  paired := hw.size.symm ▸ h.paired
  across := fun r f hf => h.across r f (hw.peer? r ▸ hf)
  acks := by
    intro r hr bytes hm
    rw [(hw.conn r).messages] at hm
    rcases List.mem_append.mp hm with hm | hm
    · exact h.acks r hr bytes hm
    · exact hnews r hr bytes hm

theorem keeps (h : w.Sided) (hw : w.Keeps w') : w'.Sided :=
  h.brings hw fun _ _ _ hm => nomatch hm

/-- The near end of a new link is next, and its far end follows. -/
theorem link (h : w.Sided) {near far : Connection} (hnear : near.messages = [])
    (hfar : far.messages = []) : (Exchange.link w near far).2.Sided where
  paired := by
    change Near ((w.add near).1.add far).1.connections.length
    rw [length_add, length_add]
    exact h.paired.link
  across := by
    intro r f hf hr
    change (((w.add near).1.add far).1.join w.connections.length (w.add near).1.connections.length
      ).peer? r = some f at hf
    rw [peer?_join, length_add] at hf
    -- the near end of the new link, its far end, or a link that was there
    split at hf
    · obtain rfl := Option.some.inj hf
      exact h.paired.not_next
    · split at hf
      · next hodd =>
        rw [hodd] at hr
        exact absurd hr h.paired.not_next
      · exact h.across r f hf hr
  acks := by
    intro r hr bytes hm
    change bytes ∈ (((w.add near).1.add far).1.conn r).messages at hm
    rw [messages_add _ hfar, messages_add _ hnear] at hm
    exact h.acks r hr bytes hm

end Sided

end Wire

section Send

variable {me pick : Nat} {s s' : Sender} {w w' : Wire} {x x' : Send}

def Send.WritesNear (x : Send) : Prop :=
  match x.phase with
  | .writing _ rest _ _ => ∀ e ∈ rest, Near e.2
  | .called | .queued | .waiting .. | .done _ => True

theorem Send.Move.near (h : Send.Move me pick s w x s' w' x')
    (hs : ∀ e ∈ s.registry.entries, Near e.2) (hx : x.WritesNear) : x'.WritesNear := by
  cases h with
  | start => exact hs
  | accept hp | reject hp =>
    rw [Send.WritesNear, hp] at hx
    intro e he
    exact hx e (List.mem_cons_of_mem _ he)
  | refuse | enqueue | abandon | fail | succeed | await | wait | conclude => trivial

theorem Send.Move.sided (h : Send.Move me pick s w x s' w' x') (hx : x.WritesNear) (mute : w.Mute)
    (hw : w.Sided) : w'.Sided := by
  rcases h.brings mute with hkeeps | ⟨_, _, r, rest, _, _, hp, -, hbrings⟩
  · exact hw.keeps hkeeps
  · rw [Send.WritesNear, hp] at hx
    have hr : Near r := hx _ List.mem_cons_self
    -- a frame written at a near end leaves the near ends as they were
    refine hw.brings hbrings fun f hf bytes hm => ?_
    exact absurd hf (hw.across r f (Wire.mem_arrivals hm).1 hr)

end Send

section Listen

variable {now : Nat} {r r' : Receiver} {w w' : Wire} {l l' : Listen}

/-- The reading is at a near end, and has nothing to hand over or to acknowledge. -/
def Listen.Passive (l : Listen) : Prop :=
  Near l.conn ∧
    match l.phase with
    | .called | .reading | .pausing _ .read | .done _ => True
    | .handling .. | .acknowledging _ | .pausing _ (.acknowledge _) => False

/-- At a near end there is nothing to hand over. -/
theorem Listen.Move.passive (h : Listen.Move now r w l r' w' l') (hw : w.Sided)
    (hl : l.Passive) : l'.Passive := by
  have hnear := hl.1
  cases h with
  | handOver _ hread hdec =>
    -- what was read is an acknowledgment, and that is no frame
    obtain ⟨counter, rfl⟩ := hw.acks l.conn hnear _ (Wire.consumed_of_read hread).1
    rw [Frame.decode_ack] at hdec
    cases hdec
  | conclude hp | retryAcknowledge hp | resumeAcknowledge hp =>
    rw [Listen.Passive, hp] at hl
    exact hl.2.elim
  | begin | cancel | skip | lose | giveUp | retryRead | withhold | acknowledge | resumeRead =>
    exact ⟨hnear, trivial⟩

theorem Listen.Move.keeps_of_passive (h : Listen.Move now r w l r' w' l') (mute : w.Mute)
    (hl : l.Passive) : w.Keeps w' := by
  obtain ⟨news, hbrings, hnews⟩ := h.brings mute
  have hnone : news = fun _ => [] := by
    funext f
    rw [List.eq_nil_iff_forall_not_mem]
    intro bytes hm
    obtain ⟨-, counter, hp, -⟩ := hnews f bytes hm
    rw [Listen.Passive, hp] at hl
    exact hl.2
  rwa [hnone] at hbrings

end Listen

namespace Client

/-- An open client that asks for acknowledgments, with peers that have received nothing but what
it has sent, over links of which it has the near ends. -/
structure Sound (c : Client) (R : List Receiver) (w : Wire) (log : Ledger) : Prop where
  acks : c.sender.withAcknowledge = true
  isOpen : c.sender.cancel.closed = false
  audited : Audited c.sender R w log
  sided : w.Sided
  slot : ∀ r, c.slot = some r → Near r
  entries : ∀ e ∈ c.sender.registry.entries, Near e.2

namespace Sound

variable {c c' : Client} {R R' : List Receiver} {w w' : Wire} {log : Ledger} {now : Nat}

theorem tends (h : c.Sound R w log) (ht : c.Tends w c' w') : c'.Sound R w' log where
  acks := ht.withAcknowledge.trans h.acks
  isOpen := ht.senderCancel ▸ h.isOpen
  audited := (h.audited.keeps (ht.wire h.audited.mute)).sender ht.lastCounter
  sided := h.sided.keeps (ht.wire h.audited.mute)
  slot := by
    intro r hr
    rcases ht.slot with hsame | hnone
    · exact h.slot r (hsame ▸ hr)
    · rw [hnone] at hr
      cases hr
  entries := by
    intro e he
    rcases ht.entries e he with hold | hslot
    · exact h.entries e hold
    · exact h.slot e.2 hslot

theorem send {me pick : Nat} {x x' : Send} {sender : Sender} (h : c.Sound R w log)
    (hm : Send.Move me pick c.sender w x sender w' x') (hx : x.Accounted R log me)
    (hnear : x.WritesNear) :
    Sound { c with sender } R w' (log ++ Ledger.taken me (some x) (some x')) where
  acks := hm.settings.1.trans h.acks
  isOpen := hm.settings.2 ▸ h.isOpen
  audited := hm.audited h.audited hx
  sided := hm.sided hnear h.audited.mute h.sided
  slot := h.slot
  entries := fun e he => h.entries e (hm.entries.subset he)

/-- A step of the reading of the client is sound. -/
theorem read {l l' : Listen} {receiver : Receiver} (h : c.Sound R w log)
    (hm : Listen.Move now c.receiver w l receiver w' l') (hl : l.Passive) :
    Sound { c with receiver } R w' log := by
  have hkeeps := hm.keeps_of_passive h.audited.mute hl
  exact ⟨h.acks, h.isOpen, h.audited.keeps hkeeps, h.sided.keeps hkeeps, h.slot, h.entries⟩

/-- A step of a reading of a peer is sound. -/
theorem peer {i : Nat} {l l' : Listen} {r r' : Receiver} (h : c.Sound R w log)
    (hm : Listen.Move now r w l r' w' l') (hr : R[i]? = some r) (hl : l.Accounted r) :
    c.Sound (R.set i r') w' log := by
  obtain ⟨news, hbrings, hnews⟩ := hm.brings h.audited.mute
  refine ⟨h.acks, h.isOpen, hm.audited h.audited hr hl, h.sided.brings hbrings ?_, h.slot,
    h.entries⟩
  intro f _ bytes hb
  obtain ⟨-, counter, -, heq⟩ := hnews f bytes hb
  exact ⟨counter, heq⟩

/-- What happens to the wire without a message is sound. -/
theorem keeps (h : c.Sound R w log) (hw : w.Keeps w') : c.Sound R w' log :=
  ⟨h.acks, h.isOpen, h.audited.keeps hw, h.sided.keeps hw, h.slot, h.entries⟩

theorem grow (h : c.Sound R w log) (hR : GrowAll R R')
    (hhandled : ∀ r ∈ R', ∀ d ∈ r.deliveries, d ∈ log.deliveries) : c.Sound R' w log :=
  ⟨h.acks, h.isOpen, h.audited.grow hR hhandled, h.sided, h.slot, h.entries⟩

/-- A dial that ends with a new link is sound. -/
theorem link (h : c.Sound R w log) {near far : Connection}
    (hnear : near.messages = [] ∧ near.echo = none) (hfar : far.messages = [] ∧ far.echo = none) :
    Sound { c with slot := some (Exchange.link w near far).1 } R (Exchange.link w near far).2
      log where
  acks := h.acks
  isOpen := h.isOpen
  audited := ((h.audited.add hnear.2 hnear.1).add hfar.2 hfar.1).join _ _
  sided := h.sided.link hnear.1 hfar.1
  slot := by
    intro r hr
    obtain rfl := Option.some.inj hr
    exact h.sided.paired
  entries := h.entries

end Sound

end Client

end BlockFeed
