import BlockFeed.Proofs.Client.Sound
import BlockFeed.Proofs.Line
import BlockFeed.Proofs.Link.Registrations
import BlockFeed.Proofs.Receiver.Closing
import BlockFeed.Proofs.Sender.Losses
import Mathlib.Logic.Function.Basic

/-!
# The slot of a client

What the activities of a client do with the slot that holds its connection, and with the
connections that were ever in it.

## Main definitions

* `Stance`: how an activity stands to the slot.
* `Client.Step`: everything that a step of an activity may do to the client, by how the activity
  stands to the slot before and after.

## Main results

* `ClientActivity.client_step`: every step of an activity does to the client what its stance tells.

## Design notes

What an activity does besides, sending or reading, is the same to the slot: nothing. So statements
about the slot follow the twelve cases of `Client.Step`, and not the phases of the activities.
-/

namespace BlockFeed

/-- How an activity of a client stands to the slot. -/
inductive Stance where
  | aside
  /-- It is in line. -/
  | waits
  /-- It has the slot, in which there is no open connection. -/
  | holds
  /-- It has the slot, and a dial is out. -/
  | dials
  /-- It has seen to it that a connection is not in the slot, and has still to close it. -/
  | drops (r : Ref)
  /-- It has closed the client, and has still to empty the slot. -/
  | closes
  /-- It is in line to empty the slot. -/
  | empties
  deriving DecidableEq

namespace Stance

def InLine : Stance → Prop
  | waits | holds | dials | empties => True
  | aside | drops _ | closes => False

/-- It has the slot for more than one step. -/
def HasSlot : Stance → Prop
  | holds | dials => True
  | aside | waits | drops _ | closes | empties => False

/-- Closing the client is under way. -/
def IsClosing : Stance → Prop
  | closes | empties => True
  | aside | waits | holds | dials | drops _ => False

end Stance

namespace Client

/-- Nothing was closed, unless the handler has closed the receiver. -/
structure Alike (c c' : Client) : Prop where
  retry : c'.retry = c.retry
  handlerCloses : c'.handlerCloses = c.handlerCloses
  cancel : c'.cancel = c.cancel
  sender : c'.sender.cancel = c.sender.cancel
  receiver : (∀ past d, (c.receiver.handler past d).closes = false) →
    c'.receiver.cancel = c.receiver.cancel ∧ c'.receiver.handler = c.receiver.handler

theorem Alike.refl (c : Client) : c.Alike c := ⟨rfl, rfl, rfl, rfl, fun _ => ⟨rfl, rfl⟩⟩

/-- What does not deal with the slot leaves it as it is. -/
structure Spares (c c' : Client) : Prop extends c.Alike c' where
  slot : c'.slot = c.slot
  line : c'.line = c.line
  entries : c'.sender.registry.entries ⊆ c.sender.registry.entries

theorem Spares.refl (c : Client) : c.Spares c := ⟨.refl c, rfl, rfl, List.Subset.refl _⟩

/-- What a step of the activity under a number does, by how it stands to the slot. -/
inductive Step (me : Nat) (c : Client) (w : Wire) : Stance → Client → Wire → Stance → Prop where
  /-- It does not deal with the slot. -/
  | spare {c' : Client} {w' : Wire} : c.Spares c' → w.Wanes w' → Step me c w .aside c' w' .aside
  | join : Step me c w .aside (c.enqueue me) w .waits
  /-- It finds an open connection in the slot. -/
  | find {r : Ref} (register : Bool) : c.line.head? = some me → c.slot = some r →
      (w.conn r).isOpen = true → Step me c w .waits (Obtain.finish register r c w).1 w .aside
  /-- It finds none. -/
  | enter : c.line.head? = some me → (∀ r, c.slot = some r → (w.conn r).isOpen = false) →
      Step me c w .waits c w .holds
  | pause : Step me c w .holds c w .holds
  | dial : c.cancel.closed = false → Step me c w .holds c w .dials
  /-- The client was closed. -/
  | refuse : c.cancel.closed = true → Step me c w .holds c.release w .aside
  /-- It sees to it that a connection is not in the slot. -/
  | clear (r : Ref) : c.line.head? = some me →
      Step me c w .waits (if c.slot = some r then { c with slot := none } else c).release w
        (.drops r)
  | drop (r : Ref) : Step me c w (.drops r) (Discard.drop r c w).1 (Discard.drop r c w).2 .aside
  /-- It closes the client. -/
  | close : c.cancel.closed = false →
      Step me c w .aside (ClientClose.releaseAll c w).1 (ClientClose.releaseAll c w).2 .closes
  | queue : Step me c w .closes (c.enqueue me) w .empties
  /-- It empties the slot. -/
  | empty : c.line.head? = some me →
      Step me c w .empties (ClientClose.emptySlot c w).1 (ClientClose.emptySlot c w).2 .aside

end Client

section Steps

variable {me now pick : Nat} {c c' : Client} {w w' : Wire}

def Obtain.stance : Obtain → Stance
  | .called | .got _ | .refused => .aside
  | .queued => .waits
  | .ready | .pausing _ => .holds
  | .dialing => .dials

def Discard.stance (r : Ref) : Discard → Stance
  | .called | .done => .aside
  | .queued => .waits
  | .cleared => .drops r

def ClientClose.stance : ClientClose → Stance
  | .called | .done => .aside
  | .released => .closes
  | .queued => .empties

def ClientSend.stance (s : ClientSend) : Stance :=
  match s.phase with
  | .obtaining o => o.stance
  | .discarding r d => d.stance r
  | .called | .attempting | .sending _ _ | .pausing _ | .done _ => .aside

def ClientListen.stance : ClientListen → Stance
  | .obtaining o => o.stance
  | .discarding r d => d.stance r
  | .listening _ _ | .done => .aside

def ClientActivity.stance : ClientActivity → Stance
  | .send s => s.stance
  | .listen l => l.stance
  | .close x => x.stance

theorem Obtain.client_step {register : Bool} {o o' : Obtain}
    (h : o.step me now register c w = some (c', o')) : c.Step me w o.stance c' w o'.stance := by
  cases o with
  | called =>
    obtain ⟨rfl, rfl⟩ := Option.some.inj h
    exact .join
  | queued =>
    rw [step] at h
    split at h
    · next hholds =>
      have hhead : c.line.head? = some me := by simpa [Client.holds] using hholds
      split at h
      · next r hr =>
        split at h
        · next hopen =>
          obtain ⟨hfst, rfl⟩ := Prod.mk.inj (Option.some.inj h)
          exact hfst ▸ .find register hhead hr hopen
        · next hshut =>
          obtain ⟨rfl, rfl⟩ := Option.some.inj h
          refine .enter hhead fun q hq => ?_
          obtain rfl := Option.some.inj (hr.symm.trans hq)
          exact Bool.eq_false_iff.mpr hshut
      · next hnone =>
        obtain ⟨rfl, rfl⟩ := Option.some.inj h
        refine .enter hhead fun q hq => ?_
        cases hnone.symm.trans hq
    · cases h
  | ready =>
    rw [step] at h
    split at h
    · next hclosed =>
      obtain ⟨rfl, rfl⟩ := Option.some.inj h
      exact .refuse hclosed
    · next hopen =>
      obtain ⟨rfl, rfl⟩ := Option.some.inj h
      exact .dial (Bool.eq_false_iff.mpr hopen)
  | pausing deadline =>
    rw [step] at h
    split at h
    · next hclosed =>
      obtain ⟨rfl, rfl⟩ := Option.some.inj h
      exact .refuse hclosed
    · split at h
      · cases h
      · obtain ⟨rfl, rfl⟩ := Option.some.inj h
        exact .pause
  | dialing | got r | refused => cases h

theorem Discard.client_step {r : Ref} {d d' : Discard} (h : d.step me r c w = some (c', w', d')) :
    c.Step me w (d.stance r) c' w' (d'.stance r) := by
  cases d with
  | called =>
    obtain ⟨rfl, rfl, rfl⟩ := Option.some.inj h
    exact .join
  | queued =>
    rw [step] at h
    split at h
    · next hholds =>
      have hhead : c.line.head? = some me := by simpa [Client.holds] using hholds
      obtain ⟨rfl, rfl, rfl⟩ := Option.some.inj h
      exact .clear r hhead
    · cases h
  | cleared =>
    obtain ⟨rfl, rfl, rfl⟩ := Option.some.inj h
    exact .drop r
  | done => cases h

theorem ClientClose.client_step {x x' : ClientClose} (h : x.step me c w = some (c', w', x')) :
    c.Step me w x.stance c' w' x'.stance := by
  cases x with
  | called =>
    rw [step] at h
    split at h
    · obtain ⟨rfl, rfl, rfl⟩ := Option.some.inj h
      exact .spare (.refl c) (.refl w)
    · next hopen =>
      obtain ⟨rfl, rfl, rfl⟩ := Option.some.inj h
      exact .close (Bool.eq_false_iff.mpr hopen)
  | released =>
    obtain ⟨rfl, rfl, rfl⟩ := Option.some.inj h
    exact .queue
  | queued =>
    rw [step] at h
    split at h
    · next hholds =>
      have hhead : c.line.head? = some me := by simpa [Client.holds] using hholds
      obtain ⟨rfl, rfl, rfl⟩ := Option.some.inj h
      exact .empty hhead
    · cases h
  | done => cases h

namespace ClientSend

theorem stance_afterObtain (payload : Bytes) (o : Obtain) :
    stance ⟨payload, afterObtain payload o⟩ = o.stance := by
  cases o <;> rfl

theorem stance_afterSend (payload : Bytes) (now retry : Nat) (r : Ref) (x : Send) :
    stance ⟨payload, afterSend now retry r x⟩ = .aside := by
  rcases afterSend_cases now retry r x with heq | ⟨-, heq⟩ | ⟨_, -, heq | heq | heq⟩
  all_goals rw [stance, heq]
  rfl

theorem stance_afterDiscard (payload : Bytes) (r : Ref) (d : Discard) :
    stance ⟨payload, afterDiscard r d⟩ = d.stance r := by
  cases d <;> rfl

theorem client_step {s s' : ClientSend} (h : s.step me now pick c w = some (c', w', s')) :
    c.Step me w s.stance c' w' s'.stance := by
  obtain ⟨payload, phase⟩ := s
  have haside : c.Step me w .aside c w .aside := .spare (.refl c) (.refl w)
  cases phase with
  | called =>
    rw [step] at h
    dsimp only at h
    split at h <;> obtain ⟨rfl, rfl, rfl⟩ := Option.some.inj h <;> exact haside
  | attempting =>
    rw [step] at h
    dsimp only at h
    split at h <;> obtain ⟨rfl, rfl, rfl⟩ := Option.some.inj h <;> exact haside
  | obtaining o =>
    rw [step] at h
    dsimp only at h
    split at h
    · cases h
    · next hstep =>
      obtain ⟨rfl, rfl, rfl⟩ := Option.some.inj h
      rw [stance_afterObtain]
      exact Obtain.client_step hstep
  | sending r x =>
    rw [step] at h
    dsimp only at h
    split at h
    · cases h
    · next sender _ x' hstep =>
      obtain ⟨rfl, rfl, rfl⟩ := Option.some.inj h
      rw [stance_afterSend]
      have hmove := Send.move_of_step hstep
      exact .spare ⟨⟨rfl, rfl, rfl, hmove.settings.2, fun _ => ⟨rfl, rfl⟩⟩, rfl, rfl,
        hmove.entries.subset⟩ hmove.toll.wanes
  | discarding r d =>
    rw [step] at h
    dsimp only at h
    split at h
    · cases h
    · next hstep =>
      obtain ⟨rfl, rfl, rfl⟩ := Option.some.inj h
      rw [stance_afterDiscard]
      exact Discard.client_step hstep
  | pausing deadline =>
    rw [step] at h
    dsimp only at h
    split at h
    · obtain ⟨rfl, rfl, rfl⟩ := Option.some.inj h
      exact haside
    · split at h
      · cases h
      · obtain ⟨rfl, rfl, rfl⟩ := Option.some.inj h
        exact haside
  | done => cases h

end ClientSend

namespace ClientListen

theorem stance_afterObtain (o : Obtain) : (afterObtain o).stance = o.stance := by
  cases o <;> rfl

theorem stance_afterDiscard (r : Ref) (d : Discard) : (afterDiscard r d).stance = d.stance r := by
  cases d <;> rfl

theorem stance_afterListen (closed : Bool) (r : Ref) (l : Listen) :
    (afterListen closed r l).stance = .aside := by
  rw [afterListen]
  split
  · rfl
  · split <;> rfl

theorem client_step {l l' : ClientListen} (h : l.step me now pick c w = some (c', w', l')) :
    c.Step me w l.stance c' w' l'.stance := by
  cases l with
  | obtaining o =>
    rw [step] at h
    split at h
    · cases h
    · next hstep =>
      obtain ⟨rfl, rfl, rfl⟩ := Option.some.inj h
      rw [stance_afterObtain]
      exact Obtain.client_step hstep
  | listening r l =>
    rw [step] at h
    split at h
    · cases h
    · next receiver _ l' hstep =>
      obtain ⟨rfl, rfl, rfl⟩ := Option.some.inj h
      rw [stance_afterListen]
      have hmove := Listen.move_of_step hstep
      exact .spare ⟨⟨rfl, rfl, rfl, rfl, hmove.cancel_of_stays⟩, rfl, rfl, List.Subset.refl _⟩
        hmove.used.wanes
  | discarding r d =>
    rw [step] at h
    split at h
    · cases h
    · next hstep =>
      obtain ⟨rfl, rfl, rfl⟩ := Option.some.inj h
      rw [stance_afterDiscard]
      exact Discard.client_step hstep
  | done => cases h

end ClientListen

/-- Every step of an activity does to the client what its stance tells. -/
theorem ClientActivity.client_step {a a' : ClientActivity}
    (h : a.step me now pick c w = some (c', w', a')) :
    c.Step me w a.stance c' w' a'.stance := by
  cases a with
  | send s =>
    obtain ⟨⟨_, _, s'⟩, hs, heq⟩ := Option.map_eq_some_iff.mp h
    obtain ⟨rfl, rfl, rfl⟩ := heq
    exact ClientSend.client_step hs
  | listen l =>
    obtain ⟨⟨_, _, l'⟩, hl, heq⟩ := Option.map_eq_some_iff.mp h
    obtain ⟨rfl, rfl, rfl⟩ := heq
    exact ClientListen.client_step hl
  | close x =>
    obtain ⟨⟨_, _, x'⟩, hx, heq⟩ := Option.map_eq_some_iff.mp h
    obtain ⟨rfl, rfl, rfl⟩ := heq
    exact ClientClose.client_step hx

theorem ClientActivity.stance_eq_dials_iff {a : ClientActivity} :
    a.stance = .dials ↔ a.dialing = true := by
  have hobtain (o : Obtain) : o.stance = .dials ↔ o = .dialing := by
    cases o <;> simp [Obtain.stance]
  have hdiscard (r : Ref) (d : Discard) : d.stance r ≠ .dials := by
    cases d <;> simp [Discard.stance]
  cases a with
  | send s =>
    obtain ⟨payload, phase⟩ := s
    cases phase with
    | obtaining o =>
      refine (hobtain o).trans ?_
      cases o <;> simp [dialing]
    | discarding r d => simp [stance, ClientSend.stance, dialing, hdiscard]
    | called | attempting | sending | pausing | done =>
      simp [stance, ClientSend.stance, dialing]
  | listen l =>
    cases l with
    | obtaining o =>
      refine (hobtain o).trans ?_
      cases o <;> simp [dialing]
    | discarding r d => simp [stance, ClientListen.stance, dialing, hdiscard]
    | listening | done => simp [stance, ClientListen.stance, dialing]
  | close x => cases x <;> simp [stance, ClientClose.stance, dialing]

end Steps

end BlockFeed
