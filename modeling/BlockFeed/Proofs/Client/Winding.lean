import BlockFeed.Proofs.Client.Delivery
import BlockFeed.Proofs.Client.Effects
import BlockFeed.Proofs.Pipeline.Work
import Mathlib.Algebra.Order.BigOperators.Group.List
import Mathlib.Algebra.Order.Group.Nat

/-!
# Winding down a client

How much the activities of a closed client have still to do: a number that every step of one of
them, and every end of a dial, makes smaller, whatever the peers do in between.

## Main definitions

* `ClientActivity.left`: the steps that are left to an activity.
* `ClientActivity.goesOn`: a reading goes on if it can, rather than return.
* `Exchange.left`: those that are left to all activities of the client.
* `Exchange.advanced`: the steps of the activities of the client in a run.
* `Exchange.overruns`: the steps in which a reading of the client does so.

## Main results

* `Exchange.advanced_le_left`: only so many steps are taken once the client was closed.

## Design notes

A send that is about to obtain the connection may come to register it, and then the sends that have
not had their turn write to it as well. So what is left to such sends counts that connection
already. Whatever is asked of a closed client is refused after a few steps. A reading that has a
message, or a pause behind it, may go on once more when the client was closed, so those steps are
counted apart.
-/

namespace BlockFeed

/-- A step of a send of a closed sender leaves it less to do, whatever has arrived meanwhile. -/
theorem Send.Move.work_of_closed {me pick size : Nat} {s s' : Sender} {w w' : Wire} {x x' : Send}
    (h : Move me pick s w x s' w' x') (closed : s.cancel.closed = true)
    (hsize : s.registry.size ≤ size) : x'.work size < x.work size := by
  have hwaits {counter : UInt64} {waits : List AckWait} {a a' : AckWait} {s₁ : Sender} {w₁ : Wire}
      (ha : waits[pick]? = some a) (hstep : a.step counter s w = some (s₁, w₁, a')) :
      ((waits.set pick a').map AckWait.work).sum < (waits.map AckWait.work).sum := by
    obtain ⟨-, -, hnone, rfl⟩ := (AckWait.move_of_step hstep).of_closed closed
    have hsum := sum_map_set AckWait.work (b := { a with outcome := some .cancelled }) ha
    simp only [AckWait.work, hnone, Option.isNone_none, Option.isNone_some, Bool.toNat_true,
      Bool.toNat_false] at hsum ⊢
    omega
  cases h with
  | refuse hp | enqueue hp | abandon hp | fail hp | succeed hp =>
    simp only [Send.work, hp]
    omega
  | start hp =>
    rw [Table.size] at hsize
    simp only [Send.work, hp, List.length_nil]
    omega
  | accept hp =>
    simp only [Send.work, hp, List.length_cons, List.length_append, List.length_nil]
    omega
  | reject hp =>
    simp only [Send.work, hp, List.length_cons]
    omega
  | @await counter written failures hp =>
    have hsum := AckWait.sum_work_fresh written
    simp only [Send.work, hp, hsum]
    omega
  | wait hp ha hstep =>
    have hless := hwaits ha hstep
    simp only [Send.work, hp]
    omega
  | conclude hp =>
    simp only [Send.work, hp]
    omega

/-- The number of connections that are registered with the sender of a client. -/
def Client.size (c : Client) : Nat := c.sender.registry.size

/-- The steps that are left to an activity that obtains the connection. -/
def Obtain.left : Obtain → Nat
  | .called => 5
  | .queued => 4
  | .dialing => 3
  | .pausing _ => 2
  | .ready => 1
  | .got _ | .refused => 0

/-- The steps that are left to an activity that gives up a connection. -/
def Discard.left : Discard → Nat
  | .called => 3
  | .queued => 2
  | .cleared => 1
  | .done => 0

/-- The steps that are left to a send, if so many connections are registered. -/
def ClientSend.left (size : Nat) (s : ClientSend) : Nat :=
  match s.phase with
  | .called => 2
  | .attempting | .pausing _ => 1
  | .obtaining o => o.left + 8 + 7 * size
  | .sending _ x => x.work size + 4
  | .discarding _ d => d.left + 1
  | .done _ => 0

/-- Whether a send may still come to register a connection, as a number. -/
def ClientSend.newcomer (s : ClientSend) : Nat :=
  match s.phase with
  | .obtaining _ => 1
  | _ => 0

def ClientListen.left : ClientListen → Nat
  | .obtaining o => o.left + 2
  | .listening _ l => l.left
  | .discarding _ d => d.left + 7
  | .done => 0

def ClientClose.left : ClientClose → Nat
  | .released => 2
  | .called | .queued => 1
  | .done => 0

/-- The steps that are left to an activity of a closed client, if so many connections are
registered. -/
def ClientActivity.left (size : Nat) : ClientActivity → Nat
  | .send s => s.left size
  | .listen l => l.left
  | .close x => x.left

/-- Whether a reading, where it finds the client closed, goes on in a step if it can. -/
def ClientActivity.goesOn (pick : Nat) : ClientActivity → Bool
  | .listen (.listening _ l) => l.waits && pick != 0
  | _ => false

def ClientActivity.newcomer : ClientActivity → Nat
  | .send s => s.newcomer
  | .listen _ | .close _ => 0

section Activities

variable {me now pick size : Nat} {c c' : Client} {w w' : Wire}

namespace Obtain

variable {register : Bool} {o o' : Obtain}

theorem size_finish (register : Bool) (r : Ref) (c : Client) (w : Wire) :
    (finish register r c w).1.size ≤ c.size + register.toNat := by
  cases register with
  | false => exact Nat.le_refl _
  | true =>
    change (c.register w r).size ≤ c.size + 1
    rw [Client.register]
    split
    · exact Nat.le_succ _
    · exact c.sender.registry.size_add_le w r

/-- Obtaining the connection of a closed client comes nearer to its end in every step, and only with
its end a connection may come to be registered. -/
theorem winds (h : o.step me now register c w = some (c', o')) (closed : c.cancel.closed = true) :
    o'.left < o.left ∧
      (c'.size = c.size ∨ ∃ r, o' = .got r ∧ c'.size ≤ c.size + register.toNat) := by
  cases o with
  | called =>
    obtain ⟨rfl, rfl⟩ := Option.some.inj h
    exact ⟨by simp [left], .inl rfl⟩
  | queued =>
    rw [step] at h
    split at h
    · split at h
      · next r hr =>
        split at h
        · obtain ⟨hfst, rfl⟩ := Prod.mk.inj (Option.some.inj h)
          exact ⟨by simp [left], .inr ⟨r, rfl, hfst ▸ size_finish register r c w⟩⟩
        · obtain ⟨rfl, rfl⟩ := Option.some.inj h
          exact ⟨by simp [left], .inl rfl⟩
      · obtain ⟨rfl, rfl⟩ := Option.some.inj h
        exact ⟨by simp [left], .inl rfl⟩
    · cases h
  | ready | pausing =>
    rw [step, if_pos closed] at h
    obtain ⟨rfl, rfl⟩ := Option.some.inj h
    exact ⟨by simp [left], .inl rfl⟩
  | dialing | got r | refused => cases h

end Obtain

theorem Discard.winds {r : Ref} {d d' : Discard} (h : d.step me r c w = some (c', w', d')) :
    d'.left < d.left ∧ c'.size ≤ c.size := by
  cases d with
  | called =>
    obtain ⟨rfl, rfl, rfl⟩ := Option.some.inj h
    exact ⟨by simp [left], Nat.le_refl _⟩
  | queued =>
    rw [step] at h
    split at h
    · obtain ⟨rfl, rfl, rfl⟩ := Option.some.inj h
      refine ⟨by simp [left], ?_⟩
      split <;> exact Nat.le_refl _
    · cases h
  | cleared =>
    obtain ⟨rfl, rfl, rfl⟩ := Option.some.inj h
    refine ⟨by simp [left], ?_⟩
    change (drop r c w).1.size ≤ c.size
    rw [drop]
    split
    · split <;> exact Nat.le_refl _
    · next heq =>
      have hkeeps := c.sender.keeps_closeAndRemove w (w.conn r).id
      rw [heq] at hkeeps
      exact hkeeps.entries.length_le
  | done => cases h

namespace ClientSend

theorem left_afterObtain (size : Nat) (payload : Bytes) (o : Obtain) :
    left size ⟨payload, afterObtain payload o⟩ ≤ o.left + 8 + 7 * size := by
  cases o with
  | got r =>
    simp only [left, afterObtain, Send.work, Obtain.left]
    omega
  | called | queued | ready | dialing | pausing | refused => simp [left, afterObtain, Obtain.left]

theorem newcomer_afterObtain (payload : Bytes) (o : Obtain) :
    newcomer ⟨payload, afterObtain payload o⟩ ≤ 1 ∧
      ∀ r, o = .got r → newcomer ⟨payload, afterObtain payload o⟩ = 0 := by
  cases o <;> simp [newcomer, afterObtain]

theorem left_afterSend (size : Nat) (payload : Bytes) (now retry : Nat) (r : Ref) (x : Send) :
    left size ⟨payload, afterSend now retry r x⟩ ≤ x.work size + 4 ∧
      newcomer ⟨payload, afterSend now retry r x⟩ = 0 := by
  rcases afterSend_cases now retry r x with heq | ⟨-, heq⟩ | ⟨_, -, heq | heq | heq⟩ <;>
    simp [left, newcomer, heq, Discard.left]

theorem left_afterDiscard (size : Nat) (payload : Bytes) (r : Ref) (d : Discard) :
    left size ⟨payload, afterDiscard r d⟩ ≤ d.left + 1 ∧
      newcomer ⟨payload, afterDiscard r d⟩ = 0 := by
  cases d <;> simp [left, newcomer, afterDiscard, Discard.left]

theorem winds {s s' : ClientSend} (h : s.step me now pick c w = some (c', w', s'))
    (closed : c.cancel.closed = true) (sender : c.sender.cancel.closed = true)
    (hsize : c.size ≤ size) :
    s'.left size < s.left size ∧ c'.size + s'.newcomer ≤ c.size + s.newcomer := by
  obtain ⟨payload, phase⟩ := s
  cases phase with
  | called =>
    rw [step] at h
    dsimp only at h
    split at h <;> obtain ⟨rfl, rfl, rfl⟩ := Option.some.inj h <;> simp [left, newcomer]
  | attempting | pausing =>
    rw [step] at h
    simp only [closed, if_true] at h
    obtain ⟨rfl, rfl, rfl⟩ := Option.some.inj h
    simp [left, newcomer]
  | obtaining o =>
    rw [step] at h
    dsimp only at h
    split at h
    · cases h
    · next o' hstep =>
      obtain ⟨rfl, rfl, rfl⟩ := Option.some.inj h
      obtain ⟨hless, hgrown⟩ := Obtain.winds hstep closed
      have hleft := left_afterObtain size payload o'
      obtain ⟨hone, hgot⟩ := newcomer_afterObtain payload o'
      refine ⟨?_, ?_⟩
      · change _ < o.left + 8 + 7 * size
        omega
      · change _ ≤ c.size + 1
        rcases hgrown with hsame | ⟨r, ho, hgrown⟩
        · omega
        · rw [hgot r ho]
          exact hgrown
  | sending r x =>
    rw [step] at h
    dsimp only at h
    split at h
    · cases h
    · next sender' _ x' hstep =>
      obtain ⟨rfl, rfl, rfl⟩ := Option.some.inj h
      have hmove := Send.move_of_step hstep
      have hless := hmove.work_of_closed sender hsize
      have hentries : sender'.registry.size ≤ c.size := hmove.entries.length_le
      obtain ⟨hleft, hnone⟩ := left_afterSend size payload now c.retry r x'
      refine ⟨?_, ?_⟩
      · change _ < x.work size + 4
        omega
      · rw [hnone]
        exact hentries
  | discarding r d =>
    rw [step] at h
    dsimp only at h
    split at h
    · cases h
    · next d' hstep =>
      obtain ⟨rfl, rfl, rfl⟩ := Option.some.inj h
      obtain ⟨hless, hshrunk⟩ := Discard.winds hstep
      obtain ⟨hleft, hnone⟩ := left_afterDiscard size payload r d'
      refine ⟨?_, ?_⟩
      · change _ < d.left + 1
        omega
      · rw [hnone]
        exact hshrunk
  | done => cases h

end ClientSend

namespace ClientListen

theorem left_afterObtain (o : Obtain) : (afterObtain o).left ≤ o.left + 2 := by
  cases o <;> simp [left, afterObtain, Listen.left, Obtain.left]

theorem left_afterDiscard (r : Ref) (d : Discard) : (afterDiscard r d).left ≤ d.left + 7 := by
  cases d <;> simp [left, afterDiscard, Discard.left, Obtain.left]

theorem winds {l l' : ClientListen} (h : l.step me now pick c w = some (c', w', l'))
    (closed : c.cancel.closed = true) (receiver : c.receiver.cancel.closed = true) :
    l'.left < l.left + 3 * ((ClientActivity.listen l).goesOn pick).toNat ∧
      c'.size ≤ c.size := by
  cases l with
  | obtaining o =>
    rw [step] at h
    split at h
    · cases h
    · next o' hstep =>
      obtain ⟨rfl, rfl, rfl⟩ := Option.some.inj h
      obtain ⟨hless, hgrown⟩ := Obtain.winds hstep closed
      refine ⟨Nat.lt_of_le_of_lt (left_afterObtain o') (Nat.add_lt_add_right hless 2), ?_⟩
      rcases hgrown with hsame | ⟨_, -, hgrown⟩
      · exact Nat.le_of_eq hsame
      · exact hgrown
  | listening r l =>
    rw [step] at h
    split at h
    · cases h
    · next l' hstep =>
      obtain ⟨rfl, rfl, rfl⟩ := Option.some.inj h
      have hless := Listen.left_lt_of_step hstep receiver
      refine ⟨?_, Nat.le_refl _⟩
      rw [ClientActivity.goesOn, afterListen, closed]
      split
      · exact hless
      · simp only [Bool.not_true, Bool.and_false, Bool.false_eq_true, if_false, left]
        omega
  | discarding r d =>
    rw [step] at h
    split at h
    · cases h
    · next d' hstep =>
      obtain ⟨rfl, rfl, rfl⟩ := Option.some.inj h
      obtain ⟨hless, hshrunk⟩ := Discard.winds hstep
      exact ⟨Nat.lt_of_le_of_lt (left_afterDiscard r d') (Nat.add_lt_add_right hless 7), hshrunk⟩
  | done => cases h

end ClientListen

theorem ClientClose.winds {x x' : ClientClose} (h : x.step me c w = some (c', w', x'))
    (closed : c.cancel.closed = true) : x'.left < x.left ∧ c'.size ≤ c.size := by
  cases x with
  | called =>
    rw [step, if_pos closed] at h
    obtain ⟨rfl, rfl, rfl⟩ := Option.some.inj h
    exact ⟨by simp [left], Nat.le_refl _⟩
  | released =>
    obtain ⟨rfl, rfl, rfl⟩ := Option.some.inj h
    exact ⟨by simp [left], Nat.le_refl _⟩
  | queued =>
    rw [step] at h
    split at h
    · obtain ⟨rfl, rfl, rfl⟩ := Option.some.inj h
      exact ⟨by simp [left], Nat.le_refl _⟩
    · cases h
  | done => cases h

namespace ClientActivity

variable {a a' : ClientActivity}

theorem left_mono {size' : Nat} (h : size' ≤ size) (a : ClientActivity) :
    a.left size' ≤ a.left size := by
  cases a with
  | send s =>
    simp only [left, ClientSend.left]
    split
    · exact Nat.le_refl _
    · exact Nat.le_refl _
    · exact Nat.le_refl _
    · omega
    · next x _ => exact Nat.add_le_add_right (x.work_mono h) 4
    · exact Nat.le_refl _
    · exact Nat.le_refl _
  | listen | close => exact Nat.le_refl _

/-- Every step of an activity of a closed client leaves it less to do, and registers a connection
only if it is one less that may come to be registered. -/
theorem winds (h : a.step me now pick c w = some (c', w', a')) (closed : c.cancel.closed = true)
    (sender : c.sender.cancel.closed = true) (receiver : c.receiver.cancel.closed = true)
    (hsize : c.size ≤ size) :
    a'.left size < a.left size + 3 * (a.goesOn pick).toNat ∧
      c'.size + a'.newcomer ≤ c.size + a.newcomer := by
  cases a with
  | send s =>
    obtain ⟨⟨_, _, s'⟩, hs, heq⟩ := Option.map_eq_some_iff.mp h
    obtain ⟨rfl, rfl, rfl⟩ := heq
    exact ClientSend.winds hs closed sender hsize
  | listen l =>
    obtain ⟨⟨_, _, l'⟩, hl, heq⟩ := Option.map_eq_some_iff.mp h
    obtain ⟨rfl, rfl, rfl⟩ := heq
    exact ClientListen.winds hl closed receiver
  | close x =>
    obtain ⟨⟨_, _, x'⟩, hx, heq⟩ := Option.map_eq_some_iff.mp h
    obtain ⟨rfl, rfl, rfl⟩ := heq
    exact ClientClose.winds hx closed

/-- So does the end of a dial. -/
theorem winds_answerDial (hdialing : a.dialing = true) (now : Nat) (dialed : Option Ref)
    (c : Client) (w : Wire) (size : Nat) :
    (a.answerDial now dialed c w).2.left size < a.left size ∧
      (a.answerDial now dialed c w).1.size + (a.answerDial now dialed c w).2.newcomer ≤
        c.size + a.newcomer := by
  rcases eq_of_dialing hdialing with ⟨payload, rfl⟩ | rfl
  · cases dialed with
    | none =>
      refine ⟨?_, Nat.le_refl _⟩
      simp [answerDial, Obtain.answer, ClientSend.afterObtain, left, ClientSend.left, Obtain.left]
    | some r =>
      refine ⟨?_, Obtain.size_finish true r { c with slot := some r } w⟩
      simp only [answerDial, Obtain.answer, Obtain.finish, ClientSend.afterObtain, left,
        ClientSend.left, Obtain.left, Send.work]
      omega
  · cases dialed with
    | none =>
      refine ⟨?_, Nat.le_refl _⟩
      simp [answerDial, Obtain.answer, ClientListen.afterObtain, left, ClientListen.left,
        Obtain.left]
    | some r =>
      refine ⟨?_, Obtain.size_finish false r { c with slot := some r } w⟩
      simp [answerDial, Obtain.answer, Obtain.finish, ClientListen.afterObtain, left,
        ClientListen.left, Obtain.left, Listen.left]

end ClientActivity

end Activities

namespace Exchange

/-- As many connections as may come to be registered, with those that are. -/
def size (p : Exchange) : Nat :=
  p.client.size + (p.clients.map ClientActivity.newcomer).sum

/-- The steps that are left to the activities of a closed client. -/
def left (p : Exchange) : Nat := (p.clients.map (ClientActivity.left p.size)).sum

/-- The steps of the activities of the client in a run, and the ends of their dials. -/
def advanced (p : Exchange) (events : List Event) : Nat := tally apply advances p events

/-- Whether a reading of the client, where it finds the client closed, goes on in an event if it
can. -/
def overrunsAt (p : Exchange) : Event → Bool
  | .move place pick => (p.clientAt? place).any (·.goesOn pick)
  | _ => false

/-- How often that is so in the course of a run. -/
def overruns (p : Exchange) (events : List Event) : Nat := tally apply overrunsAt p events

/-- How often something is asked of the client. -/
def calls (events : List Event) : Nat := events.countP (·.begun?.isSome)

variable {p p' : Exchange} {e : Event} {place : Nat} {a a' : ClientActivity}

/-- When less is left to one activity, less is left to all. -/
theorem left_lt_of_set (ha : p.clientAt? place = some a)
    (hset : p'.activities = p.activities.set place (.client a')) {more : Nat}
    (hleft : a'.left p.size < a.left p.size + more)
    (hsize : p'.client.size + a'.newcomer ≤ p.client.size + a.newcomer) :
    p'.left < p.left + more := by
  obtain ⟨before, behind, hsplit, hbecomes⟩ := exists_clients_around ha
  have hsplit' := hbecomes p' a' hset
  have hsize : p'.size ≤ p.size := by
    simp only [size, hsplit, hsplit', List.map_append, List.map_cons, List.sum_append,
      List.sum_cons]
    omega
  have hmono : p'.left ≤ (p'.clients.map (ClientActivity.left p.size)).sum :=
    List.sum_le_sum fun b _ => b.left_mono hsize
  refine Nat.lt_of_le_of_lt hmono ?_
  simp only [left, hsplit, hsplit', List.map_append, List.map_cons, List.sum_append, List.sum_cons]
  omega

/-- An activity that has only begun will be refused soon. -/
theorem left_of_begun (h : e.begun? = some a) (size : Nat) :
    a.left size ≤ 7 ∧ a.newcomer = 0 ∧ p.advances e = false := by
  cases e with
  | send | read | close =>
    obtain rfl := Option.some.inj h
    simp [ClientActivity.left, ClientSend.left, ClientListen.left, ClientClose.left, Obtain.left,
      ClientActivity.newcomer, ClientSend.newcomer, advances]
  | move | answer | elapse | occur | disconnect | attach | listen | closePeer => cases h

theorem left_apply (kept : p.client.Kept p.wire p.stance) (closed : p.client.cancel.closed = true)
    (e : Event) : (p.apply e).left + (p.advances e).toNat ≤
      p.left + 7 * e.begun?.isSome.toNat + 3 * (p.overrunsAt e).toNat := by
  have hone (b : Bool) : b.toNat ≤ 1 := Bool.toNat_le b
  have heffect := p.effect_apply e
  generalize p.apply e = p' at heffect
  cases heffect with
  | @step place pick a _ he ha hstep hset =>
    obtain ⟨hless, hsize⟩ := ClientActivity.winds hstep closed (kept.closing.sender.trans closed)
      (kept.closing.receiver.trans closed) (Nat.le_add_right p.client.size _)
    have hleft := left_lt_of_set ha hset hless hsize
    have hover : p.overrunsAt e = a.goesOn pick := by rw [he, overrunsAt, ha, Option.any_some]
    have := hone (p.advances e)
    rw [hover]
    omega
  | @link place near far a _ ha hdialing _ hclient hset =>
    obtain ⟨hless, hsize⟩ := ClientActivity.winds_answerDial hdialing p.now
      (some (Exchange.link p.wire near far).1) p.client p'.wire p.size
    have hleft := left_lt_of_set ha hset (Nat.lt_add_right 0 hless) (by rw [hclient]; exact hsize)
    have := hone (p.advances e)
    omega
  | fail _ ha hdialing _ hclient hset =>
    obtain ⟨hless, hsize⟩ :=
      ClientActivity.winds_answerDial hdialing p.now none p.client p.wire p.size
    rw [ClientActivity.client_answerDial_none hdialing] at hsize
    have hleft := left_lt_of_set ha hset (Nat.lt_add_right 0 hless) (hclient.symm ▸ hsize)
    have := hone (p.advances e)
    omega
  | @begin a hbegun hclient _ happend =>
    obtain ⟨hleft, hnewcomer, hstill⟩ := left_of_begun (p := p) hbegun p.size
    have hclients : p'.clients = p.clients ++ [a] := clients_of_append happend
    have hsize : p'.size = p.size := by
      simp [size, hclients, hclient, hnewcomer]
    rw [left, hsize, hclients, hbegun, hstill, List.map_append, List.sum_append, List.map_singleton,
      List.sum_singleton, Option.isSome_some, Bool.toNat_true, Bool.toNat_false, left]
    omega
  | around hbegun hstill hclient _ _ _ hclients =>
    have hsize : p'.size = p.size := by rw [size, hclients, hclient, size]
    rw [left, hsize, hclients, hstill, left, Bool.toNat_false]
    omega

/-- Only so many steps are taken once the client was closed, whatever the peers do meanwhile, and
only a few more for whatever is asked of the client, and whenever a reading goes on although it
might return. -/
theorem advanced_le_left {events : List Event} (kept : p.client.Kept p.wire p.stance)
    (closed : p.client.cancel.closed = true) (provided : Along apply Provides p events) :
    (p.applyAll events).left + p.advanced events ≤
      p.left + 7 * calls events + 3 * p.overruns events := by
  induction events generalizing p with
  | nil => exact Nat.le_refl _
  | cons e rest ih =>
    obtain ⟨hprovides, hrest⟩ := provided
    have hstep := left_apply kept closed e
    have hmore := ih (kept_apply kept hprovides) (closed_apply closed e) hrest
    have hcalls : calls (e :: rest) = calls rest + e.begun?.isSome.toNat := by
      rw [calls, List.countP_cons, calls]
      cases e.begun?.isSome <;> rfl
    rw [advanced, overruns] at hmore ⊢
    rw [tally, tally, hcalls]
    change ((p.apply e).applyAll rest).left + _ ≤ _
    omega

end Exchange

end BlockFeed
