import BlockFeed.Proofs.Client.Effects
import BlockFeed.Proofs.Pipeline.Blocked

/-!
# The line of a client's sender

The attempts of a client stand in the line of its sender, and its activities do not go on with what
is over.

## Main definitions

* `Sender.Lined`: the sends at places stand in the line of their sender.
* `ClientActivity.Proper`: an activity does not go on with what is over.
* `Exchange.Standing`: this is so in an exchange.

## Main results

* `Exchange.Standing.apply`: every event leaves the activities standing.
-/

namespace BlockFeed

namespace Sender

/-- The sends at places stand in a line, and one that waits for acknowledgments has not got them
all. -/
structure Lined (line : List Nat) (sends : Nat → Option Send) : Prop where
  inTurn : InTurn line sends (fun x => ∃ y ∈ x, y.InLine) fun x => ∃ y ∈ x, y.HasTurn
  pends : ∀ q, ∀ x ∈ sends q, x.Pends

namespace Lined

variable {line : List Nat} {sends : Nat → Option Send} {me pick : Nat}

/-- Whoever was not in line and does not join it changes nothing. -/
theorem aside (h : Lined line sends) {x : Option Send} (out : ∀ y ∈ sends me, ¬y.InLine)
    (hx : ∀ y ∈ x, y.phase = .called) : Lined line (Function.update sends me x) where
  inTurn := by
    have hout : ∀ y ∈ x, ¬y.InLine := fun y hy hline => by rwa [Send.InLine, hx y hy] at hline
    refine h.inTurn.stay (iff_of_false ?_ ?_) ?_
    · rintro ⟨y, hy, hline⟩
      exact hout y hy hline
    · rintro ⟨y, hy, hline⟩
      exact out y hy hline
    · rintro ⟨y, hy, hturn⟩
      exact absurd hturn.inLine (hout y hy)
  pends q y hy := by
    by_cases hq : q = me
    · rw [hq, Function.update_self] at hy
      intro counter waits failures hp
      cases (hx y hy).symm.trans hp
    · rw [Function.update_of_ne hq] at hy
      exact h.pends q y hy

/-- After a step of a send, it stands in line or has left it; one that is done may be forgotten. -/
theorem move (h : Lined line sends) {s s' : Sender} {w w' : Wire} {x x' : Send} {b : Option Send}
    (hline : s.line = line) (hx : sends me = some x) (hmove : Send.Move me pick s w x s' w' x')
    (hb : b = some x' ∨ (b = none ∧ ∃ result, x'.phase = .done result)) :
    Lined s'.line (Function.update sends me b) := by
  subst hline
  have hstands : (∃ y ∈ sends me, y.InLine) ↔ x.InLine := by simp [hx]
  have hfirst (hturn : x.HasTurn) := h.inTurn.first me ⟨x, hx, hturn⟩
  have hin : (∃ y ∈ b, y.InLine) ↔ x'.InLine := by
    rcases hb with rfl | ⟨rfl, result, hdone⟩ <;> simp [Send.InLine, *]
  have hturn : (∃ y ∈ b, y.HasTurn) ↔ x'.HasTurn := by
    rcases hb with rfl | ⟨rfl, result, hdone⟩ <;> simp [Send.HasTurn, *]
  refine ⟨?_, fun q y hy => ?_⟩
  · cases hmove.line hfirst with
    | stay hsame hiff hhead =>
      rw [hsame]
      exact h.inTurn.stay (hin.trans (hiff.trans hstands.symm)) fun hy => hhead (hturn.mp hy)
    | join hcalled hqueued hjoin =>
      rw [hjoin]
      refine h.inTurn.join ?_ (hin.mpr ?_) (mt hturn.mp ?_)
      · rw [hstands, Send.InLine, hcalled]
        exact id
      · rw [Send.InLine, hqueued]
        trivial
      · rw [Send.HasTurn, hqueued]
        exact id
    | leave _ hout htail hhead =>
      rw [htail]
      exact h.inTurn.leave hhead (mt hin.mp hout) fun hy => hout (hturn.mp hy).inLine
  · by_cases hq : q = me
    · rw [hq, Function.update_self] at hy
      rcases hb with rfl | ⟨rfl, -⟩
      · obtain rfl := Option.some.inj hy
        exact hmove.pends
      · cases hy
    · rw [Function.update_of_ne hq] at hy
      exact h.pends q y hy

end Lined

end Sender

section Activities

variable {me now pick : Nat} {c c' : Client} {w w' : Wire} {a a' : ClientActivity}

theorem ClientClose.senderLine_of_step {x x' : ClientClose}
    (h : x.step me c w = some (c', w', x')) : c'.sender.line = c.sender.line := by
  cases x with
  | called =>
    rw [step] at h
    split at h <;> obtain ⟨rfl, rfl, rfl⟩ := Option.some.inj h <;> rfl
  | released =>
    obtain ⟨rfl, rfl, rfl⟩ := Option.some.inj h
    rfl
  | queued =>
    rw [step] at h
    split at h
    · obtain ⟨rfl, rfl, rfl⟩ := Option.some.inj h
      rfl
    · cases h
  | done => cases h

theorem ClientSend.send?_afterObtain (payload : Bytes) (o : Obtain) :
    ∀ y ∈ send? ⟨payload, afterObtain payload o⟩, y.phase = .called := by
  intro y hy
  rcases afterObtain_cases payload o with ⟨r, -, heq⟩ | heq | heq <;> rw [send?, heq] at hy
  · obtain rfl := Option.some.inj hy
    rfl
  all_goals cases hy

/-- An attempt that is done is not in hand any more. -/
theorem ClientSend.send?_afterSend (payload : Bytes) (now retry : Nat) (r : Ref) (x : Send) :
    send? ⟨payload, afterSend now retry r x⟩ = some x ∨
      (send? ⟨payload, afterSend now retry r x⟩ = none ∧ ∃ result, x.phase = .done result) := by
  rcases afterSend_cases now retry r x with heq | ⟨hdone, heq⟩ | ⟨e, hdone, heq | heq | heq⟩
  · exact .inl (by rw [send?, heq])
  all_goals exact .inr ⟨by rw [send?, heq], _, hdone⟩

theorem ClientSend.send?_afterDiscard (payload : Bytes) (r : Ref) (d : Discard) :
    send? ⟨payload, afterDiscard r d⟩ = none := by
  cases d <;> rfl

namespace ClientActivity

def send? : ClientActivity → Option Send
  | send s => s.send?
  | listen _ | close _ => none

/-- A step of an activity leaves the sends in the line of their sender. -/
theorem lined_step {sends : Nat → Option Send} (h : a.step me now pick c w = some (c', w', a'))
    (lined : Sender.Lined c.sender.line sends) (ha : sends me = a.send?) :
    Sender.Lined c'.sender.line (Function.update sends me a'.send?) := by
  have haside {x : Option Send} (hline : c'.sender.line = c.sender.line) (hnone : a.send? = none)
      (hx : ∀ y ∈ x, y.phase = .called) :
      Sender.Lined c'.sender.line (Function.update sends me x) := by
    rw [hline]
    refine lined.aside (fun y hy => ?_) hx
    rw [ha, hnone] at hy
    cases hy
  have hnothing : ∀ y ∈ (none : Option Send), y.phase = .called := fun y hy => by cases hy
  cases a with
  | send s =>
    obtain ⟨⟨_, _, s'⟩, hs, heq⟩ := Option.map_eq_some_iff.mp h
    obtain ⟨rfl, rfl, rfl⟩ := heq
    cases ClientSend.move_of_step hs with
    | refuse hp =>
      refine haside rfl ?_ hnothing
      rcases hp with ⟨hp, -⟩ | ⟨⟨hp | ⟨_, hp⟩, -⟩, -⟩ <;> rw [send?, ClientSend.send?, hp]
    | attempt hp =>
      refine haside rfl ?_ hnothing
      rcases hp with hp | ⟨_, hp⟩ <;> rw [send?, ClientSend.send?, hp]
    | call hp => exact haside rfl (by rw [send?, ClientSend.send?, hp]) hnothing
    | obtain hp htends =>
      exact haside htends.senderLine (by rw [send?, ClientSend.send?, hp])
        (ClientSend.send?_afterObtain _ _)
    | send hp hmove =>
      exact lined.move rfl (ha.trans (by rw [send?, ClientSend.send?, hp])) hmove
        (ClientSend.send?_afterSend _ _ _ _ _)
    | discard hp htends =>
      refine haside htends.senderLine (by rw [send?, ClientSend.send?, hp]) ?_
      rw [send?, ClientSend.send?_afterDiscard]
      exact hnothing
  | listen l =>
    obtain ⟨⟨_, _, l'⟩, hl, heq⟩ := Option.map_eq_some_iff.mp h
    obtain ⟨rfl, rfl, rfl⟩ := heq
    refine haside ?_ rfl hnothing
    cases ClientListen.move_of_step hl with
    | tend htends => exact htends.senderLine
    | read => rfl
  | close x =>
    obtain ⟨⟨_, _, x'⟩, hx, heq⟩ := Option.map_eq_some_iff.mp h
    obtain ⟨rfl, rfl, rfl⟩ := heq
    exact haside (ClientClose.senderLine_of_step hx) rfl hnothing

/-- What obtaining the connection, an attempt, a reading or giving the connection up has come to is
not over while the activity goes on with it. -/
def Proper : ClientActivity → Prop
  | send s =>
    match s.phase with
    | .obtaining o => (∀ r, o ≠ .got r) ∧ o ≠ .refused
    | .sending _ x => x.result? = none
    | .discarding _ d => d ≠ .done
    | .called | .attempting | .pausing _ | .done _ => True
  | listen l =>
    match l with
    | .obtaining o => (∀ r, o ≠ .got r) ∧ o ≠ .refused
    | .listening _ l => l.result? = none
    | .discarding _ d => d ≠ .done
    | .done => True
  | close _ => True

theorem proper_afterObtain (payload : Bytes) (o : Obtain) :
    (send ⟨payload, ClientSend.afterObtain payload o⟩).Proper ∧
      (listen (ClientListen.afterObtain o)).Proper := by
  cases o with
  | got | refused => exact ⟨by trivial, by trivial⟩
  | called | queued | ready | dialing | pausing => exact ⟨⟨nofun, nofun⟩, nofun, nofun⟩

theorem proper_afterDiscard (payload : Bytes) (r : Ref) (d : Discard) :
    (send ⟨payload, ClientSend.afterDiscard r d⟩).Proper ∧
      (listen (ClientListen.afterDiscard r d)).Proper := by
  cases d with
  | done => exact ⟨trivial, nofun, nofun⟩
  | called | queued | cleared => exact ⟨nofun, nofun⟩

theorem proper_afterSend (payload : Bytes) (now retry : Nat) (r : Ref) (x : Send) :
    (send ⟨payload, ClientSend.afterSend now retry r x⟩).Proper := by
  rw [ClientSend.afterSend]
  split
  · assumption
  · trivial
  · trivial
  · split
    · intro hdone
      cases hdone
    · trivial

theorem proper_step (h : a.step me now pick c w = some (c', w', a')) : a'.Proper := by
  cases a with
  | send s =>
    obtain ⟨⟨_, _, s'⟩, hs, heq⟩ := Option.map_eq_some_iff.mp h
    obtain ⟨rfl, rfl, rfl⟩ := heq
    cases ClientSend.move_of_step hs with
    | refuse | attempt => trivial
    | call => exact (proper_afterObtain [] .called).2
    | obtain => exact (proper_afterObtain _ _).1
    | send => exact proper_afterSend _ _ _ _ _
    | discard => exact (proper_afterDiscard _ _ _).1
  | listen l =>
    obtain ⟨⟨_, _, l'⟩, hl, heq⟩ := Option.map_eq_some_iff.mp h
    obtain ⟨rfl, rfl, rfl⟩ := heq
    cases l with
    | obtaining o =>
      rw [ClientListen.step] at hl
      split at hl
      · cases hl
      · obtain ⟨rfl, rfl, rfl⟩ := Option.some.inj hl
        exact (proper_afterObtain [] _).2
    | listening r l =>
      rw [ClientListen.step] at hl
      split at hl
      · cases hl
      · obtain ⟨rfl, rfl, rfl⟩ := Option.some.inj hl
        rw [ClientListen.afterListen]
        split
        · assumption
        · split
          · intro hdone
            cases hdone
          · trivial
    | discarding r d =>
      rw [ClientListen.step] at hl
      split at hl
      · cases hl
      · obtain ⟨rfl, rfl, rfl⟩ := Option.some.inj hl
        exact (proper_afterDiscard [] r _).2
    | done => cases hl
  | close x =>
    obtain ⟨⟨_, _, x'⟩, hx, heq⟩ := Option.map_eq_some_iff.mp h
    obtain ⟨rfl, rfl, rfl⟩ := heq
    trivial

/-- The end of a dial leaves the line of the sender as it is, and what follows is no more than an
attempt that has not begun. -/
theorem of_answerDial (hdialing : a.dialing = true) (now : Nat) (dialed : Option Ref) (c : Client)
    (w : Wire) : (a.answerDial now dialed c w).1.sender.line = c.sender.line ∧ a.send? = none ∧
      (∀ y ∈ (a.answerDial now dialed c w).2.send?, y.phase = .called) ∧
      (a.answerDial now dialed c w).2.Proper := by
  have hline (register : Bool) :
      (Obtain.answer now register dialed c w .dialing).1.sender.line = c.sender.line := by
    cases dialed with
    | none => rfl
    | some r =>
      exact (Obtain.tends_finish (c := { c with slot := some r }) register w rfl).senderLine
  rcases eq_of_dialing hdialing with ⟨payload, rfl⟩ | rfl
  · exact ⟨hline true, rfl, ClientSend.send?_afterObtain _ _, (proper_afterObtain _ _).1⟩
  · exact ⟨hline false, rfl, nofun, (proper_afterObtain [] _).2⟩

end ClientActivity

end Activities

namespace Exchange

/-- The activities of the client stand in the line of its sender, and none goes on with what is
over. -/
structure Standing (p : Exchange) : Prop where
  lined : Sender.Lined p.client.sender.line p.sendAt?
  proper : ∀ place a, p.clientAt? place = some a → a.Proper

variable {p p' : Exchange} {e : Event} {place : Nat} {a a' : ClientActivity}

theorem sendAt?_eq (p : Exchange) (place : Nat) :
    p.sendAt? place = (p.clientAt? place).bind (·.send?) := by
  rw [sendAt?, callAt?, clientAt?]
  cases p.activities[place]? with
  | none => rfl
  | some b =>
    cases b with
    | client a => cases a <;> rfl
    | peer => rfl

theorem sendAt?_of_set (ha : p.clientAt? place = some a)
    (h : p'.activities = p.activities.set place (.client a')) :
    p'.sendAt? = Function.update p.sendAt? place a'.send? := by
  have hlt := (List.getElem?_eq_some_iff.mp (clientAt?_eq_some.mp ha)).1
  funext q
  rw [sendAt?_eq, clientAt?_of_set hlt h]
  by_cases hq : q = place
  · rw [if_pos hq, hq, Function.update_self]
    rfl
  · rw [if_neg hq, Function.update_of_ne hq, sendAt?_eq]

namespace Standing

theorem set (h : p.Standing) (ha : p.clientAt? place = some a)
    (hset : p'.activities = p.activities.set place (.client a'))
    (lined : Sender.Lined p'.client.sender.line (Function.update p.sendAt? place a'.send?))
    (proper : a'.Proper) : p'.Standing where
  lined := by
    rw [sendAt?_of_set ha hset]
    exact lined
  proper q b hb := by
    have hlt := (List.getElem?_eq_some_iff.mp (clientAt?_eq_some.mp ha)).1
    rw [clientAt?_of_set hlt hset] at hb
    split at hb
    · obtain rfl := Option.some.inj hb
      exact proper
    · exact h.proper q b hb

/-- Every event leaves the activities in their lines. -/
theorem apply (h : p.Standing) (e : Event) : (p.apply e).Standing := by
  have heffect := p.effect_apply e
  generalize p.apply e = p' at heffect
  cases heffect with
  | step _ ha hstep hset =>
    refine h.set ha hset (ClientActivity.lined_step hstep h.lined ?_)
      (ClientActivity.proper_step hstep)
    rw [sendAt?_eq, ha]
    rfl
  | @link place near far a _ ha hdialing _ hclient hset =>
    obtain ⟨hline, hnone, hcalled, hproper⟩ := ClientActivity.of_answerDial hdialing p.now
      (some (Exchange.link p.wire near far).1) p.client p'.wire
    refine h.set ha hset ?_ hproper
    rw [hclient, hline]
    refine h.lined.aside ?_ hcalled
    rw [sendAt?_eq, ha, Option.bind_some, hnone]
    exact nofun
  | fail _ ha hdialing _ hclient hset =>
    obtain ⟨-, hnone, hcalled, hproper⟩ :=
      ClientActivity.of_answerDial hdialing p.now none p.client p.wire
    refine h.set ha hset ?_ hproper
    rw [hclient]
    refine h.lined.aside ?_ hcalled
    rw [sendAt?_eq, ha, Option.bind_some, hnone]
    exact nofun
  | @begin a hbegun hclient _ happend =>
    have hbegin : a.send? = none ∧ a.Proper := by
      cases e with
      | send | close =>
        obtain rfl := Option.some.inj hbegun
        exact ⟨rfl, trivial⟩
      | read =>
        obtain rfl := Option.some.inj hbegun
        exact ⟨rfl, nofun, nofun⟩
      | move | answer | elapse | occur | disconnect | attach | listen | closePeer => cases hbegun
    have hsend : p'.sendAt? = p.sendAt? := by
      funext q
      rw [sendAt?_eq, clientAt?_of_append happend, sendAt?_eq]
      split
      · next hq =>
        rw [hq, p.clientAt?_length]
        exact hbegin.1
      · rfl
    refine ⟨by rw [hsend, hclient]; exact h.lined, fun q b hb => ?_⟩
    rw [clientAt?_of_append happend] at hb
    split at hb
    · obtain rfl := Option.some.inj hb
      exact hbegin.2
    · exact h.proper q b hb
  | around _ _ hclient _ _ hclients =>
    have hsend : p'.sendAt? = p.sendAt? := by
      funext q
      rw [sendAt?_eq, hclients, sendAt?_eq]
    refine ⟨by rw [hsend, hclient]; exact h.lined, fun q b hb => h.proper q b ?_⟩
    rwa [← hclients]

end Standing

end Exchange

end BlockFeed
