import BlockFeed.Proofs.Client.Kept

/-!
# Effects on a client

What everything that may happen in an exchange does to the client and its activities, whatever it
does to the peers.

## Main definitions

* `Exchange.clientAt?`: the activity of the client at a place.
* `Exchange.Provides`: connections are dialed under ids of their own, and do not open again.
* `Exchange.Effect`: what an event does to the client, the wire and the activities of the client.

## Main results

* `Exchange.effect_apply`: every event has one of these effects.
* `Exchange.kept_apply`: every event leaves the client kept.
-/

namespace BlockFeed

instance : DecidablePred Near := fun place => inferInstanceAs (Decidable (place % 2 = 0))

def ExchangeActivity.client? : ExchangeActivity → Option ClientActivity
  | .client a => some a
  | .peer _ _ => none

/-- A dial that has failed changes nothing of the client. -/
theorem ClientActivity.client_answerDial_none {a : ClientActivity} (hdialing : a.dialing = true)
    (now : Nat) (c : Client) (w : Wire) : (a.answerDial now none c w).1 = c := by
  rcases eq_of_dialing hdialing with ⟨payload, rfl⟩ | rfl <;> rfl

namespace Exchange

/-- The activity of the client that an event asks for. -/
def Event.begun? : Event → Option ClientActivity
  | .send payload => some (.send ⟨payload, .called⟩)
  | .read => some (.listen (.obtaining .called))
  | .close => some (.close .called)
  | .move .. | .answer .. | .elapse _ | .occur .. | .disconnect _ | .attach _ | .listen ..
  | .closePeer _ => none

/-- The activities of the client, from the first that began to the last. -/
def clients (p : Exchange) : List ClientActivity := p.activities.filterMap (·.client?)

def clientAt? (p : Exchange) (place : Nat) : Option ClientActivity :=
  (p.activities[place]?).bind (·.client?)

/-- How the activity at a place stands to the slot. -/
def stance (p : Exchange) (place : Nat) : Stance := (p.clientAt? place).elim .aside (·.stance)

/-- What dials and peers keep to: a connection that is dialed has an id of its own, and no
connection opens again. -/
def Provides (p : Exchange) : Event → Prop
  | .answer _ (some (near, _)) =>
    ∀ f < p.wire.connections.length, Near f → (p.wire.conn f).id ≠ near.id
  | .occur _ o => o ≠ .setOpen true
  | .answer _ none | .move .. | .elapse _ | .disconnect _ | .attach _ | .listen .. | .closePeer _
  | .send _ | .read | .close => True

instance (p : Exchange) : DecidablePred p.Provides
  | .answer _ (some (near, _)) => inferInstanceAs
    (Decidable (∀ f < p.wire.connections.length, Near f → (p.wire.conn f).id ≠ near.id))
  | .occur _ o => inferInstanceAs (Decidable (o ≠ .setOpen true))
  | .answer _ none | .move .. | .elapse _ | .disconnect _ | .attach _ | .listen .. | .closePeer _
  | .send _ | .read | .close => isTrue trivial

/-- An activity of the client takes a step in an event, or a dial of it comes to its end. -/
def advances (p : Exchange) : Event → Bool
  | .move place pick => (p.clientAt? place).isSome && (p.move place pick).isSome
  | .answer place _ => (p.clientAt? place).any (·.dialing)
  | .elapse _ | .occur .. | .disconnect _ | .attach _ | .listen .. | .closePeer _ | .send _ | .read
  | .close => false

variable {p p' : Exchange} {e : Event} {place : Nat} {a : ClientActivity}

theorem clientAt?_eq_some :
    p.clientAt? place = some a ↔ p.activities[place]? = some (.client a) := by
  rw [clientAt?, Option.bind_eq_some_iff]
  constructor
  · rintro ⟨b, hb, hclient⟩
    cases b with
    | client b =>
      obtain rfl := Option.some.inj hclient
      exact hb
    | peer => cases hclient
  · exact fun ha => ⟨_, ha, rfl⟩

theorem mem_clients : a ∈ p.clients ↔ ∃ place, p.clientAt? place = some a := by
  rw [clients, List.mem_filterMap]
  constructor
  · rintro ⟨b, hmem, hclient⟩
    obtain ⟨place, hb⟩ := List.mem_iff_getElem?.mp hmem
    exact ⟨place, by rw [clientAt?, hb]; exact hclient⟩
  · intro ⟨place, ha⟩
    exact ⟨_, List.mem_of_getElem? (clientAt?_eq_some.mp ha), rfl⟩

theorem clientAt?_of_set {b : ExchangeActivity} (hlt : place < p.activities.length)
    (h : p'.activities = p.activities.set place b) (q : Nat) :
    p'.clientAt? q = if q = place then b.client? else p.clientAt? q := by
  rw [clientAt?, h]
  split
  · next hq =>
    subst hq
    rw [List.getElem?_set_self hlt]
    rfl
  · next hq => rw [List.getElem?_set_ne (Ne.symm hq), clientAt?]

/-- An activity of the client has others before and behind it, also after it has changed. -/
theorem exists_clients_around (ha : p.clientAt? place = some a) : ∃ before behind,
    p.clients = before ++ a :: behind ∧ ∀ (p' : Exchange) (a' : ClientActivity),
      p'.activities = p.activities.set place (.client a') →
        p'.clients = before ++ a' :: behind := by
  obtain ⟨before, behind, hsplit, hset⟩ := exists_around (clientAt?_eq_some.mp ha)
  refine ⟨before.filterMap (·.client?), behind.filterMap (·.client?), ?_, fun p' a' h => ?_⟩
  · rw [clients, hsplit, List.filterMap_append]
    rfl
  · rw [clients, h, hset, List.filterMap_append]
    rfl

theorem clientAt?_of_append {b : ExchangeActivity} (h : p'.activities = p.activities ++ [b])
    (q : Nat) :
    p'.clientAt? q = if q = p.activities.length then b.client? else p.clientAt? q := by
  rw [clientAt?, h, List.getElem?_append, clientAt?]
  split
  · next hlt => rw [if_neg (Nat.ne_of_lt hlt)]
  · next hge =>
    have hge := Nat.le_of_not_lt hge
    rw [List.getElem?_eq_none hge, List.getElem?_singleton]
    have hlast : q - p.activities.length = 0 ↔ q = p.activities.length := by omega
    simp only [hlast]
    split <;> rfl

theorem clientAt?_length (p : Exchange) : p.clientAt? p.activities.length = none := by
  rw [clientAt?, List.getElem?_eq_none (Nat.le_refl _)]
  rfl

theorem clients_of_append {b : ExchangeActivity} (h : p'.activities = p.activities ++ [b]) :
    p'.clients = p.clients ++ b.client?.toList := by
  rw [clients, h, List.filterMap_append, clients]
  cases b <;> rfl

/-- What an event does to the client, the wire and the activities of the client. -/
inductive Effect (p : Exchange) (e : Event) (p' : Exchange) : Prop where
  /-- An activity of the client takes a step. -/
  | step {place pick : Nat} {a a' : ClientActivity} : e = .move place pick →
      p.clientAt? place = some a →
      a.step place p.now pick p.client p.wire = some (p'.client, p'.wire, a') →
      p'.activities = p.activities.set place (.client a') → Effect p e p'
  /-- A dial has succeeded. -/
  | link {place : Nat} {near far : Connection} {a : ClientActivity} :
      e = .answer place (some (near, far)) → p.clientAt? place = some a → a.dialing = true →
      p'.wire = (link p.wire near far).2 →
      p'.client = (a.answerDial p.now (some (link p.wire near far).1) p.client p'.wire).1 →
      p'.activities = p.activities.set place
        (.client (a.answerDial p.now (some (link p.wire near far).1) p.client p'.wire).2) →
      Effect p e p'
  /-- A dial has failed. -/
  | fail {place : Nat} {a : ClientActivity} : e = .answer place none →
      p.clientAt? place = some a → a.dialing = true → p'.wire = p.wire → p'.client = p.client →
      p'.activities = p.activities.set place
        (.client (a.answerDial p.now none p.client p.wire).2) → Effect p e p'
  /-- An activity of the client begins. -/
  | begin {a : ClientActivity} : e.begun? = some a → p'.client = p.client → p'.wire = p.wire →
      p'.activities = p.activities ++ [.client a] → Effect p e p'
  /-- The activities of the client have no part in it. -/
  | around : e.begun? = none → p.advances e = false → p'.client = p.client →
      p'.wire.connections.length = p.wire.connections.length →
      (p.Provides e → p.wire.Wanes p'.wire) → (∀ q, p'.clientAt? q = p.clientAt? q) →
      p'.clients = p.clients → Effect p e p'

theorem effect_move (p : Exchange) (place pick : Nat) :
    p.Effect (.move place pick) (p.apply (.move place pick)) := by
  cases hmove : p.move place pick with
  | none =>
    have hsame : p.apply (.move place pick) = p := by rw [apply, hmove, Option.getD_none]
    rw [hsame]
    exact .around rfl (by simp [advances, hmove]) rfl rfl (fun _ => .refl _) (fun _ => rfl) rfl
  | some p' =>
    have happly : p.apply (.move place pick) = p' := by rw [apply, hmove, Option.getD_some]
    rw [happly]
    rw [move] at hmove
    split at hmove
    · next a ha =>
      obtain ⟨⟨client, wire, a'⟩, hstep, rfl⟩ := Option.map_eq_some_iff.mp hmove
      exact .step rfl (clientAt?_eq_some.mpr ha) hstep rfl
    · next i l hl =>
      have hnone : p.clientAt? place = none := by
        rw [clientAt?, hl]
        rfl
      split at hmove
      · cases hmove
      next r hr =>
      obtain ⟨⟨r', wire, l'⟩, hstep, rfl⟩ := Option.map_eq_some_iff.mp hmove
      have hwanes := (Listen.move_of_step hstep).used.wanes
      refine .around rfl (by simp [advances, hnone]) rfl hwanes.size (fun _ => hwanes)
        (fun q => ?_) (filterMap_set_of_eq hl rfl)
      rw [clientAt?_of_set (List.getElem?_eq_some_iff.mp hl).1 rfl]
      split
      · next hq => rw [hq, hnone]; rfl
      · rfl
    · cases hmove

theorem effect_answer (p : Exchange) (place : Nat) (ends : Option (Connection × Connection)) :
    p.Effect (.answer place ends) (p.apply (.answer place ends)) := by
  have hstay (hnone : (p.clientAt? place).any (·.dialing) = false) :
      p.Effect (.answer place ends) p :=
    .around rfl hnone rfl rfl (fun _ => .refl _) (fun _ => rfl) rfl
  rw [apply, answer]
  split
  · next a ha =>
    have hclient := clientAt?_eq_some.mpr ha
    split
    · next hdialing =>
      cases ends with
      | none =>
        exact .fail rfl hclient hdialing rfl
          (ClientActivity.client_answerDial_none hdialing _ _ _) rfl
      | some ends => exact .link rfl hclient hdialing rfl rfl rfl
    · next hnot => exact hstay (by simp [hclient, hnot])
  · next hnot =>
    refine hstay ?_
    cases hclient : p.clientAt? place with
    | none => rfl
    | some a => exact absurd (clientAt?_eq_some.mp hclient) (hnot a)

/-- Every event has one of these effects. -/
theorem effect_apply (p : Exchange) (e : Event) : p.Effect e (p.apply e) := by
  have haround {e : Event} {p' : Exchange} (hbegun : e.begun? = none)
      (hadvances : p.advances e = false) (client : p'.client = p.client)
      (size : p'.wire.connections.length = p.wire.connections.length)
      (wanes : p.Provides e → p.wire.Wanes p'.wire) (activities : p'.activities = p.activities) :
      p.Effect e p' :=
    .around hbegun hadvances client size wanes
      (fun q => by rw [clientAt?, activities, clientAt?]) (by rw [clients, activities, clients])
  cases e with
  | move place pick => exact p.effect_move place pick
  | answer place ends => exact p.effect_answer place ends
  | elapse | attach | closePeer => exact haround rfl rfl rfl rfl (fun _ => .refl _) rfl
  | occur r o =>
    exact haround rfl rfl rfl (p.wire.still_undergo r o).size (p.wire.wanes_undergo r) rfl
  | disconnect r =>
    exact haround rfl rfl rfl (p.wire.wanes_close r).size (fun _ => p.wire.wanes_close r) rfl
  | listen i r =>
    have happend :
        (p.apply (.listen i r)).activities = p.activities ++ [.peer i ⟨r, .called⟩] := rfl
    refine .around rfl rfl rfl rfl (fun _ => .refl _)
      (fun q => (clientAt?_of_append happend q).trans ?_) ?_
    · split
      · next hq => rw [hq, p.clientAt?_length]; rfl
      · rfl
    · rw [clients_of_append happend]
      exact List.append_nil _
  | send | read | close => exact .begin rfl rfl rfl rfl

/-- What is so of every activity of the client stays so, if it becomes so of one that takes a step,
whose dial ends, or that begins. -/
theorem Effect.forall_clientAt? {P : ClientActivity → Prop} (h : p.Effect e p')
    (still : ∀ q b, p.clientAt? q = some b → P b)
    (step : ∀ q pick b b', p.clientAt? q = some b →
      b.step q p.now pick p.client p.wire = some (p'.client, p'.wire, b') → P b')
    (answer : ∀ b : ClientActivity, b.dialing = true →
      ∀ dialed w, P (b.answerDial p.now dialed p.client w).2)
    (begun : ∀ b, e.begun? = some b → P b) {b : ClientActivity} (hb : p'.clientAt? place = some b) :
    P b := by
  have hset {q : Nat} {a a' : ClientActivity} (ha : p.clientAt? q = some a)
      (hset : p'.activities = p.activities.set q (.client a')) (ha' : P a') : P b := by
    have hlt := (List.getElem?_eq_some_iff.mp (clientAt?_eq_some.mp ha)).1
    rw [clientAt?_of_set hlt hset] at hb
    split at hb
    · obtain rfl := Option.some.inj hb
      exact ha'
    · exact still place b hb
  cases h with
  | step _ ha hstep hactivities => exact hset ha hactivities (step _ _ _ _ ha hstep)
  | link _ ha hdialing _ _ hactivities | fail _ ha hdialing _ _ hactivities =>
    exact hset ha hactivities (answer _ hdialing _ _)
  | begin hbegun _ _ happend =>
    rw [clientAt?_of_append happend] at hb
    split at hb
    · obtain rfl := Option.some.inj hb
      exact begun _ hbegun
    · exact still place b hb
  | around _ _ _ _ _ hclients => exact still place b (hclients place ▸ hb)

theorem stance_of_clientAt? (h : p.clientAt? place = some a) : p.stance place = a.stance := by
  rw [stance, h]
  rfl

theorem stance_of_set {a' : ClientActivity} (ha : p.clientAt? place = some a)
    (h : p'.activities = p.activities.set place (.client a')) :
    p'.stance = Function.update p.stance place a'.stance := by
  have hlt := (List.getElem?_eq_some_iff.mp (clientAt?_eq_some.mp ha)).1
  funext q
  rw [stance, clientAt?_of_set hlt h]
  by_cases hq : q = place
  · rw [if_pos hq, hq, Function.update_self]
    rfl
  · rw [if_neg hq, Function.update_of_ne hq, stance]

/-- An activity that begins stands aside. -/
theorem stance_of_begin (hbegun : e.begun? = some a)
    (h : p'.activities = p.activities ++ [.client a]) : p'.stance = p.stance := by
  have haside : a.stance = .aside := by
    cases e with
    | send | read | close =>
      obtain rfl := Option.some.inj hbegun
      rfl
    | move | answer | elapse | occur | disconnect | attach | listen | closePeer => cases hbegun
  funext q
  rw [stance, clientAt?_of_append h]
  split
  · next hq =>
    rw [hq, stance, p.clientAt?_length]
    exact haside
  · rw [stance]

/-- Every event leaves the client kept. -/
theorem kept_apply (h : p.client.Kept p.wire p.stance) (provides : p.Provides e) :
    (p.apply e).client.Kept (p.apply e).wire (p.apply e).stance := by
  have heffect := p.effect_apply e
  generalize p.apply e = p' at heffect
  cases heffect with
  | step _ ha hstep hset =>
    rw [stance_of_set ha hset]
    refine h.step ?_
    rw [stance_of_clientAt? ha]
    exact ClientActivity.client_step hstep
  | @link place near far a he ha hdialing hwire hclient hset =>
    subst he
    have hst : p.stance place = .dials :=
      (stance_of_clientAt? ha).trans (ClientActivity.stance_eq_dials_iff.mpr hdialing)
    rw [stance_of_set ha hset, hclient, hwire]
    have hlink := h.link hst (fun f hf hlt => provides f hlt hf) far
    rcases ClientActivity.eq_of_dialing hdialing with ⟨payload, rfl⟩ | rfl
    · exact hlink true
    · exact hlink false
  | @fail place a _ ha hdialing hwire hclient hset =>
    have hst : p.stance place = .dials :=
      (stance_of_clientAt? ha).trans (ClientActivity.stance_eq_dials_iff.mpr hdialing)
    rw [stance_of_set ha hset, hclient, hwire]
    have hfail := h.fail hst
    rcases ClientActivity.eq_of_dialing hdialing with ⟨payload, rfl⟩ | rfl <;> exact hfail
  | begin hbegun hclient hwire happend =>
    rw [stance_of_begin hbegun happend, hclient, hwire]
    exact h
  | around _ _ hclient _ hwanes hclients =>
    have hsame : p'.stance = p.stance := by
      funext q
      rw [stance, hclients, stance]
    rw [hsame, hclient]
    exact h.wane (hwanes provides)

end Exchange

end BlockFeed
