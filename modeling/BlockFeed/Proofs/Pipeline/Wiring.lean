import BlockFeed.Proofs.Pipeline.Course
import BlockFeed.Proofs.Sender.Writes

/-!
# Wiring of a pipeline

Which courses keep every link between two ends only, and what they leave true: registered
connections are different from each other, messages arrive only at ends of links, and at most one
send writes or waits at a time.

## Main definitions

* `Pipeline.Allows`: an event keeps links between two ends, and every receiver on one connection.
* `Pipeline.Named`: every connection is registered under its id.
* `Pipeline.Wired`: links have two ends, and connections are registered once.
* `Pipeline.Turned`: whoever writes or waits is the first in the line of the sender.
-/

namespace BlockFeed.Pipeline

/-- A receiver reads a connection, or has read it. -/
def Reads (p : Pipeline) (i : Nat) (f : Ref) : Prop :=
  ∃ l, Activity.listen i l ∈ p.activities ∧ l.conn = f

/-- Nobody but the sender and the receivers puts messages on connections, only connections that are
not joined yet are joined, what is registered exists, and a receiver reads one connection only. -/
def Allows (p : Pipeline) (e : Event) : Prop :=
  e.Quiet ∧
    match e with
    | .join a b => p.wire.peer? a = none ∧ p.wire.peer? b = none
    | .register r => r < p.wire.connections.length
    | .listen i r => ∀ f, p.Reads i f → f = r
    | _ => True

/-- Every connection is registered under its id. -/
structure Named (p : Pipeline) : Prop where
  entries : ∀ c ∈ p.sender.registry.entries,
    c.2 < p.wire.connections.length ∧ (p.wire.conn c.2).id = c.1

namespace Named

variable {p p' : Pipeline}

/-- No connection is registered twice. -/
theorem nodup (h : p.Named) : (p.sender.registry.entries.map Prod.snd).Nodup := by
  have hnames := List.pairwise_map.mp p.sender.registry.nodup
  refine List.pairwise_map.mpr (hnames.imp_of_mem ?_)
  -- two entries for one connection would have its id both
  intro c d hc hd hne heq
  exact hne ((h.entries c hc).2.symm.trans (heq ▸ (h.entries d hd).2))

theorem logs (h : p.Named) {calls : Ref → List WriteCall} {reads : Ref → List Bytes}
    (hw : p.wire.Logs calls reads p'.wire)
    (hsub : p'.sender.registry.entries ⊆ p.sender.registry.entries) : p'.Named where
  entries := by
    intro c hc
    obtain ⟨hlt, hid⟩ := h.entries c (hsub hc)
    exact ⟨hw.size ▸ hlt, (hw.conn c.2).id.trans hid⟩

theorem aside (h : p.Named) {e : Event} (hp : p.Aside e p')
    (exists_of_register : ∀ r, e = .register r → r < p.wire.connections.length) : p'.Named where
  entries := by
    intro c hc
    -- an entry is as good as before, or it is that of the connection which is registered
    have hentry : c.2 < p.wire.connections.length ∧ (p.wire.conn c.2).id = c.1 := by
      rcases hp.entries c hc with hold | ⟨r, he, rfl⟩
      · exact h.entries c hold
      · exact ⟨exists_of_register r he, rfl⟩
    rcases hp.logs with hstill | ⟨d, -, heq⟩
    · exact ⟨hstill.size ▸ hentry.1, (hstill.conn c.2).id.trans hentry.2⟩
    · rw [heq, Wire.length_add, Wire.conn_add, if_neg (Nat.ne_of_lt hentry.1)]
      exact ⟨Nat.lt_succ_of_lt hentry.1, hentry.2⟩

theorem move (h : p.Named) (place pick : Nat) : (p.apply (.move place pick)).Named := by
  have hmoved := p.moved_apply place pick
  generalize p.apply (.move place pick) = p' at hmoved
  cases hmoved with
  | send _ hmove =>
    obtain ⟨_, _, hlogs⟩ := hmove.logs
    exact h.logs hlogs hmove.entries.subset
  | listen _ _ hmove =>
    obtain ⟨_, _, hlogs, -⟩ := hmove.logs
    exact h.logs hlogs (List.Subset.refl _)
  | stay => exact h

end Named

/-- Links have two ends each, messages arrive only there, and connections are registered once. -/
structure Wired (p : Pipeline) : Prop extends p.Named where
  mute : p.wire.Mute
  paired : ∀ a b, p.wire.peer? a = some b → p.wire.peer? b = some a
  unjoined : ∀ f, p.wire.peer? f = none → (p.wire.conn f).messages = []

namespace Wired

variable {p p' : Pipeline}

theorem start (withAcknowledge : Bool) : (beginning withAcknowledge).Wired where
  mute := fun _ => rfl
  paired := nofun
  unjoined := fun _ _ => rfl
  entries := nofun

theorem peer?_inj (h : p.Wired) {a b f : Ref} (ha : p.wire.peer? a = some f)
    (hb : p.wire.peer? b = some f) : a = b :=
  Option.some.inj ((h.paired a f ha).symm.trans (h.paired b f hb))

theorem brings (h : p.Wired) {news : Ref → List Bytes} (hw : p.wire.Brings news p'.wire)
    (hnews : ∀ f, ∀ bytes ∈ news f, ∃ r, p.wire.peer? r = some f)
    (hsub : p'.sender.registry.entries.Sublist p.sender.registry.entries) : p'.Wired where
  mute := hw.mute h.mute
  paired := by
    intro a b hab
    rw [hw.peer?] at hab ⊢
    exact h.paired a b hab
  unjoined := by
    intro f hf
    rw [hw.peer?] at hf
    -- a message at an end without a partner would have come from a partner
    have hnone : news f = [] := by
      refine List.eq_nil_iff_forall_not_mem.mpr fun bytes hb => ?_
      obtain ⟨r, hr⟩ := hnews f bytes hb
      cases hf.symm.trans (h.paired r f hr)
    rw [(hw.conn f).messages, h.unjoined f hf, hnone]
    rfl
  entries := by
    intro c hc
    obtain ⟨hlt, hid⟩ := h.entries c (hsub.subset hc)
    exact ⟨hw.size ▸ hlt, (hw.conn c.2).id.trans hid⟩

theorem around (h : p.Wired) {e : Event} (hp : p.Around e p') (allowed : p.Allows e) :
    p'.Wired := by
  have hnamed : p'.Named := h.aside hp.toAside fun r he => by
    subst he
    exact allowed.2
  rcases hp.wire with hkeeps | ⟨c, rfl, heq⟩ | ⟨a, b, rfl, heq⟩
  · have hsame : Wired { p with wire := p'.wire } := h.brings hkeeps nofun (List.Sublist.refl _)
    exact { hsame with entries := hnamed.entries }
  · obtain ⟨⟨hnone, hecho⟩, -⟩ := allowed
    refine { hnamed with mute := ?_, paired := ?_, unjoined := ?_ }
    · intro r
      rw [heq, Wire.conn_add]
      split
      · exact hecho
      · exact h.mute r
    · rw [heq]
      exact h.paired
    · intro f hf
      rw [heq] at hf ⊢
      rw [Wire.messages_add _ hnone]
      exact h.unjoined f hf
  · obtain ⟨-, ha, hb⟩ := allowed
    refine { hnamed with mute := ?_, paired := ?_, unjoined := ?_ }
    · rw [heq]
      exact h.mute
    · -- neither of the two was joined before, so no third end leads to them
      intro q r hq
      rw [heq, Wire.peer?_join] at hq ⊢
      have hold := h.paired q r
      grind
    · intro f hf
      rw [heq, Wire.peer?_join] at hf
      rw [heq]
      refine h.unjoined f ?_
      split at hf
      · cases hf
      · split at hf
        · cases hf
        · exact hf

theorem move (h : p.Wired) (place pick : Nat) : (p.apply (.move place pick)).Wired := by
  have hmoved := p.moved_apply place pick
  generalize p.apply (.move place pick) = p' at hmoved
  cases hmoved with
  | send _ hmove =>
    rcases hmove.brings h.mute with hkeeps | ⟨_, _, r, _, _, _, _, _, hbrings⟩
    · exact h.brings hkeeps nofun hmove.entries
    · exact h.brings hbrings (fun f b hb => ⟨r, (Wire.mem_arrivals hb).1⟩) hmove.entries
  | @listen i l l' _ _ _ _ _ hmove =>
    obtain ⟨news, hbrings, hnews⟩ := hmove.brings h.mute
    exact h.brings hbrings (fun f b hb => ⟨l.conn, (hnews f b hb).1⟩) (List.Sublist.refl _)
  | stay => exact h

end Wired

/-- Whoever writes or waits is the first in the line of the sender. -/
def Turned (p : Pipeline) : Prop :=
  ∀ place x, p.sendAt? place = some x → x.HasTurn → p.sender.line.head? = some place

namespace Turned

variable {p p' : Pipeline}

theorem start (withAcknowledge : Bool) : (beginning withAcknowledge).Turned := nofun

theorem aside (h : p.Turned) {e : Event} (hp : p.Aside e p') : p'.Turned := by
  intro place x hx hturn
  rw [hp.line]
  rcases hp.sendAt? hx with hold | ⟨-, hcalled⟩
  · exact h place x hold hturn
  · rw [Send.HasTurn, hcalled] at hturn
    exact hturn.elim

/-- A step of a send leaves the turn with whoever writes or waits. -/
theorem send (h : p.Turned) {place pick : Nat} {x x' : Send} {sender : Sender} {wire : Wire}
    (hx : p.activities[place]? = some (.send x))
    (hmove : Send.Move place pick p.sender p.wire x sender wire x') :
    Turned { p with sender, wire, activities := p.activities.set place (.send x') } := by
  have hline := hmove.line (h place x (sendAt?_eq_some.mpr hx))
  intro q y hy hturn
  change sender.line.head? = some q
  rcases sendAt?_of_set hy with ⟨rfl, heq⟩ | ⟨hq, hy⟩
  · obtain rfl := Activity.send.inj heq
    cases hline with
    | stay hsame _ hhead =>
      rw [hsame]
      exact hhead hturn
    | join _ hqueued => simp [Send.HasTurn, hqueued] at hturn
    | leave _ hnot => exact absurd hturn.inLine hnot
  · have hhead : p.sender.line.head? = some q := h q y hy hturn
    cases hline with
    | stay hsame => rw [hsame, hhead]
    | join _ _ hjoin =>
      rw [hjoin, List.head?_append, hhead]
      rfl
    | leave _ _ _ hother =>
      -- the one that leaves the line had its turn, and nobody else has
      exact absurd (Option.some.inj (hhead.symm.trans hother)) hq

theorem move (h : p.Turned) (place pick : Nat) : (p.apply (.move place pick)).Turned := by
  have hmoved := p.moved_apply place pick
  generalize p.apply (.move place pick) = p' at hmoved
  cases hmoved with
  | send hx hmove => exact h.send hx hmove
  | listen hl _ _ =>
    intro q y hy hturn
    exact h q y ((sendAt?_set_listen hl q).symm.trans hy) hturn
  | stay => exact h

end Turned

end BlockFeed.Pipeline
