import BlockFeed.Proofs.Broadcast.Fates
import BlockFeed.Proofs.Pipeline.Blocked
import BlockFeed.Proofs.Pipeline.Work
import BlockFeed.Proofs.Sender.Tally
import Mathlib.Logic.Relation

/-!
# Sends that nobody disturbs

A send whose connections are used by nobody else comes to what its connections make of its frame,
each by itself: what becomes of one depends neither on the others nor on when the waits for
acknowledgments move.

## Main definitions

* `Sender.Apart`: no two connections that are registered are the ends of one link.
* `Sender.Fits`, `Send.Carries`: how far a send has got, and what is left of its connections.
* `Send.ComesTo`: a send goes on, on its own, until it cannot move.
* `Send.Fated`: what a send that has had its turn has come to is told by fates.

## Main results

* `Send.exists_comesTo`: a send that goes on, on its own, cannot move at some time.
* `Send.comes_of_comesTo`: then it was refused, waits for its turn, or has come to what fates say.
-/

namespace BlockFeed

namespace Sender

/-- Every connection is registered under its id, and no two that are registered are the ends of one
link. -/
structure Apart (s : Sender) (w : Wire) : Prop where
  named : ∀ c ∈ s.registry.entries, c.2 < w.connections.length ∧ (w.conn c.2).id = c.1
  apart : ∀ c ∈ s.registry.entries, ∀ d ∈ s.registry.entries, w.peer? c.2 ≠ some d.2

theorem Apart.nodup {s : Sender} {w : Wire} (h : s.Apart w) :
    (s.registry.entries.map Prod.snd).Nodup := by
  refine List.Nodup.map_on (fun c hc d hd heq => ?_) (List.Nodup.of_map _ s.registry.nodup)
  refine Prod.ext ?_ heq
  rw [← (h.named c hc).2, ← (h.named d hd).2, heq]

end Sender

/-- How far a connection has got that a frame is for, if waiting for its acknowledgment has come to
an outcome. -/
inductive Connection.Standing (ack closed : Bool) (frame : Bytes) (counter : UInt64)
    (c : Connection) (tried : Prop) (outcome : Option AckOutcome) (d : Connection) : Prop where
  | untried : ¬tried → d = c → Standing ack closed frame counter c tried outcome d
  | refused {e : ConnectionError} : tried → c.write frame = (.error e, d) →
      Standing ack closed frame counter c tried outcome d
  | took {c₁ : Connection} : tried → c.write frame = (.ok (), c₁) → (ack = false → d = c₁) →
      c₁.Stands closed counter outcome d → Standing ack closed frame counter c tried outcome d

/-- What the writes and the ends of waits of a send amount to so far, if the connections are used by
nobody else since it had its turn: what is registered now, and what is left of the connections. -/
structure Sender.Fits (s : Sender) (w : Wire) (payload : Bytes) (calls : List (Ref × WriteCall))
    (ends : List (Ref × AckOutcome)) (g : Registry) (w' : Wire) : Prop where
  joints : w'.joints = w.joints
  size : w'.connections.length = w.connections.length
  answers : ∀ k ∈ calls,
    k.2.error = Connection.refusal ((w.conn k.1).write (s.nextFrame payload)).1
  standing : ∀ c ∈ s.registry.entries, (w.conn c.2).Standing s.withAcknowledge s.cancel.closed
    (s.nextFrame payload) (s.lastCounter + 1) (c.2 ∈ calls.map Prod.fst) (ends.lookup c.2)
    (w'.conn c.2)
  others : ∀ r, (∀ c ∈ s.registry.entries, c.2 ≠ r ∧ w.peer? c.2 ≠ some r) →
    w'.conn r = w.conn r
  registry : ∀ c, c ∈ g.entries ↔
    c ∈ s.registry.entries ∧ ∀ e, ends.lookup c.2 ≠ some (.failed e)

namespace Sender.Fits

variable {s : Sender} {w w' w'' : Wire} {payload : Bytes} {calls : List (Ref × WriteCall)}
  {ends : List (Ref × AckOutcome)} {g : Registry} {c : String × Ref}

theorem start (s : Sender) (w : Wire) (payload : Bytes) :
    s.Fits w payload [] [] s.registry w where
  joints := rfl
  size := rfl
  answers := nofun
  standing := fun _ _ => .untried List.not_mem_nil rfl
  others := fun _ _ => rfl
  registry := fun _ => ⟨fun hc => ⟨hc, nofun⟩, And.left⟩

theorem peer? (h : s.Fits w payload calls ends g w') (r : Ref) : w'.peer? r = w.peer? r := by
  rw [Wire.peer?, h.joints]
  rfl

/-- No connection is at the other end of one that is registered. -/
theorem far (h : s.Fits w payload calls ends g w') (apart : s.Apart w)
    (hc : c ∈ s.registry.entries) {r : Ref} (hr : (∃ d ∈ s.registry.entries, d.2 = r) ∨
      ∀ d ∈ s.registry.entries, d.2 ≠ r ∧ w.peer? d.2 ≠ some r) : w'.peer? c.2 ≠ some r := by
  rw [h.peer?]
  rcases hr with ⟨d, hd, rfl⟩ | hout
  · exact apart.apart c hc d hd
  · exact (hout c hc).2

/-- The next connection is written to. -/
theorem write (h : s.Fits w payload calls ends g w') (apart : s.Apart w)
    (hc : c ∈ s.registry.entries) (untried : c.2 ∉ calls.map Prod.fst)
    (unended : ends.lookup c.2 = none) {result : Except ConnectionError Unit}
    (hw : w'.write c.2 (s.nextFrame payload) = (result, w'')) {call : WriteCall}
    (hcall : call.error = Connection.refusal result) :
    s.Fits w payload (calls ++ [(c.2, call)]) ends g w'' := by
  have hconn : w'.conn c.2 = w.conn c.2 := by
    cases h.standing c hc with
    | untried _ hsame => exact hsame
    | refused htried | took htried => exact absurd htried untried
  have hresult : ((w.conn c.2).write (s.nextFrame payload)).1 = result := by
    rw [← hconn, ← Wire.result_write, hw]
  have hlt : c.2 < w'.connections.length := h.size ▸ (apart.named c hc).1
  obtain rfl : (w'.write c.2 (s.nextFrame payload)).2 = w'' := by rw [hw]
  have hafter {r : Ref} (hr : (∃ d ∈ s.registry.entries, d.2 = r) ∨
      ∀ d ∈ s.registry.entries, d.2 ≠ r ∧ w.peer? d.2 ≠ some r) :
      (w'.write c.2 (s.nextFrame payload)).2.conn r
        = if c.2 = r then ((w.conn c.2).write (s.nextFrame payload)).2 else w'.conn r := by
    rw [Wire.conn_write (h.far apart hc hr), Wire.conn_set, hconn]
    simp [hlt]
  constructor
  · rw [Wire.joints_write, h.joints]
  · rw [(Wire.logs_write hw).size, h.size]
  · intro k hk
    rcases List.mem_append.mp hk with hold | hnew
    · exact h.answers k hold
    · rw [List.mem_singleton.mp hnew, hcall, hresult]
  · intro d hd
    rw [hafter (.inl ⟨d, hd, rfl⟩)]
    by_cases hsame : c.2 = d.2
    · rw [if_pos hsame, ← hsame, unended]
      have htried : c.2 ∈ (calls ++ [(c.2, call)]).map Prod.fst := by simp
      cases hwrite : (w.conn c.2).write (s.nextFrame payload) with
      | mk answer d₁ =>
        cases answer with
        | error e => exact .refused htried hwrite
        | ok => exact .took htried hwrite (fun _ => rfl) (.start _ _ _)
    · rw [if_neg hsame]
      have htried : d.2 ∈ (calls ++ [(c.2, call)]).map Prod.fst ↔ d.2 ∈ calls.map Prod.fst := by
        simp [Ne.symm hsame]
      rw [htried]
      exact h.standing d hd
  · intro r hr
    rw [hafter (.inr hr), if_neg (hr c hc).1, h.others r hr]
  · exact h.registry

/-- A connection that no wait has ended for is still registered. -/
theorem get? (h : s.Fits w payload calls ends g w') (hc : c ∈ s.registry.entries)
    (unended : ends.lookup c.2 = none) : g.get? c.1 = some c.2 := by
  refine Table.mem_entries_iff.mp ((h.registry c).mpr ⟨hc, ?_⟩)
  rw [unended]
  nofun

/-- A connection that took the frame stands at the wait for its acknowledgment. -/
theorem stands (h : s.Fits w payload calls ends g w') (hc : c ∈ s.registry.entries)
    (taken : ∃ call, (c.2, call) ∈ calls ∧ call.error = none) (unended : ends.lookup c.2 = none) :
    ∃ c₁, c.2 ∈ calls.map Prod.fst ∧
      (w.conn c.2).write (s.nextFrame payload) = (.ok (), c₁) ∧
      c₁.Stands s.cancel.closed (s.lastCounter + 1) none (w'.conn c.2) := by
  obtain ⟨call, hcall, haccepted⟩ := taken
  have hanswer := h.answers _ hcall
  have hstanding := h.standing c hc
  rw [unended] at hstanding
  cases hstanding with
  | untried hnot => exact absurd (List.mem_map_of_mem hcall) hnot
  | refused _ hwrite =>
    rw [haccepted, hwrite] at hanswer
    cases hanswer
  | took htried hwrite _ hstands => exact ⟨_, htried, hwrite, hstands⟩

/-- The wait for a connection that took the frame moves. -/
theorem wait (h : s.Fits w payload calls ends g w') (apart : s.Apart w)
    (hc : c ∈ s.registry.entries) (taken : ∃ call, (c.2, call) ∈ calls ∧ call.error = none)
    (unended : ends.lookup c.2 = none) (asked : s.withAcknowledge = true) {s₁ s₂ : Sender}
    (hcancel : s₁.cancel = s.cancel) (hg : s₁.registry = g) {a' : AckWait}
    (hmove : AckWait.Move (s.lastCounter + 1) s₁ w' ⟨c.1, c.2, none⟩ s₂ w'' a') :
    s.Fits w payload calls (ends ++ (((⟨c.1, c.2, none⟩ : AckWait).resolves?
      (s.lastCounter + 1) s₁ w').map (c.2, ·)).toList) s₂.registry w'' := by
  have hlookup (r : Ref) : (ends ++ (((⟨c.1, c.2, none⟩ : AckWait).resolves?
      (s.lastCounter + 1) s₁ w').map (c.2, ·)).toList).lookup r
        = if r = c.2 then a'.outcome else ends.lookup r := by
    rw [List.lookup_append]
    obtain ⟨-, ⟨hstay, rfl⟩ | ⟨outcome, hend, rfl⟩⟩ := hmove.resolves
    · rw [hstay]
      split <;> next hr => simp [hr, unended]
    · rw [hend]
      split
      · next hr => simp [hr, unended]
      · next hr => simp [List.lookup_cons, beq_false_of_ne hr]
  generalize ends ++ (((⟨c.1, c.2, none⟩ : AckWait).resolves?
    (s.lastCounter + 1) s₁ w').map (c.2, ·)).toList = ends' at hlookup ⊢
  have hlt : c.2 < w'.connections.length := h.size ▸ (apart.named c hc).1
  have hregistered : s₁.registry.get? c.1 = some c.2 := hg ▸ h.get? hc unended
  obtain ⟨c₁, htried, hwrite, hstands⟩ := h.stands hc taken unended
  obtain ⟨reads, hlogs⟩ := hmove.logs
  constructor
  · rw [hmove.joints, h.joints]
  · rw [hlogs.size, h.size]
  · exact h.answers
  · intro d hd
    rw [hlookup]
    by_cases hsame : d.2 = c.2
    · rw [if_pos hsame, hsame]
      refine .took htried hwrite (fun hunasked => by cases hunasked.symm.trans asked) ?_
      rw [← hcancel] at hstands ⊢
      exact hmove.stands hregistered hlt (h.far apart hc (.inl ⟨c, hc, rfl⟩)) hstands
    · rw [if_neg hsame, hmove.elsewhere hregistered (Ne.symm hsame)
        (h.far apart hc (.inl ⟨d, hd, rfl⟩))]
      exact h.standing d hd
  · intro r hr
    rw [hmove.elsewhere hregistered (hr c hc).1 (h.far apart hc (.inr hr)), h.others r hr]
  · intro d
    rw [hmove.mem_entries, hg, h.registry, hlookup, and_assoc]
    refine and_congr_right fun hd => ?_
    split
    · next hsame =>
      obtain rfl : d = c := List.inj_on_of_nodup_map apart.nodup hd hc hsame
      rw [unended]
      exact ⟨fun hkept e he => hkept.2 e he rfl,
        fun hkept => ⟨nofun, fun e he => absurd he (hkept e)⟩⟩
    · next hne =>
      refine and_iff_left_of_imp fun _ e he hid => hne ?_
      rw [List.inj_on_of_nodup_map s.registry.nodup hd hc hid]

end Sender.Fits

namespace Send

/-- What a send that has its turn comes to is told by the fates of its connections. -/
structure Fated (s : Sender) (w : Wire) (payload : Bytes) (σ : Sender × Wire × Send) : Prop where
  result : σ.2.2.result? = Fate.verdict (s.fates w payload)
  conn : ∀ c ∈ s.registry.entries, (s.fate w payload c.2).2 = σ.2.1.conn c.2
  others : ∀ r, (∀ c ∈ s.registry.entries, c.2 ≠ r ∧ w.peer? c.2 ≠ some r) →
    σ.2.1.conn r = w.conn r
  /-- Those that are lost are not registered any more. -/
  registry : ∀ c, c ∈ σ.1.registry.entries ↔
    c ∈ s.registry.entries ∧ ∀ e, (s.fate w payload c.2).1 ≠ .lost e
  lastCounter : σ.1.lastCounter = s.lastCounter + 1

/-- What a send has come to in its fan-out, if the connections are used by nobody else since it had
its turn. -/
structure Carries (s : Sender) (w : Wire) (payload : Bytes) (f : Fanout) (s' : Sender) (w' : Wire)
    (x' : Send) : Prop where
  snapshot : f.snapshot = s.registry.entries
  sound : f.Sound (s.nextFrame payload)
  tally : ∃ steps,
    x'.Tally s.withAcknowledge (s.nextFrame payload) (s.lastCounter + 1) f steps
  pends : x'.Pends
  asked : s'.withAcknowledge = s.withAcknowledge
  cancel : s'.cancel = s.cancel
  lastCounter : s'.lastCounter = s.lastCounter + 1
  sends : x'.payload = payload
  fits : s.Fits w payload f.calls f.ends s'.registry w'

variable {me pick : Nat} {s s' s'' : Sender} {w w' w'' : Wire} {x x' x'' : Send} {payload : Bytes}
  {f : Fanout}

namespace Carries

theorem writes (h : Carries s w payload f s' w' x') :
    x'.frame s' (s.lastCounter + 1) = s.nextFrame payload := by
  rw [Send.frame, h.asked, h.sends]
  rfl

/-- What the next write goes to is registered, and has not been written to. -/
theorem next_untried (h : Carries s w payload f s' w' x') (apart : s.Apart w) {counter : UInt64}
    {c : String × Ref} {rest written : List (String × Ref)} {failures : List Failure}
    (hp : x'.phase = .writing counter (c :: rest) written failures) :
    counter = s.lastCounter + 1 ∧ c ∈ s.registry.entries ∧ c.2 ∉ f.calls.map Prod.fst ∧
      f.ends.lookup c.2 = none := by
  obtain ⟨steps, htally⟩ := h.tally
  cases htally with
  | waiting _ hq | done _ hq => cases hp.symm.trans hq
  | writing hq htried hends =>
    obtain ⟨rfl, rfl, -, -⟩ := SendPhase.writing.inj (hp.symm.trans hq)
    rw [h.snapshot] at htried
    have hrefs := apart.nodup
    rw [← htried, List.map_append, List.map_cons, List.nodup_append] at hrefs
    refine ⟨rfl, htried ▸ List.mem_append_right _ List.mem_cons_self, fun hmem => ?_,
      by simp [hends]⟩
    refine hrefs.2.2 c.2 ?_ c.2 List.mem_cons_self rfl
    simpa [Fanout.calls] using hmem

/-- What a send waits for is registered, took the frame, and has not been waited for before. -/
theorem wait_untaken (h : Carries s w payload f s' w' x') {counter : UInt64} {a : AckWait}
    {waits : List AckWait} {failures : List Failure}
    (hp : x'.phase = .waiting counter waits failures) (ha : a ∈ waits) :
    counter = s.lastCounter + 1 ∧ s.withAcknowledge = true ∧ ∃ c, a = f.wait c ∧
      c ∈ s.registry.entries ∧ ∃ call, (c.2, call) ∈ f.calls ∧ call.error = none := by
  obtain ⟨steps, htally⟩ := h.tally
  cases htally with
  | writing hq | done _ hq => cases hp.symm.trans hq
  | waiting hasked hq =>
    obtain ⟨rfl, rfl, -⟩ := SendPhase.waiting.inj (hp.symm.trans hq)
    obtain ⟨c, hc, rfl⟩ := List.mem_map.mp ha
    obtain ⟨call, hcall, hnone⟩ := Fanout.mem_takers.mp hc
    refine ⟨rfl, hasked, c, rfl, ?_, call, List.mem_map.mpr ⟨_, hcall, rfl⟩, hnone⟩
    exact h.snapshot ▸ (Fanout.takers_sublist h.sound).subset hc

/-- A step of the send keeps to what its connections make of it. -/
theorem fits_step (h : Carries s w payload f s' w' x') (apart : s.Apart w)
    (hmove : Move me pick s' w' x' s'' w'' x'') :
    s.Fits w payload (f.calls ++ w'.news Connection.writes w'')
      (f.ends ++ x'.resolves pick s' w') s''.registry w'' := by
  have hidle (hnot : ∀ counter waits failures, x'.phase ≠ .waiting counter waits failures) :
      s.Fits w payload (f.calls ++ w'.news Connection.writes w')
        (f.ends ++ x'.resolves pick s' w') s'.registry w' := by
    rw [Wire.news_self, resolves_of_ne_waiting hnot, List.append_nil, List.append_nil]
    exact h.fits
  cases hmove with
  | refuse hp | enqueue hp | abandon hp | start hp | fail hp | succeed hp | await hp =>
    exact hidle (by simp [hp])
  | accept hp hw | reject hp hw =>
    obtain ⟨rfl, hc, huntried, hunended⟩ := h.next_untried apart hp
    rw [h.writes] at hw
    have hlt := (apart.named _ hc).1
    rw [Wire.news_writes (h.fits.size ▸ hlt) hw, resolves_of_ne_waiting (by simp [hp]),
      List.append_nil]
    exact h.fits.write apart hc huntried hunended hw rfl
  | wait hp ha hstep | conclude hp ha hstep =>
    obtain ⟨rfl, hasked, c, rfl, hc, htaken⟩ := h.wait_untaken hp (List.mem_of_getElem? ha)
    have hmove := AckWait.move_of_step hstep
    have hunended : f.ends.lookup c.2 = none := hmove.resolves.1
    have hwait : f.wait c = ⟨c.1, c.2, none⟩ := by rw [Fanout.wait, hunended]
    rw [resolves_of_waiting hp ha, hmove.news_writes, List.append_nil, hwait]
    rw [hwait] at hmove
    have hfits := h.fits.wait apart hc htaken hunended hasked h.cancel rfl hmove
    exact hfits

theorem step (h : Carries s w payload f s' w' x') (apart : s.Apart w)
    (hmove : Move me pick s' w' x' s'' w'' x'') : ∃ f', Carries s w payload f' s'' w'' x'' := by
  obtain ⟨steps, htally⟩ := h.tally
  obtain ⟨f', hsnapshot, hsound, htally', hcalls, hends⟩ := hmove.tally h.sound htally h.asked
    h.writes fun c hc => h.fits.size ▸ (apart.named c (h.snapshot ▸ hc)).1
  have hcounter : s''.lastCounter = s'.lastCounter := by
    cases hmove with
    | wait _ _ hstep | conclude _ _ hstep => exact (AckWait.move_of_step hstep).keeps.lastCounter
    | refuse | enqueue | abandon | accept | reject | fail | succeed | await => rfl
    | start hp =>
      cases htally with
      | writing hq | waiting _ hq | done _ hq => cases hp.symm.trans hq
  exact ⟨f', {
    snapshot := hsnapshot.trans h.snapshot
    sound := hsound
    tally := ⟨_, htally'⟩
    pends := hmove.pends
    asked := hmove.settings.1.trans h.asked
    cancel := hmove.settings.2.trans h.cancel
    lastCounter := hcounter.trans h.lastCounter
    sends := hmove.payload.trans h.sends
    fits := hcalls ▸ hends ▸ h.fits_step apart hmove }⟩

/-- A send that has its turn begins with a fan-out to the connections that are registered. -/
theorem start (apart : s.Apart w) (x : Send) : Carries s w x.payload
    { snapshot := s.registry.entries } { s with lastCounter := s.lastCounter + 1 } w
    { x with phase := .writing (s.lastCounter + 1) s.registry.entries [] [] } where
  snapshot := rfl
  sound := Fanout.sound_start _ s.registry.nodup apart.nodup
  tally := ⟨0, tally_start x _ _ _⟩
  pends := nofun
  asked := rfl
  cancel := rfl
  lastCounter := rfl
  sends := rfl
  fits := .start s w x.payload

section

variable (h : Carries s w payload f s' w' x') (stuck : ∀ pick, x'.step me pick s' w' = none)

include h stuck

/-- Where the send cannot move any more, it has been written to all connections, and it is over or
waits for a connection from which nothing can be read. -/
theorem settled : f.tried.map Prod.fst = s.registry.entries ∧
    ((f.Complete s.withAcknowledge (s.nextFrame payload) ∧
        x'.phase = .done (f.result s.withAcknowledge)) ∨
      s.withAcknowledge = true ∧ s.cancel.closed = false ∧ x'.result? = none ∧
        (∃ c ∈ f.takers, f.ends.lookup c.2 = none) ∧
        ∀ c ∈ f.takers, f.ends.lookup c.2 = none → (w'.conn c.2).read? = none) := by
  obtain ⟨steps, htally⟩ := h.tally
  rw [← h.snapshot]
  cases htally with
  | writing hp =>
    rcases phase_of_step stuck with ⟨_, hq⟩ | ⟨hq, -⟩ | ⟨_, _, _, hq, -⟩ <;> cases hp.symm.trans hq
  | done hcomplete hp => exact ⟨hcomplete.all, .inl ⟨hcomplete, hp⟩⟩
  | waiting hasked hp htried =>
    have hstays : ∀ c ∈ f.takers, (f.wait c).step (s.lastCounter + 1) s' w' = none := by
      rcases phase_of_step stuck with ⟨_, hq⟩ | ⟨hq, -⟩ | ⟨_, _, _, hq, hall⟩
      · cases hp.symm.trans hq
      · cases hp.symm.trans hq
      · obtain ⟨rfl, rfl, -⟩ := SendPhase.waiting.inj (hp.symm.trans hq)
        exact fun c hc => hall _ (List.mem_map_of_mem hc)
    obtain ⟨a, ha, hnone⟩ := h.pends _ _ _ hp
    obtain ⟨c, hc, rfl⟩ := List.mem_map.mp ha
    have hopen : s'.cancel.closed = false := by
      by_contra hopen
      have hclosed : s'.cancel.closed = true := by simpa using hopen
      cases (hstays c hc).symm.trans (AckWait.step_of_closed hclosed hnone)
    refine ⟨htried, .inr ⟨hasked, h.cancel ▸ hopen, by rw [result?, hp], ⟨c, hc, hnone⟩, ?_⟩⟩
    intro d hd hpending
    exact Wire.read?_eq_none.mp (AckWait.read?_eq_none_of_step (hstays d hd) hpending hopen)

/-- There, each connection has met its fate. -/
theorem fate_eq {k : (String × Ref) × WriteCall} (hk : k ∈ f.tried) :
    s.fate w payload k.1.2 = (f.fate s.withAcknowledge k, w'.conn k.1.2) := by
  obtain ⟨hall, hover⟩ := h.settled stuck
  have hc : k.1 ∈ s.registry.entries := hall ▸ List.mem_map_of_mem hk
  have hcall : (k.1.2, k.2) ∈ f.calls := List.mem_map.mpr ⟨k, hk, rfl⟩
  have hanswer := h.fits.answers _ hcall
  cases h.fits.standing k.1 hc with
  | untried hnot => exact absurd (List.mem_map_of_mem hcall) hnot
  | refused _ hwrite =>
    rw [hwrite] at hanswer
    rw [Sender.fate, hwrite, Fanout.fate, hanswer]
    rfl
  | @took c₁ _ hwrite hunasked hstands =>
    rw [hwrite] at hanswer
    rw [Sender.fate, hwrite, Fanout.fate, hanswer]
    cases hasked : s.withAcknowledge with
    | false => rw [hunasked hasked]; rfl
    | true =>
      have htaken : k.1 ∈ f.takers := Fanout.mem_takers.mpr ⟨k.2, hk, hanswer⟩
      have hresolve : c₁.resolve s.cancel.closed (s.lastCounter + 1)
          = (f.ends.lookup k.1.2, w'.conn k.1.2) := by
        cases hended : f.ends.lookup k.1.2 with
        | some outcome =>
          rw [hended] at hstands
          exact hstands.resolve_eq
        | none =>
          rw [hended] at hstands
          rcases hover with ⟨hcomplete, -⟩ | ⟨-, hopen, -, -, hunread⟩
          · obtain ⟨outcome, hout⟩ := hcomplete.resolved hasked _ htaken
            rw [← hcomplete.lookup_eq_some, hended] at hout
            cases hout
          · exact hstands.resolve_of_none hopen (hunread _ htaken hended)
      simp [hresolve, Connection.refusal]

/-- There, what the send has come to is told by the fates of its connections. -/
theorem fated : Fated s w payload (s', w', x') := by
  obtain ⟨hall, hover⟩ := h.settled stuck
  have hfates : s.fates w payload = f.fates s.withAcknowledge := by
    rw [Sender.fates, ← hall, List.map_map, Fanout.fates]
    refine List.map_congr_left fun k hk => ?_
    rw [Function.comp_apply, h.fate_eq stuck hk]
  have htried {c : String × Ref} (hc : c ∈ s.registry.entries) : ∃ call, (c, call) ∈ f.tried := by
    rw [← hall] at hc
    obtain ⟨⟨_, call⟩, hk, rfl⟩ := List.mem_map.mp hc
    exact ⟨call, hk⟩
  have hunasked (hasked : s.withAcknowledge = false) : f.ends = [] := by
    rcases hover with ⟨hcomplete, -⟩ | ⟨hasked', -⟩
    · exact hcomplete.unasked hasked
    · cases hasked.symm.trans hasked'
  constructor
  · rw [hfates]
    rcases hover with ⟨hcomplete, hp⟩ | ⟨hasked, -, hnone, ⟨c, hc, hpending⟩, -⟩
    · rw [hcomplete.verdict_eq, result?, hp]
    · rw [hasked, Fanout.verdict_of_pending hc hpending, hnone]
  · intro c hc
    obtain ⟨call, hk⟩ := htried hc
    rw [h.fate_eq stuck hk]
  · exact h.fits.others
  · intro c
    rw [h.fits.registry]
    refine and_congr_right fun hc => forall_congr' fun e => not_congr ?_
    obtain ⟨call, hk⟩ := htried hc
    rw [h.fate_eq stuck hk, Fanout.fate_eq_lost h.sound hk hunasked]
  · exact h.lastCounter

end

end Carries

/-- A step of the send under a number, on its own. -/
def Steps (me : Nat) (σ σ' : Sender × Wire × Send) : Prop :=
  ∃ pick, σ.2.2.step me pick σ.1 σ.2.1 = some σ'

/-- The send under a number goes on, on its own, until it cannot move. -/
structure ComesTo (me : Nat) (σ σ' : Sender × Wire × Send) : Prop where
  steps : Relation.ReflTransGen (Steps me) σ σ'
  stuck : ∀ pick, σ'.2.2.step me pick σ'.1 σ'.2.1 = none

/-- What a send comes to, on its own. -/
inductive Comes (me : Nat) (s : Sender) (w : Wire) (payload : Bytes) :
    Sender × Wire × Send → Prop where
  | refused {e : SendError} : (s.registry.isEmpty = true ∧ e = .noConnections) ∨
      (payload = [] ∧ s.registry.isEmpty = false ∧ e = .emptyPayload) →
      Comes me s w payload (s, w, ⟨payload, .done (.error e)⟩)
  /-- Another send has its turn. -/
  | stalled : s.registry.isEmpty = false → payload ≠ [] → (s.line ++ [me]).head? ≠ some me →
      Comes me s w payload ({ s with line := s.line ++ [me] }, w, ⟨payload, .queued⟩)
  | fated {σ : Sender × Wire × Send} : s.registry.isEmpty = false → payload ≠ [] →
      (s.line ++ [me]).head? = some me → Fated s w payload σ → Comes me s w payload σ

theorem ComesTo.eq_of_stuck {σ σ' : Sender × Wire × Send} (h : ComesTo me σ σ')
    (stuck : ∀ pick, σ.2.2.step me pick σ.1 σ.2.1 = none) : σ' = σ := by
  rcases h.steps.cases_head with heq | ⟨_, ⟨pick, hstep⟩, -⟩
  · exact heq.symm
  · cases hstep.symm.trans (stuck pick)

/-- A send that is not stuck has come through one of its steps. -/
theorem ComesTo.exists_move (h : ComesTo me (s, w, x) σ) (pick : Nat)
    (moves : x.step me pick s w ≠ none) :
    ∃ pick s' w' x', Move me pick s w x s' w' x' ∧ ComesTo me (s', w', x') σ := by
  rcases h.steps.cases_head with rfl | ⟨⟨s', w', x'⟩, ⟨q, hstep⟩, hsteps⟩
  · exact absurd (h.stuck pick) moves
  · exact ⟨q, s', w', x', move_of_step hstep, hsteps, h.stuck⟩

theorem Carries.comesTo {σ : Sender × Wire × Send} (h : Carries s w payload f s' w' x')
    (apart : s.Apart w) (comes : ComesTo me (s', w', x') σ) : Fated s w payload σ := by
  have hrun : ∃ f, Carries s w payload f σ.1 σ.2.1 σ.2.2 := by
    have hsteps := comes.steps
    clear comes
    induction hsteps with
    | refl => exact ⟨f, h⟩
    | tail _ hstep ih =>
      obtain ⟨f, hf⟩ := ih
      obtain ⟨pick, hstep⟩ := hstep
      exact hf.step apart (move_of_step hstep)
  obtain ⟨f, hf⟩ := hrun
  exact hf.fated comes.stuck

/-- A send that goes on, on its own, is refused, waits for its turn, or comes to what the fates of
its connections say, whichever of its waits move first. -/
theorem comes_of_comesTo {σ : Sender × Wire × Send} (apart : s.Apart w)
    (comes : ComesTo me (s, w, ⟨payload, .called⟩) σ) : Comes me s w payload σ := by
  obtain ⟨_, s₁, w₁, x₁, hmove, hcomes⟩ := comes.exists_move 0 (by simp [step])
  cases hmove with
  | abandon hp | start hp | accept hp | reject hp | fail hp | succeed hp | await hp | wait hp
  | conclude hp => cases hp
  | refuse _ hwhy =>
    obtain rfl := hcomes.eq_of_stuck fun _ => rfl
    exact .refused hwhy
  | enqueue _ hreg hpayload =>
    by_cases hhead : (s.line ++ [me]).head? = some me
    · obtain ⟨_, s₂, w₂, x₂, hmove, hcomes⟩ := hcomes.exists_move 0 (by simp [step, hhead])
      refine .fated hreg hpayload hhead ?_
      cases hmove with
      | refuse hp | enqueue hp | accept hp | reject hp | fail hp | succeed hp | await hp | wait hp
      | conclude hp => cases hp
      | abandon _ _ hempty => cases hreg.symm.trans hempty
      | start =>
        have hfated := (Carries.start (s := { s with line := s.line ++ [me] }) ⟨apart.named,
          apart.apart⟩ ⟨payload, .queued⟩).comesTo ⟨apart.named, apart.apart⟩ hcomes
        exact ⟨hfated.result, hfated.conn, hfated.others, hfated.registry, hfated.lastCounter⟩
    · obtain rfl := hcomes.eq_of_stuck fun _ => if_neg hhead
      exact .stalled hreg hpayload hhead

/-- A send that goes on, on its own, cannot move at some time. -/
theorem exists_comesTo (me : Nat) (σ : Sender × Wire × Send) : ∃ σ', ComesTo me σ σ' := by
  obtain ⟨s, w, x⟩ := σ
  generalize hsize : s.registry.size = size
  replace hsize := Nat.le_of_eq hsize
  induction hn : x.work size + w.load using Nat.strong_induction_on generalizing s w x with
  | _ n ih =>
    by_cases hstuck : ∀ pick, x.step me pick s w = none
    · exact ⟨_, .refl, hstuck⟩
    · obtain ⟨pick, hpick⟩ := not_forall.mp hstuck
      obtain ⟨⟨s', w', x'⟩, hstep⟩ := Option.ne_none_iff_exists'.mp hpick
      have hmove := move_of_step hstep
      have hless := hmove.work hsize
      obtain ⟨σ', hsteps, hend⟩ := ih _ (hn ▸ hless) s' w' x'
        (Nat.le_trans hmove.entries.length_le hsize) rfl
      exact ⟨σ', .head ⟨pick, hstep⟩ hsteps, hend⟩

end Send

end BlockFeed
