import BlockFeed.Proofs.Codec.Messages
import BlockFeed.Proofs.Link.Sturdy
import BlockFeed.Proofs.Run
import BlockFeed.Proofs.Sender.Moves

/-!
# Steady sends

What sends do while the sender is open and all its connections are sturdy.

## Main definitions

* `Send.Steady`: how far a send can have got.
* `Send.Advance`: what a step of it can do, out of all that a step of a send can do.
* `Acceptance`: a connection has accepted a message.
* `Send.Backed`: what a send waits for has not been read since its frame was accepted.

## Design notes

A send may meet acknowledgments that are not its own, and messages that are none. It reads them
away, so all that counts is what has arrived since its own frame was accepted.
-/

namespace BlockFeed

/-- A connection has accepted a message. -/
structure Acceptance where
  conn : Ref
  bytes : Bytes
  /-- How many messages had arrived at the connection before. -/
  arrived : Nat
  deriving DecidableEq, Repr

/-- What the connections of a wire have accepted when it has become another. -/
def Wire.acceptances (w w' : Wire) : List Acceptance :=
  (w.news Connection.written w').map fun c => ⟨c.1, c.2, (w.conn c.1).messages.length⟩

/-- A frame was accepted at a place, and the acknowledgment of a counter has not been read there
among what has arrived since. -/
def Sought (w : Wire) (acc : List Acceptance) (frame : Bytes) (counter : UInt64) (r : Ref) :
    Prop :=
  ∃ a ∈ acc, a.conn = r ∧ a.bytes = frame ∧
    Ack.encode counter ∉ (w.conn r).consumed.drop a.arrived

/-- What is sought goes on to be if nothing but other messages is read at its place. -/
theorem Sought.mono {w w' : Wire} {acc acc' : List Acceptance} {frame : Bytes} {counter : UInt64}
    {r : Ref} (h : Sought w acc frame counter r) (hacc : acc ⊆ acc') {more : List Bytes}
    (hmore : (w'.conn r).consumed = (w.conn r).consumed ++ more)
    (hnot : Ack.encode counter ∉ more) : Sought w' acc' frame counter r := by
  obtain ⟨a, ha, hconn, hbytes, hout⟩ := h
  refine ⟨a, hacc ha, hconn, hbytes, fun hmem => ?_⟩
  rw [hmore, List.drop_append, List.mem_append] at hmem
  exact hmem.elim hout fun hin => hnot (List.mem_of_mem_drop hin)

/-- What is sought goes on to be when another message is read, or one at another place. -/
theorem Sought.read {w w' : Wire} {acc : List Acceptance} {frame bytes : Bytes}
    {counter : UInt64} {r f : Ref} (h : Sought w acc frame counter f)
    (hr : w.read? r = some (.ok bytes, w')) (hne : f = r → bytes ≠ Ack.encode counter) :
    Sought w' (acc ++ w.acceptances w') frame counter f := by
  refine h.mono (List.subset_append_left _ _) ((Wire.logs_read hr).conn f).consumed fun hmem => ?_
  obtain ⟨hf, hin⟩ := Wire.mem_only hmem
  exact hne hf (List.mem_singleton.mp hin).symm

/-- Nothing has been read yet of what arrives after a frame is accepted. -/
theorem sought_of_write {w w' : Wire} {frame : Bytes} {r : Ref}
    (hw : w.write r frame = (.ok (), w')) (acc : List Acceptance) (counter : UInt64) :
    Sought w' (acc ++ w.acceptances w') frame counter r := by
  refine ⟨⟨r, frame, (w.conn r).messages.length⟩, ?_, rfl, rfl, fun hmem => ?_⟩
  · rw [Wire.acceptances, Wire.news_written hw]
    exact List.mem_append_right _ (List.mem_singleton_self _)
  · have hsame := ((Wire.logs_write hw).conn r).consumed
    rw [hsame, List.append_nil,
      List.drop_eq_nil_of_le (w.conn r).consumed_sublist.length_le] at hmem
    cases hmem

namespace Send

/-- How far a send can have got, over connections that do not fail. -/
def Steady (entries : List (String × Ref)) (x : Send) : Prop :=
  x.payload ≠ [] ∧
    match x.phase with
    | .called | .queued => True
    | .writing _ rest written failures => failures = [] ∧ written ++ rest = entries
    | .waiting _ waits failures => failures = [] ∧ (waits.map fun a => (a.id, a.conn)) = entries ∧
      ∀ a ∈ waits, a.outcome = none ∨ a.outcome = some .acknowledged
    | .done result => result = .ok ()

namespace Steady

variable {x : Send} {entries : List (String × Ref)} {counter : UInt64} {failures : List Failure}

theorem of_writing (h : x.Steady entries) {rest written : List (String × Ref)}
    (hp : x.phase = .writing counter rest written failures) :
    failures = [] ∧ written ++ rest = entries := by
  have hphase := h.2
  rwa [hp] at hphase

theorem of_waiting (h : x.Steady entries) {waits : List AckWait}
    (hp : x.phase = .waiting counter waits failures) :
    failures = [] ∧ (waits.map fun a => (a.id, a.conn)) = entries ∧
      ∀ a ∈ waits, a.outcome = none ∨ a.outcome = some .acknowledged := by
  have hphase := h.2
  rwa [hp] at hphase

theorem ok_of_done (h : x.Steady entries) {result : Except SendError Unit}
    (hp : x.phase = .done result) : result = .ok () := by
  have hphase := h.2
  rwa [hp] at hphase

/-- What the next write goes to is one of the connections. -/
theorem mem_of_writing (h : x.Steady entries) {c : String × Ref}
    {rest written : List (String × Ref)}
    (hp : x.phase = .writing counter (c :: rest) written failures) : c ∈ entries :=
  (h.of_writing hp).2 ▸ List.mem_append_right _ List.mem_cons_self

/-- What is waited for is one of the connections. -/
theorem mem_of_waiting (h : x.Steady entries) {waits : List AckWait} {a : AckWait}
    (hp : x.phase = .waiting counter waits failures) (ha : a ∈ waits) : (a.id, a.conn) ∈ entries :=
  (h.of_waiting hp).2.1 ▸ List.mem_map_of_mem ha

end Steady

/-- What a step of a steady send can do. -/
inductive Advance (me pick : Nat) (s : Sender) (w : Wire) (x : Send) :
    Sender → Wire → Send → Prop where
  | enqueue : x.phase = .called →
      Advance me pick s w x { s with line := s.line ++ [me] } w { x with phase := .queued }
  | start : x.phase = .queued → s.line.head? = some me →
      Advance me pick s w x { s with lastCounter := s.lastCounter + 1 } w
        { x with phase := .writing (s.lastCounter + 1) s.registry.entries [] [] }
  | write {counter : UInt64} {id : String} {r : Ref} {rest written : List (String × Ref)}
      {w' : Wire} : x.phase = .writing counter ((id, r) :: rest) written [] →
      w.write r (frame s counter x) = (.ok (), w') →
      Advance me pick s w x s w' { x with phase := .writing counter rest (written ++ [(id, r)]) [] }
  | await {counter : UInt64} {written : List (String × Ref)} :
      x.phase = .writing counter [] written [] → s.withAcknowledge = true →
      Advance me pick s w x s w
        { x with phase := .waiting counter (written.map fun c => ⟨c.1, c.2, none⟩) [] }
  /-- Acknowledgments are not asked for. -/
  | succeed {counter : UInt64} {written : List (String × Ref)} :
      x.phase = .writing counter [] written [] → s.withAcknowledge = false →
      Advance me pick s w x { s with line := s.line.tail } w { x with phase := .done (.ok ()) }
  /-- A message was read that is not the acknowledgment. -/
  | ignore {counter : UInt64} {waits : List AckWait} {a : AckWait} {bytes : Bytes} {w' : Wire} :
      x.phase = .waiting counter waits [] → waits[pick]? = some a → a.outcome = none →
      w.read? a.conn = some (.ok bytes, w') → bytes ≠ Ack.encode counter →
      Advance me pick s w x s w' { x with phase := .waiting counter waits [] }
  | acknowledge {counter : UInt64} {waits : List AckWait} {a : AckWait} {w' : Wire} :
      x.phase = .waiting counter waits [] → waits[pick]? = some a → a.outcome = none →
      w.read? a.conn = some (.ok (Ack.encode counter), w') →
      Advance me pick s w x s w'
        { x with
          phase := .waiting counter (waits.set pick { a with outcome := some .acknowledged }) [] }
  /-- The last acknowledgment was read. -/
  | complete {counter : UInt64} {waits : List AckWait} {a : AckWait} {w' : Wire} :
      x.phase = .waiting counter waits [] → waits[pick]? = some a → a.outcome = none →
      w.read? a.conn = some (.ok (Ack.encode counter), w') →
      Advance me pick s w x { s with line := s.line.tail } w' { x with phase := .done (.ok ()) }

variable {me pick : Nat} {s s' : Sender} {w w' : Wire} {x x' : Send}

/-- The wait that moves reads a message: its acknowledgment, or something else. -/
theorem read_of_wait {counter : UInt64} {a a' : AckWait}
    (h : a.step counter s w = some (s', w', a')) (isOpen : s.cancel.closed = false)
    (sturdy : (w.conn a.conn).Sturdy) : s' = s ∧ a.outcome = none ∧
      ∃ bytes, w.read? a.conn = some (.ok bytes, w') ∧
        (bytes ≠ Ack.encode counter ∧ a' = a ∨
          bytes = Ack.encode counter ∧ a' = { a with outcome := some .acknowledged }) := by
  cases AckWait.move_of_step h with
  | cancel _ hclosed => cases isOpen.symm.trans hclosed
  | @acknowledge bytes _ hnone _ hread hdec =>
    exact ⟨rfl, hnone, bytes, hread, .inr ⟨Ack.eq_encode_of_decode hdec, rfl⟩⟩
  | @ignore bytes _ hnone _ hread hdec =>
    refine ⟨rfl, hnone, bytes, hread, .inl ⟨?_, rfl⟩⟩
    rintro rfl
    exact hdec (Ack.decode_encode counter)
  | fail _ _ hread =>
    obtain ⟨bytes, heq⟩ := Wire.ok_of_read sturdy hread
    cases heq

theorem Move.advance (h : Move me pick s w x s' w' x') (hx : x.Steady s.registry.entries)
    (isOpen : s.cancel.closed = false) (registered : s.registry.entries ≠ [])
    (sturdy : ∀ c ∈ s.registry.entries, (w.conn c.2).Sturdy) :
    Advance me pick s w x s' w' x' := by
  have hregistry : s.registry.isEmpty = false := by simpa [Table.isEmpty] using registered
  have hsturdy {counter : UInt64} {waits : List AckWait} {failures : List Failure} {a : AckWait}
      (hp : x.phase = .waiting counter waits failures) (ha : waits[pick]? = some a) :
      (w.conn a.conn).Sturdy :=
    sturdy (a.id, a.conn) (hx.mem_of_waiting hp (List.mem_of_getElem? ha))
  cases h with
  | refuse hp he =>
    rcases he with ⟨hempty, -⟩ | ⟨hempty, -⟩
    · cases hregistry.symm.trans hempty
    · exact absurd hempty hx.1
  | enqueue hp => exact .enqueue hp
  | abandon _ _ hempty => cases hregistry.symm.trans hempty
  | start hp hhead => exact .start hp hhead
  | accept hp hw =>
    obtain ⟨rfl, -⟩ := hx.of_writing hp
    exact .write hp hw
  | reject hp hw => cases Wire.ok_of_write (sturdy _ (hx.mem_of_writing hp)) hw
  | fail hp => exact absurd (hx.of_writing hp).2.symm registered
  | succeed hp hwritten hack =>
    obtain ⟨rfl, -⟩ := hx.of_writing hp
    exact .succeed hp hack
  | await hp hwritten hack =>
    obtain ⟨rfl, -⟩ := hx.of_writing hp
    exact .await hp hack
  | wait hp ha hstep hall =>
    obtain ⟨rfl, -, -⟩ := hx.of_waiting hp
    obtain ⟨rfl, hnone, bytes, hread, ⟨hne, rfl⟩ | ⟨rfl, rfl⟩⟩ :=
      read_of_wait hstep isOpen (hsturdy hp ha)
    · -- the wait goes on as it was
      obtain ⟨hlt, rfl⟩ := List.getElem?_eq_some_iff.mp ha
      rw [List.set_getElem_self]
      exact .ignore hp ha hnone hread hne
    · exact .acknowledge hp ha hnone hread
  | @conclude counter waits failures a a' _ _ hp ha hstep hall =>
    obtain ⟨rfl, -, -⟩ := hx.of_waiting hp
    have hmem : a' ∈ waits.set pick a' :=
      List.mem_set (List.getElem?_eq_some_iff.mp ha).1 _
    obtain ⟨rfl, hnone, bytes, hread, ⟨hne, rfl⟩ | ⟨rfl, rfl⟩⟩ :=
      read_of_wait hstep isOpen (hsturdy hp ha)
    · -- the wait that moved would have ended
      have hsome := List.all_eq_true.mp hall _ hmem
      rw [hnone] at hsome
      cases hsome
    · -- the wait that moved has ended well, and one such wait is enough
      have hverdict : verdict (waits.set pick { a with outcome := some .acknowledged }) []
          = .ok () := by
        rw [verdict, if_pos (List.any_eq_true.mpr ⟨_, hmem, rfl⟩)]
      rw [hverdict]
      exact .complete hp ha hnone hread

/-- A steady send keeps to the connections that are registered, and goes on to be steady. -/
theorem Advance.steady (h : Advance me pick s w x s' w' x') (hx : x.Steady s.registry.entries) :
    s'.registry = s.registry ∧ x'.Steady s.registry.entries := by
  have hpayload := hx.1
  cases h with
  | enqueue | succeed | complete => exact ⟨rfl, hpayload, by trivial⟩
  | start => exact ⟨rfl, hpayload, rfl, rfl⟩
  | write hp =>
    have hall := (hx.of_writing hp).2
    exact ⟨rfl, hpayload, rfl, by rw [← hall, List.append_assoc]; rfl⟩
  | await hp =>
    refine ⟨rfl, hpayload, rfl, ?_, fun a ha => ?_⟩
    · rw [← (hx.of_writing hp).2, List.map_map, List.append_nil]
      exact List.map_id _
    · obtain ⟨c, -, rfl⟩ := List.mem_map.mp ha
      exact .inl rfl
  | ignore hp => exact ⟨rfl, hpayload, hx.of_waiting hp⟩
  | acknowledge hp ha =>
    obtain ⟨-, hconns, houtcomes⟩ := hx.of_waiting hp
    refine ⟨rfl, hpayload, rfl, ?_, fun b hb => ?_⟩
    · rw [← hconns]
      exact map_set_of_eq ha rfl
    · rcases List.mem_or_eq_of_mem_set hb with hb | rfl
      · exact houtcomes b hb
      · exact .inr rfl

/-- A step of a steady send leaves every sturdy connection sturdy. -/
theorem Advance.sturdy (h : Advance me pick s w x s' w' x') {f : Ref} (hf : (w.conn f).Sturdy) :
    (w'.conn f).Sturdy := by
  cases h with
  | enqueue | start | await | succeed => exact hf
  | write _ hw => exact Wire.sturdy_write hf hw
  | ignore _ _ _ hr | acknowledge _ _ _ hr | complete _ _ _ hr => exact Wire.sturdy_read hf hr

/-- What a send waits for, or will wait for, has not been read since its frame was accepted. -/
def Backed (w : Wire) (acc : List Acceptance) (withAcknowledge : Bool) (x : Send) : Prop :=
  match x.phase with
  | .writing counter _ written _ => ∀ c ∈ written,
    Sought w acc (Frame.encode ⟨withAcknowledge, counter, x.payload⟩) counter c.2
  | .waiting counter waits _ => ∀ a ∈ waits, a.outcome = none →
    Sought w acc (Frame.encode ⟨true, counter, x.payload⟩) counter a.conn
  | .called | .queued | .done _ => True

theorem Backed.of_not_turn {acc : List Acceptance} {ack : Bool} (h : ¬x.HasTurn) :
    x.Backed w acc ack := by
  rw [HasTurn] at h
  rw [Backed]
  cases hp : x.phase with
  | called | queued | done => trivial
  | writing | waiting => simp [hp] at h

/-- Nothing changes for a steady send if nothing is read at its connections. -/
theorem Backed.still {entries : List (String × Ref)} {acc acc' : List Acceptance} {ack : Bool}
    (h : x.Backed w acc ack) (hx : x.Steady entries) (hacc : acc ⊆ acc')
    (hsame : ∀ c ∈ entries, (w'.conn c.2).consumed = (w.conn c.2).consumed) :
    x.Backed w' acc' ack := by
  have hkeep {frame : Bytes} {counter : UInt64} {c : String × Ref} (hc : c ∈ entries)
      (hsought : Sought w acc frame counter c.2) : Sought w' acc' frame counter c.2 :=
    hsought.mono hacc (by rw [hsame c hc, List.append_nil]) List.not_mem_nil
  rw [Backed] at h ⊢
  cases hp : x.phase with
  | called | queued | done => trivial
  | writing counter rest written failures =>
    rw [hp] at h
    exact fun c hc => hkeep ((hx.of_writing hp).2 ▸ List.mem_append_left _ hc) (h c hc)
  | waiting counter waits failures =>
    rw [hp] at h
    exact fun a ha hnone => hkeep (hx.mem_of_waiting hp ha) (h a ha hnone)

theorem Advance.backed {acc : List Acceptance} {entries : List (String × Ref)}
    (h : Advance me pick s w x s' w' x') (hx : x.Steady entries)
    (hb : x.Backed w acc s.withAcknowledge) (nodup : (entries.map Prod.snd).Nodup) :
    x'.Backed w' (acc ++ w.acceptances w') s.withAcknowledge := by
  cases h with
  | enqueue | succeed | complete => trivial
  | start => exact nofun
  | @write counter id r rest written _ hp hw =>
    rw [Backed, hp] at hb
    intro c hc
    rcases List.mem_append.mp hc with hold | hnew
    · exact (hb c hold).mono (List.subset_append_left _ _)
        ((Wire.logs_write hw).conn c.2).consumed List.not_mem_nil
    · obtain rfl := List.mem_singleton.mp hnew
      exact sought_of_write hw acc counter
  | await hp hack =>
    rw [Backed, hp, hack] at hb
    intro a ha _
    obtain ⟨c, hc, rfl⟩ := List.mem_map.mp ha
    obtain ⟨b, hmem, hrest⟩ := hb c hc
    exact ⟨b, List.mem_append_left _ hmem, hrest⟩
  | ignore hp ha _ hr hne =>
    rw [Backed, hp] at hb
    exact fun b hmem hnone => (hb b hmem hnone).read hr fun _ => hne
  | @acknowledge counter waits a _ hp ha _ hr =>
    rw [Backed, hp] at hb
    intro b hmem hnone
    obtain ⟨j, hj⟩ := List.mem_iff_getElem?.mp hmem
    rcases getElem?_of_set hj with ⟨-, rfl⟩ | ⟨hjp, hj⟩
    · cases hnone
    -- connections are waited for once, so the one that was read is not the one of another wait
    have hne : b.conn ≠ a.conn := by
      intro heq
      have hlt := (List.getElem?_eq_some_iff.mp hj).1
      have hconns : (waits.map (·.conn)).Nodup := by
        rw [← (hx.of_waiting hp).2.1, List.map_map] at nodup
        exact nodup
      refine hjp ((List.getElem?_inj (by simpa using hlt) hconns).mp ?_)
      rw [List.getElem?_map, List.getElem?_map, ha, hj, Option.map_some, Option.map_some, heq]
    exact (hb b (List.mem_of_getElem? hj) hnone).read hr fun heq => absurd heq hne

end Send

end BlockFeed
