import BlockFeed.Proofs.Receiver.Steady

/-!
# Channels

A link over which nothing fails, from the connection that frames are written to up to the receiver
that reads them at its other end.

## Main definitions

* `Link`, `Link.Joined`: the two ends of a link, and who reads the far one.
* `Channel`: what has been accepted at one end has arrived at the other; what has been read there
  has been handed over; what has been handed over has been acknowledged or is about to be.
-/

namespace BlockFeed

/-- The end of a link that frames are written to, its other end, and the receiver that reads
there. -/
structure Link where
  near : Ref
  far : Ref
  receiver : Nat
  deriving DecidableEq, Repr

/-- Two links have no end and no receiver in common. -/
structure Link.Apart (c d : Link) : Prop where
  near : c.near ≠ d.near
  far : c.far ≠ d.far
  there : c.near ≠ d.far
  back : c.far ≠ d.near
  receiver : c.receiver ≠ d.receiver

/-- The two ends of a link are joined. -/
structure Link.Joined (w : Wire) (c : Link) : Prop where
  there : w.peer? c.near = some c.far
  back : w.peer? c.far = some c.near
  ends : c.near ≠ c.far
  near : c.near < w.connections.length
  far : c.far < w.connections.length

theorem Link.Joined.brings {w w' : Wire} {c : Link} (h : c.Joined w) {news : Ref → List Bytes}
    (hw : w.Brings news w') : c.Joined w' where
  there := (hw.peer? _).trans h.there
  back := (hw.peer? _).trans h.back
  ends := h.ends
  near := hw.size ▸ h.near
  far := hw.size ▸ h.far

/-- What the near end accepts arrives at the far end. -/
theorem Link.Joined.write_near {w w' : Wire} {c : Link} (h : c.Joined w) (mute : w.Mute)
    {bytes : Bytes} (hw : w.write c.near bytes = (.ok (), w')) :
    (w'.conn c.near).written = (w.conn c.near).written ++ [bytes] ∧
      (w'.conn c.far).messages = (w.conn c.far).messages ++ [bytes] ∧
      (w'.conn c.near).messages = (w.conn c.near).messages := by
  have hbrings := Wire.brings_of_write mute hw
  have hnot : ¬(w.peer? c.near = some c.near ∧ c.near < w.connections.length) := fun heq =>
    h.ends (Option.some.inj (heq.1.symm.trans h.there))
  refine ⟨?_, ?_, ?_⟩
  · rw [Wire.written_of_write hw, Wire.only, if_pos ⟨rfl, h.near⟩]
  · rw [(hbrings.conn c.far).messages, Wire.arrivals, if_pos ⟨h.there, h.far⟩]
  · rw [(hbrings.conn c.near).messages, Wire.arrivals, if_neg hnot, List.append_nil]

/-- What the far end accepts arrives at the near end. -/
theorem Link.Joined.write_far {w w' : Wire} {c : Link} (h : c.Joined w) (mute : w.Mute)
    {bytes : Bytes} (hw : w.write c.far bytes = (.ok (), w')) :
    (w'.conn c.near).messages = (w.conn c.near).messages ++ [bytes] ∧
      (w'.conn c.far).messages = (w.conn c.far).messages ∧
      (w'.conn c.near).written = (w.conn c.near).written := by
  have hbrings := Wire.brings_of_write mute hw
  have hnot : ¬(w.peer? c.far = some c.far ∧ c.far < w.connections.length) := fun heq =>
    h.ends (Option.some.inj (h.back.symm.trans heq.1))
  refine ⟨?_, ?_, ?_⟩
  · rw [(hbrings.conn c.near).messages, Wire.arrivals, if_pos ⟨h.back, h.near⟩]
  · rw [(hbrings.conn c.far).messages, Wire.arrivals, if_neg hnot, List.append_nil]
  · rw [Wire.written_of_write hw, Wire.only_of_ne h.ends, List.append_nil]

/-- Nothing is lost on a link: all that its near end has accepted is frames, and has arrived at the
far end; what the receiver has read there it has handed over, and what it has handed over it has
acknowledged or will acknowledge next. -/
structure Channel (w : Wire) (withAcknowledge : Bool) (c : Link) (r : Receiver) (l : Listen) :
    Prop extends c.Joined w where
  sturdy : (w.conn c.far).Sturdy
  conn : l.conn = c.far
  steady : l.Steady withAcknowledge r.blockOnError
  willing : r.Willing withAcknowledge
  frames : ∀ bytes ∈ (w.conn c.near).written, ∃ d : Delivery, bytes = d.frame withAcknowledge
  arrived : (w.conn c.far).messages = (w.conn c.near).written
  read : (w.conn c.far).consumed = r.deliveries.map (·.frame withAcknowledge)
  answered : (w.conn c.near).messages ++ l.pending
    = if withAcknowledge then r.deliveries.map fun d => Ack.encode d.counter else []

namespace Channel

variable {w w' : Wire} {ack : Bool} {c : Link} {r r' : Receiver} {l l' : Listen}

/-- Nothing changes for a link if nothing arrives at its ends, the near end accepts nothing and
nothing is read at the far end. -/
theorem still (h : Channel w ack c r l) {news : Ref → List Bytes} {calls : Ref → List WriteCall}
    {reads : Ref → List Bytes} (hbrings : w.Brings news w') (hlogs : w.Logs calls reads w')
    (sturdy : (w'.conn c.far).Sturdy) (hnear : news c.near = []) (hfar : news c.far = [])
    (hcalls : calls c.near = []) (hreads : reads c.far = []) : Channel w' ack c r l := by
  have hmessages {f : Ref} (hnone : news f = []) :
      (w'.conn f).messages = (w.conn f).messages := by
    rw [(hbrings.conn f).messages, hnone, List.append_nil]
  have hwritten : (w'.conn c.near).written = (w.conn c.near).written := by
    rw [(hlogs.conn c.near).written, hcalls]
    exact List.append_nil _
  have hconsumed : (w'.conn c.far).consumed = (w.conn c.far).consumed := by
    rw [(hlogs.conn c.far).consumed, hreads, List.append_nil]
  exact { h with
    toJoined := h.toJoined.brings hbrings
    sturdy := sturdy
    frames := hwritten ▸ h.frames
    arrived := by rw [hmessages hfar, hwritten, h.arrived]
    read := hconsumed.trans h.read
    answered := hmessages hnear ▸ h.answered }

/-- The near end accepts a frame. -/
theorem write (h : Channel w ack c r l) (mute : w.Mute) {d : Delivery}
    (hw : w.write c.near (d.frame ack) = (.ok (), w')) : Channel w' ack c r l := by
  obtain ⟨hwritten, hfar, hnear⟩ := h.toJoined.write_near mute hw
  exact { h with
    toJoined := h.toJoined.brings (Wire.brings_of_write mute hw)
    sturdy := Wire.sturdy_write h.sturdy hw
    frames := by
      intro bytes hb
      rw [hwritten] at hb
      rcases List.mem_append.mp hb with hold | hnew
      · exact h.frames bytes hold
      · exact ⟨d, List.mem_singleton.mp hnew⟩
    arrived := by rw [hfar, hwritten, h.arrived]
    read := ((Wire.logs_write hw).conn c.far).consumed.trans ((List.append_nil _).trans h.read)
    answered := hnear ▸ h.answered }

section Advance

variable (steady : l'.Steady ack r'.blockOnError) (willing : r'.Willing ack)
variable (conn : l'.conn = c.far)

include steady willing conn

/-- The receiver goes on with the same to acknowledge. -/
theorem pass (h : Channel w ack c r l) (deliveries : r'.deliveries = r.deliveries)
    (pending : l'.pending = l.pending) : Channel w ack c r' l' :=
  { h with
    steady := steady
    willing := willing
    conn := conn
    read := deliveries ▸ h.read
    answered := deliveries ▸ pending ▸ h.answered }

/-- The receiver hands over the payload of a frame, and is to acknowledge it if that was asked
for. -/
theorem handOver (h : Channel w ack c r l) {d : Delivery}
    (hread : w.read? c.far = some (.ok (d.frame ack), w'))
    (deliveries : r'.deliveries = r.deliveries ++ [d]) (none : l.pending = [])
    (pending : l'.pending = if ack then [Ack.encode d.counter] else []) :
    Channel w' ack c r' l' := by
  have hkeeps := Wire.keeps_read hread
  have hwritten := Wire.written_of_read hread c.near
  have hanswered := h.answered
  rw [none, List.append_nil] at hanswered
  exact { h with
    toJoined := h.toJoined.brings hkeeps
    sturdy := Wire.sturdy_read h.sturdy hread
    steady := steady
    willing := willing
    conn := conn
    frames := hwritten ▸ h.frames
    arrived := by rw [hkeeps.messages, hwritten, h.arrived]
    read := by
      rw [(Wire.consumed_of_read hread).2, h.read, deliveries, List.map_append]
      rfl
    answered := by
      rw [hkeeps.messages, hanswered, deliveries, List.map_append, pending]
      cases ack <;> rfl }

/-- The receiver acknowledges what it had to. -/
theorem acknowledge (h : Channel w ack c r l) (mute : w.Mute) {counter : UInt64}
    (hw : w.write c.far (Ack.encode counter) = (.ok (), w'))
    (deliveries : r'.deliveries = r.deliveries) (pending : l.pending = [Ack.encode counter])
    (none : l'.pending = []) : Channel w' ack c r' l' := by
  obtain ⟨hnear, hfar, hwritten⟩ := h.toJoined.write_far mute hw
  exact { h with
    toJoined := h.toJoined.brings (Wire.brings_of_write mute hw)
    sturdy := Wire.sturdy_write h.sturdy hw
    steady := steady
    willing := willing
    conn := conn
    frames := hwritten ▸ h.frames
    arrived := by rw [hfar, hwritten, h.arrived]
    read := by
      rw [((Wire.logs_write hw).conn c.far).consumed, List.append_nil, h.read, deliveries]
    answered := by
      rw [hnear, none, List.append_nil, ← pending, deliveries]
      exact h.answered }

end Advance

/-- The receiver takes a step. -/
theorem advance (h : Channel w ack c r l) (mute : w.Mute) (hl : Listen.Advance ack r w l r' w' l') :
    Channel w' ack c r' l' := by
  obtain ⟨hsteady, hwilling⟩ := hl.steady h.willing
  have hconn := h.conn
  have hsteady₀ := h.steady
  rw [Listen.Steady] at hsteady₀
  cases hl with
  | begin hp => exact h.pass hsteady hwilling hconn rfl (by simp [Listen.pending, hp])
  | @handOver d _ hp hread =>
    have hdeliveries : (r.handOver d).deliveries = r.deliveries ++ [d] := by
      rw [Receiver.deliveries, Receiver.handled_handOver, List.map_append]
      rfl
    exact h.handOver hsteady hwilling hconn (hconn ▸ hread) hdeliveries
      (by simp [Listen.pending, hp]) rfl
  | conclude hp hack | withhold hp hack =>
    rw [hp] at hsteady₀
    refine h.pass hsteady hwilling hconn rfl ?_
    simp [Listen.pending, hp, hsteady₀.1, hack]
  | acknowledge hp hw =>
    exact h.acknowledge hsteady hwilling hconn mute (hconn ▸ hw) rfl
      (by simp [Listen.pending, hp]) rfl

/-- No more has been acknowledged than has been accepted. -/
theorem messages_le_written (h : Channel w ack c r l) :
    (w.conn c.near).messages.length ≤ (w.conn c.near).written.length := by
  have hanswered := congrArg List.length h.answered
  have hread := congrArg List.length h.read
  have hle := (w.conn c.far).consumed_sublist.length_le
  rw [List.length_append] at hanswered
  rw [List.length_map] at hread
  rw [h.arrived] at hle
  cases ack with
  | false =>
    rw [if_neg (by decide), List.length_nil] at hanswered
    omega
  | true =>
    rw [if_pos rfl, List.length_map] at hanswered
    omega

/-- When the receiver has nothing left to do, everything has been handed over, and has been
acknowledged if that was asked for. -/
theorem finished (h : Channel w ack c r l) {now pick : Nat} (hnone : l.step now pick r w = none) :
    (w.conn c.near).written = r.deliveries.map (·.frame ack) ∧
      (w.conn c.near).messages
        = if ack then r.deliveries.map fun d => Ack.encode d.counter else [] := by
  obtain ⟨hpending, hread⟩ := Listen.read?_eq_none_of_step hnone h.steady
  rw [h.conn] at hread
  refine ⟨?_, ?_⟩
  · rw [← h.arrived, Wire.consumed_of_read?_eq_none hread, h.read]
  · rw [← h.answered, hpending, List.append_nil]

end Channel

end BlockFeed
