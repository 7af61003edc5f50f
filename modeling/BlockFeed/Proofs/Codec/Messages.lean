import Mathlib.Algebra.Ring.Nat
import Mathlib.Data.List.Induction
import BlockFeed.Codec.Frame

/-!
# Messages of a link

What is written as a frame is read as that frame and as nothing else, and the same for
acknowledgments. No byte string is both, so whoever reads a link can tell them apart.
-/

namespace BlockFeed

namespace BigEndian

theorem decode_encode {w n : Nat} (h : n < 256 ^ w) : decode (encode w n) = n := by
  induction w generalizing n with
  | zero =>
    have hzero : n = 0 := by
      rw [pow_zero] at h
      omega
    simp [encode, hzero]
  | succ w ih =>
    have hdiv : n / 256 < 256 ^ w := by
      rw [pow_succ] at h
      omega
    have hbyte : (UInt8.ofNat n).toNat = n % 256 := UInt8.toNat_ofNat'
    rw [encode, decode_append_singleton, ih hdiv, hbyte]
    omega

theorem decode_lt (bs : Bytes) : decode bs < 256 ^ bs.length := by
  induction bs using List.reverseRecOn with
  | nil => simp
  | append_singleton bs b ih =>
    have hb : b.toNat < 256 := b.toNat_lt
    rw [decode_append_singleton, List.length_append, List.length_singleton, pow_succ]
    omega

/-- A byte string is what its natural is written as in its own width. -/
theorem encode_decode (bs : Bytes) : encode bs.length (decode bs) = bs := by
  induction bs using List.reverseRecOn with
  | nil => rfl
  | append_singleton bs b ih =>
    have hb : b.toNat < 256 := b.toNat_lt
    have hdiv : (decode bs * 256 + b.toNat) / 256 = decode bs := by omega
    have hlast : UInt8.ofNat (decode bs * 256 + b.toNat) = b := by
      apply UInt8.toNat_inj.mp
      rw [UInt8.toNat_ofNat']
      omega
    rw [List.length_append, List.length_singleton, encode, decode_append_singleton, hdiv, hlast, ih]

/-- A word of 64 bits is read back from its eight bytes. -/
theorem ofNat_decode_encode (n : UInt64) : UInt64.ofNat (decode (encode 8 n.toNat)) = n := by
  have hlt : n.toNat < 256 ^ 8 := n.toNat_lt
  rw [decode_encode hlt, UInt64.ofNat_toNat]

end BigEndian

namespace Ack

@[simp] theorem length_encode (n : UInt64) : (encode n).length = 8 := by
  simp [encode]

@[simp] theorem decode_encode (n : UInt64) : decode (encode n) = .ok n := by
  rw [decode, if_pos (length_encode n), encode, BigEndian.ofNat_decode_encode]

theorem encode_injective : Function.Injective encode := by
  intro n m heq
  have hdec := congrArg decode heq
  rw [decode_encode, decode_encode] at hdec
  exact Except.ok.inj hdec

/-- Only the eight bytes of a counter are read as its acknowledgment. -/
theorem eq_encode_of_decode {bs : Bytes} {n : UInt64} (h : decode bs = .ok n) : bs = encode n := by
  rw [decode] at h
  split at h
  · next hlen =>
    have hn : UInt64.ofNat (BigEndian.decode bs) = n := by simpa using h
    have hlt : BigEndian.decode bs < 2 ^ 64 := by
      have := BigEndian.decode_lt bs
      rw [hlen] at this
      omega
    rw [encode, ← hn, UInt64.toNat_ofNat', Nat.mod_eq_of_lt hlt, ← hlen, BigEndian.encode_decode]
  · cases h

end Ack

namespace Frame

@[simp] theorem decode_encode (f : Frame) : decode (encode f) = .ok f := by
  obtain ⟨ack, counter, payload⟩ := f
  have hlen := BigEndian.length_encode 8 counter.toNat
  have htake : (BigEndian.encode 8 counter.toNat ++ payload).take 8
      = BigEndian.encode 8 counter.toNat := List.take_left' hlen
  have hdrop : (BigEndian.encode 8 counter.toNat ++ payload).drop 8 = payload :=
    List.drop_left' hlen
  have hlong : ¬(BigEndian.encode 8 counter.toNat ++ payload).length < 8 := by
    rw [List.length_append, hlen]
    omega
  simp only [encode, List.cons_append, decode, if_neg hlong, htake, hdrop,
    BigEndian.ofNat_decode_encode]
  cases ack <;> rfl

theorem encode_injective : Function.Injective encode := by
  intro f g heq
  have hdec := congrArg decode heq
  rw [decode_encode, decode_encode] at hdec
  exact Except.ok.inj hdec

theorem length_encode (f : Frame) : (encode f).length = f.payload.length + headerLength := by
  simp [encode, headerLength]
  omega

/-- An acknowledgment is too short to be a frame. -/
theorem decode_ack (n : UInt64) : decode (Ack.encode n) = .error (.tooShort 8 headerLength) := by
  have hlen := Ack.length_encode n
  cases h : Ack.encode n with
  | nil => simp [h] at hlen
  | cons b rest =>
    have hrest : rest.length = 7 := by simpa [h] using hlen
    simp [decode, hrest]

end Frame

/-- A frame is too long to be an acknowledgment. -/
theorem Ack.decode_frame (f : Frame) :
    decode f.encode = .error (.invalidAckLength (f.payload.length + Frame.headerLength)) := by
  have hlen : ¬f.payload.length + Frame.headerLength = 8 := by
    rw [Frame.headerLength]
    omega
  rw [decode, Frame.length_encode, if_neg hlen]

end BlockFeed
