import BlockFeed.Codec.Envelope
import BlockFeed.Proofs.Codec.Messages

/-!
# Exact formats

Each message has one written form: a byte string is read as a message exactly if it is what that
message is written as. Envelopes are the one format that refuses to write, namely data too long
to declare.

## Main results

* `wire_formats_exact`: the three formats are bijections between values and the byte strings that
  they accept, and no byte string is both a frame and an acknowledgment.
-/

namespace BlockFeed

namespace BigEndian

/-- A byte string of known width is what its natural is written as. -/
theorem encode_decode_of_length {bs : Bytes} {w : Nat} (h : bs.length = w) :
    encode w (decode bs) = bs := by
  subst h
  exact encode_decode bs

theorem decode_lt_of_length {bs : Bytes} {w : Nat} (h : bs.length = w) :
    decode bs < 256 ^ w := by
  subst h
  exact decode_lt bs

end BigEndian

namespace Ack

theorem decode_eq_ok_iff {bs : Bytes} {n : UInt64} : decode bs = .ok n ↔ bs = encode n :=
  ⟨eq_encode_of_decode, fun h => h ▸ decode_encode n⟩

end Ack

namespace Frame

/-- The eight bytes of a counter and the payload behind them. -/
theorem encode_counter_append {rest : Bytes} (h : ¬rest.length < 8) :
    BigEndian.encode 8 (UInt64.ofNat (BigEndian.decode (rest.take 8))).toNat ++ rest.drop 8
      = rest := by
  have hlen : (rest.take 8).length = 8 := by
    rw [List.length_take]
    omega
  have hlt : BigEndian.decode (rest.take 8) < 2 ^ 64 := BigEndian.decode_lt_of_length hlen
  rw [UInt64.toNat_ofNat', Nat.mod_eq_of_lt hlt, BigEndian.encode_decode_of_length hlen,
    List.take_append_drop]

/-- Only what a frame is written as is read as that frame. -/
theorem eq_encode_of_decode {bs : Bytes} {f : Frame} (h : decode bs = .ok f) :
    bs = encode f := by
  cases bs with
  | nil => cases h
  | cons b rest =>
    rw [decode] at h
    split at h
    · cases h
    · next hlong =>
      have hrest := encode_counter_append hlong
      dsimp only at h
      split at h
      · next hflag =>
        cases h
        rw [encode, List.cons_append, hrest, hflag]
        rfl
      split at h
      · next hflag =>
        cases h
        rw [encode, List.cons_append, hrest, hflag]
        rfl
      · cases h

theorem decode_eq_ok_iff {bs : Bytes} {f : Frame} : decode bs = .ok f ↔ bs = encode f :=
  ⟨eq_encode_of_decode, fun h => h ▸ decode_encode f⟩

end Frame

namespace Envelope

/-- The written form of an envelope whose data can be declared. -/
theorem encode_of_lt {e : Envelope} (h : e.data.length < UInt32.size) :
    encode e
      = .ok (BigEndian.encode 4 e.tag.toNat ++ BigEndian.encode 4 e.data.length ++ e.data) := by
  rw [encode, if_pos h]

/-- Only data that is too long to declare is refused. -/
theorem encode_eq_error_iff {e : Envelope} :
    (∃ err, encode e = .error err) ↔ UInt32.size ≤ e.data.length := by
  rw [encode]
  split
  · next hfit => exact iff_of_false (by simp) (Nat.not_le.mpr hfit)
  · next hlong => exact iff_of_true ⟨_, rfl⟩ (Nat.not_lt.mp hlong)

/-- An envelope is read back from what it is written as. -/
theorem decode_of_encode {e : Envelope} {bs : Bytes} (h : encode e = .ok bs) :
    decode bs = .ok e := by
  have hfit : e.data.length < UInt32.size := by
    by_contra hlong
    rw [encode, if_neg hlong] at h
    cases h
  rw [encode_of_lt hfit] at h
  cases h
  -- The tag, the length and the data stand at fixed places.
  have htag := BigEndian.length_encode 4 e.tag.toNat
  have hlength := BigEndian.length_encode 4 e.data.length
  have hdropTag : (BigEndian.encode 4 e.tag.toNat
      ++ (BigEndian.encode 4 e.data.length ++ e.data)).drop 4
        = BigEndian.encode 4 e.data.length ++ e.data := List.drop_left' htag
  have hheader : (BigEndian.encode 4 e.tag.toNat ++ BigEndian.encode 4 e.data.length).length
      = 8 := by
    rw [List.length_append, htag, hlength]
  have hdata : (BigEndian.encode 4 e.tag.toNat ++ BigEndian.encode 4 e.data.length
      ++ e.data).drop 8 = e.data := List.drop_left' hheader
  have hlong : ¬(BigEndian.encode 4 e.tag.toNat ++ BigEndian.encode 4 e.data.length
      ++ e.data).length < headerLength := by
    rw [List.length_append, hheader, headerLength]
    omega
  have hdeclared : BigEndian.decode (BigEndian.encode 4 e.data.length) = e.data.length :=
    BigEndian.decode_encode hfit
  have hword : BigEndian.decode (BigEndian.encode 4 e.tag.toNat) = e.tag.toNat :=
    BigEndian.decode_encode e.tag.toNat_lt
  rw [decode, if_neg hlong]
  simp only [hdata]
  rw [List.append_assoc, hdropTag, List.take_left' hlength, List.take_left' htag, hdeclared,
    if_pos rfl, hword, UInt32.ofNat_toNat]

/-- Only what an envelope is written as is read as that envelope. -/
theorem encode_of_decode {e : Envelope} {bs : Bytes} (h : decode bs = .ok e) :
    encode e = .ok bs := by
  rw [decode] at h
  split at h
  · cases h
  · next hlong =>
    rw [headerLength] at hlong
    dsimp only at h
    split at h
    · next hdata =>
      cases h
      have htag : (bs.take 4).length = 4 := by
        rw [List.length_take]
        omega
      have hlength : ((bs.drop 4).take 4).length = 4 := by
        rw [List.length_take, List.length_drop]
        omega
      have hfit : (bs.drop 8).length < UInt32.size := by
        rw [hdata]
        exact BigEndian.decode_lt_of_length hlength
      have hword : (UInt32.ofNat (BigEndian.decode (bs.take 4))).toNat
          = BigEndian.decode (bs.take 4) := by
        rw [UInt32.toNat_ofNat']
        exact Nat.mod_eq_of_lt (BigEndian.decode_lt_of_length htag)
      have hjoin : (bs.drop 4).take 4 ++ bs.drop 8 = bs.drop 4 := by
        rw [show 8 = 4 + 4 from rfl, ← List.drop_drop, List.take_append_drop]
      rw [encode_of_lt hfit, hword, BigEndian.encode_decode_of_length htag, hdata,
        BigEndian.encode_decode_of_length hlength, List.append_assoc, hjoin,
        List.take_append_drop]
    · cases h

theorem decode_eq_ok_iff {bs : Bytes} {e : Envelope} : decode bs = .ok e ↔ encode e = .ok bs :=
  ⟨encode_of_decode, decode_of_encode⟩

end Envelope

/-- A byte string is read as a frame, an acknowledgment or an envelope exactly if it is what that
message is written as; only an envelope with data too long to declare is not written at all; and no
byte string is both a frame and an acknowledgment. -/
theorem wire_formats_exact (bs : Bytes) :
    (∀ f, Frame.decode bs = .ok f ↔ bs = Frame.encode f) ∧
    (∀ n, Ack.decode bs = .ok n ↔ bs = Ack.encode n) ∧
    (∀ e, Envelope.decode bs = .ok e ↔ Envelope.encode e = .ok bs) ∧
    (∀ e : Envelope, (∃ err, e.encode = .error err) ↔ 2 ^ 32 - 1 < e.data.length) ∧
    ¬∃ f n, Frame.decode bs = .ok f ∧ Ack.decode bs = .ok n := by
  refine ⟨fun f => Frame.decode_eq_ok_iff, fun n => Ack.decode_eq_ok_iff,
    fun e => Envelope.decode_eq_ok_iff, fun e => Envelope.encode_eq_error_iff, ?_⟩
  rintro ⟨f, n, hframe, hack⟩
  rw [Ack.eq_encode_of_decode hack, Frame.decode_ack] at hframe
  cases hframe

end BlockFeed
