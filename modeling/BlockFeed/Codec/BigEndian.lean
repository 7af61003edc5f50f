/-!
# Big-endian words

Fixed-width naturals as byte strings, most significant byte first: the integers
of every message on a link.

## Main definitions

* `Bytes`: a byte string.
* `BigEndian.encode`, `BigEndian.decode`: a natural as exactly `w` bytes, and back.
-/

namespace BlockFeed

abbrev Bytes := List UInt8

namespace BigEndian

/-- The `w` bytes of `n`, most significant first; whatever does not fit is dropped. -/
def encode : Nat → Nat → Bytes
  | 0, _ => []
  | w + 1, n => encode w (n / 256) ++ [UInt8.ofNat n]

/-- The natural that a byte string writes, most significant byte first. -/
def decode (bs : Bytes) : Nat :=
  bs.foldl (fun n b => n * 256 + b.toNat) 0

@[simp] theorem length_encode (w n : Nat) : (encode w n).length = w := by
  induction w generalizing n with
  | zero => rfl
  | succ w ih => simp [encode, ih]

@[simp] theorem decode_nil : decode [] = 0 := rfl

theorem decode_append_singleton (bs : Bytes) (b : UInt8) :
    decode (bs ++ [b]) = decode bs * 256 + b.toNat := by
  simp [decode]

end BigEndian

end BlockFeed
