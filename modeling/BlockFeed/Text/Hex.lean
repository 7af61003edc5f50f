/-!
# Hexadecimal digits

## Main definitions

* `Text.hexByte`, `Text.hex`: bytes as pairs of lower-case hexadecimal digits.
* `Text.ofHex?`: the bytes that such a text stands for.
-/

namespace BlockFeed.Text

def hexByte (b : UInt8) : String :=
  String.ofList [Nat.digitChar (b.toNat / 16), Nat.digitChar (b.toNat % 16)]

def hex (bs : List UInt8) : String := String.join (bs.map hexByte)

def hexDigit? (c : Char) : Option Nat :=
  if '0' ≤ c ∧ c ≤ '9' then some (c.toNat - '0'.toNat)
  else if 'a' ≤ c ∧ c ≤ 'f' then some (c.toNat - 'a'.toNat + 10)
  else none

/-- The bytes that pairs of digits stand for. -/
def bytesOfDigits? : List Char → Option (List UInt8)
  | [] => some []
  | [_] => none
  | a :: b :: rest =>
    match hexDigit? a, hexDigit? b, bytesOfDigits? rest with
    | some high, some low, some bytes => some (UInt8.ofNat (16 * high + low) :: bytes)
    | _, _, _ => none

/-- The bytes that a text of hexadecimal digits stands for. -/
def ofHex? (s : String) : Option (List UInt8) := bytesOfDigits? s.toList

end BlockFeed.Text
