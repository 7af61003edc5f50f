import BlockFeed.Codec.BigEndian
import BlockFeed.Text.Hex

/-!
# Identities of connections

The id that a connection is given: a version 7 universally unique identifier after a fixed word.

## Main definitions

* `Identity.generate`: the id made at a time, from a serial number.
* `Identity.wellFormed`: whether a text has the form of such an id.

## Design notes

An identifier has 48 bits of time in milliseconds, the version in 4 bits, 12 bits, the variant in
2 bits, and 62 bits. The serial number fills what the time leaves free, so ids made from different
numbers below `2 ^ 62` differ.
-/

namespace BlockFeed.Identity

def word : String := "conn_"

/-- The id made at a time, from a serial number. -/
def generate (time serial : Nat) : String :=
  let low := serial % Nat.pow 2 62
  let tail := BigEndian.encode 8 (Nat.pow 2 63 + low)
  word ++ "-".intercalate
    [Text.hex (BigEndian.encode 4 (time / UInt16.size)), Text.hex (BigEndian.encode 2 time),
      Text.hex (BigEndian.encode 2 (0x7000 + serial / Nat.pow 2 62 % 0x1000)),
      Text.hex (tail.take 2),
      Text.hex (tail.drop 2)]

/-- Whether a text is a given number of lower-case hexadecimal digits. -/
def isHex (width : Nat) (s : String) : Bool :=
  s.length == width && s.toList.all fun c => (Text.hexDigit? c).isSome

/-- Whether a text has the form of an id. -/
def wellFormed (s : String) : Bool :=
  s.startsWith word &&
    match (String.ofList (s.toList.drop word.length)).splitOn "-" with
    | [a, b, c, d, e] =>
      isHex 8 a && isHex 4 b && isHex 4 c && isHex 4 d && isHex 12 e && c.startsWith "7" &&
        (d.startsWith "8" || d.startsWith "9" || d.startsWith "a" || d.startsWith "b")
    | _ => false

end BlockFeed.Identity
