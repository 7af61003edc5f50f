import BlockFeed.Json.Number
import BlockFeed.Text.Utf8

/-!
# Written JSON

JSON texts as trees whose strings and numbers are kept as they are written.

## Main definitions

* `Json.Piece`, `Json.StringText`: a string between its quotes.
* `StringText.text?`: the text that a string stands for.
* `Json.Written`: the tree of a JSON text.

## Design notes

Reading a text and using it are two steps. The grammar alone decides whether a text has a tree;
whether a string is UTF-8 with paired surrogates, and whether a number is in range, is asked only
of the parts that are used.
-/

namespace BlockFeed.Json

/-- One element of a string between its quotes. -/
inductive Piece where
  | byte (b : UInt8)
  /-- A backslash and a letter or mark that stand for a byte. -/
  | short (b : UInt8)
  | code (unit : Nat)
  deriving DecidableEq, Repr

abbrev StringText := List Piece

namespace StringText

/-- The bytes of a character, given by its code point. -/
def charBytes (n : Nat) : Bytes := String.utf8EncodeChar (Char.ofNat n)

/-- The bytes that a string stands for; surrogates have to come in pairs. -/
def bytes? : StringText → Option Bytes
  | [] => some []
  | .byte b :: rest => (bytes? rest).map (b :: ·)
  | .short b :: rest => (bytes? rest).map (b :: ·)
  | .code u :: rest =>
    if 0xd800 ≤ u ∧ u < 0xdc00 then
      match rest with
      | .code v :: rest =>
        if 0xdc00 ≤ v ∧ v < 0xe000 then
          (bytes? rest).map (charBytes (0x10000 + (u - 0xd800) * 0x400 + (v - 0xdc00)) ++ ·)
        else none
      | _ => none
    else if 0xdc00 ≤ u ∧ u < 0xe000 then none
    else (bytes? rest).map (charBytes u ++ ·)

def text? (s : StringText) : Option String := (bytes? s).bind Text.ofUtf8?

end StringText

/-- The tree of a JSON text. -/
inductive Written where
  | null
  | bool (b : Bool)
  | number (t : NumberText)
  | string (s : StringText)
  | array (items : List Written)
  | object (members : List (StringText × Written))
  deriving Repr

end BlockFeed.Json
