import BlockFeed.Codec.BigEndian

/-!
# UTF-8

Texts as byte strings.

## Main definitions

* `Text.utf8`, `Text.ofUtf8?`: the bytes of a text, and the text of a byte string.
* `Text.ofUtf8Lossy`: the text of any byte string, with a replacement character for each part
  that is not UTF-8.

## Design notes

`ofUtf8?` is strict: overlong forms, surrogates and truncated sequences are refused. The lossy
reading replaces each longest beginning of a sequence that the next byte cannot continue.
-/

namespace BlockFeed.Text

def utf8 (s : String) : Bytes := s.toByteArray.data.toList

def ofUtf8? (bs : Bytes) : Option String := String.fromUTF8? ⟨bs.toArray⟩

/-- A text is read back from its bytes. -/
@[simp] theorem ofUtf8?_utf8 (s : String) : ofUtf8? (utf8 s) = some s := by
  obtain ⟨b, h⟩ := s
  simp [ofUtf8?, utf8, String.fromUTF8?, h, String.fromUTF8]

/-- The bytes that may follow the first byte of a sequence: the range of the second byte, and how
many more of the range `80` to `bf` come after it. -/
def continuation? (b : UInt8) : Option (UInt8 × UInt8 × Nat) :=
  if 0xc2 ≤ b ∧ b ≤ 0xdf then some (0x80, 0xbf, 0)
  else if b = 0xe0 then some (0xa0, 0xbf, 1)
  else if b = 0xed then some (0x80, 0x9f, 1)
  else if 0xe1 ≤ b ∧ b ≤ 0xef then some (0x80, 0xbf, 1)
  else if b = 0xf0 then some (0x90, 0xbf, 2)
  else if b = 0xf4 then some (0x80, 0x8f, 2)
  else if 0xf1 ≤ b ∧ b ≤ 0xf3 then some (0x80, 0xbf, 2)
  else none

/-- How many of the bytes after the first one belong to its sequence, and whether they complete
it. -/
def sequenceTail (b : UInt8) (rest : Bytes) : Nat × Bool :=
  match continuation? b, rest with
  | some (lo, hi, more), c :: rest =>
    if lo ≤ c ∧ c ≤ hi then
      let tail := (rest.take more).takeWhile fun d => 0x80 ≤ d && d ≤ 0xbf
      (tail.length + 1, tail.length == more)
    else (0, false)
  | _, _ => (0, false)

/-- The text of a byte string, with `U+FFFD` for each part that is not UTF-8, reading at most
`fuel` sequences. -/
def lossyChars : Nat → Bytes → List Char
  | 0, _ => []
  | _ + 1, [] => []
  | fuel + 1, b :: rest =>
    if b < 0x80 then Char.ofNat b.toNat :: lossyChars fuel rest
    else
      let (n, complete) := sequenceTail b rest
      let c :=
        if complete then ((ofUtf8? (b :: rest.take n)).bind fun s => s.toList.head?).getD '\ufffd'
        else '\ufffd'
      c :: lossyChars fuel (rest.drop n)

/-- The text of a byte string, with `U+FFFD` for each part that is not UTF-8. -/
def ofUtf8Lossy (bs : Bytes) : String := String.ofList (lossyChars bs.length bs)

end BlockFeed.Text
