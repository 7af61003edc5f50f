/-!
# Lower case

Searching a text for a lower-case ASCII word regardless of case.

## Main definitions

* `Text.lower`: the lower case of ASCII letters, and of the one other character (the Kelvin
  sign) whose lower case is an ASCII letter.
* `Text.lowerAscii`: the lower case of ASCII letters alone.
* `Text.contains`: whether one text occurs in another.

## Design notes

No other character has a lower case made of ASCII letters alone, so for a text that is compared
with an ASCII word, `lower` stands for the full lower case of Unicode.
-/

namespace BlockFeed.Text

/-- The lower case of an ASCII letter; other characters stay. -/
def lowerAsciiChar (c : Char) : Char :=
  if 'A' ≤ c ∧ c ≤ 'Z' then Char.ofNat (c.toNat + 32) else c

/-- The lower case of a character whose lower case is an ASCII letter; other characters stay. -/
def lowerChar (c : Char) : Char :=
  if c = '\u212a' then 'k' else lowerAsciiChar c

/-- A text with its ASCII letters in lower case. -/
def lowerAscii (s : String) : String := String.ofList (s.toList.map lowerAsciiChar)

/-- A text in lower case, as far as ASCII words are concerned. -/
def lower (s : String) : String := String.ofList (s.toList.map lowerChar)

/-- Whether a list of characters occurs in another without gaps. -/
def occursIn (word : List Char) : List Char → Bool
  | [] => word.isEmpty
  | c :: cs => word.isPrefixOf (c :: cs) || occursIn word cs

def contains (s word : String) : Bool := occursIn word.toList s.toList

end BlockFeed.Text
