import BlockFeed.Text.Printable

/-!
# Quoted texts

A text in double quotes in which everything that could not be seen is written as an escape.

## Main definitions

* `Text.escapeChar`: the written form of one character.
* `Text.quoted`: the quoted form of a text.

## Design notes

A quote and a backslash take a backslash; tab, carriage return, line feed and NUL have short
escapes; any other character that is not printable is written by its code point in lower-case
hexadecimal between braces, without leading zeros. A single quote stands for itself.
-/

namespace BlockFeed.Text

/-- The written form of a character between double quotes. -/
def escapeChar (c : Char) : List Char :=
  if c = '"' then ['\\', '"']
  else if c = '\\' then ['\\', '\\']
  else if c = '\t' then ['\\', 't']
  else if c = '\r' then ['\\', 'r']
  else if c = '\n' then ['\\', 'n']
  else if c = '\x00' then ['\\', '0']
  else if isPrintable c then [c]
  else ['\\', 'u', '\x7b'] ++ Nat.toDigits 16 c.toNat ++ ['\x7d']

def quoted (s : String) : String :=
  String.ofList (['"'] ++ s.toList.flatMap escapeChar ++ ['"'])

end BlockFeed.Text
