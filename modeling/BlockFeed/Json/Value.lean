import BlockFeed.Json.Reader
import BlockFeed.OrderedMap
import BlockFeed.Text.Hex

/-!
# JSON values

Values of JSON, their compact text, and the values of JSON texts.

## Main definitions

* `Json`: a value.
* `Json.print`: the text of a value, without blanks.
* `Json.ofWritten?`, `Json.read?`: the value of a tree, and of a text.
* `Json.get?`, `Json.items?`, `Json.string?`, …: what a value holds.

## Design notes

The members of an object are printed in the order they are kept in. `ofWritten?` sorts them by key
and keeps the last of equal keys; it refuses more than 127 levels of nesting, strings that are not
texts, and numbers beyond all doubles.
-/

namespace BlockFeed

/-- A value of JSON. -/
inductive Json where
  | null
  | bool (b : Bool)
  | number (n : Json.Number)
  | string (s : String)
  | array (items : List Json)
  | object (members : List (String × Json))
  deriving Repr

namespace Json

/-- The written form of a byte between quotes: a quote and a backslash take a backslash, control
characters are escaped, and every other byte stands for itself. -/
def escapeByte (b : UInt8) : Bytes :=
  if b = 0x22 ∨ b = 0x5c then [0x5c, b]
  else if b = 0x08 then Text.utf8 "\\b"
  else if b = 0x0c then Text.utf8 "\\f"
  else if b = 0x0a then Text.utf8 "\\n"
  else if b = 0x0d then Text.utf8 "\\r"
  else if b = 0x09 then Text.utf8 "\\t"
  else if b < 0x20 then Text.utf8 ("\\u00" ++ Text.hexByte b)
  else [b]

def printString (s : String) : Bytes :=
  0x22 :: (Text.utf8 s).flatMap escapeByte ++ [0x22]

/-- The text of a number; an infinite one has none and is written `null`. -/
def printNumber : Number → Bytes
  | .integer i => Text.utf8 (toString i)
  | .real layout x => Text.utf8 ((layout.text? x).getD "null")

mutual

def print : Json → Bytes
  | null => Text.utf8 "null"
  | bool b => Text.utf8 (if b then "true" else "false")
  | number n => printNumber n
  | string s => printString s
  | array items => 0x5b :: printItems items ++ [0x5d]
  | object members => 0x7b :: printMembers members ++ [0x7d]

/-- The texts of values, with commas between them. -/
def printItems : List Json → Bytes
  | [] => []
  | [v] => print v
  | v :: w :: rest => print v ++ 0x2c :: printItems (w :: rest)

/-- The texts of members, with commas between them. -/
def printMembers : List (String × Json) → Bytes
  | [] => []
  | [(k, v)] => printString k ++ 0x3a :: print v
  | (k, v) :: m :: rest => printString k ++ 0x3a :: print v ++ 0x2c :: printMembers (m :: rest)

end

mutual

/-- The value of a tree with at most `depth` levels of nesting. -/
def ofWritten? : Nat → Written → Option Json
  | _, .null => some .null
  | _, .bool b => some (.bool b)
  | _, .number t => t.number?.map .number
  | _, .string s => s.text?.map .string
  | 0, .array _ => none
  | 0, .object _ => none
  | depth + 1, .array items => (itemsOfWritten? depth items).map .array
  | depth + 1, .object members =>
    (membersOfWritten? depth members).map fun m => .object (Entries.ofList m)

def itemsOfWritten? : Nat → List Written → Option (List Json)
  | _, [] => some []
  | depth, w :: rest =>
    match ofWritten? depth w, itemsOfWritten? depth rest with
    | some v, some vs => some (v :: vs)
    | _, _ => none

def membersOfWritten? : Nat → List (StringText × Written) → Option (List (String × Json))
  | _, [] => some []
  | depth, (k, w) :: rest =>
    match k.text?, ofWritten? depth w, membersOfWritten? depth rest with
    | some k, some v, some vs => some ((k, v) :: vs)
    | _, _, _ => none

end

def read? (bs : Bytes) : Option Json := (Written.read? bs).bind (ofWritten? 127)

def string? : Json → Option String
  | string s => some s
  | _ => none

def bool? : Json → Option Bool
  | bool b => some b
  | _ => none

/-- The unsigned 64-bit number that a value is. -/
def word? : Json → Option UInt64
  | number (.integer i) => if 0 ≤ i ∧ i < UInt64.size then some (UInt64.ofNat i.toNat) else none
  | _ => none

/-- The items of the array that a value is. -/
def items? : Json → Option (List Json)
  | array items => some items
  | _ => none

/-- The member of an object under a key. -/
def get? (key : String) : Json → Option Json
  | object members => members.lookup key
  | _ => none

end Json

end BlockFeed
