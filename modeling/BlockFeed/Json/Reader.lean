import BlockFeed.Json.Written

/-!
# The grammar of JSON

Reading byte strings as JSON texts.

## Main definitions

* `Json.readString`, `Json.readNumber`, `Json.readValue`: read one item off the front of a byte
  string.
* `Written.read?`: the tree of a whole text.

## Design notes

Space, tab, line feed and carriage return may stand around every token. Nothing else may follow a
text, and there are no trailing commas. Raw control characters are not allowed in strings; bytes
from `80` on are not looked at here.
-/

namespace BlockFeed.Json

def isBlankByte (b : UInt8) : Bool := b == 0x20 || b == 0x09 || b == 0x0a || b == 0x0d

/-- A byte string without the blanks in front. -/
def skipBlank (bs : Bytes) : Bytes := bs.dropWhile isBlankByte

def digitByte? (b : UInt8) : Option Nat :=
  if 0x30 ≤ b ∧ b ≤ 0x39 then some (b.toNat - 0x30) else none

def hexByte? (b : UInt8) : Option Nat :=
  if 0x30 ≤ b ∧ b ≤ 0x39 then some (b.toNat - 0x30)
  else if 0x61 ≤ b ∧ b ≤ 0x66 then some (b.toNat - 0x61 + 10)
  else if 0x41 ≤ b ∧ b ≤ 0x46 then some (b.toNat - 0x41 + 10)
  else none

def hexUnit? (a b c d : UInt8) : Option Nat := do
  return (((← hexByte? a) * 16 + (← hexByte? b)) * 16 + (← hexByte? c)) * 16 + (← hexByte? d)

/-- The byte that a backslash and the given byte stand for. -/
def shortEscape? (b : UInt8) : Option UInt8 :=
  if b = 0x22 ∨ b = 0x5c ∨ b = 0x2f then some b
  else if b = 0x62 then some 0x08
  else if b = 0x66 then some 0x0c
  else if b = 0x6e then some 0x0a
  else if b = 0x72 then some 0x0d
  else if b = 0x74 then some 0x09
  else none

/-- A piece in front of a string that was read. -/
def consPiece (p : Piece) (r : StringText × Bytes) : StringText × Bytes := (p :: r.1, r.2)

/-- Read a string off the front, after its opening quote. -/
def readString : Bytes → Option (StringText × Bytes)
  | [] => none
  | b :: rest =>
    if b = 0x22 then some ([], rest)
    else if b = 0x5c then
      match rest with
      | [] => none
      | e :: rest =>
        if e = 0x75 then
          match rest with
          | w :: x :: y :: z :: rest =>
            match hexUnit? w x y z with
            | some u => (readString rest).map (consPiece (.code u))
            | none => none
          | _ => none
        else
          match shortEscape? e with
          | some c => (readString rest).map (consPiece (.short c))
          | none => none
    else if b < 0x20 then none
    else (readString rest).map (consPiece (.byte b))

/-- Read as many digits as there are off the front. -/
def readDigits : Bytes → List Nat × Bytes
  | [] => ([], [])
  | b :: rest =>
    match digitByte? b with
    | some d => let (ds, rest) := readDigits rest; (d :: ds, rest)
    | none => ([], b :: rest)

/-- Read at least one digit off the front. -/
def readSomeDigits (bs : Bytes) : Option (List Nat × Bytes) :=
  match readDigits bs with
  | ([], _) => none
  | r => some r

def digitsNat (ds : List Nat) : Nat := ds.foldl (fun n d => n * 10 + d) 0

/-- Read the digits before the point off the front: a zero stands alone. -/
def readWhole (bs : Bytes) : Option (List Nat × Bytes) :=
  match readSomeDigits bs with
  | some (0 :: _ :: _, _) => none
  | r => r

/-- Read the point and the digits after it off the front, if there is a point. -/
def readFraction : Bytes → Option (List Nat × Bytes)
  | b :: rest => if b = 0x2e then readSomeDigits rest else some ([], b :: rest)
  | [] => some ([], [])

/-- Read an exponent off the front, if there is one. -/
def readExponent : Bytes → Option (Option Int × Bytes)
  | b :: rest =>
    if b = 0x65 ∨ b = 0x45 then
      let (minus, rest) := match rest with
        | s :: tail => if s = 0x2b then (false, tail) else if s = 0x2d then (true, tail)
          else (false, rest)
        | [] => (false, [])
      (readSomeDigits rest).map fun (ds, rest) =>
        (some (if minus then -(digitsNat ds : Int) else digitsNat ds), rest)
    else some (none, b :: rest)
  | [] => some (none, [])

def readNumber (bs : Bytes) : Option (NumberText × Bytes) := do
  let (negative, bs) := match bs with
    | b :: rest => if b = 0x2d then (true, rest) else (false, bs)
    | [] => (false, [])
  let (whole, bs) ← readWhole bs
  let (fraction, bs) ← readFraction bs
  let (exponent, bs) ← readExponent bs
  return (⟨negative, whole, fraction, exponent⟩, bs)

def afterWord? (word : String) (bs : Bytes) : Option Bytes :=
  if (Text.utf8 word).isPrefixOf bs then some (bs.drop (Text.utf8 word).length) else none

mutual

/-- Read a value off the front, where no blank stands. -/
def readValue : Nat → Bytes → Option (Written × Bytes)
  | 0, _ => none
  | _ + 1, [] => none
  | fuel + 1, b :: rest =>
    if b = 0x22 then (readString rest).map fun r => (.string r.1, r.2)
    else if b = 0x5b then
      match skipBlank rest with
      | [] => none
      | c :: tail =>
        if c = 0x5d then some (.array [], tail)
        else (readItems fuel (c :: tail)).map fun r => (.array r.1, r.2)
    else if b = 0x7b then
      match skipBlank rest with
      | [] => none
      | c :: tail =>
        if c = 0x7d then some (.object [], tail)
        else (readMembers fuel (c :: tail)).map fun r => (.object r.1, r.2)
    else if b = 0x6e then (afterWord? "null" (b :: rest)).map fun r => (.null, r)
    else if b = 0x74 then (afterWord? "true" (b :: rest)).map fun r => (.bool true, r)
    else if b = 0x66 then (afterWord? "false" (b :: rest)).map fun r => (.bool false, r)
    else (readNumber (b :: rest)).map fun r => (.number r.1, r.2)

/-- Read the items of an array off the front, up to its closing bracket. -/
def readItems : Nat → Bytes → Option (List Written × Bytes)
  | 0, _ => none
  | fuel + 1, bs =>
    match readValue fuel bs with
    | none => none
    | some (v, rest) =>
      match skipBlank rest with
      | [] => none
      | c :: tail =>
        if c = 0x5d then some ([v], tail)
        else if c = 0x2c then
          (readItems fuel (skipBlank tail)).map fun r => (v :: r.1, r.2)
        else none

/-- Read the members of an object off the front, up to its closing brace. -/
def readMembers : Nat → Bytes → Option (List (StringText × Written) × Bytes)
  | 0, _ => none
  | _ + 1, [] => none
  | fuel + 1, q :: rest =>
    if q = 0x22 then
      match readString rest with
      | none => none
      | some (k, rest) =>
        match skipBlank rest with
        | [] => none
        | c :: rest =>
          if c = 0x3a then
            match readValue fuel (skipBlank rest) with
            | none => none
            | some (v, rest) =>
              match skipBlank rest with
              | [] => none
              | c :: tail =>
                if c = 0x7d then some ([(k, v)], tail)
                else if c = 0x2c then
                  (readMembers fuel (skipBlank tail)).map fun r => ((k, v) :: r.1, r.2)
                else none
          else none
    else none

end

def Written.read? (bs : Bytes) : Option Written :=
  match readValue (2 * bs.length + 2) (skipBlank bs) with
  | some (v, rest) => if (skipBlank rest).isEmpty then some v else none
  | none => none

end BlockFeed.Json
