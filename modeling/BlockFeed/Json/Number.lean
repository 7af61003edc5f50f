import BlockFeed.Binary.Decimal
import BlockFeed.Binary.Shortest

/-!
# Numbers of JSON

Number tokens as they are written, and the numbers that they are read as.

## Main definitions

* `Json.NumberText`: the parts of a number token.
* `Json.Number`: an integer or a floating-point number.
* `NumberText.number?`: the number that a token is read as, unless it is beyond all doubles.

## Design notes

A token without fraction and exponent is an integer if it fits 64 bits (unsigned, or signed when
it carries a minus sign and is not zero); any other token is read in double precision. Of its
digits only those count that keep the significand below `2 ^ 64`: surplus integer digits stand
for a power of ten, surplus fraction digits are dropped.
-/

namespace BlockFeed.Json

/-- The parts of a number token; digits are naturals below ten. -/
structure NumberText where
  /-- Whether the token begins with a minus sign. -/
  negative : Bool
  whole : List Nat
  /-- The digits after the point; empty if there is no point. -/
  fraction : List Nat
  exponent : Option Int
  deriving DecidableEq, Repr

/-- A number, with the layout that a floating-point number is written in. -/
inductive Number where
  | integer (value : Int)
  | real (layout : Binary.Layout) (value : Binary.Number)
  deriving DecidableEq, Repr

/-- Append digits to `n` while the result stays below `2 ^ 64`; also the digits left over. -/
def absorb (n : Nat) : List Nat → Nat × List Nat
  | [] => (n, [])
  | d :: ds => if n * 10 + d < UInt64.size then absorb (n * 10 + d) ds else (n, d :: ds)

namespace NumberText

/-- Whether a token has neither fraction nor exponent. -/
def isPlain (t : NumberText) : Bool := t.fraction.isEmpty && t.exponent.isNone

/-- The value of a token without sign, fraction and exponent that fits 64 bits. -/
def natural? (t : NumberText) : Option Nat :=
  match t.isPlain, absorb 0 t.whole with
  | true, (n, []) => some n
  | _, _ => none

/-- The double that a token is read as, without its sign. -/
def magnitude? (t : NumberText) : Option Binary.Magnitude :=
  let (n, surplus) := absorb 0 t.whole
  let (n, dropped) := absorb n t.fraction
  let taken := t.fraction.length - dropped.length
  Binary.ofDecimal? n (surplus.length - taken + t.exponent.getD 0)

/-- The number that a token is read as, unless it is beyond all doubles. -/
def number? (t : NumberText) : Option Number :=
  let real := t.magnitude?.map fun m => Number.real .double ⟨t.negative, m⟩
  match t.natural?, t.negative with
  | some n, false => some (.integer n)
  | some n, true => if 0 < n ∧ n ≤ Nat.pow 2 63 then some (.integer (-n)) else real
  | none, _ => real

end NumberText

end BlockFeed.Json
