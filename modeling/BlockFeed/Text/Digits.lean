/-!
# Decimal digits

Reading naturals from decimal digits.

## Main definitions

* `Text.digitsValue?`: the value of a non-empty string of ASCII digits.
* `Text.unsigned?`: an optional plus sign and digits, below a bound.
* `Text.inRange?`: an unsigned 64-bit number between two bounds.
-/

namespace BlockFeed.Text

def digit? (c : Char) : Option Nat :=
  if '0' ≤ c ∧ c ≤ '9' then some (c.toNat - '0'.toNat) else none

/-- The value of digits that follow the value `n`. -/
def digitsFrom? (n : Nat) : List Char → Option Nat
  | [] => some n
  | c :: cs => (digit? c).bind fun d => digitsFrom? (n * 10 + d) cs

/-- The value of a non-empty string of ASCII digits. -/
def digitsValue? : List Char → Option Nat
  | [] => none
  | cs => digitsFrom? 0 cs

/-- The value of an optional plus sign and at least one digit, if it is below `bound`. -/
def unsigned? (bound : Nat) (s : String) : Option Nat :=
  let digits := match s.toList with
    | '+' :: cs => cs
    | cs => cs
  (digitsValue? digits).filter (· < bound)

/-- An unsigned 64-bit number between two bounds, both included. -/
def inRange? (lo hi : UInt64) (s : String) : Option UInt64 :=
  ((unsigned? UInt64.size s).map UInt64.ofNat).filter fun n => lo ≤ n && n ≤ hi

end BlockFeed.Text
