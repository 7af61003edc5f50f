import BlockFeed.Binary.Rounding

/-!
# Decimal numbers to binary ones

Double-precision values of decimal numbers `significand * 10 ^ exponent`, computed with one
rounded multiplication or division by a power of ten.

## Main definitions

* `Binary.powerOfTen`: the double nearest to a power of ten.
* `Binary.ofDecimal?`: the double that a decimal number is read as, if it is in range.

## Design notes

The significand and the power of ten are each rounded to double precision first, so a result may
be one unit in the last place away from the nearest double. Exponents below -308 are reached in
steps of 308.
-/

namespace BlockFeed.Binary

def powerOfTen (k : Nat) : Magnitude := double.ofNat (Nat.pow 10 k)

/-- `f * 10 ^ exponent` as read, with at most `steps` divisions by `10 ^ 308` on the way. -/
def shiftDecimal? : Nat → Magnitude → Int → Option Magnitude
  | steps, f, exponent =>
    if exponent.natAbs ≤ 308 then
      if 0 ≤ exponent then
        match double.mul f (powerOfTen exponent.toNat) with
        | .infinite => none
        | r => some r
      else some (double.div f (powerOfTen exponent.natAbs))
    else if f = double.zero then some f
    else if 0 ≤ exponent then none
    else
      match steps with
      | 0 => some double.zero
      | steps + 1 => shiftDecimal? steps (double.div f (powerOfTen 308)) (exponent + 308)

/-- The double that `significand * 10 ^ exponent` is read as, for a significand below `2 ^ 64`;
`none` if it is beyond the largest double. -/
def ofDecimal? (significand : Nat) (exponent : Int) : Option Magnitude :=
  shiftDecimal? 4 (double.ofNat significand) exponent

end BlockFeed.Binary
