import BlockFeed.Binary.Rounding

/-!
# Shortest decimal digits

The fewest decimal digits that are read back as a given binary number.

## Main definitions

* `Binary.Decimal`: digits and a power of ten.
* `Binary.shortest`: of the shortest decimals that round to a number, the nearest to it; a tie
  goes to the even digit.
* `Binary.Layout`: where positional notation ends, and `Layout.text?`: the text of a number.

## Design notes

The reals that round to a number form an interval, ends included when the significand is even.
A grid of decimals with `n` digits meets the interval only if one of the two grid points next to
the number does, so it is enough to test these two for `n = 1, 2, …`.
-/

namespace BlockFeed.Binary

/-- The decimal number `digits * 10 ^ exponent`. -/
structure Decimal where
  digits : Nat
  exponent : Int
  deriving DecidableEq, Repr

/-- The number of decimal digits of a natural; zero has one. -/
def digitCount (n : Nat) : Nat := (Nat.toDigits 10 n).length

/-- `n * 10 ^ e` over `tenDen e`. -/
def tenNum (n : Nat) (e : Int) : Nat := n * Nat.pow 10 e.toNat

/-- The denominator of `n * 10 ^ e`. -/
def tenDen (e : Int) : Nat := Nat.pow 10 (-e).toNat

/-- The greatest `e` with `10 ^ e ≤ num / den`, for positive `num` and `den`. -/
def floorLog10 (num den : Nat) : Int :=
  let e : Int := (digitCount num : Int) - digitCount den
  if tenNum den e ≤ num * tenDen e then e else e - 1

/-- An interval of rationals with a common denominator. -/
structure Interval where
  lower : Nat
  upper : Nat
  den : Nat
  closed : Bool
  deriving DecidableEq, Repr

/-- Whether `digits * 10 ^ exponent` lies in an interval. -/
def Interval.holds (i : Interval) (d : Decimal) : Bool :=
  let x := tenNum d.digits d.exponent * i.den
  let t := tenDen d.exponent
  if i.closed then i.lower * t ≤ x && x ≤ i.upper * t else i.lower * t < x && x < i.upper * t

/-- The reals that round to `m * 2 ^ e`: halfway to each neighbour, and the neighbour below a
power of two is half as far away. -/
def Format.rounding (f : Format) (m : Nat) (e : Int) : Interval :=
  let below := if m = Nat.pow 2 (f.precision - 1) ∧ f.minExponent < e then 1 else 2
  ⟨scaleNum (4 * m - below) e, scaleNum (4 * m + 2) e, 4 * scaleDen e, m % 2 = 0⟩

/-- The nearer of the two decimals with the given exponent next to `num / den`, `low` being the
digits of the lower one, among those that lie in the interval. -/
def nearer (i : Interval) (num den : Nat) (low : Nat) (exponent : Int) : Option Decimal :=
  let down : Decimal := ⟨low, exponent⟩
  let up : Decimal := ⟨low + 1, exponent⟩
  let midpoint := tenNum (2 * low + 1) exponent * den
  let twice := 2 * num * tenDen exponent
  match i.holds down, i.holds up with
  | true, true =>
    if twice < midpoint then some down
    else if midpoint < twice then some up
    else if low % 2 = 0 then some down else some up
  | true, false => some down
  | false, true => some up
  | false, false => none

/-- The first grid with a hit, from `n` digits on, for a number whose first digit stands at
`10 ^ top`. -/
def shortestFrom (i : Interval) (num den : Nat) (top : Int) : Nat → Nat → Decimal
  | 0, _ => ⟨num / den, 0⟩
  | fuel + 1, n =>
    let exponent := top - (n - 1 : Nat)
    let low := num * tenDen exponent / tenNum den exponent
    match nearer i num den low exponent with
    | some d => d
    | none => shortestFrom i num den top fuel (n + 1)

/-- The shortest decimal that rounds to the positive number `m * 2 ^ e` of a format. Seventeen
digits are enough for double precision. -/
def shortest (f : Format) (m : Nat) (e : Int) : Decimal :=
  let num := scaleNum m e
  let den := scaleDen e
  shortestFrom (f.rounding m e) num den (floorLog10 num den) 20 1

/-- The digits of a natural without the zeros at its end, and how many those are. -/
def stripZeros : List Char → List Char × Nat :=
  fun ds =>
    let kept := (ds.reverse.dropWhile (· == '0')).reverse
    (kept, ds.length - kept.length)

/-- How numbers are laid out: the format, and the exponents of the first digit between which
positional notation is used. -/
structure Layout where
  format : Format
  least : Int
  greatest : Int
  deriving DecidableEq, Repr

namespace Layout

/-- Single-precision numbers are positional from `0.000001` to twelve zeros after the first
digit. -/
def single : Layout := ⟨Binary.single, -6, 12⟩

/-- Double-precision numbers are positional from `0.00001` to fifteen zeros after the first
digit. -/
def double : Layout := ⟨Binary.double, -5, 15⟩

/-- The text of a positive decimal whose digits do not end in zero. -/
def decimalText (l : Layout) (digits : List Char) (exponent : Int) : String :=
  let first : Int := exponent + digits.length - 1
  if l.least ≤ first ∧ first ≤ l.greatest then
    if 0 ≤ exponent then
      String.ofList (digits ++ List.replicate exponent.toNat '0') ++ ".0"
    else if 0 ≤ first then
      let whole := first.toNat + 1
      String.ofList (digits.take whole) ++ "." ++ String.ofList (digits.drop whole)
    else
      "0." ++ String.ofList (List.replicate (first.natAbs - 1) '0' ++ digits)
  else
    let mantissa := match digits with
      | [d] => String.ofList [d]
      | d :: ds => String.ofList (d :: '.' :: ds)
      | [] => "0"
    mantissa ++ (if 0 ≤ first then "e+" else "e-") ++ toString first.natAbs

/-- The text of a finite number; `none` for an infinite one. -/
def text? (l : Layout) (x : Number) : Option String :=
  match x.magnitude with
  | .infinite => none
  | .finite m e =>
    let sign := if x.negative then "-" else ""
    if m = 0 then some (sign ++ "0.0")
    else
      let d := shortest l.format m e
      let (digits, zeros) := stripZeros (Nat.toDigits 10 d.digits)
      some (sign ++ l.decimalText digits (d.exponent + zeros))

end Layout

end BlockFeed.Binary
