/-!
# Binary floating-point numbers

Floating-point numbers as exact integers: a significand times a power of two, rounded to the
nearest number of a format, a tie going to the even significand.

## Main definitions

* `Binary.Format`: precision and exponent range, with `single` and `double`.
* `Binary.Magnitude`, `Binary.Number`: numbers of a format, without and with a sign.
* `Format.round`: the number of a format nearest to a quotient of naturals.
* `Format.mul`, `Format.div`, `Format.ofNat`, `Format.convert`: rounded operations.

## Design notes

A magnitude is kept with the exponent that its format gives it, so equal magnitudes of one format
are equal values. Nothing here uses machine floating point, so every result can be computed in a
proof.
-/

namespace BlockFeed.Binary

/-- A format: how many bits a significand has, and the least and greatest exponent of its last
place. -/
structure Format where
  precision : Nat
  /-- The exponent of the last place of the smallest numbers. -/
  minExponent : Int
  /-- The exponent of the last place of the largest numbers. -/
  maxExponent : Int
  deriving DecidableEq, Repr

def single : Format := ⟨24, -149, 104⟩

def double : Format := ⟨53, -1074, 971⟩

/-- A number without its sign. -/
inductive Magnitude where
  | finite (significand : Nat) (exponent : Int)
  | infinite
  deriving DecidableEq, Repr

/-- A number with its sign; zero has one too. -/
structure Number where
  negative : Bool
  magnitude : Magnitude
  deriving DecidableEq, Repr

/-- The numerator of `m * 2 ^ e` over `scaleDen e`. -/
def scaleNum (m : Nat) (e : Int) : Nat := m * Nat.pow 2 e.toNat

/-- The denominator of `m * 2 ^ e`. -/
def scaleDen (e : Int) : Nat := Nat.pow 2 (-e).toNat

/-- The greatest `e` with `2 ^ e ≤ num / den`, for positive `num` and `den`. -/
def floorLog2 (num den : Nat) : Int :=
  let e : Int := (Nat.log2 num : Int) - Nat.log2 den
  if scaleNum den e ≤ num * scaleDen e then e else e - 1

/-- `num / den` to the nearest natural, a tie going to the even one. -/
def roundHalfEven (num den : Nat) : Nat :=
  let q := num / den
  let r := num % den
  if 2 * r < den then q
  else if den < 2 * r then q + 1
  else if q % 2 = 0 then q else q + 1

namespace Format

/-- Zero, with the exponent that a format gives it. -/
def zero (f : Format) : Magnitude := .finite 0 f.minExponent

/-- The number of a format nearest to `num / den`, for positive `den`. -/
def round (f : Format) (num den : Nat) : Magnitude :=
  if num = 0 then f.zero
  else
    let e := max f.minExponent (floorLog2 num den - (f.precision - 1))
    let m := roundHalfEven (num * scaleDen e) (scaleNum den e)
    let (m, e) :=
      if m = Nat.pow 2 f.precision then (Nat.pow 2 (f.precision - 1), e + 1) else (m, e)
    if f.maxExponent < e then .infinite else .finite m e

/-- The number of a format nearest to a natural. -/
def ofNat (f : Format) (n : Nat) : Magnitude := f.round n 1

def mul (f : Format) : Magnitude → Magnitude → Magnitude
  | .finite m e, .finite n d => f.round (scaleNum (m * n) (e + d)) (scaleDen (e + d))
  | _, _ => .infinite

/-- The quotient of two magnitudes, rounded; the divisor is finite and not zero. -/
def div (f : Format) : Magnitude → Magnitude → Magnitude
  | .finite m e, .finite n d => f.round (scaleNum m (e - d)) (scaleDen (e - d) * n)
  | _, _ => .infinite

/-- A magnitude of any format, rounded to this one. -/
def convert (f : Format) : Magnitude → Magnitude
  | .finite m e => f.round (scaleNum m e) (scaleDen e)
  | .infinite => .infinite

end Format

end BlockFeed.Binary
