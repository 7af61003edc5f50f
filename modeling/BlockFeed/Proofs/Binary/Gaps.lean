import Mathlib.RingTheory.Coprime.Lemmas
import BlockFeed.Proofs.Binary.Shortest

/-!
# Decimals between powers of two

How close a decimal with few digits can be to a binary number with few bits without being equal
to it. A decimal `a * 10 ^ k` is close to `M * 2 ^ h` if the fraction `a / M` is close to
`2 ^ h / 10 ^ k`, and of all fractions with small denominators only the two next to that quotient
can be close to it. These are found for each exponent by one computation.

## Main definitions

* `Bracket`: two fractions, `Bracket.Around` if they are neighbours on both sides of a quotient.
* `Bracket.around`: the neighbours of a quotient among fractions with bounded denominators.
* `gridExponent`: the finest grid that is coarser than the numbers with a given last place.

## Main results

* `Bracket.Around.close`: only the fraction below the quotient can be close to it.
* `decimal_apart`: the decimals that are close to a number without being equal to it.

## Design notes

Neighbours are found by going down the tree of fractions, many steps in one direction at a time.
Nothing is proved about this walk: what it ends with is checked.
-/

namespace BlockFeed.Binary

/-- The fractions `lowNum / lowDen` and `highNum / highDen`. -/
structure Bracket where
  lowNum : Nat
  lowDen : Nat
  highNum : Nat
  highDen : Nat
  deriving DecidableEq, Repr

namespace Bracket

/-- Move the lower fraction towards the upper one, not beyond `num / den`. -/
def raise (num den limit : Nat) (b : Bracket) : Bracket :=
  let low := num * b.lowDen - den * b.lowNum
  let high := den * b.highNum - num * b.highDen
  let steps := min (low / high) ((limit - b.lowDen) / b.highDen)
  { b with lowNum := b.lowNum + steps * b.highNum, lowDen := b.lowDen + steps * b.highDen }

/-- Move the upper fraction towards the lower one, not as far as `num / den`. -/
def reduce (num den limit : Nat) (b : Bracket) : Bracket :=
  let low := num * b.lowDen - den * b.lowNum
  let high := den * b.highNum - num * b.highDen
  let room := (limit - b.highDen) / b.lowDen
  let steps := if low = 0 then room else min ((high - 1) / low) room
  { b with highNum := b.highNum + steps * b.lowNum, highDen := b.highDen + steps * b.lowDen }

/-- The fractions next to `num / den`, a quotient below one, after some rounds of search. -/
def around (num den limit : Nat) : Nat → Bracket
  | 0 => ⟨0, 1, 1, 1⟩
  | rounds + 1 => ((around num den limit rounds).raise num den limit).reduce num den limit

/-- The two fractions are neighbours, with `num / den` between them and no fraction with a
denominator up to `limit` between them. -/
structure Around (b : Bracket) (num den limit : Nat) : Prop where
  neighbours : b.highNum * b.lowDen = b.lowNum * b.highDen + 1
  alone : limit < b.lowDen + b.highDen
  lowDen_pos : 0 < b.lowDen
  lowDen_le : b.lowDen ≤ limit
  highDen_le : b.highDen ≤ limit
  low_le : b.lowNum * den ≤ num * b.lowDen
  lt_high : num * b.highDen < b.highNum * den

instance (b : Bracket) (num den limit : Nat) : Decidable (b.Around num den limit) :=
  decidable_of_iff (b.highNum * b.lowDen = b.lowNum * b.highDen + 1 ∧
      limit < b.lowDen + b.highDen ∧ 0 < b.lowDen ∧ b.lowDen ≤ limit ∧ b.highDen ≤ limit ∧
      b.lowNum * den ≤ num * b.lowDen ∧ num * b.highDen < b.highNum * den)
    ⟨fun ⟨h₁, h₂, h₃, h₄, h₅, h₆, h₇⟩ => ⟨h₁, h₂, h₃, h₄, h₅, h₆, h₇⟩,
      fun ⟨h₁, h₂, h₃, h₄, h₅, h₆, h₇⟩ => ⟨h₁, h₂, h₃, h₄, h₅, h₆, h₇⟩⟩

/-- Whether `small / large` differs from one by more than the error of reading a decimal. -/
def Far (small large : Nat) : Prop := 2 ^ 54 * small + 5 * large < 2 ^ 54 * large

instance (small large : Nat) : Decidable (Far small large) :=
  inferInstanceAs (Decidable (_ < _))

variable {b : Bracket} {num den a M : Nat}

/-- A fraction with a small denominator is not between two neighbours. -/
theorem Around.outside {limit : Nat} (h : b.Around num den limit) (hM : M ≤ limit) :
    a * b.lowDen ≤ M * b.lowNum ∨ M * b.highNum ≤ a * b.highDen := by
  by_contra hinside
  rw [not_or, not_le, not_le] at hinside
  have hlow : (M * b.lowNum + 1) * b.highDen ≤ a * b.lowDen * b.highDen :=
    Nat.mul_le_mul_right _ hinside.1
  have hhigh : (a * b.highDen + 1) * b.lowDen ≤ M * b.highNum * b.lowDen :=
    Nat.mul_le_mul_right _ hinside.2
  have hM' : M * (b.highNum * b.lowDen) = M * (b.lowNum * b.highDen + 1) := by
    rw [h.neighbours]
  have := h.alone
  linarith

/-- A fraction with a small denominator that is close to the quotient is equal to it, or it is the
neighbour below the quotient. -/
theorem Around.close (h : b.Around num den (2 ^ 25 - 1)) (hden : 0 < den) (hM : 0 < M)
    (hM' : M < 2 ^ 25) (ha : a < 2 ^ 25) (hfar : Far (num * b.highDen) (b.highNum * den))
    (habove : 2 ^ 54 * (M * num) ≤ 2 ^ 54 * (a * den) + 5 * (a * den))
    (hbelow : 2 ^ 54 * (a * den) ≤ 2 ^ 54 * (M * num) + 5 * (a * den)) :
    a * den = M * num ∨
      ¬Far (b.lowNum * den) (num * b.lowDen) ∧ a * b.lowDen = M * b.lowNum ∧
        a * den < M * num := by
  have hlowDen := h.lowDen_le
  have hhighDen := h.highDen_le
  rcases h.outside (a := a) (show M ≤ 2 ^ 25 - 1 by omega) with hlow | hhigh
  · have hscaled := Nat.mul_le_mul_right b.lowDen habove
    rcases eq_or_lt_of_le hlow with heq | hlt
    · -- The fraction is the lower neighbour.
      have hle : a * den * b.lowDen ≤ M * num * b.lowDen := by
        calc a * den * b.lowDen = M * (b.lowNum * den) := by
              rw [mul_right_comm, heq, mul_assoc]
          _ ≤ M * (num * b.lowDen) := Nat.mul_le_mul_left _ h.low_le
          _ = M * num * b.lowDen := (mul_assoc _ _ _).symm
      rcases eq_or_lt_of_le (Nat.le_of_mul_le_mul_right hle h.lowDen_pos) with hequal | hless
      · exact .inl hequal
      · refine .inr ⟨fun hnear => ?_, heq, hless⟩
        have hnear' := Nat.mul_lt_mul_of_pos_left hnear hM
        have heq' : a * b.lowDen * den = M * b.lowNum * den := by rw [heq]
        have hlow_le := Nat.mul_le_mul_left M h.low_le
        linarith
    · -- The fraction differs from the lower neighbour by a multiple of its inverse denominator.
      have hstep : (a * b.lowDen + 1) * den ≤ M * b.lowNum * den := Nat.mul_le_mul_right _ hlt
      have hlow_le := Nat.mul_le_mul_left M h.low_le
      have hproduct : a * b.lowDen ≤ 2 ^ 25 * 2 ^ 25 :=
        Nat.mul_le_mul ha.le (by omega)
      have hsmall := Nat.mul_le_mul_right den hproduct
      linarith
  · have hscaled := Nat.mul_le_mul_right b.highDen hbelow
    rcases eq_or_lt_of_le hhigh with heq | hlt
    · have hnear' := Nat.mul_lt_mul_of_pos_left hfar hM
      have heq' : M * b.highNum * den = a * b.highDen * den := by rw [heq]
      linarith
    · have hstep : (M * b.highNum + 1) * den ≤ a * b.highDen * den := Nat.mul_le_mul_right _ hlt
      have hlt_high := Nat.mul_le_mul_left M h.lt_high.le
      have hproduct : a * b.highDen ≤ 2 ^ 25 * 2 ^ 25 :=
        Nat.mul_le_mul ha.le (by omega)
      have hsmall := Nat.mul_le_mul_right den hproduct
      linarith

/-- The lower fraction is in lowest terms. -/
theorem Around.coprime {limit : Nat} (h : b.Around num den limit) :
    Nat.Coprime b.lowDen b.lowNum := by
  have hneighbours : (b.highNum : ℤ) * b.lowDen = b.lowNum * b.highDen + 1 := by
    exact_mod_cast h.neighbours
  exact Nat.isCoprime_iff_coprime.mp ⟨b.highNum, -b.highDen, by linarith⟩

end Bracket

/-- The finest grid of decimals that is coarser than `6 / 5 * 2 ^ h`. -/
def gridExponent (h : Int) : Int := floorLog10 (6 * scaleNum 1 h) (5 * scaleDen h) + 1

/-- The numerator of `2 ^ h / 10 ^ gridExponent h`. -/
def gapNum (h : Int) : Nat := scaleNum 1 h * tenDen (gridExponent h)

/-- The denominator of `2 ^ h / 10 ^ gridExponent h`. -/
def gapDen (h : Int) : Nat := tenNum 1 (gridExponent h) * scaleDen h

/-- The fractions with denominators below `2 ^ 25` next to `2 ^ h / 10 ^ gridExponent h`. -/
def gapBracket (h : Int) : Bracket := .around (gapNum h) (gapDen h) (2 ^ 25 - 1) 12

/-- The one significand that a decimal comes too close to. -/
def closeSignificand : Nat := 22841339

/-- The neighbours of `2 ^ h / 10 ^ gridExponent h` are far from it, or equal to it, or the lower
one has the one exceptional denominator. -/
structure Spaced (h : Int) : Prop where
  around : (gapBracket h).Around (gapNum h) (gapDen h) (2 ^ 25 - 1)
  high : Bracket.Far (gapNum h * (gapBracket h).highDen) ((gapBracket h).highNum * gapDen h)
  low : (gapBracket h).lowNum * gapDen h = gapNum h * (gapBracket h).lowDen ∨
    Bracket.Far ((gapBracket h).lowNum * gapDen h) (gapNum h * (gapBracket h).lowDen) ∨
    (h = -108 ∨ h = -107) ∧ (gapBracket h).lowDen = closeSignificand

instance (h : Int) : Decidable (Spaced h) :=
  decidable_of_iff ((gapBracket h).Around (gapNum h) (gapDen h) (2 ^ 25 - 1) ∧
      Bracket.Far (gapNum h * (gapBracket h).highDen) ((gapBracket h).highNum * gapDen h) ∧
      ((gapBracket h).lowNum * gapDen h = gapNum h * (gapBracket h).lowDen ∨
        Bracket.Far ((gapBracket h).lowNum * gapDen h) (gapNum h * (gapBracket h).lowDen) ∨
        (h = -108 ∨ h = -107) ∧ (gapBracket h).lowDen = closeSignificand))
    ⟨fun ⟨h₁, h₂, h₃⟩ => ⟨h₁, h₂, h₃⟩, fun ⟨h₁, h₂, h₃⟩ => ⟨h₁, h₂, h₃⟩⟩

/-- At all exponents of single precision, one bit added, the neighbours are spaced. -/
theorem spaced_single {h : Int} (hh : -150 ≤ h) (hh' : h ≤ 103) : Spaced h := by
  have hall : ∀ n : Nat, n < 254 → Spaced ((n : Int) - 150) := by decide +kernel
  have hn := hall (h + 150).toNat (by omega)
  rwa [Int.toNat_of_nonneg (by omega), add_sub_cancel_right] at hn

theorem gapDen_pos (h : Int) : 0 < gapDen h :=
  Nat.mul_pos (tenNum_pos one_pos _) (scaleDen_pos h)

/-- The powers behind the quotient of grids. -/
theorem gap_cast (h : Int) : ∃ c : ℚ, 0 < c ∧ (gapNum h : ℚ) = 2 ^ h * c ∧
    (gapDen h : ℚ) = 10 ^ gridExponent h * c := by
  have hs : (0 : ℚ) < scaleDen h := by exact_mod_cast scaleDen_pos h
  have ht : (0 : ℚ) < tenDen (gridExponent h) := by exact_mod_cast tenDen_pos _
  refine ⟨scaleDen h * tenDen (gridExponent h), by positivity, ?_, ?_⟩
  · rw [gapNum, Nat.cast_mul, cast_scaleNum]
    push_cast
    ring
  · rw [gapDen, Nat.cast_mul, cast_tenNum]
    push_cast
    ring

theorem gridExponent_spec (h : Int) :
    (10 : ℚ) ^ (gridExponent h - 1) ≤ 6 / 5 * 2 ^ h ∧
      6 / 5 * 2 ^ h < (10 : ℚ) ^ gridExponent h := by
  have hnum : 0 < 6 * scaleNum 1 h := Nat.mul_pos (by decide) (scaleNum_pos one_pos h)
  have hden : 0 < 5 * scaleDen h := Nat.mul_pos (by decide) (scaleDen_pos h)
  have hvalue : ((6 * scaleNum 1 h : Nat) : ℚ) / (5 * scaleDen h : Nat) = 6 / 5 * 2 ^ h := by
    push_cast
    rw [mul_div_mul_comm, scaleNum_div_scaleDen, Nat.cast_one, one_mul]
  have hspec := floorLog10_spec hnum hden
  rw [hvalue] at hspec
  rwa [gridExponent, add_sub_cancel_right]

/-- Two rationals that are close to each other, over a common denominator. -/
theorem close_cast {A B : Nat} {x y c : ℚ} (hc : 0 < c) (hA : (A : ℚ) = x * c)
    (hB : (B : ℚ) = y * c) (hclose : |x - y| * 2 ^ 54 ≤ 5 * x) :
    2 ^ 54 * B ≤ 2 ^ 54 * A + 5 * A ∧ 2 ^ 54 * A ≤ 2 ^ 54 * B + 5 * A := by
  have habs : |x - y| ≤ 5 * x / 2 ^ 54 := by rwa [le_div_iff₀ (by norm_num)]
  obtain ⟨hlow, hhigh⟩ := abs_le.mp habs
  have hlow' : 2 ^ 54 * y * c ≤ (2 ^ 54 * x + 5 * x) * c :=
    mul_le_mul_of_nonneg_right (by linarith) hc.le
  have hhigh' : 2 ^ 54 * x * c ≤ (2 ^ 54 * y + 5 * x) * c :=
    mul_le_mul_of_nonneg_right (by linarith) hc.le
  constructor
  · rw [← Nat.cast_le (α := ℚ)]
    push_cast
    rw [hA, hB]
    linarith
  · rw [← Nat.cast_le (α := ℚ)]
    push_cast
    rw [hA, hB]
    linarith

/-- A decimal on the finest grid that is close to `M * 2 ^ h` has few digits. -/
theorem digits_lt_of_close {a M : Nat} {h : Int} (hM : M < 2 ^ 25)
    (hclose : |(a : ℚ) * 10 ^ gridExponent h - M * 2 ^ h| * 2 ^ 54
      ≤ 5 * (a * 10 ^ gridExponent h)) : a < 2 ^ 25 := by
  obtain ⟨-, hfine⟩ := gridExponent_spec h
  have hpow : (0 : ℚ) < 2 ^ h := by positivity
  have hpow' : (0 : ℚ) < 10 ^ gridExponent h := by positivity
  have habs := le_abs_self ((a : ℚ) * 10 ^ gridExponent h - M * 2 ^ h)
  have hbinary : (M : ℚ) * 2 ^ h ≤ 2 ^ 25 * 2 ^ h := by
    refine mul_le_mul_of_nonneg_right ?_ hpow.le
    exact_mod_cast hM.le
  by_contra hge
  have hdecimal : (2 : ℚ) ^ 25 * 10 ^ gridExponent h ≤ a * 10 ^ gridExponent h := by
    refine mul_le_mul_of_nonneg_right ?_ hpow'.le
    exact_mod_cast not_lt.mp hge
  linarith

/-- A decimal on the finest grid that is close to `M * 2 ^ h` is equal to it, or `M` is the
exception. -/
theorem decimal_apart_of_finest {a M : Nat} {h : Int} (hh : -150 ≤ h) (hh' : h ≤ 103) (hM : 0 < M)
    (hM' : M < 2 ^ 25) (hclose : |(a : ℚ) * 10 ^ gridExponent h - M * 2 ^ h| * 2 ^ 54
      ≤ 5 * (a * 10 ^ gridExponent h)) :
    (a : ℚ) * 10 ^ gridExponent h = M * 2 ^ h ∨ M = closeSignificand ∧ (h = -108 ∨ h = -107) ∧
      (a : ℚ) * 10 ^ gridExponent h < M * 2 ^ h := by
  obtain ⟨c, hc, hnum, hden⟩ := gap_cast h
  have hdecimal : ((a * gapDen h : Nat) : ℚ) = a * 10 ^ gridExponent h * c := by
    rw [Nat.cast_mul, hden, mul_assoc]
  have hbinary : ((M * gapNum h : Nat) : ℚ) = M * 2 ^ h * c := by
    rw [Nat.cast_mul, hnum, mul_assoc]
  obtain ⟨habove, hbelow⟩ := close_cast hc hdecimal hbinary hclose
  have hspaced := spaced_single hh hh'
  rcases hspaced.around.close (gapDen_pos h) hM hM' (digits_lt_of_close hM' hclose) hspaced.high
    habove hbelow with heq | ⟨hnear, hfraction, hless⟩
  · refine .inl (mul_right_cancel₀ hc.ne' ?_)
    rw [← hdecimal, ← hbinary, heq]
  · rcases hspaced.low with hequal | hfar | ⟨hexponent, hexception⟩
    · -- The lower neighbour is the quotient itself, so the decimal is the number.
      have hsame : a * gapDen h * (gapBracket h).lowDen
          = M * gapNum h * (gapBracket h).lowDen := by
        rw [mul_right_comm, hfraction, mul_assoc, hequal, mul_assoc]
      exact absurd (Nat.eq_of_mul_eq_mul_right hspaced.around.lowDen_pos hsame) hless.ne
    · exact absurd hfar hnear
    · obtain ⟨t, ht⟩ : (gapBracket h).lowDen ∣ M :=
        hspaced.around.coprime.dvd_of_dvd_mul_right (hfraction ▸ Nat.dvd_mul_left _ _)
      rw [hexception, closeSignificand] at ht
      refine .inr ⟨by rw [closeSignificand]; omega, hexponent, ?_⟩
      refine lt_of_mul_lt_mul_right ?_ hc.le
      rw [← hdecimal, ← hbinary]
      exact_mod_cast hless

/-- A decimal on a coarse grid that is close to `M * 2 ^ h` is equal to it, or `M` is the
exception. -/
theorem decimal_apart {a M : Nat} {h k : Int} (hh : -150 ≤ h) (hh' : h ≤ 103) (hM : 0 < M)
    (hM' : M < 2 ^ 25) (hgrid : 6 / 5 * (2 : ℚ) ^ h < 10 ^ k)
    (hclose : |(a : ℚ) * 10 ^ k - M * 2 ^ h| * 2 ^ 54 ≤ 5 * (a * 10 ^ k)) :
    (a : ℚ) * 10 ^ k = M * 2 ^ h ∨
      M = closeSignificand ∧ (h = -108 ∨ h = -107) ∧ (a : ℚ) * 10 ^ k < M * 2 ^ h := by
  have hle : gridExponent h ≤ k := by
    have := (zpow_lt_zpow_iff_right₀ (by norm_num)).mp
      ((gridExponent_spec h).1.trans_lt hgrid)
    omega
  have hvalue : ((a * 10 ^ (k - gridExponent h).toNat : Nat) : ℚ) * 10 ^ gridExponent h
      = a * 10 ^ k := by
    push_cast
    rw [mul_assoc, ← zpow_natCast, ← zpow_add₀ (by norm_num)]
    congr 2
    omega
  rw [← hvalue] at hclose ⊢
  exact decimal_apart_of_finest hh hh' hM hM' hclose

end BlockFeed.Binary
