import Mathlib.Algebra.Order.Field.Power
import Mathlib.Data.Nat.Digits.Defs
import Mathlib.Data.Rat.Cast.Order
import Mathlib.Tactic.FieldSimp
import Mathlib.Tactic.Linarith
import Mathlib.Tactic.Positivity
import Mathlib.Tactic.Ring
import BlockFeed.Binary.Shortest

/-!
# Quotients as rationals

What the integer computations of floating-point arithmetic say about the rationals that they
stand for: scaling, the place of the first digit, and rounding to an integer.

## Main results

* `scaleNum_div_scaleDen`, `tenNum_div_tenDen`: the two halves of `m * 2 ^ e` and `n * 10 ^ e`.
* `floorLog2_spec`, `floorLog10_spec`: the place of the first digit of a quotient.
* `roundHalfEven_eq`, `roundHalfEven_near`: the integer that a quotient is rounded to.
-/

namespace BlockFeed.Binary

theorem scaleDen_pos (e : Int) : 0 < scaleDen e := Nat.pow_pos (by decide)

theorem tenDen_pos (e : Int) : 0 < tenDen e := Nat.pow_pos (by decide)

theorem scaleNum_pos {m : Nat} (hm : 0 < m) (e : Int) : 0 < scaleNum m e :=
  Nat.mul_pos hm (Nat.pow_pos (by decide))

theorem tenNum_pos {n : Nat} (hn : 0 < n) (e : Int) : 0 < tenNum n e :=
  Nat.mul_pos hn (Nat.pow_pos (by decide))

theorem pos_of_div_pos {num den : Nat} (h : (0 : ℚ) < num / den) : 0 < num := by
  rcases Nat.eq_zero_or_pos num with rfl | hnum
  · simp at h
  · exact hnum

/-- A power with an integer exponent, its two halves as naturals. -/
theorem zpow_eq_div (b : ℕ) (hb : 0 < b) (e : ℤ) :
    (b : ℚ) ^ e = (b : ℚ) ^ e.toNat / (b : ℚ) ^ (-e).toNat := by
  have hne : (b : ℚ) ≠ 0 := by positivity
  rw [← zpow_natCast, ← zpow_natCast, ← zpow_sub₀ hne]
  congr 1
  omega

theorem scaleNum_div_scaleDen (m : Nat) (e : Int) :
    (scaleNum m e : ℚ) / scaleDen e = m * 2 ^ e := by
  have h := zpow_eq_div 2 (by decide) e
  push_cast at h
  rw [h, scaleNum, scaleDen]
  simp only [Nat.pow_eq]
  push_cast
  ring

theorem tenNum_div_tenDen (n : Nat) (e : Int) : (tenNum n e : ℚ) / tenDen e = n * 10 ^ e := by
  have h := zpow_eq_div 10 (by decide) e
  push_cast at h
  rw [h, tenNum, tenDen]
  simp only [Nat.pow_eq]
  push_cast
  ring

theorem cast_scaleNum (m : Nat) (e : Int) : (scaleNum m e : ℚ) = m * 2 ^ e * scaleDen e := by
  have hpos : (0 : ℚ) < scaleDen e := by exact_mod_cast scaleDen_pos e
  rw [← scaleNum_div_scaleDen, div_mul_cancel₀ _ hpos.ne']

theorem cast_tenNum (n : Nat) (e : Int) : (tenNum n e : ℚ) = n * 10 ^ e * tenDen e := by
  have hpos : (0 : ℚ) < tenDen e := by exact_mod_cast tenDen_pos e
  rw [← tenNum_div_tenDen, div_mul_cancel₀ _ hpos.ne']

/-- Of two neighbouring powers the comparison chooses the right one. -/
theorem floorLog_spec {b x : ℚ} {e : ℤ} (hlow : b ^ (e - 1) ≤ x) (hhigh : x < b ^ (e + 1))
    {P : Prop} [Decidable P] (hP : P ↔ b ^ e ≤ x) :
    b ^ (if P then e else e - 1) ≤ x ∧ x < b ^ ((if P then e else e - 1) + 1) := by
  split
  · next h => exact ⟨hP.mp h, hhigh⟩
  · next h =>
    rw [sub_add_cancel]
    exact ⟨hlow, not_le.mp (fun hle => h (hP.mpr hle))⟩

/-- Two bounds by powers bound the quotient. -/
theorem quotient_bounds {b : ℚ} (hb : 0 < b) {num den : ℚ} (hden : 0 < den) {i j : ℤ}
    (hnum : b ^ i ≤ num ∧ num < b ^ (i + 1)) (hden' : b ^ j ≤ den ∧ den < b ^ (j + 1)) :
    b ^ (i - j - 1) ≤ num / den ∧ num / den < b ^ (i - j + 1) := by
  have hpow : ∀ k : ℤ, 0 < b ^ k := fun k => zpow_pos hb k
  constructor
  · rw [le_div_iff₀ hden]
    calc b ^ (i - j - 1) * den ≤ b ^ (i - j - 1) * b ^ (j + 1) :=
          mul_le_mul_of_nonneg_left hden'.2.le (hpow _).le
      _ = b ^ i := by
          rw [← zpow_add₀ hb.ne']
          congr 1
          ring
      _ ≤ num := hnum.1
  · rw [div_lt_iff₀ hden]
    calc num < b ^ (i + 1) := hnum.2
      _ = b ^ (i - j + 1) * b ^ j := by
          rw [← zpow_add₀ hb.ne']
          congr 1
          ring
      _ ≤ b ^ (i - j + 1) * den := mul_le_mul_of_nonneg_left hden'.1 (hpow _).le

theorem log2_bounds {n : Nat} (hn : 0 < n) :
    (2 : ℚ) ^ (n.log2 : ℤ) ≤ n ∧ (n : ℚ) < 2 ^ ((n.log2 : ℤ) + 1) := by
  have hlow := Nat.log2_self_le hn.ne'
  have hhigh := Nat.lt_log2_self (n := n)
  constructor
  · rw [zpow_natCast]
    exact_mod_cast hlow
  · rw [show (n.log2 : ℤ) + 1 = ((n.log2 + 1 : ℕ) : ℤ) from rfl, zpow_natCast]
    exact_mod_cast hhigh

theorem digitCount_bounds {n : Nat} (hn : 0 < n) :
    (10 : ℚ) ^ ((digitCount n : ℤ) - 1) ≤ n ∧ (n : ℚ) < 10 ^ ((digitCount n : ℤ) - 1 + 1) := by
  have hcount : 0 < digitCount n := Nat.length_toDigits_pos
  have hhigh : n < 10 ^ digitCount n :=
    (Nat.length_toDigits_le_iff (by decide) hcount).mp le_rfl
  have hlow : 10 ^ (digitCount n - 1) ≤ n := by
    by_contra hlt
    rcases Nat.eq_zero_or_pos (digitCount n - 1) with hzero | hpos
    · rw [hzero] at hlt
      omega
    · have hle := (Nat.length_toDigits_le_iff (by decide) hpos).mpr (not_le.mp hlt)
      change digitCount n ≤ _ at hle
      omega
  constructor
  · rw [show (digitCount n : ℤ) - 1 = ((digitCount n - 1 : ℕ) : ℤ) by omega, zpow_natCast]
    exact_mod_cast hlow
  · rw [sub_add_cancel, zpow_natCast]
    exact_mod_cast hhigh

/-- The place of the first binary digit of a quotient. -/
theorem floorLog2_spec {num den : Nat} (hnum : 0 < num) (hden : 0 < den) :
    (2 : ℚ) ^ floorLog2 num den ≤ num / den ∧ (num : ℚ) / den < 2 ^ (floorLog2 num den + 1) := by
  have hden' : (0 : ℚ) < den := by exact_mod_cast hden
  obtain ⟨hlow, hhigh⟩ := quotient_bounds (by norm_num) hden' (log2_bounds hnum) (log2_bounds hden)
  refine floorLog_spec hlow hhigh ?_
  have hscale : (0 : ℚ) < scaleDen ((num.log2 : ℤ) - den.log2) := by
    exact_mod_cast scaleDen_pos _
  rw [← Nat.cast_le (α := ℚ), cast_scaleNum, Nat.cast_mul, mul_le_mul_iff_left₀ hscale,
    le_div_iff₀ hden', mul_comm]

/-- The place of the first decimal digit of a quotient. -/
theorem floorLog10_spec {num den : Nat} (hnum : 0 < num) (hden : 0 < den) :
    (10 : ℚ) ^ floorLog10 num den ≤ num / den ∧
      (num : ℚ) / den < 10 ^ (floorLog10 num den + 1) := by
  have hden' : (0 : ℚ) < den := by exact_mod_cast hden
  obtain ⟨hlow, hhigh⟩ :=
    quotient_bounds (by norm_num) hden' (digitCount_bounds hnum) (digitCount_bounds hden)
  rw [sub_sub_sub_cancel_right] at hlow hhigh
  refine floorLog_spec hlow hhigh ?_
  have hscale : (0 : ℚ) < tenDen ((digitCount num : ℤ) - digitCount den) := by
    exact_mod_cast tenDen_pos _
  rw [← Nat.cast_le (α := ℚ), cast_tenNum, Nat.cast_mul, mul_le_mul_iff_left₀ hscale,
    le_div_iff₀ hden', mul_comm]

/-- The exponent of the first binary digit is at least `i` if the quotient is at least `2 ^ i`. -/
theorem le_floorLog2_iff {num den : Nat} (hnum : 0 < num) (hden : 0 < den) {i : Int} :
    i ≤ floorLog2 num den ↔ (2 : ℚ) ^ i ≤ num / den := by
  obtain ⟨hlow, hhigh⟩ := floorLog2_spec hnum hden
  constructor
  · exact fun h => (zpow_le_zpow_right₀ (by norm_num) h).trans hlow
  · intro h
    have hlt := (zpow_lt_zpow_iff_right₀ (by norm_num)).mp (h.trans_lt hhigh)
    omega

section RoundHalfEven

variable {num den : Nat}

theorem roundHalfEven_eq_nat {n : Nat} (hden : 0 < den)
    (hlow : 2 * n * den ≤ 2 * num + den) (hhigh : 2 * num ≤ (2 * n + 1) * den)
    (htie : n % 2 = 1 → 2 * n * den < 2 * num + den ∧ 2 * num < (2 * n + 1) * den) :
    roundHalfEven num den = n := by
  have hsplit := Nat.div_add_mod num den
  have hmod := Nat.mod_lt num hden
  rw [roundHalfEven]
  generalize num / den = q at *
  generalize num % den = r at *
  -- The integer is one of the two next to the quotient.
  have hle : n ≤ q + 1 := by
    by_contra hgt
    have : (q + 2) * den ≤ n * den := Nat.mul_le_mul_right den (by omega)
    nlinarith
  have hge : q ≤ n := by
    by_contra hlt
    have : (n + 1) * den ≤ q * den := Nat.mul_le_mul_right den (by omega)
    nlinarith
  obtain rfl | rfl : n = q ∨ n = q + 1 := by omega
  · have h1 : (2 * n + 1) * den = 2 * (den * n) + den := by ring
    have h2 : 2 * n * den = 2 * (den * n) := by ring
    rw [h1, h2] at htie
    rw [h1] at hhigh
    rw [h2] at hlow
    split_ifs <;> omega
  · have h1 : (2 * (q + 1) + 1) * den = 2 * (den * q) + 3 * den := by ring
    have h2 : 2 * (q + 1) * den = 2 * (den * q) + 2 * den := by ring
    rw [h1, h2] at htie
    rw [h1] at hhigh
    rw [h2] at hlow
    split_ifs <;> omega

theorem roundHalfEven_near_nat (num : Nat) (hden : 0 < den) :
    2 * roundHalfEven num den * den ≤ 2 * num + den ∧
      2 * num ≤ (2 * roundHalfEven num den + 1) * den := by
  have hsplit := Nat.div_add_mod num den
  have hmod := Nat.mod_lt num hden
  rw [roundHalfEven]
  generalize num / den = q at *
  generalize num % den = r at *
  have h1 : 2 * q * den = 2 * (den * q) := by ring
  have h2 : (2 * q + 1) * den = 2 * (den * q) + den := by ring
  have h3 : 2 * (q + 1) * den = 2 * (den * q) + 2 * den := by ring
  have h4 : (2 * (q + 1) + 1) * den = 2 * (den * q) + 3 * den := by ring
  split_ifs <;> omega

/-- The integer that a quotient is rounded to: the nearest one, or the even one of two. -/
theorem roundHalfEven_eq {n : Nat} (hden : 0 < den)
    (hlow : (n : ℚ) - 1 / 2 ≤ num / den) (hhigh : (num : ℚ) / den ≤ n + 1 / 2)
    (htie : n % 2 = 1 → (n : ℚ) - 1 / 2 < num / den ∧ (num : ℚ) / den < n + 1 / 2) :
    roundHalfEven num den = n := by
  have hden' : (0 : ℚ) < den := by exact_mod_cast hden
  rw [le_div_iff₀ hden'] at hlow
  rw [div_le_iff₀ hden'] at hhigh
  rw [lt_div_iff₀ hden', div_lt_iff₀ hden'] at htie
  refine roundHalfEven_eq_nat hden ?_ ?_ fun hodd => ⟨?_, ?_⟩
  · rw [← Nat.cast_le (α := ℚ)]
    push_cast
    linarith
  · rw [← Nat.cast_le (α := ℚ)]
    push_cast
    linarith
  · rw [← Nat.cast_lt (α := ℚ)]
    push_cast
    linarith [(htie hodd).1]
  · rw [← Nat.cast_lt (α := ℚ)]
    push_cast
    linarith [(htie hodd).2]

/-- Rounding to an integer moves a quotient by at most one half. -/
theorem roundHalfEven_near (num : Nat) (hden : 0 < den) :
    (roundHalfEven num den : ℚ) - 1 / 2 ≤ num / den ∧
      (num : ℚ) / den ≤ roundHalfEven num den + 1 / 2 := by
  have hden' : (0 : ℚ) < den := by exact_mod_cast hden
  obtain ⟨hlow, hhigh⟩ := roundHalfEven_near_nat num hden
  rw [← Nat.cast_le (α := ℚ)] at hlow hhigh
  push_cast at hlow hhigh
  rw [le_div_iff₀ hden', div_le_iff₀ hden']
  constructor <;> linarith

end RoundHalfEven

end BlockFeed.Binary
