import BlockFeed.Binary.Decimal
import BlockFeed.Proofs.Binary.Gaps

/-!
# Shortest decimals read back

A shortest decimal of a single-precision number, read in double precision and rounded to single
precision, is that number again.

## Main results

* `ofDecimal?_close`, `ofDecimal?_exact`: the error of reading a decimal in double precision, and
  when there is none.
* `lowEnd_lt_of_close`, `lt_highEnd_of_close`: what is as close to a shortest decimal as reading
  rounds to the same number.
* `convert_ofDecimal?`: reading a shortest decimal back.

## Design notes

Reading rounds twice, so its result can differ from the decimal by a little more than one unit of
double precision. A decimal next to the end of an interval could be carried over the end; but its
grid is coarse there, and a decimal on a coarse grid is either the end itself, which is read
without error, or too far away from it. The exception is `closeSignificand`.
-/

namespace BlockFeed.Binary

open Format

section Operations

theorem double_range {x : ℚ} :
    ((1 : ℚ) / 10 ^ 61 ≤ x → 2 ^ (double.minExponent + (double.precision - 1)) ≤ x) ∧
      (x ≤ 10 ^ 77 → x < 2 ^ (double.maxExponent + (double.precision - 1))) := by
  constructor
  · intro h
    calc (2 : ℚ) ^ (double.minExponent + (double.precision - 1)) ≤ 2 ^ (-250 : ℤ) :=
          zpow_le_zpow_right₀ (by norm_num) (by decide)
      _ ≤ 1 / 10 ^ 61 := by norm_num
      _ ≤ x := h
  · intro h
    calc x ≤ 10 ^ 77 := h
      _ < 2 ^ (256 : ℤ) := by norm_num
      _ ≤ 2 ^ (double.maxExponent + (double.precision - 1)) :=
        zpow_le_zpow_right₀ (by norm_num) (by decide)

/-- Rounding to double precision in a range around one. -/
theorem double_close (num : Nat) {den : Nat} (hden : 0 < den)
    (hsmall : (1 : ℚ) / 10 ^ 61 ≤ num / den) (hbig : (num : ℚ) / den ≤ 10 ^ 77) :
    ∃ n i, double.round num den = .finite n i ∧
      |(n : ℚ) * 2 ^ i - num / den| * 2 ^ 53 ≤ num / den := by
  have hnum := pos_of_div_pos (lt_of_lt_of_le (by norm_num) hsmall)
  exact round_close proper_double hnum hden (double_range.1 hsmall) (double_range.2 hbig)

/-- Rounding to double precision changes nothing that needs no more than its bits. -/
theorem double_exact (num : Nat) {den m : Nat} {e : Int} (hden : 0 < den) (hm : 0 < m)
    (hlt : m < 2 ^ 53) (hleast : -1074 ≤ e) (hx : (num : ℚ) / den = m * 2 ^ e)
    (hbig : (num : ℚ) / den ≤ 10 ^ 77) :
    ∃ n i, double.round num den = .finite n i ∧ (n : ℚ) * 2 ^ i = num / den :=
  round_exact proper_double hm hlt hleast hden hx (double_range.2 hbig)

theorem mul_value (m n : Nat) (e d : Int) :
    (scaleNum (m * n) (e + d) : ℚ) / scaleDen (e + d) = m * 2 ^ e * (n * 2 ^ d) := by
  rw [scaleNum_div_scaleDen, zpow_add₀ (by norm_num)]
  push_cast
  ring

theorem div_value (m n : Nat) (e d : Int) :
    (scaleNum m (e - d) : ℚ) / (scaleDen (e - d) * n : Nat) = m * 2 ^ e / (n * 2 ^ d) := by
  rw [Nat.cast_mul, ← div_div, scaleNum_div_scaleDen, zpow_sub₀ (by norm_num)]
  rw [mul_div_assoc', div_div, mul_comm (n : ℚ)]

theorem ofNat_value {n : Nat} (hn : 0 < n) (hlt : n < 2 ^ 53) :
    ∃ m e, double.ofNat n = .finite m e ∧ (m : ℚ) * 2 ^ e = n := by
  have hle : ((n : Nat) : ℚ) ≤ 2 ^ 53 := by exact_mod_cast hlt.le
  have hone : (n : ℚ) / (1 : Nat) = n := by simp
  have hexact := double_exact n (e := 0) one_pos hn hlt (by decide) (by simp)
    (by rw [hone]; linarith)
  rwa [hone] at hexact

theorem powerOfTen_quotient (k : Nat) : ((Nat.pow 10 k : Nat) : ℚ) / (1 : Nat) = 10 ^ k := by
  rw [Nat.pow_eq]
  push_cast
  simp

theorem powerOfTen_close {k : Nat} (hk : k ≤ 60) :
    ∃ m e, powerOfTen k = .finite m e ∧ |(m : ℚ) * 2 ^ e - 10 ^ k| * 2 ^ 53 ≤ 10 ^ k := by
  have hone : (1 : ℚ) ≤ 10 ^ k := one_le_pow₀ (by norm_num)
  have hbig : (10 : ℚ) ^ k ≤ 10 ^ 60 := pow_le_pow_right₀ (by norm_num) hk
  have hclose := double_close (Nat.pow 10 k) one_pos
    (by rw [powerOfTen_quotient]; linarith) (by rw [powerOfTen_quotient]; linarith)
  rwa [powerOfTen_quotient] at hclose

theorem powerOfTen_exact {k : Nat} (hk : k ≤ 22) :
    ∃ m e, powerOfTen k = .finite m e ∧ (m : ℚ) * 2 ^ e = 10 ^ k := by
  have hbig : (10 : ℚ) ^ k ≤ 10 ^ 22 := pow_le_pow_right₀ (by norm_num) hk
  have hfive : 5 ^ k < 2 ^ 53 :=
    (Nat.pow_le_pow_right (by decide) hk).trans_lt (by decide)
  have hsplit : (10 : ℚ) ^ k = (5 ^ k : Nat) * 2 ^ (k : ℤ) := by
    rw [zpow_natCast]
    push_cast
    rw [← mul_pow]
    norm_num
  have hexact := double_exact (Nat.pow 10 k) (e := k) one_pos (Nat.pow_pos (by decide)) hfive
    (by omega) (by rw [powerOfTen_quotient, hsplit]) (by rw [powerOfTen_quotient]; linarith)
  rwa [powerOfTen_quotient] at hexact

end Operations

section Decimals

variable {s : Nat} {k : Int}

/-- Two roundings in a row. -/
theorem rounded_twice {x y z : ℚ} (hx : 0 ≤ x) (hxy : |y - x| * 2 ^ 53 ≤ x + x / 2 ^ 50)
    (hyz : |z - y| * 2 ^ 53 ≤ y) : |z - x| * 2 ^ 54 ≤ 5 * x := by
  rw [← le_div_iff₀ (by norm_num), abs_le] at hxy hyz ⊢
  constructor <;> linarith

/-- A decimal is read as the product or the quotient of its digits and a power of ten, rounded. -/
theorem ofDecimal?_eq {m n : Nat} {e d : Int} (hk : k.natAbs ≤ 60)
    (hdigits : double.ofNat s = .finite m e) (hpower : powerOfTen k.natAbs = .finite n d)
    (hn : 0 < n) :
    ∃ num den : Nat, 0 < den ∧
      (num : ℚ) / den =
        (if 0 ≤ k then (m : ℚ) * 2 ^ e * (n * 2 ^ d) else (m : ℚ) * 2 ^ e / (n * 2 ^ d)) ∧
      ∀ r i, double.round num den = .finite r i → ofDecimal? s k = some (.finite r i) := by
  have hrange : k.natAbs ≤ 308 := by omega
  rw [ofDecimal?, shiftDecimal?, if_pos hrange, hdigits]
  by_cases hsign : 0 ≤ k
  · refine ⟨scaleNum (m * n) (e + d), scaleDen (e + d), scaleDen_pos _, ?_, ?_⟩
    · rw [if_pos hsign, mul_value]
    · intro r i hround
      rw [if_pos hsign, show k.toNat = k.natAbs by omega, hpower, Format.mul, hround]
  · refine ⟨scaleNum m (e - d), scaleDen (e - d) * n, Nat.mul_pos (scaleDen_pos _) hn, ?_, ?_⟩
    · rw [if_neg hsign, div_value]
    · intro r i hround
      rw [if_neg hsign, hpower, Format.div, hround]

/-- A decimal, its power of ten with a natural exponent. -/
theorem decimal_eq (s : Nat) (k : Int) :
    (s : ℚ) * 10 ^ k = if 0 ≤ k then (s : ℚ) * 10 ^ k.natAbs else s / 10 ^ k.natAbs := by
  split
  · rw [← zpow_natCast, Int.natAbs_of_nonneg ‹_›]
  · rw [← zpow_natCast, div_eq_mul_inv, ← zpow_neg]
    congr 2
    omega

/-- An approximation of a positive rational, in the range of `double_close`. -/
structure Approximates (x y : ℚ) : Prop where
  nonneg : 0 ≤ x
  small : 1 / 10 ^ 61 ≤ y
  big : y ≤ 10 ^ 77
  close : |y - x| * 2 ^ 53 ≤ x + x / 2 ^ 50

/-- A product with an approximate power of ten. -/
theorem Approximates.mul {x p P : ℚ} (hx : 1 ≤ x) (hx' : x ≤ 10 ^ 16) (hP : 1 ≤ P)
    (hP' : P ≤ 10 ^ 60) (hclose : |p - P| * 2 ^ 53 ≤ P) : Approximates (x * P) (x * p) := by
  have habs := hclose
  rw [← le_div_iff₀ (by norm_num), abs_le] at habs
  have hxpos : 0 < x := by linarith
  have hPpos : 0 < P := by linarith
  have hproduct : 0 ≤ x * P := by positivity
  have herror : x * (|p - P| * 2 ^ 53) ≤ x * P := mul_le_mul_of_nonneg_left hclose hxpos.le
  refine ⟨hproduct, ?_, ?_, ?_⟩
  · calc (1 : ℚ) / 10 ^ 61 ≤ 1 * p := by linarith
      _ ≤ x * p := mul_le_mul_of_nonneg_right hx (by linarith)
  · calc x * p ≤ 10 ^ 16 * (2 * 10 ^ 60) := mul_le_mul hx' (by linarith) (by linarith) (by norm_num)
      _ ≤ 10 ^ 77 := by norm_num
  · rw [← mul_sub, abs_mul, abs_of_pos hxpos, mul_assoc]
    linarith

/-- A quotient by an approximate power of ten. -/
theorem Approximates.div {x p P : ℚ} (hx : 1 ≤ x) (hx' : x ≤ 10 ^ 16) (hP : 1 ≤ P)
    (hP' : P ≤ 10 ^ 60) (hclose : |p - P| * 2 ^ 53 ≤ P) : Approximates (x / P) (x / p) := by
  have habs := hclose
  rw [← le_div_iff₀ (by norm_num), abs_le] at habs
  have hxpos : 0 < x := by linarith
  have hPpos : 0 < P := by linarith
  have hpos : 0 < p := by linarith
  -- The error of the power is relative to the quotient by the approximate power.
  have herror : |x / p - x / P| * 2 ^ 53 ≤ x / p := by
    have heq : x / p - x / P = x / p * ((P - p) / P) := by
      field_simp
    rw [heq, abs_mul, abs_of_pos (by positivity), abs_div, abs_of_pos hPpos, abs_sub_comm,
      mul_assoc]
    refine mul_le_of_le_one_right (by positivity) ?_
    rwa [div_mul_eq_mul_div, div_le_one hPpos]
  refine ⟨by positivity, ?_, ?_, ?_⟩
  · rw [div_le_div_iff₀ (by norm_num) hpos]
    linarith
  · rw [div_le_iff₀ hpos]
    linarith
  · have hquotient := herror
    rw [← le_div_iff₀ (by norm_num), abs_le] at hquotient
    linarith

/-- A decimal in a moderate range is read with a small error. -/
theorem ofDecimal?_close (hs : 0 < s) (hlt : s < 2 ^ 53) (hk : k.natAbs ≤ 60) :
    ∃ r i, ofDecimal? s k = some (.finite r i) ∧
      |(r : ℚ) * 2 ^ i - s * 10 ^ k| * 2 ^ 54 ≤ 5 * (s * 10 ^ k) := by
  obtain ⟨m, e, hdigits, hm⟩ := ofNat_value hs hlt
  obtain ⟨n, d, hpower, hclose⟩ := powerOfTen_close hk
  have hone : (1 : ℚ) ≤ s := by exact_mod_cast hs
  have hbound : (s : ℚ) ≤ 10 ^ 16 := by
    have : (s : ℚ) ≤ 2 ^ 53 := by exact_mod_cast hlt.le
    linarith
  have hP : (1 : ℚ) ≤ 10 ^ k.natAbs := one_le_pow₀ (by norm_num)
  have hP' : (10 : ℚ) ^ k.natAbs ≤ 10 ^ 60 := pow_le_pow_right₀ (by norm_num) hk
  have hn : 0 < n := by
    have habs := hclose
    rw [← le_div_iff₀ (by norm_num), abs_le] at habs
    have hpos : (0 : ℚ) < n * 2 ^ d := by linarith
    exact_mod_cast pos_of_mul_pos_left hpos (by positivity)
  obtain ⟨num, den, hden, hvalue, hread⟩ := ofDecimal?_eq hk hdigits hpower hn
  have happroximates : Approximates (s * 10 ^ k) (num / den) := by
    rw [hvalue, hm, decimal_eq s k]
    split
    · exact .mul hone hbound hP hP' hclose
    · exact .div hone hbound hP hP' hclose
  obtain ⟨r, i, hround, hrounded⟩ := double_close num hden happroximates.small happroximates.big
  exact ⟨r, i, hread r i hround,
    rounded_twice happroximates.nonneg happroximates.close hrounded⟩

/-- A decimal that needs few bits, with a small power of ten, is read without error. -/
theorem ofDecimal?_exact {M : Nat} {h : Int} (hs : 0 < s) (hlt : s < 2 ^ 53)
    (hk : k.natAbs ≤ 22) (hM : 0 < M) (hM' : M < 2 ^ 53) (hh : -1074 ≤ h)
    (heq : (s : ℚ) * 10 ^ k = M * 2 ^ h) :
    ∃ r i, ofDecimal? s k = some (.finite r i) ∧ (r : ℚ) * 2 ^ i = s * 10 ^ k := by
  obtain ⟨m, e, hdigits, hm⟩ := ofNat_value hs hlt
  obtain ⟨n, d, hpower, hn⟩ := powerOfTen_exact hk
  have hP : (0 : ℚ) < 10 ^ k.natAbs := by positivity
  have hnpos : 0 < n := by
    rw [← hn] at hP
    exact_mod_cast pos_of_mul_pos_left hP (by positivity)
  obtain ⟨num, den, hden, hvalue, hread⟩ := ofDecimal?_eq (by omega) hdigits hpower hnpos
  rw [hm, hn, ← decimal_eq] at hvalue
  have hbig : (num : ℚ) / den ≤ 10 ^ 77 := by
    have hs' : (s : ℚ) ≤ 2 ^ 53 := by exact_mod_cast hlt.le
    have hpower : (10 : ℚ) ^ k ≤ 10 ^ (22 : ℤ) := zpow_le_zpow_right₀ (by norm_num) (by omega)
    rw [hvalue]
    calc (s : ℚ) * 10 ^ k ≤ 2 ^ 53 * 10 ^ (22 : ℤ) := by gcongr
      _ ≤ 10 ^ 77 := by norm_num
  obtain ⟨r, i, hround, hexact⟩ := double_exact num hden hM hM' hh (hvalue.trans heq) hbig
  exact ⟨r, i, hread r i hround, hexact.trans hvalue⟩

/-- A decimal with few digits that needs few bits has a small power of ten. -/
theorem exponent_small {M : Nat} {h : Int} (hs : 0 < s) (hlt : s < 10 ^ 14) (hM : 0 < M)
    (hM' : M < 2 ^ 25) (heq : (s : ℚ) * 10 ^ k = M * 2 ^ h) : k.natAbs ≤ 22 := by
  have hcross : tenNum s k * scaleDen h = scaleNum M h * tenDen k := by
    rw [← Nat.cast_inj (R := ℚ), Nat.cast_mul, Nat.cast_mul, cast_tenNum, cast_scaleNum, heq]
    ring
  simp only [tenNum, scaleDen, scaleNum, tenDen, Nat.pow_eq] at hcross
  have hfive : ∀ n i : Nat, Nat.Coprime (5 ^ n) (2 ^ i) :=
    fun n i => Nat.Coprime.pow n i (by decide)
  have hten : ∀ n : Nat, 5 ^ n ∣ 10 ^ n := fun n => pow_dvd_pow_of_dvd (by decide) n
  by_contra hgt
  have hpower : 5 ^ 23 ≤ 5 ^ k.natAbs := Nat.pow_le_pow_right (by decide) (by omega)
  rcases le_total 0 k with hsign | hsign
  · -- The powers of five of the decimal divide the significand.
    rw [show k.toNat = k.natAbs by omega, show (-k).toNat = 0 by omega, pow_zero, mul_one] at hcross
    have hdvd : 5 ^ k.natAbs ∣ M := by
      refine (hfive k.natAbs h.toNat).dvd_of_dvd_mul_right ?_
      rw [← hcross]
      exact ((hten _).mul_left s).mul_right _
    have := Nat.le_of_dvd hM hdvd
    omega
  · rw [show k.toNat = 0 by omega, show (-k).toNat = k.natAbs by omega, pow_zero, mul_one] at hcross
    have hdvd : 5 ^ k.natAbs ∣ s := by
      refine (hfive k.natAbs (-h).toNat).dvd_of_dvd_mul_right ?_
      rw [hcross]
      exact (hten _).mul_left _
    have := Nat.le_of_dvd hs hdvd
    omega

end Decimals

section Ends

variable {m : Nat} {e : Int}

/-- The binary numbers that end an interval of single precision: one bit more, and a unit of their
last place is their distance from the number. -/
structure EndPoint (m : Nat) (e : Int) (x : ℚ) (M : Nat) (h : Int) : Prop where
  value : x = M * 2 ^ h
  distance : |x - m * 2 ^ e| = 2 ^ h
  pos : 0 < M
  lt : M < 2 ^ 25
  least : -150 ≤ h
  greatest : h ≤ 103

theorem half_zpow (e : Int) : (2 : ℚ) ^ e = 2 * 2 ^ (e - 1) := by
  rw [← zpow_one_add₀ (by norm_num), add_sub_cancel]

theorem endPoint_high (hc : single.Canonical m e) :
    EndPoint m e (highEnd m e) (2 * m + 1) (e - 1) := by
  have hlt : m < 2 ^ 24 := hc.lt
  have hleast : -149 ≤ e := hc.least
  have hgreatest : e ≤ 104 := hc.greatest
  refine ⟨?_, ?_, by omega, by omega, by omega, by omega⟩
  · rw [highEnd, half_zpow e]
    push_cast
    ring
  · have heq : highEnd m e - m * 2 ^ e = 2 ^ (e - 1) := by
      rw [highEnd, half_zpow e]
      ring
    rw [heq, abs_of_pos (by positivity)]

theorem endPoint_low (hc : single.Canonical m e) (hm : 0 < m) :
    (∃ h, EndPoint m e (single.lowEnd m e) (2 * m - 1) h) ∨
      ∃ h, EndPoint m e (single.lowEnd m e) (2 ^ 25 - 1) h := by
  have hlt : m < 2 ^ 24 := hc.lt
  have hleast : -149 ≤ e := hc.least
  have hgreatest : e ≤ 104 := hc.greatest
  by_cases hpower : m = 2 ^ (single.precision - 1) ∧ single.minExponent < e
  · refine .inr ⟨e - 2, ?_⟩
    have hmin : -149 < e := hpower.2
    have hm : (m : ℚ) = 2 ^ 23 := by exact_mod_cast hpower.1
    have hquarter : (2 : ℚ) ^ e = 4 * 2 ^ (e - 2) := by
      rw [half_zpow e, half_zpow (e - 1), show e - 1 - 1 = e - 2 by ring]
      ring
    refine ⟨?_, ?_, by omega, by omega, by omega, by omega⟩
    · rw [lowEnd, if_pos hpower, hquarter, hm]
      push_cast
      ring
    · have heq : single.lowEnd m e - m * 2 ^ e = -2 ^ (e - 2) := by
        rw [lowEnd, if_pos hpower, hquarter]
        ring
      rw [heq, abs_neg, abs_of_pos (by positivity)]
  · refine .inl ⟨e - 1, ?_, ?_, by omega, by omega, by omega, by omega⟩
    · rw [lowEnd, if_neg hpower, half_zpow e, Nat.cast_sub (by omega)]
      push_cast
      ring
    · have heq : single.lowEnd m e - m * 2 ^ e = -2 ^ (e - 1) := by
        rw [lowEnd, if_neg hpower, half_zpow e]
        ring
      rw [heq, abs_neg, abs_of_pos (by positivity)]

/-- A decimal on a coarse grid that is close to an end point is that end point, with one
exception. -/
theorem EndPoint.apart {x : ℚ} {M : Nat} {h : Int} (hend : EndPoint m e x M h) {d : Decimal}
    (hgrid : 11 / 8 * (2 : ℚ) ^ h ≤ 10 ^ d.exponent)
    (hclose : |d.value - x| * 2 ^ 54 ≤ 5 * d.value) :
    d.value = x ∨ M = closeSignificand ∧ (h = -108 ∨ h = -107) ∧ d.value < x := by
  have hpow : (0 : ℚ) < 2 ^ h := by positivity
  rw [hend.value] at hclose ⊢
  exact decimal_apart hend.least hend.greatest hend.pos hend.lt (by linarith) hclose

/-- A decimal that is an end point is read without error. -/
theorem EndPoint.read {x : ℚ} {M : Nat} {h : Int} (hend : EndPoint m e x M h) {s : Nat} {k : Int}
    (hs : 0 < s) (hlt : s < 10 ^ 14) (heq : (s : ℚ) * 10 ^ k = x) :
    ∃ r i, ofDecimal? s k = some (.finite r i) ∧ (r : ℚ) * 2 ^ i = s * 10 ^ k := by
  have hvalue := heq.trans hend.value
  refine ofDecimal?_exact hs (hlt.trans (by decide))
    (exponent_small hs hlt hend.pos hend.lt hvalue) hend.pos (hend.lt.trans (by decide)) ?_ hvalue
  exact le_trans (by decide) hend.least

/-- The one number whose shortest decimal is as close to its upper end as reading is exact, at two
exponents. -/
def Exceptional (m : Nat) (e : Int) : Prop :=
  2 * m + 1 = closeSignificand ∧ (e = -107 ∨ e = -106)

/-- A shortest decimal is small enough for the error of reading to be much smaller than the
interval. -/
theorem error_small (hc : single.Canonical m e) {x : ℚ} (hx : x ≤ highEnd m e) :
    5 * x / 2 ^ 54 ≤ 2 ^ e / 32 := by
  have hlt := highEnd_lt_single hc
  have hpow : (0 : ℚ) < 2 ^ e := by positivity
  linarith

variable {low : Nat} {d : Decimal} {y : ℚ}

/-- What is as close to a shortest decimal as reading does not reach the lower end of the
interval. -/
theorem lowEnd_lt_of_close (hc : single.Canonical m e) (hm : 0 < m)
    (hd : single.Selected m e low d) (hend : single.lowEnd m e < d.value)
    (hclose : |y - d.value| * 2 ^ 54 ≤ 5 * d.value) : single.lowEnd m e < y := by
  by_contra hle
  have herror := error_small hc hd.near.high
  have hdistance : |d.value - single.lowEnd m e| * 2 ^ 54 ≤ 5 * d.value := by
    rw [← le_div_iff₀ (by norm_num), abs_le] at hclose ⊢
    constructor <;> linarith
  have hnear : d.value - single.lowEnd m e ≤ 2 ^ e / 32 := by
    rw [← le_div_iff₀ (by norm_num), abs_le] at hdistance
    linarith
  have hquarter := lowEnd_le (f := single) (m := m) (e := e)
  have hcoarse := hd.coarse_of_low (by linarith)
  have hpow : (0 : ℚ) < 2 ^ e := by positivity
  have hgap : |single.lowEnd m e - m * 2 ^ e| = m * 2 ^ e - single.lowEnd m e := by
    rw [abs_sub_comm, abs_of_pos (by linarith)]
  obtain ⟨h, hpoint⟩ | ⟨h, hpoint⟩ := endPoint_low hc hm
  all_goals
    rw [← hgap, hpoint.distance] at hcoarse
    have hpow' : (0 : ℚ) < 2 ^ h := by positivity
    rcases hpoint.apart (by linarith) hdistance with heq | ⟨-, -, hlt⟩
    · exact hend.ne' heq
    · exact hend.not_gt hlt

/-- What is as close to a shortest decimal as reading does not reach the upper end of the
interval. -/
theorem lt_highEnd_of_close (hc : single.Canonical m e) (hnot : ¬Exceptional m e)
    (hd : single.Selected m e low d) (hend : d.value < highEnd m e)
    (hclose : |y - d.value| * 2 ^ 54 ≤ 5 * d.value) : y < highEnd m e := by
  by_contra hge
  have herror := error_small hc hd.near.high
  have hdistance : |d.value - highEnd m e| * 2 ^ 54 ≤ 5 * d.value := by
    rw [← le_div_iff₀ (by norm_num), abs_le] at hclose ⊢
    constructor <;> linarith
  have hnear : highEnd m e - 2 ^ e / 32 ≤ d.value := by
    rw [← le_div_iff₀ (by norm_num), abs_le] at hdistance
    linarith
  have hpow : (0 : ℚ) < 2 ^ e := by positivity
  have hcoarse := hd.coarse_of_high (by linarith)
  rw [half_zpow e] at hcoarse
  rcases (endPoint_high hc).apart (by linarith) hdistance with heq | ⟨hexception, hexponent, -⟩
  · exact hend.ne heq
  · exact hnot ⟨hexception, by omega⟩

/-- A shortest decimal is read back as the number that it was made for. -/
theorem convert_ofDecimal? (hc : single.Canonical m e) (hm : 0 < m) (hnot : ¬Exceptional m e)
    {s : Nat} {k : Int} (hs : 0 < s) (hlt : s < 10 ^ 14) (hk : k.natAbs ≤ 60)
    (hvalue : (s : ℚ) * 10 ^ k = (shortest single m e).value) :
    (ofDecimal? s k).map single.convert = some (.finite m e) := by
  obtain ⟨⟨low, hselected⟩, -⟩ := selected_shortest hc hm
  suffices h : ∃ r i, ofDecimal? s k = some (.finite r i) ∧
      single.Near m e ((r : ℚ) * 2 ^ i) by
    obtain ⟨r, i, hread, hnear⟩ := h
    rw [← scaleNum_div_scaleDen] at hnear
    rw [hread, Option.map_some, convert, round_of_near proper_single hc hm (scaleDen_pos i) hnear]
  by_cases hlow : (shortest single m e).value = single.lowEnd m e
  · obtain ⟨h, hpoint⟩ | ⟨h, hpoint⟩ := endPoint_low hc hm
    all_goals
      obtain ⟨r, i, hread, hexact⟩ := hpoint.read hs hlt (hvalue.trans hlow)
      exact ⟨r, i, hread, by rw [hexact, hvalue]; exact hselected.near⟩
  by_cases hhigh : (shortest single m e).value = highEnd m e
  · obtain ⟨r, i, hread, hexact⟩ := (endPoint_high hc).read hs hlt (hvalue.trans hhigh)
    exact ⟨r, i, hread, by rw [hexact, hvalue]; exact hselected.near⟩
  obtain ⟨r, i, hread, hclose⟩ := ofDecimal?_close hs (hlt.trans (by decide)) hk
  rw [hvalue] at hclose
  exact ⟨r, i, hread, .of_lt
    (lowEnd_lt_of_close hc hm hselected (lt_of_le_of_ne hselected.near.low (Ne.symm hlow)) hclose)
    (lt_highEnd_of_close hc hnot hselected (lt_of_le_of_ne hselected.near.high hhigh) hclose)⟩

/-- The exceptional number is read back all the same. -/
theorem convert_of_exceptional (h : Exceptional m e) :
    ∃ n, shortest single m e = ⟨n, -32⟩ ∧ n % 10 ≠ 0 ∧
      (ofDecimal? n (-32)).map single.convert = some (.finite m e) := by
  obtain ⟨hm, he⟩ := h
  obtain rfl : m = 11420669 := by
    rw [closeSignificand] at hm
    omega
  obtain rfl | rfl := he
  · exact ⟨7038531, by decide +kernel, by decide, by decide +kernel⟩
  · exact ⟨14077061, by decide +kernel, by decide, by decide +kernel⟩

end Ends

end BlockFeed.Binary
