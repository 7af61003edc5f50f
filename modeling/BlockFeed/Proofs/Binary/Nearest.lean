import BlockFeed.Proofs.Binary.Quotients

/-!
# The number nearest to a quotient

Which number of a format a quotient is rounded to, how far that number can be away, and when
there is no distance at all.

## Main definitions

* `Format.Proper`: formats with more than one bit and more than one exponent.
* `Format.Canonical`: significands with the exponent that a format gives them.
* `Format.Near`: the rationals that are rounded to a number.

## Main results

* `Format.round_of_near`: a rational near to a number is rounded to it.
* `Format.round_close`: the relative error of rounding.
* `Format.round_exact`: a rational that the format has is not changed.
* `Format.canonical_of_round`: results of rounding are canonical.
* `Format.round_eq_infinite_iff`: when rounding gives no number.
-/

namespace BlockFeed.Binary.Format

/-- Formats with at least two bits and at least two exponents. -/
structure Proper (f : Format) : Prop where
  precision : 1 < f.precision
  exponents : f.minExponent < f.maxExponent

theorem proper_single : single.Proper := ⟨by decide, by decide⟩

theorem proper_double : double.Proper := ⟨by decide, by decide⟩

/-- Significands with the exponent that a format gives them: all bits are used unless the number
is among the smallest. -/
structure Canonical (f : Format) (m : Nat) (e : Int) : Prop where
  lt : m < 2 ^ f.precision
  least : f.minExponent ≤ e
  greatest : e ≤ f.maxExponent
  full : 2 ^ (f.precision - 1) ≤ m ∨ e = f.minExponent

/-- Half the way down to the next number; below a power of two the next number is nearer. -/
def lowEnd (f : Format) (m : Nat) (e : Int) : ℚ :=
  (m - if m = 2 ^ (f.precision - 1) ∧ f.minExponent < e then 1 / 4 else 1 / 2) * 2 ^ e

/-- Half the way up to the next number. -/
def highEnd (m : Nat) (e : Int) : ℚ := (m + 1 / 2) * 2 ^ e

/-- The rationals that are rounded to `m * 2 ^ e`; halfway they are only if `m` is even. -/
structure Near (f : Format) (m : Nat) (e : Int) (x : ℚ) : Prop where
  low : f.lowEnd m e ≤ x
  high : x ≤ highEnd m e
  odd : m % 2 = 1 → f.lowEnd m e < x ∧ x < highEnd m e

theorem Near.of_lt {f : Format} {m : Nat} {e : Int} {x : ℚ} (hlow : f.lowEnd m e < x)
    (hhigh : x < highEnd m e) : f.Near m e x :=
  ⟨hlow.le, hhigh.le, fun _ => ⟨hlow, hhigh⟩⟩

variable {f : Format} {num den m : Nat} {e : Int}

theorem highEnd_eq (m : Nat) (e : Int) : highEnd m e = m * 2 ^ e + 2 ^ e / 2 := by
  rw [highEnd]
  ring

theorem le_lowEnd : (m : ℚ) * 2 ^ e - 2 ^ e / 2 ≤ f.lowEnd m e := by
  have hpow : (0 : ℚ) < 2 ^ e := by positivity
  rw [lowEnd]
  split <;> linarith

theorem lowEnd_le : f.lowEnd m e ≤ (m : ℚ) * 2 ^ e - 2 ^ e / 4 := by
  have hpow : (0 : ℚ) < 2 ^ e := by positivity
  rw [lowEnd]
  split <;> linarith

theorem lowEnd_pos (hm : 0 < m) : 0 < f.lowEnd m e := by
  have hpow : (0 : ℚ) < 2 ^ e := by positivity
  have hle : (2 : ℚ) ^ e ≤ m * 2 ^ e :=
    le_mul_of_one_le_left hpow.le (by exact_mod_cast hm)
  exact (by linarith : (0 : ℚ) < m * 2 ^ e - 2 ^ e / 2).trans_le le_lowEnd

section Places

/-- The exponent of the last place of the number nearest to a quotient, before a carry. -/
def lastPlace (f : Format) (num den : Nat) : Int :=
  max f.minExponent (floorLog2 num den - (f.precision - 1))

/-- The significand of the number nearest to a quotient, before a carry. -/
def nearest (f : Format) (num den : Nat) : Nat :=
  roundHalfEven (num * scaleDen (f.lastPlace num den)) (scaleNum den (f.lastPlace num den))

theorem round_eq (hnum : num ≠ 0) :
    f.round num den =
      if f.nearest num den = 2 ^ f.precision then
        if f.maxExponent < f.lastPlace num den + 1 then .infinite
        else .finite (2 ^ (f.precision - 1)) (f.lastPlace num den + 1)
      else if f.maxExponent < f.lastPlace num den then .infinite
      else .finite (f.nearest num den) (f.lastPlace num den) := by
  rw [round, if_neg hnum, nearest, lastPlace]
  simp only [Nat.pow_eq]
  split_ifs <;> rfl

/-- A quotient in units of `2 ^ e`. -/
theorem quotient_in_units (num den : Nat) (e : Int) :
    ((num * scaleDen e : Nat) : ℚ) / scaleNum den e = num / den / 2 ^ e := by
  have hs : (0 : ℚ) < scaleDen e := by exact_mod_cast scaleDen_pos e
  rw [cast_scaleNum, Nat.cast_mul, div_div, mul_div_mul_right _ _ hs.ne']

/-- The significand is the integer nearest to the quotient in units of the last place. -/
theorem nearest_eq {n : Nat} (hden : 0 < den)
    (hlow : ((n : ℚ) - 1 / 2) * 2 ^ f.lastPlace num den ≤ num / den)
    (hhigh : (num : ℚ) / den ≤ (n + 1 / 2) * 2 ^ f.lastPlace num den)
    (htie : n % 2 = 1 → ((n : ℚ) - 1 / 2) * 2 ^ f.lastPlace num den < num / den ∧
      (num : ℚ) / den < (n + 1 / 2) * 2 ^ f.lastPlace num den) :
    f.nearest num den = n := by
  have hpow : (0 : ℚ) < 2 ^ f.lastPlace num den := by positivity
  refine roundHalfEven_eq (scaleNum_pos hden _) ?_ ?_ fun hodd => ?_
  · rwa [quotient_in_units, le_div_iff₀ hpow]
  · rwa [quotient_in_units, div_le_iff₀ hpow]
  · rw [quotient_in_units, lt_div_iff₀ hpow, div_lt_iff₀ hpow]
    exact htie hodd

/-- The significand is at most half a unit of the last place away. -/
theorem nearest_near (f : Format) (num : Nat) (hden : 0 < den) :
    ((f.nearest num den : ℚ) - 1 / 2) * 2 ^ f.lastPlace num den ≤ num / den ∧
      (num : ℚ) / den ≤ (f.nearest num den + 1 / 2) * 2 ^ f.lastPlace num den := by
  have hpow : (0 : ℚ) < 2 ^ f.lastPlace num den := by positivity
  obtain ⟨hlow, hhigh⟩ := roundHalfEven_near (num * scaleDen (f.lastPlace num den))
    (scaleNum_pos hden (f.lastPlace num den))
  rw [quotient_in_units] at hlow hhigh
  exact ⟨(le_div_iff₀ hpow).mp hlow, (div_le_iff₀ hpow).mp hhigh⟩

theorem le_lastPlace_iff (hnum : 0 < num) (hden : 0 < den) {i : Int} :
    i ≤ f.lastPlace num den ↔
      i ≤ f.minExponent ∨ (2 : ℚ) ^ (i + (f.precision - 1)) ≤ num / den := by
  rw [lastPlace, le_max_iff, ← le_floorLog2_iff hnum hden, le_sub_iff_add_le]

theorem lastPlace_le (hnum : 0 < num) (hden : 0 < den) (hleast : f.minExponent ≤ e)
    (hlt : (num : ℚ) / den < 2 ^ (e + f.precision)) : f.lastPlace num den ≤ e := by
  refine Int.lt_add_one_iff.mp (not_le.mp fun hle => ?_)
  rcases (le_lastPlace_iff hnum hden).mp hle with hmin | hpow
  · omega
  · rw [show e + 1 + ((f.precision : ℤ) - 1) = e + f.precision by ring] at hpow
    exact absurd hlt (not_lt.mpr hpow)

theorem significand_lt (hlt : m < 2 ^ f.precision) : highEnd m e < 2 ^ (e + f.precision) := by
  have hsucc : (m : ℚ) + 1 ≤ 2 ^ f.precision := by exact_mod_cast hlt
  rw [zpow_add₀ (by norm_num), zpow_natCast, mul_comm, highEnd]
  exact mul_lt_mul_of_pos_right (by linarith) (by positivity)

end Places

theorem pow_precision (hf : f.Proper) : 2 ^ f.precision = 2 * 2 ^ (f.precision - 1) := by
  rw [← pow_succ', Nat.sub_add_cancel hf.precision.le]

/-- A full significand in units of its last place. -/
theorem zpow_full (hf : f.Proper) (e : Int) :
    (2 : ℚ) ^ (e + (f.precision - 1)) = ((2 ^ (f.precision - 1) : Nat) : ℚ) * 2 ^ e := by
  have hcast : (f.precision : ℤ) - 1 = ((f.precision - 1 : Nat) : ℤ) := by
    have := hf.precision
    omega
  rw [zpow_add₀ (by norm_num), hcast, zpow_natCast, mul_comm]
  push_cast
  rfl

/-- A rational near to a number is rounded to it. -/
theorem round_of_near (hf : f.Proper) (hc : f.Canonical m e) (hm : 0 < m) (hden : 0 < den)
    (hx : f.Near m e (num / den)) : f.round num den = .finite m e := by
  have hpos : (0 : ℚ) < num / den := (lowEnd_pos hm).trans_le hx.low
  have hnum := pos_of_div_pos hpos
  have hpow : (0 : ℚ) < 2 ^ e := by positivity
  have hle : f.lastPlace num den ≤ e :=
    lastPlace_le hnum hden hc.least (hx.high.trans_lt (significand_lt hc.lt))
  by_cases hge : e ≤ f.lastPlace num den
  · have hplace : f.lastPlace num den = e := le_antisymm hle hge
    have hhalf : ((m : ℚ) - 1 / 2) * 2 ^ e ≤ f.lowEnd m e := le_of_eq_of_le (by ring) le_lowEnd
    have hnearest : f.nearest num den = m := by
      refine nearest_eq hden ?_ ?_ fun h => ?_
      · rw [hplace]
        exact hhalf.trans hx.low
      · rw [hplace]
        exact hx.high
      · rw [hplace]
        exact ⟨hhalf.trans_lt (hx.odd h).1, (hx.odd h).2⟩
    rw [round_eq hnum.ne', hnearest, hplace, if_neg hc.lt.ne, if_neg (not_lt.mpr hc.greatest)]
  · -- Just below a power of two the last place is one lower, and rounding carries.
    have hsmall := mt (le_lastPlace_iff hnum hden).mpr hge
    rw [not_or, not_le, not_le, zpow_full hf] at hsmall
    obtain ⟨hmin, hlt⟩ := hsmall
    have hfull : 2 ^ (f.precision - 1) ≤ m := hc.full.resolve_right hmin.ne'
    have hmeq : m = 2 ^ (f.precision - 1) := by
      refine (eq_or_lt_of_le hfull).elim Eq.symm fun hgt => ?_
      have hsucc : ((2 ^ (f.precision - 1) : Nat) : ℚ) + 1 ≤ m := by exact_mod_cast hgt
      have hlow := le_lowEnd.trans hx.low
      nlinarith
    have hlowEnd : f.lowEnd m e = ((m : ℚ) - 1 / 4) * 2 ^ e := by
      rw [lowEnd, if_pos ⟨hmeq, hmin⟩]
    have hlow := hx.low
    rw [hlowEnd] at hlow
    rw [← hmeq] at hlt
    have hhalf : (2 : ℚ) ^ e = 2 * 2 ^ (e - 1) := by
      rw [← zpow_one_add₀ (by norm_num), add_sub_cancel]
    have hplace : f.lastPlace num den = e - 1 := by
      refine le_antisymm (by omega) ((le_lastPlace_iff hnum hden).mpr (.inr ?_))
      have hone : (1 : ℚ) ≤ m := by exact_mod_cast hm
      rw [zpow_full hf, ← hmeq]
      rw [hhalf] at hlow
      have hpow' : (0 : ℚ) < 2 ^ (e - 1) := by positivity
      nlinarith
    have htwo : 2 ^ f.precision = 2 * m := by rw [pow_precision hf, hmeq]
    have hnearest : f.nearest num den = 2 ^ f.precision := by
      rw [htwo]
      rw [hhalf] at hlow hlt
      refine nearest_eq hden ?_ ?_ fun h => by omega
      · rw [hplace]
        push_cast
        linarith
      · rw [hplace]
        push_cast
        have hpow' : (0 : ℚ) < 2 ^ (e - 1) := by positivity
        linarith
    rw [round_eq hnum.ne', hnearest, if_pos rfl, hplace, sub_add_cancel,
      if_neg (not_lt.mpr hc.greatest), ← hmeq]

/-- Below the greatest power of two rounding gives a number, its significand before the carry. -/
theorem round_value (hf : f.Proper) (hnum : 0 < num) (hden : 0 < den)
    (hbig : (num : ℚ) / den < 2 ^ (f.maxExponent + (f.precision - 1))) :
    ∃ n i, f.round num den = .finite n i ∧
      (n : ℚ) * 2 ^ i = f.nearest num den * 2 ^ f.lastPlace num den := by
  have hlt : f.lastPlace num den < f.maxExponent := by
    refine not_le.mp fun hle => ?_
    rcases (le_lastPlace_iff hnum hden).mp hle with hmin | hpow
    · exact absurd hf.exponents (not_lt.mpr hmin)
    · exact absurd hbig (not_lt.mpr hpow)
  rw [round_eq hnum.ne', if_neg (show ¬f.maxExponent < f.lastPlace num den + 1 by omega),
    if_neg hlt.not_gt]
  split
  · next hcarry =>
    refine ⟨_, _, rfl, ?_⟩
    rw [hcarry, pow_precision hf, zpow_add_one₀ (by norm_num)]
    push_cast
    ring
  · exact ⟨_, _, rfl, rfl⟩

/-- Rounding changes a rational in the normal range by at most half a unit of the last place. -/
theorem round_close (hf : f.Proper) (hnum : 0 < num) (hden : 0 < den)
    (hsmall : (2 : ℚ) ^ (f.minExponent + (f.precision - 1)) ≤ num / den)
    (hbig : (num : ℚ) / den < 2 ^ (f.maxExponent + (f.precision - 1))) :
    ∃ n i, f.round num den = .finite n i ∧
      |(n : ℚ) * 2 ^ i - num / den| * 2 ^ f.precision ≤ num / den := by
  obtain ⟨n, i, hround, hvalue⟩ := round_value hf hnum hden hbig
  refine ⟨n, i, hround, ?_⟩
  obtain ⟨hlow, hhigh⟩ := nearest_near f num hden
  have hfull : (2 : ℚ) ^ (f.lastPlace num den + (f.precision - 1)) ≤ num / den := by
    rcases (le_lastPlace_iff (f := f) hnum hden).mp le_rfl with hmin | hpow
    · exact (zpow_le_zpow_right₀ (by norm_num) (by omega)).trans hsmall
    · exact hpow
  rw [zpow_full hf] at hfull
  have herror : |(n : ℚ) * 2 ^ i - num / den| ≤ 1 / 2 * 2 ^ f.lastPlace num den := by
    rw [hvalue, abs_le]
    constructor <;> linarith
  have htwo : (2 : ℚ) ^ f.precision = 2 * ((2 ^ (f.precision - 1) : Nat) : ℚ) := by
    exact_mod_cast pow_precision hf
  calc |(n : ℚ) * 2 ^ i - num / den| * 2 ^ f.precision
      ≤ 1 / 2 * 2 ^ f.lastPlace num den * 2 ^ f.precision :=
        mul_le_mul_of_nonneg_right herror (by positivity)
    _ = ((2 ^ (f.precision - 1) : Nat) : ℚ) * 2 ^ f.lastPlace num den := by
        rw [htwo]
        ring
    _ ≤ num / den := hfull

/-- A rational with few enough bits is not changed by rounding. -/
theorem round_exact (hf : f.Proper) (hm : 0 < m) (hlt : m < 2 ^ f.precision)
    (hleast : f.minExponent ≤ e) (hden : 0 < den) (hx : (num : ℚ) / den = m * 2 ^ e)
    (hbig : (num : ℚ) / den < 2 ^ (f.maxExponent + (f.precision - 1))) :
    ∃ n i, f.round num den = .finite n i ∧ (n : ℚ) * 2 ^ i = num / den := by
  have hpos : (0 : ℚ) < num / den := by
    rw [hx]
    have : (0 : ℚ) < m := by exact_mod_cast hm
    positivity
  have hnum := pos_of_div_pos hpos
  obtain ⟨n, i, hround, hvalue⟩ := round_value hf hnum hden hbig
  refine ⟨n, i, hround, hvalue.trans ?_⟩
  have hplace : f.lastPlace num den ≤ e := by
    refine lastPlace_le hnum hden hleast ?_
    rw [hx]
    refine lt_trans ?_ (significand_lt hlt)
    exact mul_lt_mul_of_pos_right (by linarith) (by positivity)
  -- The quotient is a whole number of units of the last place.
  have hunits : (num : ℚ) / den
      = (m * 2 ^ (e - f.lastPlace num den).toNat : Nat) * 2 ^ f.lastPlace num den := by
    rw [hx]
    push_cast
    rw [mul_assoc, ← zpow_natCast, ← zpow_add₀ (by norm_num)]
    congr 2
    omega
  have hpow : (0 : ℚ) < 2 ^ f.lastPlace num den := by positivity
  have hnearest : f.nearest num den = m * 2 ^ (e - f.lastPlace num den).toNat :=
    nearest_eq hden (by linarith) (by linarith) fun _ => ⟨by linarith, by linarith⟩
  rw [hnearest, hunits]

theorem canonical_zero (hf : f.Proper) : f.Canonical 0 f.minExponent :=
  ⟨by positivity, le_rfl, hf.exponents.le, .inr rfl⟩

/-- Results of rounding are canonical. -/
theorem canonical_of_round (hf : f.Proper) (hden : 0 < den) (h : f.round num den = .finite m e) :
    f.Canonical m e := by
  rcases Nat.eq_zero_or_pos num with rfl | hnum
  · cases h
    exact canonical_zero hf
  have hmin : f.minExponent ≤ f.lastPlace num den := le_max_left _ _
  rw [round_eq hnum.ne'] at h
  split_ifs at h with hcarry hinfinite hinfinite
  · cases h
    refine ⟨?_, by omega, not_lt.mp hinfinite, .inl le_rfl⟩
    exact Nat.pow_lt_pow_right (by decide) (Nat.sub_lt (by have := hf.precision; omega) one_pos)
  · cases h
    have hpow : (0 : ℚ) < 2 ^ f.lastPlace num den := by positivity
    obtain ⟨hlow, hhigh⟩ := nearest_near f num hden
    refine ⟨?_, hmin, not_lt.mp hinfinite, ?_⟩
    · -- The quotient is less than two full significands, so it is rounded to at most that.
      have hlt := mt (le_lastPlace_iff (f := f) hnum hden).mpr (Int.not_le.mpr (lt_add_one _))
      rw [not_or, not_le, not_le, zpow_full hf, zpow_add_one₀ (by norm_num)] at hlt
      refine lt_of_le_of_ne ?_ hcarry
      rw [pow_precision hf]
      by_contra hgt
      have hsucc : ((2 * 2 ^ (f.precision - 1) : Nat) : ℚ) + 1 ≤ f.nearest num den := by
        exact_mod_cast not_le.mp hgt
      rw [Nat.cast_mul] at hsucc
      push_cast at hsucc hlt
      nlinarith [hlt.2]
    · rcases (le_lastPlace_iff (f := f) hnum hden).mp le_rfl with hle | hfull
      · exact .inr (le_antisymm hle hmin)
      · rw [zpow_full hf] at hfull
        refine .inl ?_
        by_contra hlt
        have hsucc : (f.nearest num den : ℚ) + 1 ≤ (2 ^ (f.precision - 1) : Nat) := by
          exact_mod_cast not_le.mp hlt
        nlinarith

/-- Rounding gives no number from half the way to the first number beyond the greatest one. -/
theorem round_eq_infinite_iff (hf : f.Proper) (hden : 0 < den) :
    f.round num den = .infinite ↔
      highEnd (2 ^ f.precision - 1) f.maxExponent ≤ num / den := by
  have hpow : (0 : ℚ) < 2 ^ f.maxExponent := by positivity
  have hone : 1 ≤ 2 ^ f.precision := Nat.one_le_two_pow
  have htwo : (2 : ℚ) ^ f.precision = 2 * ((2 ^ (f.precision - 1) : Nat) : ℚ) := by
    exact_mod_cast pow_precision hf
  have hfull : (1 : ℚ) ≤ (2 ^ (f.precision - 1) : Nat) := by exact_mod_cast Nat.one_le_two_pow
  have hbound : highEnd (2 ^ f.precision - 1) f.maxExponent
      = (2 * ((2 ^ (f.precision - 1) : Nat) : ℚ) - 1 / 2) * 2 ^ f.maxExponent := by
    rw [highEnd, Nat.cast_sub hone, ← htwo]
    push_cast
    ring
  rcases Nat.eq_zero_or_pos num with rfl | hnum
  · refine ⟨fun h => by simp [round, zero] at h, fun h => ?_⟩
    rw [hbound, Nat.cast_zero, zero_div] at h
    nlinarith
  constructor
  · intro hinfinite
    by_contra hlt
    rw [not_le] at hlt
    have hle : f.lastPlace num den ≤ f.maxExponent :=
      lastPlace_le hnum hden hf.exponents.le (hlt.trans (significand_lt (Nat.sub_lt hone one_pos)))
    rcases lt_or_ge ((num : ℚ) / den) (2 ^ (f.maxExponent + (f.precision - 1))) with hsmall | hbig
    · obtain ⟨n, i, hround, -⟩ := round_value hf hnum hden hsmall
      rw [hround] at hinfinite
      cases hinfinite
    · have hplace : f.lastPlace num den = f.maxExponent :=
        le_antisymm hle ((le_lastPlace_iff hnum hden).mpr (.inr hbig))
      have hnear := (nearest_near f num hden).1
      rw [hplace] at hnear
      rw [hbound] at hlt
      have hcarry : f.nearest num den ≠ 2 ^ f.precision := by
        intro heq
        rw [heq, Nat.cast_pow, Nat.cast_ofNat, htwo] at hnear
        linarith
      rw [round_eq hnum.ne', if_neg hcarry, hplace, if_neg (lt_irrefl _)] at hinfinite
      cases hinfinite
  · intro hbig
    rw [hbound] at hbig
    have hle : f.maxExponent ≤ f.lastPlace num den := by
      refine (le_lastPlace_iff hnum hden).mpr (.inr ?_)
      rw [zpow_full hf]
      nlinarith
    rcases eq_or_lt_of_le hle with hplace | hlt
    · -- At the last exponent the significand is carried.
      have habove := mt (le_lastPlace_iff (f := f) hnum hden).mpr
        (show ¬f.maxExponent + 1 ≤ f.lastPlace num den by omega)
      rw [not_or, not_le, not_le, zpow_full hf, zpow_add_one₀ (by norm_num)] at habove
      have hnearest : f.nearest num den = 2 ^ f.precision := by
        rw [pow_precision hf]
        refine nearest_eq hden ?_ ?_ fun h => by omega
        · rw [← hplace, Nat.cast_mul]
          exact hbig
        · rw [← hplace, Nat.cast_mul, Nat.cast_ofNat]
          linarith [habove.2]
      rw [round_eq hnum.ne', hnearest, if_pos rfl, if_pos (by omega)]
    · have hcarried : f.maxExponent < f.lastPlace num den + 1 := by omega
      rw [round_eq hnum.ne', if_pos hcarried, if_pos hlt, ite_self]

end BlockFeed.Binary.Format
