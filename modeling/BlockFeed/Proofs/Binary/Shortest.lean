import Mathlib.Algebra.Order.Floor.Semifield
import Mathlib.Data.Rat.Floor
import BlockFeed.Proofs.Binary.Nearest

/-!
# Shortest decimals

What the search for the shortest decimal finds: a decimal that is rounded to the number, and of
two of them on one grid the nearer one.

## Main definitions

* `Decimal.value`: the rational that a decimal stands for.
* `Format.Selected`: decimals that the search can give.

## Main results

* `Format.holds_rounding_iff`: the interval of a number holds what is rounded to it.
* `selected_shortest`: what the search gives for a single-precision number.
* `Selected.coarse_of_high`, `Selected.coarse_of_low`: the decimal lies next to an end of the
  interval only if its grid is coarse.
-/

namespace BlockFeed.Binary

/-- The rational that a decimal stands for. -/
def Decimal.value (d : Decimal) : ℚ := d.digits * 10 ^ d.exponent

section Grids

variable {i : Interval} {num den low n : Nat} {exponent top : Int} {d : Decimal}

/-- The digits of the grid point below a quotient. -/
def gridFloor (num den : Nat) (exponent : Int) : Nat :=
  num * tenDen exponent / tenNum den exponent

theorem gridFloor_spec (num : Nat) (hden : 0 < den) (exponent : Int) :
    (gridFloor num den exponent : ℚ) * 10 ^ exponent ≤ num / den ∧
      (num : ℚ) / den < (gridFloor num den exponent + 1) * 10 ^ exponent := by
  have hpow : (0 : ℚ) < 10 ^ exponent := by positivity
  have ht : (0 : ℚ) < tenDen exponent := by exact_mod_cast tenDen_pos exponent
  have hunits : ((num * tenDen exponent : Nat) : ℚ) / tenNum den exponent
      = num / den / 10 ^ exponent := by
    rw [cast_tenNum, Nat.cast_mul, div_div, mul_div_mul_right _ _ ht.ne']
  have hfloor : gridFloor num den exponent = ⌊(num : ℚ) / den / 10 ^ exponent⌋₊ := by
    rw [gridFloor, ← hunits, Nat.floor_div_eq_div]
  have hnonneg : (0 : ℚ) ≤ num / den / 10 ^ exponent := by positivity
  rw [hfloor, ← le_div_iff₀ hpow, ← div_lt_iff₀ hpow]
  exact ⟨Nat.floor_le hnonneg, Nat.lt_floor_add_one _⟩

/-- On which side of the midpoint of two grid points a quotient is. -/
theorem midpoint_iff (num low : Nat) (exponent : Int) (hden : 0 < den) :
    (2 * num * tenDen exponent < tenNum (2 * low + 1) exponent * den ↔
        2 * ((num : ℚ) / den) < (2 * low + 1) * 10 ^ exponent) ∧
      (tenNum (2 * low + 1) exponent * den < 2 * num * tenDen exponent ↔
        (2 * low + 1) * 10 ^ exponent < 2 * ((num : ℚ) / den)) := by
  have hden' : (0 : ℚ) < den := by exact_mod_cast hden
  have ht : (0 : ℚ) < tenDen exponent := by exact_mod_cast tenDen_pos exponent
  have hc : (0 : ℚ) < den * tenDen exponent := by positivity
  have htwice : ((2 * num * tenDen exponent : Nat) : ℚ)
      = 2 * (num / den) * (den * tenDen exponent) := by
    push_cast
    field_simp
  have hmidpoint : ((tenNum (2 * low + 1) exponent * den : Nat) : ℚ)
      = (2 * low + 1) * 10 ^ exponent * (den * tenDen exponent) := by
    rw [Nat.cast_mul, cast_tenNum]
    push_cast
    ring
  rw [← Nat.cast_lt (α := ℚ), ← Nat.cast_lt (α := ℚ), htwice, hmidpoint,
    mul_lt_mul_iff_left₀ hc, mul_lt_mul_iff_left₀ hc]
  exact ⟨Iff.rfl, Iff.rfl⟩

/-- Of two neighbours on a grid the one in the interval is chosen, and of two in the interval the
nearer one. -/
theorem nearer_eq_some (hden : 0 < den) (h : nearer i num den low exponent = some d) :
    d = ⟨low, exponent⟩ ∧ i.holds ⟨low, exponent⟩ = true ∧
        (i.holds ⟨low + 1, exponent⟩ = true →
          2 * ((num : ℚ) / den) ≤ (2 * low + 1) * 10 ^ exponent) ∨
      d = ⟨low + 1, exponent⟩ ∧ i.holds ⟨low + 1, exponent⟩ = true ∧
        (i.holds ⟨low, exponent⟩ = true →
          (2 * low + 1) * 10 ^ exponent ≤ 2 * ((num : ℚ) / den)) := by
  obtain ⟨hbelow, habove⟩ := midpoint_iff num low exponent hden
  rw [nearer] at h
  cases hdown : i.holds ⟨low, exponent⟩ <;> cases hup : i.holds ⟨low + 1, exponent⟩ <;>
    simp only [hdown, hup] at h
  · cases h
  · cases h
    exact .inr ⟨rfl, rfl, nofun⟩
  · cases h
    exact .inl ⟨rfl, rfl, nofun⟩
  · split_ifs at h with hlt hgt heven <;> cases h
    · exact .inl ⟨rfl, rfl, fun _ => (hbelow.mp hlt).le⟩
    · exact .inr ⟨rfl, rfl, fun _ => (habove.mp hgt).le⟩
    · exact .inl ⟨rfl, rfl, fun _ => not_lt.mp (mt habove.mpr hgt)⟩
    · exact .inr ⟨rfl, rfl, fun _ => not_lt.mp (mt hbelow.mpr hlt)⟩

theorem nearer_isSome (h : i.holds ⟨low, exponent⟩ = true) :
    (nearer i num den low exponent).isSome := by
  cases hup : i.holds ⟨low + 1, exponent⟩ <;> simp only [nearer, h, hup]
  · rfl
  · split_ifs <;> rfl

/-- The search ends at the first grid with a hit, so not after one that is known to have one. -/
theorem shortestFrom_spec {hit fuel : Nat} (hle : n ≤ hit) (hlt : hit < n + fuel)
    (hhit : (nearer i num den (gridFloor num den (top - (hit - 1 : Nat)))
      (top - (hit - 1 : Nat))).isSome) :
    ∃ k, n ≤ k ∧ k ≤ hit ∧
      nearer i num den (gridFloor num den (top - (k - 1 : Nat))) (top - (k - 1 : Nat))
        = some (shortestFrom i num den top fuel n) := by
  induction fuel generalizing n with
  | zero => omega
  | succ fuel ih =>
    rw [shortestFrom]
    cases hn : nearer i num den (gridFloor num den (top - (n - 1 : Nat)))
      (top - (n - 1 : Nat)) with
    | some d =>
      rw [gridFloor] at hn
      refine ⟨n, le_rfl, hle, ?_⟩
      simp only [gridFloor, hn]
    | none =>
      have hne : n ≠ hit := by
        rintro rfl
        simp [hn] at hhit
      rw [gridFloor] at hn
      obtain ⟨k, hk, hk', heq⟩ := ih (n := n + 1) (by omega) (by omega)
      refine ⟨k, by omega, hk', ?_⟩
      simp only [hn, heq]

end Grids

namespace Format

variable {f : Format} {m : Nat} {e : Int} {d : Decimal}

/-- The interval of a number holds what is rounded to it. -/
theorem holds_rounding_iff (hm : 0 < m) (d : Decimal) :
    (f.rounding m e).holds d = true ↔ f.Near m e d.value := by
  -- Both sides of each comparison are brought to the denominator `c`.
  have hc : (0 : ℚ) < 4 * scaleDen e * tenDen d.exponent := by
    have hs : (0 : ℚ) < scaleDen e := by exact_mod_cast scaleDen_pos e
    have ht : (0 : ℚ) < tenDen d.exponent := by exact_mod_cast tenDen_pos d.exponent
    positivity
  have hend : ∀ k : Nat, ((scaleNum k e * tenDen d.exponent : Nat) : ℚ)
      = k / 4 * 2 ^ e * (4 * scaleDen e * tenDen d.exponent) := by
    intro k
    rw [Nat.cast_mul, cast_scaleNum]
    ring
  have hvalue : ((tenNum d.digits d.exponent * (4 * scaleDen e) : Nat) : ℚ)
      = d.value * (4 * scaleDen e * tenDen d.exponent) := by
    rw [Nat.cast_mul, cast_tenNum, Decimal.value]
    push_cast
    ring
  have hhigh : ((4 * m + 2 : Nat) : ℚ) / 4 * 2 ^ e = highEnd m e := by
    rw [highEnd]
    push_cast
    ring
  have hlow : ((4 * m - (if m = 2 ^ (f.precision - 1) ∧ f.minExponent < e then 1 else 2) : Nat)
      : ℚ) / 4 * 2 ^ e = f.lowEnd m e := by
    rw [lowEnd]
    split
    · rw [Nat.cast_sub (by omega)]
      push_cast
      ring
    · rw [Nat.cast_sub (by omega)]
      push_cast
      ring
  have hle : ∀ k : Nat, scaleNum k e * tenDen d.exponent
      ≤ tenNum d.digits d.exponent * (4 * scaleDen e) ↔ (k : ℚ) / 4 * 2 ^ e ≤ d.value := by
    intro k
    rw [← Nat.cast_le (α := ℚ), hend, hvalue, mul_le_mul_iff_left₀ hc]
  have hge : ∀ k : Nat, tenNum d.digits d.exponent * (4 * scaleDen e)
      ≤ scaleNum k e * tenDen d.exponent ↔ d.value ≤ (k : ℚ) / 4 * 2 ^ e := by
    intro k
    rw [← Nat.cast_le (α := ℚ), hend, hvalue, mul_le_mul_iff_left₀ hc]
  rw [Interval.holds, rounding]
  simp only [Nat.pow_eq, decide_eq_true_eq]
  split
  · next heven =>
    rw [Bool.and_eq_true, decide_eq_true_eq, decide_eq_true_eq, hle, hge, hlow, hhigh]
    exact ⟨fun h => ⟨h.1, h.2, by omega⟩, fun h => ⟨h.low, h.high⟩⟩
  · next hodd =>
    rw [Bool.and_eq_true, decide_eq_true_eq, decide_eq_true_eq,
      lt_iff_lt_of_le_iff_le (hge _), lt_iff_lt_of_le_iff_le (hle _), hlow, hhigh]
    exact ⟨fun h => .of_lt h.1 h.2, fun h => h.odd (by omega)⟩

/-- A decimal that the search can give: next to the number on its grid, rounded to the number, and
not farther away than its neighbour if that is rounded to the number too. -/
structure Selected (f : Format) (m : Nat) (e : Int) (low : Nat) (d : Decimal) : Prop where
  below : (low : ℚ) * 10 ^ d.exponent ≤ m * 2 ^ e
  above : (m : ℚ) * 2 ^ e < (low + 1) * 10 ^ d.exponent
  near : f.Near m e d.value
  choice : d.digits = low ∧ (f.Near m e ((low + 1) * 10 ^ d.exponent) →
        2 * ((m : ℚ) * 2 ^ e) ≤ (2 * low + 1) * 10 ^ d.exponent) ∨
      d.digits = low + 1 ∧ (f.Near m e (low * 10 ^ d.exponent) →
        (2 * low + 1) * 10 ^ d.exponent ≤ 2 * ((m : ℚ) * 2 ^ e))

theorem Selected.of_nearer (hm : 0 < m) {exponent : Int}
    (h : nearer (f.rounding m e) (scaleNum m e) (scaleDen e)
      (gridFloor (scaleNum m e) (scaleDen e) exponent) exponent = some d) :
    d.exponent = exponent ∧
      f.Selected m e (gridFloor (scaleNum m e) (scaleDen e) exponent) d := by
  have hden := scaleDen_pos e
  obtain ⟨hbelow, habove⟩ := gridFloor_spec (scaleNum m e) hden exponent
  have hchoice := nearer_eq_some hden h
  simp only [holds_rounding_iff hm] at hchoice
  rw [scaleNum_div_scaleDen] at hbelow habove hchoice
  obtain ⟨rfl, hnear, htie⟩ | ⟨rfl, hnear, htie⟩ := hchoice
  · refine ⟨rfl, hbelow, habove, hnear, .inl ⟨rfl, fun hup => htie ?_⟩⟩
    simpa [Decimal.value] using hup
  · exact ⟨rfl, hbelow, habove, hnear, .inr ⟨rfl, htie⟩⟩

/-- A grid that is finer than the interval has a point in it. -/
theorem nearer_of_fine (hm : 0 < m) {exponent : Int} (hfine : (10 : ℚ) ^ exponent < 2 ^ e / 4) :
    (nearer (f.rounding m e) (scaleNum m e) (scaleDen e)
      (gridFloor (scaleNum m e) (scaleDen e) exponent) exponent).isSome := by
  obtain ⟨hbelow, habove⟩ := gridFloor_spec (scaleNum m e) (scaleDen_pos e) exponent
  rw [scaleNum_div_scaleDen] at hbelow habove
  have hlow := lowEnd_le (f := f) (m := m) (e := e)
  have hpow : (0 : ℚ) < 2 ^ e := by positivity
  refine nearer_isSome ((holds_rounding_iff hm _).mpr (.of_lt ?_ ?_))
  · dsimp only [Decimal.value]
    linarith
  · dsimp only [Decimal.value]
    rw [highEnd]
    linarith

/-- A decimal next to the upper end stands on a coarse grid. -/
theorem Selected.coarse_of_high {low : Nat} (h : f.Selected m e low d)
    (hclose : highEnd m e - 2 ^ e / 16 ≤ d.value) : 11 / 16 * 2 ^ e ≤ (10 : ℚ) ^ d.exponent := by
  have hpow : (0 : ℚ) < 2 ^ e := by positivity
  have hend := highEnd_eq m e
  have hlow := lowEnd_le (f := f) (m := m) (e := e)
  have hbelow := h.below
  rw [Decimal.value] at hclose
  obtain ⟨hdigits, -⟩ | ⟨hdigits, htie⟩ := h.choice
  · rw [hdigits] at hclose
    linarith
  · rw [hdigits] at hclose
    push_cast at hclose
    by_cases hdown : f.lowEnd m e < low * 10 ^ d.exponent
    · have hmid := htie (.of_lt hdown (by linarith))
      linarith
    · linarith

/-- A decimal next to the lower end stands on a coarse grid. -/
theorem Selected.coarse_of_low {low : Nat} (h : f.Selected m e low d)
    (hclose : d.value ≤ f.lowEnd m e + (m * 2 ^ e - f.lowEnd m e) / 8) :
    7 / 4 * (m * 2 ^ e - f.lowEnd m e) ≤ (10 : ℚ) ^ d.exponent := by
  have hpow : (0 : ℚ) < 2 ^ e := by positivity
  have hend := highEnd_eq m e
  have hlow := lowEnd_le (f := f) (m := m) (e := e)
  have hlow' := le_lowEnd (f := f) (m := m) (e := e)
  have habove := h.above
  rw [Decimal.value] at hclose
  obtain ⟨hdigits, htie⟩ | ⟨hdigits, -⟩ := h.choice
  · rw [hdigits] at hclose
    by_cases hup : (low + 1) * 10 ^ d.exponent < highEnd m e
    · have hmid := htie (.of_lt (by linarith) hup)
      linarith
    · linarith
  · rw [hdigits] at hclose
    push_cast at hclose
    linarith

end Format

section Single

open Format

variable {m : Nat} {e : Int}

/-- The place of the first decimal digit of a number. -/
def topDigit (m : Nat) (e : Int) : Int := floorLog10 (scaleNum m e) (scaleDen e)

theorem topDigit_spec (hm : 0 < m) (e : Int) :
    (10 : ℚ) ^ topDigit m e ≤ m * 2 ^ e ∧ (m : ℚ) * 2 ^ e < 10 ^ (topDigit m e + 1) := by
  have hspec := floorLog10_spec (scaleNum_pos hm e) (scaleDen_pos e)
  rwa [scaleNum_div_scaleDen] at hspec

/-- The numbers of single precision in units of their last place. -/
theorem highEnd_lt_single (hc : single.Canonical m e) : highEnd m e < 2 ^ e * 2 ^ 24 := by
  have hlt := significand_lt (e := e) hc.lt
  rwa [zpow_add₀ (by norm_num)] at hlt

/-- The decimal places that single precision needs. -/
theorem topDigit_range (hc : single.Canonical m e) (hm : 0 < m) :
    -45 ≤ topDigit m e ∧ topDigit m e ≤ 38 := by
  obtain ⟨hlow, hhigh⟩ := topDigit_spec hm e
  have hpow : (0 : ℚ) < 2 ^ e := by positivity
  constructor
  · have hone : (1 : ℚ) ≤ m := by exact_mod_cast hm
    have hleast : (2 : ℚ) ^ (-149 : ℤ) ≤ 2 ^ e := zpow_le_zpow_right₀ (by norm_num) hc.least
    have htiny : (10 : ℚ) ^ (-45 : ℤ) < 10 ^ (topDigit m e + 1) := by
      calc (10 : ℚ) ^ (-45 : ℤ) < 2 ^ (-149 : ℤ) := by norm_num
        _ ≤ 2 ^ e := hleast
        _ ≤ m * 2 ^ e := le_mul_of_one_le_left hpow.le hone
        _ ≤ 10 ^ (topDigit m e + 1) := hhigh.le
    have := (zpow_lt_zpow_iff_right₀ (by norm_num)).mp htiny
    omega
  · have hgreatest : (2 : ℚ) ^ e ≤ 2 ^ (104 : ℤ) := zpow_le_zpow_right₀ (by norm_num) hc.greatest
    have hhuge : (10 : ℚ) ^ topDigit m e < 10 ^ (39 : ℤ) := by
      calc (10 : ℚ) ^ topDigit m e ≤ m * 2 ^ e := hlow
        _ < highEnd m e := by linarith [highEnd_eq m e]
        _ < 2 ^ e * 2 ^ 24 := highEnd_lt_single hc
        _ ≤ 2 ^ (104 : ℤ) * 2 ^ 24 := by gcongr
        _ < 10 ^ (39 : ℤ) := by norm_num
    have := (zpow_lt_zpow_iff_right₀ (by norm_num)).mp hhuge
    omega

/-- A grid of `k` digits has fewer than `10 ^ k` points below a number. -/
theorem gridFloor_lt (hm : 0 < m) (e : Int) {k : Nat} (hk : 1 ≤ k) :
    gridFloor (scaleNum m e) (scaleDen e) (topDigit m e - (k - 1 : Nat)) < 10 ^ k := by
  obtain ⟨hbelow, -⟩ := gridFloor_spec (scaleNum m e) (scaleDen_pos e)
    (topDigit m e - (k - 1 : Nat))
  rw [scaleNum_div_scaleDen] at hbelow
  have hsplit : (10 : ℚ) ^ (topDigit m e + 1)
      = ((10 ^ k : Nat) : ℚ) * 10 ^ (topDigit m e - (k - 1 : Nat)) := by
    push_cast
    rw [← zpow_natCast, ← zpow_add₀ (by norm_num)]
    congr 1
    omega
  have hlt := hbelow.trans_lt (topDigit_spec hm e).2
  rw [hsplit] at hlt
  exact_mod_cast lt_of_mul_lt_mul_right hlt (by positivity)

/-- What the search gives for a single-precision number: at most nine digits, in a range that
single precision needs. -/
theorem selected_shortest (hc : single.Canonical m e) (hm : 0 < m) :
    (∃ low, single.Selected m e low (shortest single m e)) ∧
      0 < (shortest single m e).digits ∧ (shortest single m e).digits ≤ 10 ^ 9 ∧
      -53 ≤ (shortest single m e).exponent ∧ (shortest single m e).exponent ≤ 38 := by
  -- Nine digits make a grid that is finer than the interval.
  have hnine : (10 : ℚ) ^ (topDigit m e - (9 - 1 : Nat)) < 2 ^ e / 4 := by
    have hlow := (topDigit_spec hm e).1
    have hhigh := highEnd_lt_single hc
    have hpow : (0 : ℚ) < 2 ^ e := by positivity
    rw [highEnd_eq] at hhigh
    rw [zpow_sub₀ (by norm_num), div_lt_iff₀ (by positivity)]
    norm_num
    linarith
  obtain ⟨k, hk, hk', heq⟩ : ∃ k, 1 ≤ k ∧ k ≤ 9 ∧
      nearer (single.rounding m e) (scaleNum m e) (scaleDen e)
        (gridFloor (scaleNum m e) (scaleDen e) (topDigit m e - (k - 1 : Nat)))
        (topDigit m e - (k - 1 : Nat)) = some (shortest single m e) :=
    shortestFrom_spec (by decide) (by decide) (nearer_of_fine (f := single) hm hnine)
  obtain ⟨hexponent, hselected⟩ := Selected.of_nearer hm heq
  have hfloor := gridFloor_lt hm e hk
  have hrange := topDigit_range hc hm
  refine ⟨⟨_, hselected⟩, ?_, ?_, by omega, by omega⟩
  · have hpos := (lowEnd_pos hm).trans_le hselected.near.low
    rw [Decimal.value] at hpos
    exact_mod_cast pos_of_mul_pos_left hpos (by positivity)
  · have hle : (10 : Nat) ^ k ≤ 10 ^ 9 := Nat.pow_le_pow_right (by decide) hk'
    rcases hselected.choice with ⟨hdigits, -⟩ | ⟨hdigits, -⟩ <;> omega

end Single

end BlockFeed.Binary
