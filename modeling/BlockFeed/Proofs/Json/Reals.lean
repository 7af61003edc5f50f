import BlockFeed.Proofs.Binary.Readback
import BlockFeed.Proofs.Json.Trees

/-!
# Floating-point numbers as tokens

The tokens that single-precision numbers are printed as, and what these are read as.

## Main definitions

* `NumberText.ofDecimal`: the token that a layout gives a decimal.

## Main results

* `utf8_decimalText`: the text of a decimal is the text of its token.
* `exists_token_of_finite`: the token of a finite number is read as that number.
* `Reads.infinite`: the text of an infinite number is read as `null`.
-/

namespace BlockFeed.Json

open Text (decimal digitBytes)
open Binary (Layout)

section Layouts

variable {l : Layout} {negative : Bool} {ds : List Nat} {exponent : Int}

/-- The token that a layout gives the positive decimal with the digits `ds`. -/
def NumberText.ofDecimal (l : Layout) (negative : Bool) (ds : List Nat) (exponent : Int) :
    NumberText :=
  let first : Int := exponent + ds.length - 1
  if l.least ≤ first ∧ first ≤ l.greatest then
    if 0 ≤ exponent then ⟨negative, ds ++ List.replicate exponent.toNat 0, [0], none⟩
    else if 0 ≤ first then
      ⟨negative, ds.take (first.toNat + 1), ds.drop (first.toNat + 1), none⟩
    else ⟨negative, [0], List.replicate (first.natAbs - 1) 0 ++ ds, none⟩
  else ⟨negative, ds.take 1, ds.drop 1, some first⟩

theorem printFraction_of_ne_nil {ds : List Nat} (hne : ds ≠ []) :
    NumberText.printFraction ds = 0x2e :: digitBytes ds := by
  obtain ⟨d, ds, rfl⟩ := List.exists_cons_of_ne_nil hne
  rfl

theorem map_digitChar_replicate (n : Nat) :
    List.replicate n '0' = (List.replicate n 0).map Nat.digitChar := by
  rw [List.map_replicate]
  rfl

/-- The text of a mantissa, a point after its first digit. -/
theorem utf8_mantissa (hds : ∀ d ∈ ds, d < 10) (hne : ds ≠ []) :
    Text.utf8 (match ds.map Nat.digitChar with
      | [d] => String.ofList [d]
      | d :: ds => String.ofList (d :: '.' :: ds)
      | [] => "0") = digitBytes (ds.take 1) ++ NumberText.printFraction (ds.drop 1) := by
  match ds, hne with
  | [d], _ => exact Text.utf8_digitChars hds
  | d :: e :: ds, _ =>
    have hd := Text.utf8EncodeChar_digitChar d (hds d (by simp))
    have hrest : Text.utf8 (String.ofList ((e :: ds).map Nat.digitChar)) = digitBytes (e :: ds) :=
      Text.utf8_digitChars fun c hc => hds c (List.mem_cons_of_mem d hc)
    rw [Text.utf8_ofList] at hrest
    simp only [List.map_cons, Text.utf8_ofList, List.flatMap_cons] at hrest ⊢
    rw [hd, hrest]
    rfl

/-- The bytes of a token after its sign. -/
def NumberText.printUnsigned (t : NumberText) : Bytes :=
  digitBytes t.whole ++ (NumberText.printFraction t.fraction ++ NumberText.printExponent t.exponent)

theorem NumberText.print_eq (t : NumberText) :
    t.print = (if t.negative then [0x2d] else []) ++ t.printUnsigned := by
  simp only [NumberText.print, NumberText.printUnsigned, List.append_assoc]

/-- The text of a decimal is the text of its token. -/
theorem utf8_decimalText (hds : ∀ d ∈ ds, d < 10) (hne : ds ≠ []) :
    Text.utf8 (l.decimalText (ds.map Nat.digitChar) exponent)
      = (NumberText.ofDecimal l negative ds exponent).printUnsigned := by
  have hzeros : ∀ n, ∀ d ∈ List.replicate n 0, d < 10 := by
    intro n d hd
    rw [List.eq_of_mem_replicate hd]
    decide
  simp only [Layout.decimalText, NumberText.ofDecimal, List.length_map]
  split_ifs with hrange hexponent hfirst hpositive
  · have hall : ∀ d ∈ ds ++ List.replicate exponent.toNat 0, d < 10 := by
      intro d hd
      rcases List.mem_append.mp hd with hd | hd
      · exact hds d hd
      · exact hzeros _ d hd
    rw [map_digitChar_replicate, ← List.map_append, Text.utf8_append, Text.utf8_digitChars hall]
    simp only [NumberText.printUnsigned]
    rfl
  · have hdrop : ds.drop ((exponent + ds.length - 1).toNat + 1) ≠ [] := by
      rw [ne_eq, List.drop_eq_nil_iff]
      omega
    rw [← List.map_take, ← List.map_drop, Text.utf8_append, Text.utf8_append,
      List.append_assoc, Text.utf8_digitChars fun d hd => hds d (List.mem_of_mem_take hd),
      Text.utf8_digitChars fun d hd => hds d (List.mem_of_mem_drop hd)]
    simp only [NumberText.printUnsigned, printFraction_of_ne_nil hdrop,
      NumberText.printExponent, List.append_nil]
    rfl
  · have hall : ∀ d ∈ List.replicate ((exponent + ds.length - 1).natAbs - 1) 0 ++ ds, d < 10 := by
      intro d hd
      rcases List.mem_append.mp hd with hd | hd
      · exact hzeros _ d hd
      · exact hds d hd
    have happend : List.replicate ((exponent + ds.length - 1).natAbs - 1) 0 ++ ds ≠ [] := by
      simp [hne]
    rw [map_digitChar_replicate, ← List.map_append, Text.utf8_append, Text.utf8_digitChars hall]
    simp only [NumberText.printUnsigned, printFraction_of_ne_nil happend,
      NumberText.printExponent, List.append_nil]
    rfl
  · rw [Text.utf8_append, Text.utf8_append, Text.utf8_toString]
    refine (congrArg (· ++ Text.utf8 "e+" ++ digitBytes _) (utf8_mantissa hds hne)).trans ?_
    simp only [NumberText.printUnsigned, NumberText.printExponent, if_neg (not_lt.mpr hpositive),
      List.append_assoc]
    rfl
  · rw [Text.utf8_append, Text.utf8_append, Text.utf8_toString]
    refine (congrArg (· ++ Text.utf8 "e-" ++ digitBytes _) (utf8_mantissa hds hne)).trans ?_
    simp only [NumberText.printUnsigned, NumberText.printExponent, if_pos (not_le.mp hpositive),
      List.append_assoc]
    rfl

theorem NumberText.negative_ofDecimal :
    (NumberText.ofDecimal l negative ds exponent).negative = negative := by
  simp only [NumberText.ofDecimal]
  split_ifs <;> rfl

/-- A decimal is no plain integer. -/
theorem NumberText.natural?_ofDecimal (hne : ds ≠ []) :
    (NumberText.ofDecimal l negative ds exponent).natural? = none := by
  have hplain : (NumberText.ofDecimal l negative ds exponent).isPlain = false := by
    simp only [NumberText.ofDecimal]
    split_ifs with hrange hexponent hfirst
    · rfl
    · have hdrop : ds.drop ((exponent + ds.length - 1).toNat + 1) ≠ [] := by
        rw [ne_eq, List.drop_eq_nil_iff]
        omega
      rw [NumberText.isPlain, List.isEmpty_eq_false_iff.mpr hdrop, Bool.false_and]
    · simp [NumberText.isPlain, hne]
    · simp [NumberText.isPlain]
  rw [NumberText.natural?, hplain]

/-- The token of a decimal without leading zeros is proper. -/
theorem NumberText.proper_ofDecimal {d : Nat} {rest : List Nat} (hds : ∀ c ∈ d :: rest, c < 10)
    (hd : d ≠ 0) : (NumberText.ofDecimal l negative (d :: rest) exponent).Proper := by
  have hzeros : ∀ n, ∀ c ∈ List.replicate n 0, c < 10 := by
    intro n c hc
    rw [List.eq_of_mem_replicate hc]
    decide
  simp only [NumberText.ofDecimal]
  split_ifs
  · refine ⟨fun c hc => ?_, by simp, by simp, by simp [hd]⟩
    rcases List.mem_append.mp hc with hc | hc
    · exact hds c hc
    · exact hzeros _ c hc
  · exact ⟨fun c hc => hds c (List.mem_of_mem_take hc), fun c hc => hds c (List.mem_of_mem_drop hc),
      by simp, by simp [hd]⟩
  · refine ⟨by simp, fun c hc => ?_, by simp, by simp⟩
    rcases List.mem_append.mp hc with hc | hc
    · exact hzeros _ c hc
    · exact hds c hc
  · exact ⟨fun c hc => hds c (List.mem_of_mem_take hc), fun c hc => hds c (List.mem_of_mem_drop hc),
      by simp, by simp⟩

end Layouts

section Values

variable {l : Layout} {negative : Bool} {ds : List Nat} {exponent : Int}

/-- The digits of a token that fit 64 bits are read as one number, and its exponent is lowered by
the digits after the point. -/
theorem NumberText.magnitude?_eq {t : NumberText}
    (h : digitsNat (t.whole ++ t.fraction) < UInt64.size) :
    t.magnitude? = Binary.ofDecimal? (digitsNat (t.whole ++ t.fraction))
      (t.exponent.getD 0 - t.fraction.length) := by
  have happend := digitsNat_append t.whole t.fraction
  rw [happend] at h ⊢
  have hone : digitsNat t.whole ≤ digitsNat t.whole * 10 ^ t.fraction.length :=
    Nat.le_mul_of_pos_right _ (Nat.pow_pos (by decide))
  have hwhole : absorb 0 t.whole = (0 * 10 ^ t.whole.length + digitsNat t.whole, []) :=
    absorb_of_lt (by omega)
  have hfraction := absorb_of_lt h
  rw [zero_mul, zero_add] at hwhole
  simp only [NumberText.magnitude?, hwhole, hfraction]
  congr 1
  simp
  ring

/-- What the token of a decimal in the range of single precision is read as. -/
theorem NumberText.magnitude?_ofDecimal (negative : Bool) (hl : l.greatest ≤ 12)
    (hds : ∀ d ∈ ds, d < 10) (hne : ds ≠ []) (hcount : ds.length ≤ 10) (hleast : -60 ≤ exponent)
    (hgreatest : exponent ≤ 60) :
    ∃ (s : Nat) (k : Int),
      (NumberText.ofDecimal l negative ds exponent).magnitude? = Binary.ofDecimal? s k ∧
      (s : ℚ) * 10 ^ k = digitsNat ds * 10 ^ exponent ∧ s < 10 ^ 14 ∧ k.natAbs ≤ 60 ∧
      (exponent < 0 → s = digitsNat ds ∧ k = exponent) := by
  have hlt := digitsNat_lt hds
  have hbound : digitsNat ds < 10 ^ 14 :=
    hlt.trans_le (Nat.pow_le_pow_right (by decide) (by omega))
  have hplain : ∀ t : NumberText, digitsNat (t.whole ++ t.fraction) = digitsNat ds →
      t.exponent.getD 0 - t.fraction.length = exponent →
      ∃ (s : Nat) (k : Int), t.magnitude? = Binary.ofDecimal? s k ∧
        (s : ℚ) * 10 ^ k = digitsNat ds * 10 ^ exponent ∧ s < 10 ^ 14 ∧ k.natAbs ≤ 60 ∧
        (exponent < 0 → s = digitsNat ds ∧ k = exponent) := by
    intro t hdigits hexponent
    refine ⟨digitsNat ds, exponent, ?_, rfl, hbound, by omega, fun _ => ⟨rfl, rfl⟩⟩
    rw [magnitude?_eq (by rw [hdigits]; exact hbound.trans (by decide)), hdigits, hexponent]
  have hpos := List.length_pos_iff.mpr hne
  simp only [NumberText.ofDecimal]
  split_ifs with hrange hexponent hfirst
  · -- Zeros are written up to the point, and one after it.
    have hdigits : digitsNat ((ds ++ List.replicate exponent.toNat 0) ++ [0])
        = digitsNat ds * 10 ^ (exponent.toNat + 1) := by
      rw [digitsNat_append_singleton, digitsNat_append_zeros, pow_succ]
      ring
    have hsmall : digitsNat ds * 10 ^ (exponent.toNat + 1) < 10 ^ 14 := by
      calc digitsNat ds * 10 ^ (exponent.toNat + 1)
          < 10 ^ ds.length * 10 ^ (exponent.toNat + 1) :=
            Nat.mul_lt_mul_of_pos_right hlt (Nat.pow_pos (by decide))
        _ = 10 ^ (ds.length + (exponent.toNat + 1)) := (pow_add _ _ _).symm
        _ ≤ 10 ^ 14 := Nat.pow_le_pow_right (by decide) (by omega)
    refine ⟨_, -1, ?_, ?_, hsmall, by decide, by omega⟩
    · rw [magnitude?_eq (by rw [hdigits]; exact hsmall.trans (by decide)), hdigits]
      rfl
    · push_cast
      rw [mul_assoc, ← zpow_natCast, ← zpow_add₀ (by norm_num)]
      congr 2
      omega
  · refine hplain _ (by rw [List.take_append_drop]) ?_
    simp only [Option.getD_none, List.length_drop]
    omega
  · refine hplain _ ?_ ?_
    · have hzero : [0] ++ (List.replicate ((exponent + ds.length - 1).natAbs - 1) 0 ++ ds)
          = List.replicate ((exponent + ds.length - 1).natAbs - 1 + 1) 0 ++ ds := by
        rw [List.replicate_succ, ← List.append_assoc, List.singleton_append]
      have hzeros := digitsNat_append_zeros [] ((exponent + ds.length - 1).natAbs - 1 + 1)
      rw [List.nil_append] at hzeros
      simp only [hzero]
      rw [digitsNat_append, hzeros]
      simp [digitsNat]
    · simp only [Option.getD_none, List.length_append, List.length_replicate]
      omega
  · refine hplain _ (by rw [List.take_append_drop]) ?_
    simp only [Option.getD_some, List.length_drop]
    omega

theorem digitChar_eq_zero : ∀ d < 10, (Nat.digitChar d == '0') = (d == 0) := by decide

/-- Digits are stripped of the zeros at their end. -/
theorem stripZeros_spec (hds : ∀ d ∈ ds, d < 10) :
    ∃ kept zeros, ds = kept ++ List.replicate zeros 0 ∧
      Binary.stripZeros (ds.map Nat.digitChar) = (kept.map Nat.digitChar, zeros) := by
  induction ds using List.reverseRecOn with
  | nil => exact ⟨[], 0, rfl, rfl⟩
  | append_singleton ds d ih =>
    obtain ⟨kept, zeros, heq, hstrip⟩ := ih fun e he => hds e (List.mem_append_left _ he)
    have hchar := digitChar_eq_zero d (hds d (by simp))
    have hreverse : ((ds ++ [d]).map Nat.digitChar).reverse
        = Nat.digitChar d :: (ds.map Nat.digitChar).reverse := by simp
    by_cases hd : d = 0
    · have hdrop : ((ds ++ [d]).map Nat.digitChar).reverse.dropWhile (· == '0')
          = (ds.map Nat.digitChar).reverse.dropWhile (· == '0') := by
        rw [hreverse, List.dropWhile_cons_of_pos (by simp [hd])]
      obtain ⟨hkept, hzeros⟩ := Prod.mk.inj hstrip
      have hcount : ds.length = kept.length + zeros := by rw [heq]; simp
      refine ⟨kept, zeros + 1, ?_, ?_⟩
      · rw [hd, List.replicate_succ', ← List.append_assoc, ← heq]
      · rw [Binary.stripZeros]
        simp only [hdrop, hkept, List.length_map, List.length_append, List.length_singleton]
        rw [hcount]
        congr 1
        omega
    · refine ⟨ds ++ [d], 0, by simp, ?_⟩
      have hdrop : ((ds ++ [d]).map Nat.digitChar).reverse.dropWhile (· == '0')
          = ((ds ++ [d]).map Nat.digitChar).reverse := by
        rw [hreverse, List.dropWhile_cons_of_neg (by simp [hchar, hd])]
      rw [Binary.stripZeros]
      simp only [hdrop, List.reverse_reverse, Nat.sub_self]

end Values

section Singles

open Binary (single shortest)

variable {negative : Bool} {m : Nat} {e : Int}

/-- The digits of a shortest decimal without the zeros at their end. -/
theorem exists_digits_of_shortest (hc : single.Canonical m e) (hm : 0 < m) :
    ∃ d rest zeros, d ≠ 0 ∧ (∀ c ∈ d :: rest, c < 10) ∧ (d :: rest).length ≤ 10 ∧ zeros ≤ 10 ∧
      digitsNat (d :: rest) * 10 ^ zeros = (shortest single m e).digits ∧
      Binary.stripZeros (Nat.toDigits 10 (shortest single m e).digits)
        = ((d :: rest).map Nat.digitChar, zeros) := by
  obtain ⟨-, hpos, hdigits, -, -⟩ := Binary.selected_shortest hc hm
  set n := (shortest single m e).digits
  obtain ⟨kept, zeros, heq, hstrip⟩ := stripZeros_spec (Text.lt_of_mem_decimal n)
  have hcount : (decimal n).length ≤ 10 := by
    rw [decimal, List.length_map, Nat.length_toDigits_le_iff (by decide) (by decide)]
    exact hdigits.trans_lt (by decide)
  have hlength : (decimal n).length = kept.length + zeros := by rw [heq]; simp
  obtain ⟨d, tail, hcons, hd⟩ := Text.decimal_eq_cons hpos
  rw [heq] at hcons
  have hkept : kept ≠ [] := by
    rintro rfl
    have hmem : d ∈ List.replicate zeros 0 := by
      rw [← List.nil_append (List.replicate zeros 0), hcons]
      exact List.mem_cons_self
    exact hd (List.eq_of_mem_replicate hmem)
  obtain ⟨c, rest, rfl⟩ := List.exists_cons_of_ne_nil hkept
  obtain rfl : c = d := (List.cons.inj hcons).1
  have hlt : ∀ b ∈ c :: rest, b < 10 := fun b hb =>
    Text.lt_of_mem_decimal n b (by rw [heq]; exact List.mem_append_left _ hb)
  refine ⟨c, rest, zeros, hd, hlt, by omega, by omega, ?_, ?_⟩
  · rw [← digitsNat_append_zeros, ← heq, digitsNat_decimal]
  · rw [Text.toDigits_eq_map, hstrip]

/-- A finite number is printed as a token that is read as that number. -/
theorem exists_token_of_finite (negative : Bool) (hc : single.Canonical m e) :
    ∃ t : NumberText, t.Proper ∧
      printNumber (.real .single ⟨negative, .finite m e⟩) = t.print ∧
      t.negative = negative ∧ t.natural? = none ∧
      t.magnitude?.map single.convert = some (.finite m e) := by
  rcases Nat.eq_zero_or_pos m with rfl | hm
  · obtain rfl : e = -149 := hc.full.resolve_left (by decide)
    refine ⟨⟨negative, [0], [0], none⟩, ⟨by simp, by simp, by simp, by simp⟩, ?_, rfl, rfl, ?_⟩
    · cases negative <;> decide +kernel
    · cases negative <;> decide +kernel
  obtain ⟨-, hpos, -, hleast, hgreatest⟩ := Binary.selected_shortest hc hm
  obtain ⟨d, rest, zeros, hd, hlt, hcount, hzeros, hdigits, hstrip⟩ :=
    exists_digits_of_shortest hc hm
  set exponent := (shortest single m e).exponent + zeros with hexponent
  have hsign : Text.utf8 (if negative then "-" else "") = if negative then [0x2d] else [] := by
    cases negative <;> rfl
  have hprint : printNumber (.real .single ⟨negative, .finite m e⟩)
      = (NumberText.ofDecimal .single negative (d :: rest) exponent).print := by
    have htext : Layout.single.text? ⟨negative, .finite m e⟩ = some ((if negative then "-" else "")
        ++ Layout.single.decimalText ((d :: rest).map Nat.digitChar) exponent) := by
      simp only [Layout.text?, Layout.single, if_neg hm.ne', hstrip]
      rfl
    rw [printNumber, htext, Option.getD_some, Text.utf8_append, hsign,
      utf8_decimalText hlt (by simp), NumberText.print_eq, NumberText.negative_ofDecimal]
  obtain ⟨s, k, hmagnitude, hvalue, hbound, hk, hsame⟩ := NumberText.magnitude?_ofDecimal
    (l := .single) negative (by decide) hlt (by simp) hcount
    (show -60 ≤ exponent by omega) (by omega)
  refine ⟨_, NumberText.proper_ofDecimal hlt hd, hprint, NumberText.negative_ofDecimal,
    NumberText.natural?_ofDecimal (by simp), ?_⟩
  rw [hmagnitude]
  by_cases hexception : Binary.Exceptional m e
  · obtain ⟨n, hshortest, hlast, hread⟩ := Binary.convert_of_exceptional hexception
    have hn : digitsNat (d :: rest) * 10 ^ zeros = n := by rw [hdigits, hshortest]
    -- The digits do not end in zero.
    obtain rfl : zeros = 0 := by
      refine Nat.eq_zero_of_not_pos fun hzero => hlast ?_
      obtain ⟨z, rfl⟩ := Nat.exists_eq_succ_of_ne_zero hzero.ne'
      rw [← hn, pow_succ, ← mul_assoc, Nat.mul_mod_left]
    have hlow : exponent = -32 := by rw [hexponent, hshortest]; rfl
    obtain ⟨rfl, rfl⟩ := hsame (by omega)
    rw [pow_zero, mul_one] at hn
    rw [hn, hlow]
    exact hread
  · have hdecimal : (s : ℚ) * 10 ^ k = (shortest single m e).value := by
      rw [hvalue, Binary.Decimal.value, ← hdigits, hexponent, zpow_add₀ (by norm_num),
        zpow_natCast]
      push_cast
      ring
    have hs : 0 < s := by
      have hvaluepos : (0 : ℚ) < (shortest single m e).value := by
        have : (0 : ℚ) < (shortest single m e).digits := by exact_mod_cast hpos
        rw [Binary.Decimal.value]
        positivity
      rw [← hdecimal] at hvaluepos
      exact_mod_cast pos_of_mul_pos_left hvaluepos (by positivity)
    exact Binary.convert_ofDecimal? hc hm hexception hs hbound hk hdecimal

/-- The text of an infinite number is read as `null`. -/
theorem Reads.infinite (l : Layout) (negative : Bool) :
    Reads (.number (.real l ⟨negative, .infinite⟩)) .null :=
  of_word "null" 0x6e [0x75, 0x6c, 0x6c] (by rw [print, printNumber]; rfl) (by decide) (by decide)
    (fun fuel rest => by simp [readValue])

end Singles

end BlockFeed.Json
