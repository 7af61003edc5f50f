import Mathlib.Data.List.Induction
import Mathlib.Tactic.Ring
import BlockFeed.Json.Reader

/-!
# Decimal digits as bytes

The digits of a natural, the bytes that write them, and what a reader of digits makes of them.

## Main definitions

* `Text.decimal`: the decimal digits of a natural, most significant first.
* `Text.digitBytes`: the bytes of digits.

## Main results

* `Json.digitsNat_decimal`: a natural is the value of its digits.
* `Json.readDigits_append`: digits are read back up to the first byte that is none.
-/

namespace BlockFeed

namespace Text

theorem utf8_append (s t : String) : utf8 (s ++ t) = utf8 s ++ utf8 t := by
  simp [utf8]

theorem utf8_ofList (cs : List Char) :
    utf8 (String.ofList cs) = cs.flatMap String.utf8EncodeChar := by
  simp [utf8, String.ofList, List.utf8Encode]

/-- The decimal digits of a natural, most significant first. -/
def decimal (n : Nat) : List Nat := (Nat.toDigits 10 n).map fun c => c.toNat - '0'.toNat

/-- The bytes of digits. -/
def digitBytes (ds : List Nat) : Bytes := ds.map fun d => UInt8.ofNat (0x30 + d)

@[simp] theorem digitBytes_nil : digitBytes [] = [] := rfl

@[simp] theorem digitBytes_cons (d : Nat) (ds : List Nat) :
    digitBytes (d :: ds) = UInt8.ofNat (0x30 + d) :: digitBytes ds := rfl

theorem value_digitChar : ∀ d < 10, (Nat.digitChar d).toNat - '0'.toNat = d := by decide

theorem utf8EncodeChar_digitChar :
    ∀ d < 10, String.utf8EncodeChar (Nat.digitChar d) = [UInt8.ofNat (0x30 + d)] := by decide

theorem decimal_of_lt {n : Nat} (h : n < 10) : decimal n = [n] := by
  rw [decimal, Nat.toDigits_of_lt_base h, List.map_singleton, value_digitChar n h]

theorem decimal_of_le {n : Nat} (h : 10 ≤ n) : decimal n = decimal (n / 10) ++ [n % 10] := by
  rw [decimal, Nat.toDigits_of_base_le (by decide) h, List.map_append, List.map_singleton,
    value_digitChar _ (Nat.mod_lt n (by decide)), decimal]

/-- What holds of single digits and stays when a digit is added at the end holds of all naturals
and their digits. -/
theorem decimal_induction {P : Nat → List Nat → Prop} (one : ∀ n < 10, P n [n])
    (more : ∀ n, 10 ≤ n → P (n / 10) (decimal (n / 10)) → P n (decimal (n / 10) ++ [n % 10]))
    (n : Nat) : P n (decimal n) := by
  induction n using Nat.strongRecOn with
  | _ n ih =>
    by_cases h : n < 10
    · rw [decimal_of_lt h]
      exact one n h
    · have hle : 10 ≤ n := Nat.not_lt.mp h
      rw [decimal_of_le hle]
      exact more n hle (ih (n / 10) (by omega))

theorem lt_of_mem_decimal (n : Nat) : ∀ d ∈ decimal n, d < 10 := by
  refine decimal_induction (P := fun _ ds => ∀ d ∈ ds, d < 10) ?_ ?_ n
  · intro n hn d hd
    rwa [List.mem_singleton.mp hd]
  · intro n _ ih d hd
    rcases List.mem_append.mp hd with hd | hd
    · exact ih d hd
    · rw [List.mem_singleton.mp hd]
      exact Nat.mod_lt n (by decide)

/-- The first digit of a positive natural is not zero. -/
theorem decimal_eq_cons {n : Nat} (hpos : 0 < n) : ∃ d ds, decimal n = d :: ds ∧ d ≠ 0 := by
  refine decimal_induction (P := fun n ds => 0 < n → ∃ d rest, ds = d :: rest ∧ d ≠ 0)
    ?_ ?_ n hpos
  · intro n _ hn
    exact ⟨n, [], rfl, Nat.pos_iff_ne_zero.mp hn⟩
  · intro n hn ih _
    obtain ⟨d, rest, hds, hd⟩ := ih (by omega)
    exact ⟨d, rest ++ [n % 10], by rw [hds, List.cons_append], hd⟩

theorem decimal_ne_nil (n : Nat) : decimal n ≠ [] :=
  decimal_induction (P := fun _ ds => ds ≠ []) (fun _ _ => by simp) (fun _ _ _ => by simp) n

theorem toDigits_eq_map (n : Nat) : Nat.toDigits 10 n = (decimal n).map Nat.digitChar := by
  refine decimal_induction (P := fun n ds => Nat.toDigits 10 n = ds.map Nat.digitChar) ?_ ?_ n
  · intro n hn
    rw [Nat.toDigits_of_lt_base hn, List.map_singleton]
  · intro n hn ih
    rw [Nat.toDigits_of_base_le (by decide) hn, ih, List.map_append, List.map_singleton]

/-- The bytes of a text of digits. -/
theorem utf8_digitChars {ds : List Nat} (h : ∀ d ∈ ds, d < 10) :
    utf8 (String.ofList (ds.map Nat.digitChar)) = digitBytes ds := by
  rw [utf8_ofList]
  induction ds with
  | nil => rfl
  | cons d rest ih =>
    have hd := utf8EncodeChar_digitChar d (h d List.mem_cons_self)
    have hrest := ih fun e he => h e (List.mem_cons_of_mem d he)
    rw [List.map_cons, List.flatMap_cons, hd, hrest, digitBytes_cons, List.singleton_append]

theorem utf8_toString (n : Nat) : utf8 (toString n) = digitBytes (decimal n) := by
  rw [Nat.toString_eq_ofList_toDigits, toDigits_eq_map, utf8_digitChars (lt_of_mem_decimal n)]

end Text

namespace Json

open Text (decimal digitBytes)

theorem digitsNat_append_singleton (ds : List Nat) (d : Nat) :
    digitsNat (ds ++ [d]) = digitsNat ds * 10 + d := by
  simp [digitsNat]

theorem digitsNat_append (ds es : List Nat) :
    digitsNat (ds ++ es) = digitsNat ds * 10 ^ es.length + digitsNat es := by
  induction es using List.reverseRecOn with
  | nil => simp [digitsNat]
  | append_singleton es e ih =>
    rw [← List.append_assoc, digitsNat_append_singleton, digitsNat_append_singleton, ih,
      List.length_append, List.length_singleton, pow_succ]
    ring

theorem digitsNat_lt {ds : List Nat} (h : ∀ d ∈ ds, d < 10) : digitsNat ds < 10 ^ ds.length := by
  induction ds using List.reverseRecOn with
  | nil => simp [digitsNat]
  | append_singleton ds d ih =>
    have hd := h d (by simp)
    have hds := ih fun e he => h e (List.mem_append_left _ he)
    rw [digitsNat_append_singleton, List.length_append, List.length_singleton, pow_succ]
    omega

theorem digitsNat_append_zeros (ds : List Nat) (n : Nat) :
    digitsNat (ds ++ List.replicate n 0) = digitsNat ds * 10 ^ n := by
  induction n with
  | zero => simp
  | succ n ih =>
    rw [List.replicate_succ', ← List.append_assoc, digitsNat_append_singleton, ih, pow_succ]
    ring

/-- A natural is the value of its digits. -/
@[simp] theorem digitsNat_decimal (n : Nat) : digitsNat (decimal n) = n := by
  refine Text.decimal_induction (P := fun n ds => digitsNat ds = n) ?_ ?_ n
  · intro n _
    simp [digitsNat]
  · intro n _ ih
    rw [digitsNat_append_singleton, ih]
    omega

theorem digitByte?_digit : ∀ d < 10, digitByte? (UInt8.ofNat (0x30 + d)) = some d := by decide

/-- Whether no digit stands in front. -/
def NoDigit : Bytes → Prop
  | [] => True
  | b :: _ => digitByte? b = none

/-- Digits are read back up to the first byte that is none. -/
theorem readDigits_append {ds : List Nat} (hds : ∀ d ∈ ds, d < 10) {rest : Bytes}
    (hrest : NoDigit rest) : readDigits (digitBytes ds ++ rest) = (ds, rest) := by
  induction ds with
  | nil =>
    cases rest with
    | nil => rfl
    | cons b tail =>
      have hb : digitByte? b = none := hrest
      simp [readDigits, hb]
  | cons d ds ih =>
    have hd := digitByte?_digit d (hds d List.mem_cons_self)
    have ih := ih fun e he => hds e (List.mem_cons_of_mem d he)
    rw [Text.digitBytes_cons, List.cons_append, readDigits, hd]
    simp only [ih]

theorem readSomeDigits_append {ds : List Nat} (hds : ∀ d ∈ ds, d < 10) (hne : ds ≠ [])
    {rest : Bytes} (hrest : NoDigit rest) :
    readSomeDigits (digitBytes ds ++ rest) = some (ds, rest) := by
  obtain ⟨d, ds, rfl⟩ := List.exists_cons_of_ne_nil hne
  rw [readSomeDigits, readDigits_append hds hrest]

end Json

end BlockFeed
