import BlockFeed.Config.Environment
import Mathlib.Data.List.DropRight

/-!
# Spellings

Which texts stand for a number, which for nothing, and when the case of letters does not matter.

## Main definitions

* `Text.Numeral`: a text that writes a natural in decimal.

## Main results

* `Text.lower_eq_iff`: lower case is ASCII lower case wherever it is compared with a word without
  the letter k.
* `Text.unsigned?_eq_some_iff`, `Text.inRange?_eq_some_iff`: which texts are read as which numbers.
* `Text.isEmpty_trim_iff`: trimming leaves nothing of the texts that are blank throughout.
-/

namespace BlockFeed.Text

theorem lowerChar_eq_iff {c d : Char} (hk : d ≠ 'k') (hkelvin : d ≠ '\u212a') :
    lowerChar c = d ↔ lowerAsciiChar c = d := by
  rw [lowerChar]
  split
  · next hc =>
    subst hc
    exact iff_of_false hk.symm hkelvin.symm
  · exact Iff.rfl

/-- A text in lower case is a word without the letter k exactly if its ASCII letters alone, in lower
case, make it that word. -/
theorem lower_eq_iff {s w : String} (hk : 'k' ∉ w.toList) (hkelvin : '\u212a' ∉ w.toList) :
    lower s = w ↔ lowerAscii s = w := by
  have hlists (cs : List Char) :
      cs.map lowerChar = w.toList ↔ cs.map lowerAsciiChar = w.toList := by
    generalize w.toList = ws at hk hkelvin ⊢
    induction ws generalizing cs with
    | nil => rw [List.map_eq_nil_iff, List.map_eq_nil_iff]
    | cons d rest ih =>
      simp only [List.mem_cons, not_or] at hk hkelvin
      cases cs with
      | nil => simp
      | cons c cs =>
        rw [List.map_cons, List.map_cons, List.cons.injEq, List.cons.injEq,
          lowerChar_eq_iff (Ne.symm hk.1) (Ne.symm hkelvin.1), ih cs hk.2 hkelvin.2]
  have hofList (cs : List Char) : String.ofList cs = w ↔ cs = w.toList := by
    rw [← String.toList_inj, String.toList_ofList]
  rw [lower, lowerAscii, hofList, hofList, hlists]

theorem digit?_eq_some_iff {c : Char} {d : Nat} :
    digit? c = some d ↔ c.isDigit = true ∧ d = c.toNat - '0'.toNat := by
  have hdigit : ('0' ≤ c ∧ c ≤ '9') ↔ c.isDigit = true := by
    rw [Char.isDigit, Bool.and_eq_true, decide_eq_true_eq, decide_eq_true_eq]
    exact Iff.rfl
  rw [digit?]
  split
  · next h => simp [hdigit.mp h, eq_comm]
  · next h => simp [mt hdigit.mpr h]

/-- Digits that follow a value give their value. -/
theorem digitsFrom?_eq_some_iff {cs : List Char} {n v : Nat} :
    digitsFrom? n cs = some v ↔
      (∀ c ∈ cs, c.isDigit = true) ∧ v = Nat.ofDigitChars 10 cs n := by
  induction cs generalizing n with
  | nil =>
    have hvalue : digitsFrom? n [] = some v ↔ v = n := Option.some_inj.trans eq_comm
    simpa using hvalue
  | cons c cs ih =>
    rw [digitsFrom?, Option.bind_eq_some_iff, List.forall_mem_cons, Nat.ofDigitChars_cons,
      Nat.mul_comm 10 n]
    constructor
    · rintro ⟨d, hd, hrest⟩
      obtain ⟨hdigit, rfl⟩ := digit?_eq_some_iff.mp hd
      obtain ⟨hdigits, hv⟩ := ih.mp hrest
      exact ⟨⟨hdigit, hdigits⟩, hv⟩
    · rintro ⟨⟨hdigit, hdigits⟩, hv⟩
      exact ⟨_, digit?_eq_some_iff.mpr ⟨hdigit, rfl⟩, ih.mpr ⟨hdigits, hv⟩⟩

/-- The text writes a natural: an optional plus sign, and at least one ASCII digit. -/
def Numeral (s : String) (n : Nat) : Prop :=
  ∃ digits, (s.toList = digits ∨ s.toList = '+' :: digits) ∧ digits ≠ [] ∧
    (∀ c ∈ digits, c.isDigit = true) ∧ Nat.ofDigitChars 10 digits 0 = n

theorem digitsValue?_eq_some_iff {cs : List Char} {n : Nat} : digitsValue? cs = some n ↔
    cs ≠ [] ∧ (∀ c ∈ cs, c.isDigit = true) ∧ Nat.ofDigitChars 10 cs 0 = n := by
  cases cs with
  | nil => simp [digitsValue?]
  | cons c cs =>
    have hvalue : digitsValue? (c :: cs) = digitsFrom? 0 (c :: cs) := rfl
    rw [hvalue, digitsFrom?_eq_some_iff, eq_comm (a := n)]
    simp

theorem unsigned?_eq_some_iff {bound n : Nat} {s : String} :
    unsigned? bound s = some n ↔ Numeral s n ∧ n < bound := by
  rw [unsigned?, Option.filter_eq_some_iff, digitsValue?_eq_some_iff, decide_eq_true_eq]
  refine and_congr_left fun _ => ?_
  split
  · next cs hplus =>
    refine ⟨fun h => ⟨cs, .inr hplus, h⟩, ?_⟩
    rintro ⟨digits, hs | hs, hne, hdigits, hn⟩
    · -- a plus sign is no digit
      have hfirst := hdigits '+' (by rw [← hs, hplus]; exact List.mem_cons_self)
      cases hfirst
    · obtain rfl := (List.cons.inj (hplus.symm.trans hs)).2
      exact ⟨hne, hdigits, hn⟩
  · next hplain =>
    refine ⟨fun h => ⟨s.toList, .inl rfl, h⟩, ?_⟩
    rintro ⟨digits, hs | hs, h⟩
    · exact hs ▸ h
    · exact absurd hs (hplain digits)

theorem inRange?_eq_some_iff {lo hi n : UInt64} {s : String} :
    inRange? lo hi s = some n ↔ Numeral s n.toNat ∧ lo ≤ n ∧ n ≤ hi := by
  rw [inRange?, Option.filter_eq_some_iff, Bool.and_eq_true, decide_eq_true_eq, decide_eq_true_eq]
  refine and_congr_left fun _ => ?_
  rw [Option.map_eq_some_iff]
  constructor
  · rintro ⟨v, hv, rfl⟩
    obtain ⟨hnumeral, hlt⟩ := unsigned?_eq_some_iff.mp hv
    rwa [UInt64.toNat_ofNat_of_lt' hlt]
  · exact fun h => ⟨n.toNat, unsigned?_eq_some_iff.mpr ⟨h, n.toNat_lt⟩, UInt64.ofNat_toNat⟩

theorem isEmpty_trim_iff {s : String} :
    (trim s).isEmpty = true ↔ ∀ c ∈ s.toList, isBlank c = true := by
  have hempty : (trim s).isEmpty = true ↔ (s.toList.dropWhile isBlank).rdropWhile isBlank = [] := by
    rw [String.isEmpty_iff, trim, ← String.toList_inj, String.toList_ofList]
    exact Iff.rfl
  rw [hempty, List.rdropWhile_eq_nil_iff]
  refine ⟨fun h c hc => ?_, fun h c hc => h c ((List.dropWhile_suffix isBlank).subset hc)⟩
  rw [← List.takeWhile_append_dropWhile (p := isBlank) (l := s.toList)] at hc
  rcases List.mem_append.mp hc with hfirst | hrest
  · exact List.mem_takeWhile_imp hfirst
  · exact h c hrest

end BlockFeed.Text
