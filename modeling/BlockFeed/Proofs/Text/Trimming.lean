import BlockFeed.Text.Blank
import BlockFeed.Text.Lowercase
import Mathlib.Data.List.DropRight

/-!
# Trimmed texts and words in either case

What is left of a text without the blanks around it, and when two words differ in case only.

## Main definitions

* `Text.Trims`: one text is another without the blanks around it.
* `Text.SameWord`: two texts agree but for the case of ASCII letters.

## Main results

* `Text.trim_eq_iff`: `trim` gives the one text that is left.
* `Text.lowerAscii_eq_iff`: a text in lower case is a lower-case word exactly if the two are the
  same word.
-/

namespace BlockFeed.Text

/-- A text is another one without the blanks around it: it neither begins nor ends with one. -/
structure Trims (s t : String) : Prop where
  around : ∃ before behind, s.toList = before ++ t.toList ++ behind ∧
    ∀ c ∈ before ++ behind, isBlank c = true
  first : ∀ c, t.toList.head? = some c → isBlank c = false
  last : ∀ c, t.toList.getLast? = some c → isBlank c = false

/-- Characters that begin with no blank are what is left behind blanks. -/
theorem dropWhile_blank {before cs : List Char} (hbefore : ∀ c ∈ before, isBlank c = true)
    (first : ∀ c, cs.head? = some c → isBlank c = false) :
    (before ++ cs).dropWhile isBlank = cs := by
  rw [List.dropWhile_append_of_pos hbefore]
  cases cs with
  | nil => rfl
  | cons c rest => rw [List.dropWhile_cons_of_neg (by simp [first c rfl])]

theorem trims_trim (s : String) : Trims s (trim s) := by
  have hlist : (trim s).toList = (s.toList.dropWhile isBlank).rdropWhile isBlank := by
    rw [trim, String.toList_ofList]
    rfl
  refine ⟨⟨s.toList.takeWhile isBlank, (s.toList.dropWhile isBlank).rtakeWhile isBlank, ?_, ?_⟩,
    fun c hc => ?_, fun c hc => ?_⟩
  · rw [hlist, List.append_assoc, List.rdropWhile_append_rtakeWhile,
      List.takeWhile_append_dropWhile]
  · intro c hc
    rcases List.mem_append.mp hc with hc | hc
    · exact List.mem_takeWhile_imp hc
    · exact List.mem_rtakeWhile_imp hc
  · -- the first character of what is left is the first behind the blanks in front
    have hne : s.toList.dropWhile isBlank ≠ [] := by
      intro hnil
      rw [hlist, hnil, List.rdropWhile_nil] at hc
      cases hc
    obtain ⟨rest, hrest⟩ := List.rdropWhile_prefix isBlank (l := s.toList.dropWhile isBlank)
    obtain ⟨cs, hcs⟩ := List.head?_eq_some_iff.mp hc
    rw [← hlist, hcs] at hrest
    have hnot := List.dropWhile_get_zero_not isBlank s.toList (List.length_pos_iff.mpr hne)
    simpa [← hrest] using hnot
  · have hne : (s.toList.dropWhile isBlank).rdropWhile isBlank ≠ [] := by
      rintro hnil
      rw [hlist, hnil] at hc
      cases hc
    have hnot := List.rdropWhile_last_not isBlank _ hne
    rw [hlist, List.getLast?_eq_getLast_of_ne_nil hne] at hc
    obtain rfl := Option.some.inj hc
    simpa using hnot

/-- Trimming gives the one text that is left without the blanks around it. -/
theorem trim_eq_iff {s t : String} : trim s = t ↔ Trims s t := by
  refine ⟨fun h => h ▸ trims_trim s, fun ⟨⟨before, behind, hs, hblank⟩, first, last⟩ => ?_⟩
  obtain ⟨hbefore, hbehind⟩ := List.forall_mem_append.mp hblank
  rw [trim, ← String.toList_inj, String.toList_ofList, trimChars, hs, List.append_assoc]
  cases hcs : t.toList with
  | nil =>
    -- nothing is left: all of the text is blank
    rw [List.nil_append, List.dropWhile_append_of_pos hbefore,
      List.dropWhile_eq_nil_iff.mpr hbehind]
    rfl
  | cons c rest =>
    have hfront : (before ++ ((c :: rest) ++ behind)).dropWhile isBlank = c :: rest ++ behind :=
      dropWhile_blank hbefore fun d hd => first d (by rw [hcs]; exact hd)
    have hback : (behind.reverse ++ (c :: rest).reverse).dropWhile isBlank
        = (c :: rest).reverse :=
      dropWhile_blank (by simpa using hbehind) fun d hd => last d (by
        rw [hcs, ← List.head?_reverse]
        exact hd)
    rw [hfront, List.reverse_append, hback, List.reverse_reverse]

theorem digit_bounds {c : Char} (h : c.isDigit = true) : 48 ≤ c.toNat ∧ c.toNat ≤ 57 := by
  rw [Char.isDigit, Bool.and_eq_true, decide_eq_true_eq, decide_eq_true_eq] at h
  exact h

theorem not_blank_of_isDigit {c : Char} (h : c.isDigit = true) : isBlank c = false := by
  have hbounds := digit_bounds h
  simp only [isBlank, Bool.or_eq_false_iff, Bool.and_eq_false_iff, decide_eq_false_iff_not,
    beq_eq_false_iff_ne]
  omega

/-- Only capital letters have a lower case of their own. -/
theorem toLower_of_not_capital {c : Char} (h : c.toNat < 65 ∨ 90 < c.toNat) : c.toLower = c := by
  refine dif_neg fun hupper => ?_
  have hlow : 65 ≤ c.toNat := hupper.1
  have hhigh : c.toNat ≤ 90 := hupper.2
  omega

theorem toLower_of_isBlank {c : Char} (h : isBlank c = true) : c.toLower = c := by
  refine toLower_of_not_capital ?_
  simp only [isBlank, Bool.or_eq_true, Bool.and_eq_true, decide_eq_true_eq, beq_iff_eq] at h
  omega

/-- Two texts agree but for the case of ASCII letters. -/
def SameWord (s t : String) : Prop := s.toList.map Char.toLower = t.toList.map Char.toLower

instance (s t : String) : Decidable (SameWord s t) :=
  inferInstanceAs (Decidable (s.toList.map Char.toLower = t.toList.map Char.toLower))

theorem lowerAsciiChar_eq (c : Char) : lowerAsciiChar c = c.toLower := by
  rw [lowerAsciiChar]
  by_cases hupper : 'A' ≤ c ∧ c ≤ 'Z'
  · obtain ⟨hlow, hhigh⟩ := hupper
    have hsmall : c.val.toNat ≤ 90 := hhigh
    have hvalid : (c.toNat + 32).isValidChar := .inl (by simp only [Char.toNat]; omega)
    have hlower : c.toLower.val = c.val + ('a'.val - 'A'.val) :=
      congrArg Char.val (dif_pos ⟨hlow, hhigh⟩)
    have hadd : (c.val + ('a'.val - 'A'.val)).toNat = (c.val.toNat + 32) % 2 ^ 32 :=
      UInt32.toNat_add _ _
    rw [if_pos ⟨hlow, hhigh⟩, Char.ofNat, dif_pos hvalid]
    refine Char.ext (UInt32.toNat_inj.mp ?_)
    rw [hlower, hadd, Nat.mod_eq_of_lt (by omega)]
    rfl
  · have hother : ¬(c.val ≥ 'A'.val ∧ c.val ≤ 'Z'.val) := hupper
    have hsame : c.toLower = c := dif_neg hother
    rw [if_neg hupper, hsame]

/-- A text in lower case is a word without capital letters exactly if the two are the same word. -/
theorem lowerAscii_eq_iff {s w : String} (hw : ∀ c ∈ w.toList, c.toLower = c) :
    lowerAscii s = w ↔ SameWord s w := by
  have hsame : w.toList.map Char.toLower = w.toList :=
    (List.map_congr_left hw).trans (List.map_id _)
  rw [SameWord, hsame, lowerAscii, ← String.toList_inj, String.toList_ofList,
    List.map_congr_left fun c _ => lowerAsciiChar_eq c]

end BlockFeed.Text
