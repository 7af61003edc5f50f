import BlockFeed.Operation
import BlockFeed.Proofs.Text.Spelling
import BlockFeed.Proofs.Text.Trimming

/-!
# Names of operations

Which texts stand for which operation.

## Main definitions

* `Operation.Reading`: what a trimmed text is read as: by tag if it is a numeral that fits a tag,
  and by name in any other case.

## Main results

* `Operation.parse_reads`: texts are read by that grammar, and whatever an operation is written as
  is read back as it.

## Design notes

A numeral that fits a tag is never a name, so a text is read in one way only.
-/

namespace BlockFeed.Operation

/-- The text writes a number that fits a tag. -/
def IsTag (t : String) : Prop := ∃ n : UInt32, Text.Numeral t n.toNat

/-- What a trimmed text is read as. -/
inductive Reading (t : String) : Except OperationError Operation → Prop where
  | tag {op : Operation} : Text.Numeral t op.tag.toNat → Reading t (.ok op)
  | unknownTag {n : UInt32} : Text.Numeral t n.toNat → (∀ op : Operation, op.tag ≠ n) →
      Reading t (.error (.unknownTag n))
  | name {op : Operation} : ¬IsTag t → Text.SameWord t op.name → Reading t (.ok op)
  | unknownName : ¬IsTag t → (∀ op : Operation, ¬Text.SameWord t op.name) →
      Reading t (.error (.unknownName t))

theorem ofTag?_eq_some_iff {n : UInt32} {op : Operation} : ofTag? n = some op ↔ op.tag = n := by
  constructor
  · intro h
    simpa using List.find?_some h
  · rintro rfl
    exact ofTag?_tag op

theorem tag_injective {op op' : Operation} (h : op.tag = op'.tag) : op = op' := by
  have hfound := ofTag?_tag op'
  rw [← h, ofTag?_tag] at hfound
  exact Option.some.inj hfound

theorem ofTag?_eq_none_iff {n : UInt32} : ofTag? n = none ↔ ∀ op : Operation, op.tag ≠ n := by
  simp [ofTag?, mem_all]

@[simp] theorem ofName?_name (op : Operation) : ofName? op.name = some op := by
  cases op <;> decide

theorem ofName?_eq_some_iff {n : String} {op : Operation} :
    ofName? n = some op ↔ n = op.name := by
  constructor
  · intro h
    have hname := List.find?_some h
    exact (eq_of_beq hname).symm
  · rintro rfl
    exact ofName?_name op

theorem ofName?_eq_none_iff {n : String} :
    ofName? n = none ↔ ∀ op : Operation, op.name ≠ n := by
  simp [ofName?, mem_all]

theorem name_lower (op : Operation) : ∀ c ∈ op.name.toList, c.toLower = c := by
  have hall : op.name.toList.all (fun c => c.toLower == c) = true := by cases op <;> decide
  simpa using hall

theorem name_not_blank (op : Operation) : ∀ c ∈ op.name.toList, Text.isBlank c = false := by
  have hany : op.name.toList.any Text.isBlank = false := by cases op <;> decide
  simpa using hany

theorem name_not_digit (op : Operation) : ∀ c ∈ op.name.toList, c.isDigit = false := by
  have hany : op.name.toList.any Char.isDigit = false := by cases op <;> decide
  simpa using hany

theorem reading_parse (s : String) : Reading (Text.trim s) (parse s) := by
  rw [parse]
  cases hnumber : Text.unsigned? UInt32.size (Text.trim s) with
  | some n =>
    obtain ⟨hnumeral, hlt⟩ := Text.unsigned?_eq_some_iff.mp hnumber
    have hn : n = (UInt32.ofNat n).toNat := (UInt32.toNat_ofNat_of_lt' hlt).symm
    rw [hn] at hnumeral
    dsimp only
    rw [ofTag]
    cases htag : ofTag? (UInt32.ofNat n) with
    | some op =>
      rw [← ofTag?_eq_some_iff.mp htag] at hnumeral
      exact .tag hnumeral
    | none => exact .unknownTag hnumeral (ofTag?_eq_none_iff.mp htag)
  | none =>
    have hnot : ¬IsTag (Text.trim s) := by
      rintro ⟨n, hn⟩
      have hsome := Text.unsigned?_eq_some_iff.mpr ⟨hn, n.toNat_lt⟩
      cases hnumber.symm.trans hsome
    dsimp only
    cases hname : ofName? (Text.lowerAscii (Text.trim s)) with
    | some op =>
      exact .name hnot ((Text.lowerAscii_eq_iff op.name_lower).mp (ofName?_eq_some_iff.mp hname))
    | none =>
      exact .unknownName hnot fun op hsame => ofName?_eq_none_iff.mp hname op
        ((Text.lowerAscii_eq_iff op.name_lower).mpr hsame).symm

/-- A text writes one number at most. -/
theorem numeral_unique {t : String} {m n : UInt32} (hm : Text.Numeral t m.toNat)
    (hn : Text.Numeral t n.toNat) : m = n := by
  have hm' := Text.unsigned?_eq_some_iff.mpr ⟨hm, m.toNat_lt⟩
  have hn' := Text.unsigned?_eq_some_iff.mpr ⟨hn, n.toNat_lt⟩
  exact UInt32.toNat_inj.mp (Option.some.inj (hm'.symm.trans hn'))

/-- Two operations whose names are the same word are one. -/
theorem sameWord_unique {t : String} {op op' : Operation} (h : Text.SameWord t op.name)
    (h' : Text.SameWord t op'.name) : op = op' := by
  have hname := (Text.lowerAscii_eq_iff op.name_lower).mpr h
  have hname' := (Text.lowerAscii_eq_iff op'.name_lower).mpr h'
  have hfound : ofName? op.name = some op' := by rw [← hname, hname', ofName?_name]
  exact Option.some.inj ((ofName?_name op).symm.trans hfound)

/-- A text is read in one way at most. -/
theorem Reading.unique {t : String} {r r' : Except OperationError Operation}
    (h : Reading t r) (h' : Reading t r') : r = r' := by
  cases h with
  | tag hn =>
    cases h' with
    | tag hn' => rw [tag_injective (numeral_unique hn hn')]
    | unknownTag hn' hnone => exact absurd (numeral_unique hn hn') (hnone _)
    | name hnot | unknownName hnot => exact absurd ⟨_, hn⟩ hnot
  | unknownTag hn hnone =>
    cases h' with
    | tag hn' => exact absurd (numeral_unique hn' hn) (hnone _)
    | unknownTag hn' => rw [numeral_unique hn hn']
    | name hnot | unknownName hnot => exact absurd ⟨_, hn⟩ hnot
  | name hnot hsame =>
    cases h' with
    | tag hn | unknownTag hn => exact absurd ⟨_, hn⟩ hnot
    | name _ hsame' => rw [sameWord_unique hsame hsame']
    | unknownName _ hnone => exact absurd hsame (hnone _)
  | unknownName hnot hnone =>
    cases h' with
    | tag hn | unknownTag hn => exact absurd ⟨_, hn⟩ hnot
    | name _ hsame => exact absurd hsame (hnone _)
    | unknownName => rfl

theorem parse_eq_iff {s : String} {r : Except OperationError Operation} :
    parse s = r ↔ ∃ t, Text.Trims s t ∧ Reading t r := by
  constructor
  · rintro rfl
    exact ⟨Text.trim s, Text.trims_trim s, reading_parse s⟩
  · rintro ⟨t, htrims, hreading⟩
    obtain rfl := Text.trim_eq_iff.mpr htrims
    exact (reading_parse s).unique hreading

/-- A text without blanks is read as it is, whatever blanks stand around it. -/
theorem parse_around {before t behind : String} {r : Except OperationError Operation}
    (hblank : ∀ c ∈ before.toList ++ behind.toList, Text.isBlank c = true)
    (hsolid : ∀ c ∈ t.toList, Text.isBlank c = false) (h : Reading t r) :
    parse (before ++ t ++ behind) = r := by
  refine parse_eq_iff.mpr ⟨t, ⟨⟨before.toList, behind.toList, ?_, hblank⟩, ?_, ?_⟩, h⟩
  · rw [String.toList_append, String.toList_append]
  · exact fun c hc => hsolid c (List.mem_of_head? hc)
  · exact fun c hc => hsolid c (List.mem_of_getLast? hc)

theorem mem_name_of_sameWord {t : String} {op : Operation} (h : Text.SameWord t op.name) {c : Char}
    (hc : c ∈ t.toList) : c.toLower ∈ op.name.toList := by
  have hlower : c.toLower ∈ op.name.toList.map Char.toLower := h ▸ List.mem_map_of_mem hc
  obtain ⟨d, hd, heq⟩ := List.mem_map.mp hlower
  rwa [← heq, op.name_lower d hd]

/-- A name in any case has no blanks. -/
theorem not_blank_of_sameWord {t : String} {op : Operation} (h : Text.SameWord t op.name) :
    ∀ c ∈ t.toList, Text.isBlank c = false := by
  intro c hc
  rw [← Bool.not_eq_true]
  intro hblank
  have hmem := mem_name_of_sameWord h hc
  rw [Text.toLower_of_isBlank hblank] at hmem
  cases hblank.symm.trans (op.name_not_blank c hmem)

/-- A name in any case is no numeral, as it has no digits. -/
theorem not_isTag_of_sameWord {t : String} {op : Operation} (h : Text.SameWord t op.name) :
    ¬IsTag t := by
  rintro ⟨n, digits, ht, hne, hdigits, -⟩
  obtain ⟨c, hc⟩ := List.exists_mem_of_ne_nil digits hne
  have hmem : c ∈ t.toList := by
    rcases ht with ht | ht
    · rwa [ht]
    · exact ht ▸ List.mem_cons_of_mem _ hc
  have hbounds := Text.digit_bounds (hdigits c hc)
  have hname := mem_name_of_sameWord h hmem
  rw [Text.toLower_of_not_capital (.inl (by omega))] at hname
  exact absurd (hdigits c hc) (by rw [op.name_not_digit c hname]; exact Bool.false_ne_true)

/-- The digits of a tag, with zeros in front. -/
def paddedTag (zeros : Nat) (op : Operation) : String :=
  String.ofList (List.replicate zeros '0') ++ toString op.tag

theorem toList_paddedTag (zeros : Nat) (op : Operation) :
    (paddedTag zeros op).toList = List.replicate zeros '0' ++ Nat.toDigits 10 op.tag.toNat := by
  have hdigits : toString op.tag = String.ofList (Nat.toDigits 10 op.tag.toNat) :=
    Nat.toString_eq_ofList_toDigits
  rw [paddedTag, hdigits, String.toList_append, String.toList_ofList, String.toList_ofList]

theorem isDigit_paddedTag (zeros : Nat) (op : Operation) :
    ∀ c ∈ List.replicate zeros '0' ++ Nat.toDigits 10 op.tag.toNat, c.isDigit = true := by
  intro c hc
  rcases List.mem_append.mp hc with hzero | hdigit
  · rw [List.eq_of_mem_replicate hzero]
    rfl
  · exact Nat.isDigit_of_mem_toDigits (by decide) (by decide) hdigit

theorem numeral_paddedTag (zeros : Nat) (op : Operation) :
    Text.Numeral (paddedTag zeros op) op.tag.toNat := by
  refine ⟨_, .inl (toList_paddedTag zeros op), ?_, isDigit_paddedTag zeros op, ?_⟩
  · exact List.append_ne_nil_of_right_ne_nil _ (Nat.toDigits_ne_nil)
  · rw [Nat.ofDigitChars_append, Nat.ofDigitChars_replicate_zero, Nat.mul_zero,
      Nat.ofDigitChars_toDigits (by decide) (by decide)]

/-- What operations are written as: texts with the letters of their name in either case, and their
tags with any number of zeros in front. -/
inductive Writes (op : Operation) : String → Prop where
  | name {t : String} : Text.SameWord t op.name → Writes op t
  | tag (zeros : Nat) : Writes op (paddedTag zeros op)

/-- Every text is read by the grammar, after it was trimmed; and whatever an operation is written as
is read back as it, with any blanks around it. -/
theorem parse_reads :
    (∀ (s : String) (r : Except OperationError Operation),
      parse s = r ↔ ∃ t, Text.Trims s t ∧ Reading t r) ∧
    ∀ (op : Operation) (before t behind : String),
      (∀ c ∈ before.toList ++ behind.toList, Text.isBlank c = true) → Writes op t →
        parse (before ++ t ++ behind) = .ok op := by
  refine ⟨fun s r => parse_eq_iff, fun op before t behind hblank hwrites => ?_⟩
  cases hwrites with
  | name hsame =>
    exact parse_around hblank (not_blank_of_sameWord hsame)
      (.name (not_isTag_of_sameWord hsame) hsame)
  | tag zeros =>
    refine parse_around hblank (fun c hc => ?_) (.tag (numeral_paddedTag zeros op))
    rw [toList_paddedTag] at hc
    exact Text.not_blank_of_isDigit (isDigit_paddedTag zeros op c hc)

/-- A name in mixed case between a tab, an ideographic space and a line feed, a padded tag, a number
that is no tag, and one that is too large for a tag. -/
theorem parse_reads_sample :
    parse ("\t\u3000" ++ "SeTTings" ++ "\n") = .ok settings ∧
    parse ("  " ++ paddedTag 3 saveRoundsInfo ++ "\u2028") = .ok saveRoundsInfo ∧
    parse " +08" = .error (.unknownTag 8) ∧
    parse "4294967296 " = .error (.unknownName "4294967296") := by
  obtain ⟨hgrammar, hwritten⟩ := parse_reads
  refine ⟨hwritten _ _ _ _ (List.all_eq_true.mp (by decide)) (.name (by decide)),
    hwritten _ _ _ _ (List.all_eq_true.mp (by decide)) (.tag 3), ?_, ?_⟩
  · have htrims : Text.Trims " +08" "+08" := Text.trim_eq_iff.mp (by decide +kernel)
    have hnumeral : Text.Numeral "+08" (8 : UInt32).toNat :=
      ⟨['0', '8'], .inr (by decide), by decide, List.all_eq_true.mp (by decide), by decide⟩
    exact (hgrammar _ _).mpr ⟨_, htrims, .unknownTag hnumeral fun op => by cases op <;> decide⟩
  · have htrims : Text.Trims "4294967296 " "4294967296" := Text.trim_eq_iff.mp (by decide +kernel)
    have hlarge : Text.unsigned? UInt32.size "4294967296" = none := by decide +kernel
    refine (hgrammar _ _).mpr ⟨_, htrims, .unknownName ?_ fun op => by cases op <;> decide⟩
    rintro ⟨n, hn⟩
    cases hlarge.symm.trans (Text.unsigned?_eq_some_iff.mpr ⟨hn, n.toNat_lt⟩)

end BlockFeed.Operation
