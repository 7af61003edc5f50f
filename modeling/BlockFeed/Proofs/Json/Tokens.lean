import BlockFeed.Json.Value
import BlockFeed.Proofs.Text.Decimal

/-!
# Tokens of JSON read back

Strings and numbers as they are printed, and what the reader makes of them.

## Main definitions

* `Json.pieceOf`, `StringText.ofText`: the pieces that a text is printed as.
* `NumberText.print`: the bytes of a number token.
* `NumberText.Proper`: tokens whose digits are digits, without leading zeros.
* `Json.Closed`: what may follow a value: nothing, a comma or a closing bracket.

## Main results

* `readString_flatMap`, `StringText.text?_ofText`: a text is read back from its quotes.
* `readNumber_print`: a proper token is read back as it was written.
-/

namespace BlockFeed.Json

open Text (decimal digitBytes)

/-- The bytes that are printed as a backslash and one more byte. -/
def shortBytes : Bytes := [0x22, 0x5c, 0x08, 0x0c, 0x0a, 0x0d, 0x09]

/-- The piece that a byte of a text is printed as. -/
def pieceOf (b : UInt8) : Piece :=
  if b ∈ shortBytes then .short b
  else if b < 0x20 then .code b.toNat
  else .byte b

/-- The pieces that a text is printed as. -/
def StringText.ofText (s : String) : StringText := (Text.utf8 s).map pieceOf

section Strings

theorem utf8EncodeChar_hexDigit : ∀ d < 16,
    String.utf8EncodeChar (Nat.digitChar d) = [UInt8.ofNat (Nat.digitChar d).toNat] := by decide

theorem hexByte?_hexDigit : ∀ d < 16,
    hexByte? (UInt8.ofNat (Nat.digitChar d).toNat) = some d := by decide

/-- A control character is printed as a code unit of four digits. -/
theorem utf8_codeUnit (b : UInt8) : ∃ high low, Text.utf8 ("\\u00" ++ Text.hexByte b)
    = [0x5c, 0x75, 0x30, 0x30, high, low] ∧ hexUnit? 0x30 0x30 high low = some b.toNat := by
  have hhigh : b.toNat / 16 < 16 := by
    have := b.toNat_lt
    omega
  have hlow : b.toNat % 16 < 16 := Nat.mod_lt _ (by decide)
  have hfront : Text.utf8 "\\u00" = [0x5c, 0x75, 0x30, 0x30] := by decide
  have hzero : hexByte? 0x30 = some 0 := by decide
  have hvalue : ((0 * 16 + 0) * 16 + b.toNat / 16) * 16 + b.toNat % 16 = b.toNat := by omega
  refine ⟨UInt8.ofNat (Nat.digitChar (b.toNat / 16)).toNat,
    UInt8.ofNat (Nat.digitChar (b.toNat % 16)).toNat, ?_, ?_⟩
  · rw [Text.utf8_append, hfront, Text.hexByte, Text.utf8_ofList, List.flatMap_cons,
      List.flatMap_cons, List.flatMap_nil, utf8EncodeChar_hexDigit _ hhigh,
      utf8EncodeChar_hexDigit _ hlow]
    rfl
  · simp only [hexUnit?, hzero, hexByte?_hexDigit _ hhigh, hexByte?_hexDigit _ hlow,
      Option.bind_eq_bind, Option.bind_some, hvalue]
    rfl

theorem readString_quote (rest : Bytes) : readString (0x22 :: rest) = some ([], rest) := by
  simp [readString.eq_def]

theorem readString_short {e b : UInt8} (h : shortEscape? e = some b) (rest : Bytes) :
    readString (0x5c :: e :: rest) = (readString rest).map (consPiece (.short b)) := by
  have he : e ≠ 0x75 := by
    rintro rfl
    have hnone : shortEscape? 0x75 = none := by decide
    rw [hnone] at h
    cases h
  rw [readString.eq_def]
  simp [he, h]

theorem readString_code {w x y z : UInt8} {u : Nat} (h : hexUnit? w x y z = some u)
    (rest : Bytes) : readString (0x5c :: 0x75 :: w :: x :: y :: z :: rest)
      = (readString rest).map (consPiece (.code u)) := by
  rw [readString.eq_def]
  simp [h]

theorem readString_plain {b : UInt8} (hb : b ∉ shortBytes) (hc : ¬b < 0x20) (rest : Bytes) :
    readString (b :: rest) = (readString rest).map (consPiece (.byte b)) := by
  have hquote : b ≠ 0x22 := by
    rintro rfl
    exact hb (by decide)
  have hslash : b ≠ 0x5c := by
    rintro rfl
    exact hb (by decide)
  rw [readString.eq_def]
  simp [hquote, hslash, hc]

/-- Each byte with an escape of its own is what its mark stands for. -/
theorem escapeByte_of_mem_shortBytes : ∀ b ∈ shortBytes,
    ∃ e ∈ ([0x22, 0x5c, 0x62, 0x66, 0x6e, 0x72, 0x74] : Bytes),
      escapeByte b = [0x5c, e] ∧ shortEscape? e = some b := by
  decide +kernel

theorem escapeByte_of_lt {b : UInt8} (hb : b ∉ shortBytes) (hc : b < 0x20) :
    escapeByte b = Text.utf8 ("\\u00" ++ Text.hexByte b) := by
  simp only [shortBytes, List.mem_cons, List.not_mem_nil, or_false, not_or] at hb
  simp [escapeByte, hb, hc]

theorem escapeByte_of_plain {b : UInt8} (hb : b ∉ shortBytes) (hc : ¬b < 0x20) :
    escapeByte b = [b] := by
  simp only [shortBytes, List.mem_cons, List.not_mem_nil, or_false, not_or] at hb
  simp [escapeByte, hb, hc]

/-- What a byte of a text is printed as is read as one piece. -/
theorem readString_escapeByte (b : UInt8) (rest : Bytes) :
    readString (escapeByte b ++ rest) = (readString rest).map (consPiece (pieceOf b)) := by
  rw [pieceOf]
  split
  · next hb =>
    obtain ⟨e, _, hbytes, hmark⟩ := escapeByte_of_mem_shortBytes b hb
    rw [hbytes]
    exact readString_short hmark rest
  split
  · next hb hc =>
    obtain ⟨high, low, hbytes, hunit⟩ := utf8_codeUnit b
    rw [escapeByte_of_lt hb hc, hbytes]
    exact readString_code hunit rest
  · next hb hc =>
    rw [escapeByte_of_plain hb hc]
    exact readString_plain hb hc rest

/-- A printed text is read up to its closing quote. -/
theorem readString_flatMap (bs rest : Bytes) :
    readString (bs.flatMap escapeByte ++ 0x22 :: rest) = some (bs.map pieceOf, rest) := by
  induction bs with
  | nil => exact readString_quote rest
  | cons b bs ih =>
    rw [List.flatMap_cons, List.append_assoc, readString_escapeByte, ih, List.map_cons]
    rfl

theorem charBytes_of_lt : ∀ n < 0x20, StringText.charBytes n = [UInt8.ofNat n] := by decide

theorem StringText.bytes?_cons (b : UInt8) (rest : StringText) :
    bytes? (pieceOf b :: rest) = (bytes? rest).map (b :: ·) := by
  rw [pieceOf]
  split
  · rfl
  split
  · next hc =>
    have hlt : b.toNat < 0x20 := UInt8.lt_iff_toNat_lt.mp hc
    have hlow : ¬(0xd800 ≤ b.toNat ∧ b.toNat < 0xdc00) := by omega
    have hhigh : ¬(0xdc00 ≤ b.toNat ∧ b.toNat < 0xe000) := by omega
    rw [bytes?.eq_def]
    simp [hlow, hhigh, charBytes_of_lt _ hlt]
  · rfl

/-- The pieces that a text is printed as stand for that text. -/
@[simp] theorem StringText.text?_ofText (s : String) : text? (ofText s) = some s := by
  have hbytes : ∀ bs : Bytes, bytes? (bs.map pieceOf) = some bs := by
    intro bs
    induction bs with
    | nil => rfl
    | cons b bs ih => rw [List.map_cons, bytes?_cons, ih, Option.map_some]
  rw [text?, ofText, hbytes, Option.bind_some, Text.ofUtf8?_utf8]

end Strings

section Numbers

/-- What may follow a value: nothing, a comma or a closing bracket. -/
def Closed : Bytes → Prop
  | [] => True
  | b :: _ => b = 0x2c ∨ b = 0x5d ∨ b = 0x7d

theorem Closed.noDigit {bs : Bytes} (h : Closed bs) : NoDigit bs := by
  cases bs with
  | nil => trivial
  | cons b rest =>
    rcases h with rfl | rfl | rfl <;> rfl

namespace NumberText

/-- The bytes of the exponent of a token. -/
def printExponent : Option Int → Bytes
  | none => []
  | some e => 0x65 :: (if e < 0 then 0x2d else 0x2b) :: digitBytes (decimal e.natAbs)

/-- The bytes of the fraction of a token. -/
def printFraction : List Nat → Bytes
  | [] => []
  | d :: ds => 0x2e :: digitBytes (d :: ds)

/-- The bytes of a token. -/
def print (t : NumberText) : Bytes :=
  (if t.negative then [0x2d] else []) ++ digitBytes t.whole ++ printFraction t.fraction
    ++ printExponent t.exponent

/-- Tokens whose digits are digits, with at least one before the point and no leading zero. -/
structure Proper (t : NumberText) : Prop where
  whole : ∀ d ∈ t.whole, d < 10
  fraction : ∀ d ∈ t.fraction, d < 10
  ne_nil : t.whole ≠ []
  no_leading : ∀ d ds, t.whole ≠ 0 :: d :: ds

end NumberText

open NumberText

theorem noDigit_exponent (e : Option Int) {rest : Bytes} (h : Closed rest) :
    NoDigit (printExponent e ++ rest) := by
  cases e with
  | none => exact h.noDigit
  | some e => exact (by decide : digitByte? 0x65 = none)

theorem readExponent_append (e : Option Int) {rest : Bytes} (h : Closed rest) :
    readExponent (printExponent e ++ rest) = some (e, rest) := by
  cases e with
  | none =>
    cases rest with
    | nil => rfl
    | cons b tail => rcases h with rfl | rfl | rfl <;> rfl
  | some e =>
    have hdigits := readSomeDigits_append (Text.lt_of_mem_decimal e.natAbs)
      (Text.decimal_ne_nil e.natAbs) h.noDigit
    have hminus : ∀ bs : Bytes, readExponent (0x65 :: 0x2d :: bs)
        = (readSomeDigits bs).map fun r => (some (-(digitsNat r.1 : Int)), r.2) := fun _ => rfl
    have hplus : ∀ bs : Bytes, readExponent (0x65 :: 0x2b :: bs)
        = (readSomeDigits bs).map fun r => (some (digitsNat r.1 : Int), r.2) := fun _ => rfl
    by_cases he : e < 0
    · have habs : -((e.natAbs : Nat) : Int) = e := by omega
      rw [printExponent, if_pos he, List.cons_append, List.cons_append, hminus, hdigits,
        Option.map_some, digitsNat_decimal, habs]
    · have habs : ((e.natAbs : Nat) : Int) = e := by omega
      rw [printExponent, if_neg he, List.cons_append, List.cons_append, hplus, hdigits,
        Option.map_some, digitsNat_decimal, habs]

theorem readFraction_append {ds : List Nat} (hds : ∀ d ∈ ds, d < 10) (e : Option Int)
    {rest : Bytes} (h : Closed rest) :
    readFraction (printFraction ds ++ (printExponent e ++ rest))
      = some (ds, printExponent e ++ rest) := by
  cases ds with
  | nil =>
    cases e with
    | none =>
      cases rest with
      | nil => rfl
      | cons b tail => rcases h with rfl | rfl | rfl <;> rfl
    | some e => rfl
  | cons d ds =>
    have hdigits := readSomeDigits_append hds (List.cons_ne_nil d ds) (noDigit_exponent e h)
    rw [printFraction, List.cons_append, readFraction, if_pos rfl, hdigits]

theorem readWhole_append {ds : List Nat} (hds : ∀ d ∈ ds, d < 10) (hne : ds ≠ [])
    (hlead : ∀ d es, ds ≠ 0 :: d :: es) {rest : Bytes} (h : NoDigit rest) :
    readWhole (digitBytes ds ++ rest) = some (ds, rest) := by
  rw [readWhole, readSomeDigits_append hds hne h]
  split
  · next heq =>
    cases heq
    exact absurd rfl (hlead _ _)
  · rfl

theorem noDigit_fraction (ds : List Nat) (e : Option Int) {rest : Bytes} (h : Closed rest) :
    NoDigit (printFraction ds ++ (printExponent e ++ rest)) := by
  cases ds with
  | nil => exact noDigit_exponent e h
  | cons d ds => exact (by decide : digitByte? 0x2e = none)

theorem digitBytes_eq_cons {ds : List Nat} (hds : ∀ d ∈ ds, d < 10) (hne : ds ≠ []) :
    ∃ b rest, digitBytes ds = b :: rest ∧ 0x30 ≤ b ∧ b ≤ 0x39 := by
  obtain ⟨d, ds, rfl⟩ := List.exists_cons_of_ne_nil hne
  have hrange : ∀ d < 10, 0x30 ≤ UInt8.ofNat (0x30 + d) ∧ UInt8.ofNat (0x30 + d) ≤ 0x39 := by
    decide
  exact ⟨_, _, rfl, hrange d (hds d List.mem_cons_self)⟩

/-- A proper token is read back as it was written. -/
theorem readNumber_print {t : NumberText} (ht : t.Proper) {rest : Bytes} (h : Closed rest) :
    readNumber (t.print ++ rest) = some (t, rest) := by
  obtain ⟨negative, whole, fraction, exponent⟩ := t
  have hwhole := readWhole_append ht.whole ht.ne_nil ht.no_leading
    (noDigit_fraction fraction exponent h)
  have hfraction := readFraction_append ht.fraction exponent h
  have hexponent := readExponent_append exponent h
  simp only at hwhole hfraction
  cases negative with
  | true => simp [NumberText.print, readNumber, hwhole, hfraction, hexponent]
  | false =>
    obtain ⟨b, tail, hfirst, hlow, -⟩ := digitBytes_eq_cons ht.whole ht.ne_nil
    have hsign : b ≠ 0x2d := by
      rintro rfl
      exact absurd hlow (by decide)
    simp only at hfirst
    rw [hfirst, List.cons_append] at hwhole
    simp [NumberText.print, readNumber, hwhole, hfraction, hexponent, hfirst, hsign]

/-- Digits are taken in one after the other while the value fits 64 bits. -/
theorem absorb_of_lt {ds : List Nat} {n : Nat}
    (h : n * 10 ^ ds.length + digitsNat ds < UInt64.size) :
    absorb n ds = (n * 10 ^ ds.length + digitsNat ds, []) := by
  induction ds generalizing n with
  | nil => simp [absorb, digitsNat]
  | cons d ds ih =>
    have hcons : digitsNat (d :: ds) = d * 10 ^ ds.length + digitsNat ds := by
      rw [← List.singleton_append, digitsNat_append]
      simp [digitsNat]
    have hvalue : n * 10 ^ (d :: ds).length + digitsNat (d :: ds)
        = (n * 10 + d) * 10 ^ ds.length + digitsNat ds := by
      rw [hcons, List.length_cons, pow_succ]
      ring
    rw [hvalue] at h ⊢
    have hone : n * 10 + d ≤ (n * 10 + d) * 10 ^ ds.length :=
      Nat.le_mul_of_pos_right _ (Nat.pow_pos (by decide))
    rw [absorb, if_pos (by omega), ih h]

namespace NumberText

/-- The token of a natural. -/
def ofNat (n : Nat) : NumberText := ⟨false, decimal n, [], none⟩

/-- A natural has no leading zero. -/
theorem decimal_ne_zero_cons (n d : Nat) (ds : List Nat) : decimal n ≠ 0 :: d :: ds := by
  intro h
  rcases Nat.eq_zero_or_pos n with rfl | hn
  · exact absurd h (by simp [Text.decimal_of_lt])
  · obtain ⟨e, es, heq, he⟩ := Text.decimal_eq_cons hn
    rw [heq] at h
    exact he (List.cons.inj h).1

theorem proper_ofNat (n : Nat) : (ofNat n).Proper where
  whole := Text.lt_of_mem_decimal n
  fraction := by simp [ofNat]
  ne_nil := Text.decimal_ne_nil n
  no_leading := decimal_ne_zero_cons n

theorem printNumber_natural (n : Nat) : printNumber (.integer n) = (ofNat n).print := by
  have hbytes : Text.utf8 (toString (n : Int)) = digitBytes (decimal n) := Text.utf8_toString n
  simp only [printNumber, hbytes]
  simp [NumberText.print, ofNat, printFraction, printExponent]

theorem natural?_ofNat {n : Nat} (h : n < UInt64.size) : (ofNat n).natural? = some n := by
  have habsorb : absorb 0 (decimal n) = (n, []) := by
    rw [absorb_of_lt (by simpa using h)]
    simp
  simp [natural?, isPlain, ofNat, habsorb]

end NumberText

end Numbers

end BlockFeed.Json
