import Mathlib.Data.List.Forall2
import BlockFeed.Proofs.Json.Tokens

/-!
# Printed values read back

Which tree the reader makes of the text of a value, constructor by constructor.

## Main definitions

* `Json.Reads`: the reader makes a certain tree of the text of a value, whatever follows it.

## Main results

* `Reads.array`, `Reads.object`: lists of values are read item by item.
* `Reads.read?`: the tree of the whole text of a value.

## Design notes

`Reads` is not said by recursion on the value: a real number is read back only if its text is a
proper token, so each value comes with the facts about its own parts.
-/

namespace BlockFeed.Json

/-- The reader makes the tree `w` of the text of `j`, whatever follows it. -/
structure Reads (j : Json) (w : Written) : Prop where
  /-- The text begins with a byte that is not passed over and closes nothing. -/
  starts : ∃ b tail, j.print = b :: tail ∧ isBlankByte b = false ∧ b ≠ 0x5d
  /-- As much fuel as twice the text is long is enough. -/
  reads : ∀ fuel rest, Closed rest → 2 * j.print.length ≤ fuel →
    readValue fuel (j.print ++ rest) = some (w, rest)

theorem skipBlank_cons {b : UInt8} (h : isBlankByte b = false) (rest : Bytes) :
    skipBlank (b :: rest) = b :: rest := by
  rw [skipBlank, List.dropWhile_cons_of_neg (by simp [h])]

namespace Reads

variable {j : Json} {w : Written}

theorem length_pos (h : Reads j w) : 0 < j.print.length := by
  obtain ⟨b, tail, hprint, -⟩ := h.starts
  rw [hprint]
  exact Nat.succ_pos _

theorem skipBlank_print (h : Reads j w) (rest : Bytes) :
    skipBlank (j.print ++ rest) = j.print ++ rest := by
  obtain ⟨b, tail, hprint, hblank, -⟩ := h.starts
  rw [hprint, List.cons_append, skipBlank_cons hblank]

/-- The tree of the whole text of a value. -/
theorem read? (h : Reads j w) : Written.read? j.print = some w := by
  have hread := h.reads (2 * j.print.length + 2) [] trivial (by omega)
  have hskip := h.skipBlank_print []
  rw [List.append_nil] at hread hskip
  rw [Written.read?, hskip, hread]
  rfl

theorem of_word (word : String) (b : UInt8) (tail : Bytes) (hprint : j.print = Text.utf8 word)
    (hword : Text.utf8 word = b :: tail) (hb : isBlankByte b = false ∧ b ≠ 0x5d)
    (hread : ∀ fuel rest, readValue (fuel + 1) (b :: rest)
      = (afterWord? word (b :: rest)).map fun r => (w, r)) : Reads j w := by
  refine ⟨⟨b, tail, by rw [hprint, hword], hb⟩, fun fuel rest _ hfuel => ?_⟩
  obtain ⟨fuel, rfl⟩ : ∃ n, fuel = n + 1 := by
    refine ⟨fuel - 1, ?_⟩
    rw [hprint, hword, List.length_cons] at hfuel
    omega
  have hafter : afterWord? word (b :: (tail ++ rest)) = some rest := by
    have hprefix : (Text.utf8 word).isPrefixOf (Text.utf8 word ++ rest) = true := by simp
    rw [← List.cons_append, ← hword, afterWord?, if_pos hprefix, List.drop_left]
  rw [hprint, hword, List.cons_append, hread, hafter]
  rfl

theorem null : Reads .null .null :=
  of_word "null" 0x6e [0x75, 0x6c, 0x6c] (by rw [print]) (by decide) (by decide)
    (fun fuel rest => by simp [readValue])

theorem bool (b : Bool) : Reads (.bool b) (.bool b) := by
  cases b with
  | true =>
    exact of_word "true" 0x74 [0x72, 0x75, 0x65] (by simp [print]) (by decide) (by decide)
      (fun fuel rest => by simp [readValue])
  | false =>
    exact of_word "false" 0x66 [0x61, 0x6c, 0x73, 0x65] (by simp [print]) (by decide) (by decide)
      (fun fuel rest => by simp [readValue])

theorem string (s : String) : Reads (.string s) (.string (.ofText s)) := by
  have hprint : print (.string s) = 0x22 :: ((Text.utf8 s).flatMap escapeByte ++ [0x22]) := by
    rw [print, printString, List.cons_append]
  refine ⟨⟨_, _, hprint, by decide, by decide⟩, fun fuel rest _ hfuel => ?_⟩
  obtain ⟨fuel, rfl⟩ : ∃ n, fuel = n + 1 := by
    refine ⟨fuel - 1, ?_⟩
    rw [hprint, List.length_cons] at hfuel
    omega
  have hread := readString_flatMap (Text.utf8 s) rest
  rw [hprint, List.cons_append, List.append_assoc, readValue, if_pos rfl, List.singleton_append,
    hread]
  rfl

/-- A number that is printed as a proper token is read as that token. -/
theorem number {n : Number} {t : NumberText} (ht : t.Proper) (hprint : printNumber n = t.print) :
    Reads (.number n) (.number t) := by
  obtain ⟨b, tail, hfirst, hb⟩ : ∃ b tail, t.print = b :: tail ∧
      (b = 0x2d ∨ 0x30 ≤ b ∧ b ≤ 0x39) := by
    obtain ⟨b, tail, hdigits, hrange⟩ := digitBytes_eq_cons ht.whole ht.ne_nil
    rw [NumberText.print, hdigits]
    cases t.negative with
    | true => exact ⟨_, _, rfl, .inl rfl⟩
    | false => exact ⟨_, _, rfl, .inr hrange⟩
  -- Such a byte begins nothing but a number.
  have hno : ∀ c ∈ ([0x22, 0x5b, 0x7b, 0x6e, 0x74, 0x66, 0x5d, 0x20, 0x09, 0x0a, 0x0d] : Bytes),
      b ≠ c := by
    rintro c hc rfl
    have hout : ∀ c ∈ ([0x22, 0x5b, 0x7b, 0x6e, 0x74, 0x66, 0x5d, 0x20, 0x09, 0x0a, 0x0d] :
        Bytes), ¬(c = 0x2d ∨ 0x30 ≤ c ∧ c ≤ 0x39) := by decide +kernel
    exact hout b hc hb
  simp only [List.forall_mem_cons, List.not_mem_nil, false_imp_iff, implies_true, and_true]
    at hno
  have hblank : isBlankByte b = false := by
    obtain ⟨-, -, -, -, -, -, -, hspace, htab, hline, hreturn⟩ := hno
    simp only [isBlankByte, beq_false_of_ne hspace, beq_false_of_ne htab, beq_false_of_ne hline,
      beq_false_of_ne hreturn, Bool.or_false]
  refine ⟨⟨b, tail, by rw [print, hprint, hfirst], hblank, hno.2.2.2.2.2.2.1⟩,
    fun fuel rest hrest hfuel => ?_⟩
  rw [print, hprint] at hfuel ⊢
  obtain ⟨fuel, rfl⟩ : ∃ n, fuel = n + 1 := by
    refine ⟨fuel - 1, ?_⟩
    rw [hfirst, List.length_cons] at hfuel
    omega
  have hread := readNumber_print ht hrest
  rw [hfirst, List.cons_append] at hread ⊢
  simp [readValue, hno, hread]

theorem printItems_eq_append (v : Json) (items : List Json) :
    ∃ tail, printItems (v :: items) = v.print ++ tail := by
  cases items with
  | nil => exact ⟨[], by rw [printItems, List.append_nil]⟩
  | cons w items => exact ⟨_, by rw [printItems]⟩

/-- The items of a list that is not empty are read up to the closing bracket. -/
theorem readItems_print {items : List Json} {ws : List Written} (h : List.Forall₂ Reads items ws)
    (hne : items ≠ []) : ∀ fuel rest, 2 * (printItems items).length + 1 ≤ fuel →
      readItems fuel (printItems items ++ 0x5d :: rest) = some (ws, rest) := by
  induction h with
  | nil => exact absurd rfl hne
  | @cons v w items ws hv hrest ih =>
    intro fuel rest hfuel
    cases fuel with
    | zero => omega
    | succ fuel =>
      have hv_pos := hv.length_pos
      cases hrest with
      | nil =>
        rw [printItems] at hfuel ⊢
        have hread := hv.reads fuel (0x5d :: rest) (.inr (.inl rfl)) (by omega)
        have hskip : skipBlank (0x5d :: rest) = 0x5d :: rest := skipBlank_cons rfl rest
        simp [readItems, hread, hskip]
      | @cons v' w' items' ws' hv' hrest' =>
        rw [printItems, List.length_append, List.length_cons] at hfuel
        have hread := hv.reads fuel (0x2c :: (printItems (v' :: items') ++ 0x5d :: rest))
          (.inl rfl) (by omega)
        have hitems := ih (List.cons_ne_nil _ _) fuel rest (by omega)
        have hskip : ∀ bs, skipBlank (0x2c :: bs) = 0x2c :: bs := fun bs => skipBlank_cons rfl bs
        obtain ⟨tail, htail⟩ := printItems_eq_append v' items'
        have hnext : skipBlank (printItems (v' :: items') ++ 0x5d :: rest)
            = printItems (v' :: items') ++ 0x5d :: rest := by
          rw [htail, List.append_assoc, hv'.skipBlank_print]
        rw [printItems, List.append_assoc, List.cons_append]
        simp [readItems, hread, hskip, hnext, hitems]

/-- An array is read item by item. -/
theorem array {items : List Json} {ws : List Written} (h : List.Forall₂ Reads items ws) :
    Reads (.array items) (.array ws) := by
  have hprint : print (.array items) = 0x5b :: (printItems items ++ [0x5d]) := by
    rw [print, List.cons_append]
  refine ⟨⟨_, _, hprint, by decide, by decide⟩, fun fuel rest _ hfuel => ?_⟩
  rw [hprint, List.length_cons, List.length_append, List.length_singleton] at hfuel
  obtain ⟨fuel, rfl⟩ : ∃ n, fuel = n + 1 := ⟨fuel - 1, by omega⟩
  rw [hprint, List.cons_append, List.append_assoc, List.singleton_append]
  cases h with
  | nil =>
    have hskip : skipBlank (0x5d :: rest) = 0x5d :: rest := skipBlank_cons rfl rest
    simp [readValue, printItems, hskip]
  | @cons v w items ws hv hrest =>
    have hitems := readItems_print (.cons hv hrest) (List.cons_ne_nil _ _) fuel rest (by omega)
    obtain ⟨tail, htail⟩ := printItems_eq_append v items
    obtain ⟨b, vtail, hv_print, hblank, hclose⟩ := hv.starts
    rw [htail, hv_print, List.cons_append, List.cons_append] at hitems ⊢
    rw [readValue, if_neg (by decide), if_pos rfl, skipBlank_cons hblank]
    simp only [if_neg hclose, hitems, Option.map_some]

/-- What the members of an object are read as: the pieces of the key, and a tree. -/
def ReadsMember (m : String × Json) (w : StringText × Written) : Prop :=
  w.1 = .ofText m.1 ∧ Reads m.2 w.2

theorem printMembers_eq_cons (m : String × Json) (members : List (String × Json)) :
    ∃ tail, printMembers (m :: members) = 0x22 :: tail := by
  cases members <;> simp [printMembers, printString]

/-- The members of an object that is not empty are read up to the closing brace. -/
theorem readMembers_print {members : List (String × Json)} {ws : List (StringText × Written)}
    (h : List.Forall₂ ReadsMember members ws) (hne : members ≠ []) :
    ∀ fuel rest, 2 * (printMembers members).length + 1 ≤ fuel →
      readMembers fuel (printMembers members ++ 0x7d :: rest) = some (ws, rest) := by
  have hskip : ∀ b bs, isBlankByte b = false → skipBlank (b :: bs) = b :: bs :=
    fun b bs hb => skipBlank_cons hb bs
  induction h with
  | nil => exact absurd rfl hne
  | @cons m w members ws hm hrest ih =>
    intro fuel rest hfuel
    obtain ⟨key, value⟩ := m
    obtain ⟨pieces, tree⟩ := w
    obtain ⟨hkey, hv⟩ := hm
    dsimp only at hkey hv
    subst hkey
    cases fuel with
    | zero => omega
    | succ fuel =>
      have hpos := hv.length_pos
      cases hrest with
      | nil =>
        rw [printMembers, List.length_append, List.length_cons] at hfuel
        have hname := readString_flatMap (Text.utf8 key) (0x3a :: (value.print ++ 0x7d :: rest))
        have hread := hv.reads fuel (0x7d :: rest) (.inr (.inr rfl)) (by omega)
        have hstart := hv.skipBlank_print (0x7d :: rest)
        have hend : skipBlank (0x7d :: rest) = 0x7d :: rest := skipBlank_cons rfl rest
        have hcolon : ∀ bs, skipBlank (0x3a :: bs) = 0x3a :: bs := fun bs => skipBlank_cons rfl bs
        rw [printMembers, printString]
        simp [readMembers, hname, hread, hstart, hend, hcolon, StringText.ofText]
      | @cons m' w' members' ws' hm' hrest' =>
        rw [printMembers, List.length_append, List.length_cons, List.length_append,
          List.length_cons] at hfuel
        obtain ⟨tail, htail⟩ := printMembers_eq_cons m' members'
        have hmembers := ih (List.cons_ne_nil _ _) fuel rest (by omega)
        have hread := hv.reads fuel (0x2c :: (printMembers (m' :: members') ++ 0x7d :: rest))
          (.inl rfl) (by omega)
        have hname := readString_flatMap (Text.utf8 key)
          (0x3a :: (value.print ++ 0x2c :: (printMembers (m' :: members') ++ 0x7d :: rest)))
        have hstart := hv.skipBlank_print (0x2c :: (printMembers (m' :: members') ++ 0x7d :: rest))
        have hcolon : ∀ bs, skipBlank (0x3a :: bs) = 0x3a :: bs := fun bs => skipBlank_cons rfl bs
        have hcomma : ∀ bs, skipBlank (0x2c :: bs) = 0x2c :: bs := fun bs => skipBlank_cons rfl bs
        have hnext : skipBlank (printMembers (m' :: members') ++ 0x7d :: rest)
            = printMembers (m' :: members') ++ 0x7d :: rest := by
          rw [htail, List.cons_append, skipBlank_cons (by decide)]
        rw [printMembers, printString]
        simp [readMembers, hname, hread, hstart, hcolon, hcomma, hnext, hmembers,
          StringText.ofText]

/-- An object is read member by member. -/
theorem object {members : List (String × Json)} {ws : List (StringText × Written)}
    (h : List.Forall₂ ReadsMember members ws) : Reads (.object members) (.object ws) := by
  have hprint : print (.object members) = 0x7b :: (printMembers members ++ [0x7d]) := by
    rw [print, List.cons_append]
  refine ⟨⟨_, _, hprint, by decide, by decide⟩, fun fuel rest _ hfuel => ?_⟩
  rw [hprint, List.length_cons, List.length_append, List.length_singleton] at hfuel
  obtain ⟨fuel, rfl⟩ : ∃ n, fuel = n + 1 := ⟨fuel - 1, by omega⟩
  rw [hprint, List.cons_append, List.append_assoc, List.singleton_append]
  cases h with
  | nil =>
    have hskip : skipBlank (0x7d :: rest) = 0x7d :: rest := skipBlank_cons rfl rest
    simp [readValue, printMembers, hskip]
  | @cons m w members ws hm hrest =>
    have hmembers := readMembers_print (.cons hm hrest) (List.cons_ne_nil _ _) fuel rest (by omega)
    obtain ⟨tail, htail⟩ := printMembers_eq_cons m members
    have hskip : ∀ bs, skipBlank (0x22 :: bs) = 0x22 :: bs := fun bs => skipBlank_cons rfl bs
    rw [htail, List.cons_append] at hmembers ⊢
    simp [readValue, hskip, hmembers]

end Reads

end BlockFeed.Json
