import BlockFeed.Proofs.Json.Reals
import BlockFeed.Proofs.Record.Faithful

/-!
# Ratings read back

What the text of ratings is read as. A finite rating is printed with its shortest digits and read
back as it was; an infinite one is printed as `null`, which is no rating.

## Main definitions

* `Rating.Finite`: ratings that are numbers.
* `Rating.overflow`: where the numbers begin that are too great for a rating.
* `Rating.Rounded`: ratings that reading can give.

## Main results

* `Rating.finite_ofNumber_iff`: which numbers give finite ratings.
* `Marshal.rounded_of_unmarshal`: ratings that were read are rounded.
* `Marshal.unmarshal?_marshal_ratings`: what the text of ratings is read as.
* `Marshal.ratings_survive_iff`.
-/

namespace BlockFeed

open Json (Written Reads)

namespace Rating

/-- A rating that is a number, not beyond all single-precision numbers. -/
def Finite (r : Rating) : Prop := r.value.magnitude ≠ .infinite

instance (r : Rating) : Decidable r.Finite := inferInstanceAs (Decidable (_ ≠ _))

/-- A rating that is infinite or has the exponent that single precision gives it. -/
def Rounded (r : Rating) : Prop :=
  ∀ m e, r.value.magnitude = .finite m e → Binary.single.Canonical m e

theorem rounded_default : Rounded {} := by
  rintro m e h
  cases h
  exact Binary.Format.canonical_zero Binary.Format.proper_single

/-- The rating that a number is rounded to is rounded. -/
theorem rounded_ofNumber (n : Json.Number) : (Marshal.Rating.ofNumber n).Rounded := by
  intro m e h
  cases n with
  | integer i => exact Binary.Format.canonical_of_round Binary.Format.proper_single one_pos h
  | real l x =>
    obtain ⟨negative, magnitude⟩ := x
    cases magnitude with
    | infinite => cases h
    | finite n i =>
      exact Binary.Format.canonical_of_round Binary.Format.proper_single (Binary.scaleDen_pos i) h

/-- Half the way from the greatest single-precision number to the next power of two. -/
def overflow : ℚ := Binary.Format.highEnd (2 ^ 24 - 1) 104

theorem overflow_eq : overflow = 2 ^ 128 - 2 ^ 103 := by
  rw [overflow, Binary.Format.highEnd]
  norm_num

/-- Whether a number is closer to zero than a bound. -/
def Within (bound : ℚ) : Json.Number → Prop
  | .integer i => (i.natAbs : ℚ) < bound
  | .real _ ⟨_, .finite m e⟩ => (m : ℚ) * 2 ^ e < bound
  | .real _ ⟨_, .infinite⟩ => False

/-- A number gives a finite rating exactly if it is within the range of single precision. -/
theorem finite_ofNumber_iff (n : Json.Number) :
    (Marshal.Rating.ofNumber n).Finite ↔ Within overflow n := by
  have hround : ∀ num den, 0 < den →
      (Binary.single.round num den ≠ .infinite ↔ (num : ℚ) / den < overflow) := by
    intro num den hden
    rw [ne_eq, Binary.Format.round_eq_infinite_iff Binary.Format.proper_single hden, not_le]
    rfl
  match n with
  | .integer i =>
    have h := hround i.natAbs 1 one_pos
    rwa [Nat.cast_one, div_one] at h
  | .real _ ⟨_, .finite m e⟩ =>
    have h := hround (Binary.scaleNum m e) (Binary.scaleDen e) (Binary.scaleDen_pos e)
    rwa [Binary.scaleNum_div_scaleDen] at h
  | .real _ ⟨_, .infinite⟩ => exact ⟨fun h => absurd rfl h, False.elim⟩

end Rating

namespace Marshal

section Read

variable {w : Written}

theorem rounded_of_read {r : Rating} (h : ofWritten? w = some r) : r.Rounded := by
  cases w with
  | number t =>
    obtain ⟨n, -, rfl⟩ := Option.map_eq_some_iff.mp h
    exact Rating.rounded_ofNumber n
  | _ => cases h

theorem rounded_of_field {field : Option Written} {r : Rating}
    (h : field? {} field = some r) : r.Rounded := by
  cases field with
  | none =>
    cases h
    exact Rating.rounded_default
  | some w => exact rounded_of_read h

theorem rounded_of_read_rating {v : ValidatorRating} (h : ofWritten? w = some v) :
    v.rating.Rounded := by
  obtain ⟨fields, -, h⟩ := Option.bind_eq_some_iff.mp h
  split at h
  · obtain ⟨publicKey, -, h⟩ := Option.bind_eq_some_iff.mp h
    obtain ⟨rating, hrating, h⟩ := Option.bind_eq_some_iff.mp h
    cases h
    exact rounded_of_field hrating
  · cases h

/-- What was read of a list was read of one of its items. -/
theorem exists_item_of_mapM {α β : Type} {f : α → Option β} {items : List α} {values : List β}
    (h : items.mapM f = some values) : ∀ b ∈ values, ∃ a ∈ items, f a = some b := by
  induction items generalizing values with
  | nil =>
    cases h
    simp
  | cons a items ih =>
    rw [List.mapM_cons] at h
    obtain ⟨b, hb, h⟩ := Option.bind_eq_some_iff.mp h
    obtain ⟨rest, hrest, h⟩ := Option.bind_eq_some_iff.mp h
    cases h
    intro c hc
    rcases List.mem_cons.mp hc with rfl | hc
    · exact ⟨a, List.mem_cons_self, hb⟩
    · obtain ⟨d, hd, heq⟩ := ih hrest c hc
      exact ⟨d, List.mem_cons_of_mem a hd, heq⟩

theorem rounded_of_infos {field : Option Written} {infos : List ValidatorRating}
    (h : field? [] field = some infos) : ∀ info ∈ infos, info.rating.Rounded := by
  match field, h with
  | none, h =>
    cases h
    simp
  | some (.array items), h =>
    intro info hinfo
    obtain ⟨w, -, hw⟩ := exists_item_of_mapM h info hinfo
    exact rounded_of_read_rating hw

/-- Ratings that were read are rounded. -/
theorem rounded_of_unmarshal {bytes : Bytes} {v : ValidatorRatings}
    (h : unmarshal? ValidatorRatings bytes = some v) :
    ∀ info ∈ v.infos, info.rating.Rounded := by
  obtain ⟨w, -, h⟩ := Option.bind_eq_some_iff.mp h
  obtain ⟨fields, -, h⟩ := Option.bind_eq_some_iff.mp h
  split at h
  · obtain ⟨shardId, -, h⟩ := Option.bind_eq_some_iff.mp h
    obtain ⟨indexId, -, h⟩ := Option.bind_eq_some_iff.mp h
    obtain ⟨infos, hinfos, h⟩ := Option.bind_eq_some_iff.mp h
    cases h
    exact rounded_of_infos hinfos
  · cases h

end Read

section Write

/-- What the text of a rating is read as: a finite rating as itself, an infinite one not at all. -/
theorem reread_rating {r : Rating} (hr : r.Rounded) :
    Reread r (if r.Finite then some r else none) := by
  obtain ⟨⟨negative, magnitude⟩⟩ := r
  cases magnitude with
  | infinite =>
    rw [if_neg (by simp [Rating.Finite])]
    exact ⟨_, Reads.infinite _ _, rfl⟩
  | finite m e =>
    obtain ⟨t, hproper, hprint, rfl, hnatural, hmagnitude⟩ :=
      Json.exists_token_of_finite negative (hr m e rfl)
    obtain ⟨x, hx, hconvert⟩ := Option.map_eq_some_iff.mp hmagnitude
    rw [if_pos (by simp [Rating.Finite])]
    refine ⟨_, Reads.number hproper hprint, ?_⟩
    simp only [ofWritten?, Json.NumberText.number?, hnatural, hx, Option.map_some, Rating.ofNumber,
      hconvert]

theorem reread_validatorRating {v : ValidatorRating} (hv : v.rating.Rounded) :
    Reread v (if v.rating.Finite then some v else none) := by
  obtain ⟨w₁, hreads₁, hw₁⟩ := Survives.ofString v.publicKey
  obtain ⟨w₂, hreads₂, hw₂⟩ := reread_rating hv
  refine Reread.record ["public_key", "rating"] (by decide) (fun _ => rfl) rfl rfl
    (.cons hreads₁ <| .cons hreads₂ .nil) ?_
  split at hw₂
  · next hfinite =>
    rw [if_pos hfinite]
    simp [field?, hw₁, hw₂]
  · next hinfinite =>
    rw [if_neg hinfinite]
    simp [field?, hw₁, hw₂]

theorem mapM_ite {α : Type} {p : α → Prop} [DecidablePred p] (items : List α) :
    items.mapM (fun a => if p a then some a else none)
      = if ∀ a ∈ items, p a then some items else none := by
  induction items with
  | nil => simp
  | cons a items ih =>
    rw [List.mapM_cons, ih]
    simp only [List.forall_mem_cons]
    by_cases ha : p a
    · by_cases hrest : ∀ b ∈ items, p b
      · rw [if_pos ha, if_pos hrest, if_pos ⟨ha, hrest⟩]
        rfl
      · rw [if_pos ha, if_neg hrest, if_neg fun h => hrest h.2]
        rfl
    · rw [if_neg ha, if_neg (show ¬(p a ∧ ∀ b ∈ items, p b) from fun h => ha h.1)]
      rfl

/-- What the text of ratings is read as: the ratings if all of them are finite, else nothing. -/
theorem reread_validatorRatings {v : ValidatorRatings}
    (hv : ∀ info ∈ v.infos, info.rating.Rounded) :
    Reread v (if ∀ info ∈ v.infos, info.rating.Finite then some v else none) := by
  obtain ⟨w₁, hreads₁, hw₁⟩ := Survives.ofUInt32 v.shardId
  obtain ⟨w₂, hreads₂, hw₂⟩ := Survives.ofString v.indexId
  obtain ⟨w₃, hreads₃, hw₃⟩ := Reread.list fun info hinfo => reread_validatorRating (hv info hinfo)
  rw [mapM_ite] at hw₃
  refine Reread.record ["shard_id", "index_id", "infos"] (by decide) (fun _ => rfl) rfl rfl
    (.cons hreads₁ <| .cons hreads₂ <| .cons hreads₃ .nil) ?_
  split at hw₃
  · next hfinite =>
    rw [if_pos hfinite]
    simp [field?, hw₁, hw₂, hw₃]
  · next hinfinite =>
    rw [if_neg hinfinite]
    simp [field?, hw₁, hw₂, hw₃]

end Write

section Texts

variable {bytes : Bytes} {v : ValidatorRatings}

/-- The text of ratings that were read is read as the same ratings, and refused if one of them is
infinite. -/
theorem unmarshal?_marshal_ratings (h : unmarshal? ValidatorRatings bytes = some v) :
    unmarshal? ValidatorRatings (marshal v)
      = if ∀ info ∈ v.infos, info.rating.Finite then some v else none :=
  (reread_validatorRatings (rounded_of_unmarshal h)).unmarshal?

/-- The text of ratings that were read is read again, and written as the same text, exactly if none
of them is infinite. -/
theorem ratings_survive_iff (h : unmarshal? ValidatorRatings bytes = some v) :
    (∃ w, unmarshal? ValidatorRatings (marshal v) = some w ∧ marshal w = marshal v) ↔
      ∀ info ∈ v.infos, info.rating.Finite := by
  rw [unmarshal?_marshal_ratings h]
  constructor
  · rintro ⟨w, hw, -⟩
    by_contra hinfinite
    rw [if_neg hinfinite] at hw
    cases hw
  · intro hfinite
    exact ⟨v, if_pos hfinite, rfl⟩

end Texts

/-- A tiny, a negative, an integral and a vanishing rating. -/
def sampleRatings : ValidatorRatings where
  infos := [⟨"a", ⟨⟨false, .finite 11420669 (-107)⟩⟩⟩, ⟨"b", ⟨⟨true, .finite 13421773 (-27)⟩⟩⟩,
    ⟨"c", ⟨⟨false, .finite 8388608 1⟩⟩⟩, ⟨"d", ⟨⟨false, .finite 0 (-149)⟩⟩⟩]

theorem ratings_survive_sample :
    unmarshal? ValidatorRatings (Text.utf8 ("[0,\"\",[[\"a\",7.038531e-26],[\"b\",-0.1]," ++
        "[\"c\",16777217],[\"d\",1e-46]]]")) = some sampleRatings ∧
      (∀ info ∈ sampleRatings.infos, info.rating.Finite) ∧
      ∃ w, unmarshal? ValidatorRatings (marshal sampleRatings) = some w ∧
        marshal w = marshal sampleRatings := by
  have h : unmarshal? ValidatorRatings (Text.utf8 ("[0,\"\",[[\"a\",7.038531e-26],[\"b\",-0.1]," ++
      "[\"c\",16777217],[\"d\",1e-46]]]")) = some sampleRatings := by decide +kernel
  have hfinite : ∀ info ∈ sampleRatings.infos, info.rating.Finite := by decide
  exact ⟨h, hfinite, (ratings_survive_iff h).mpr hfinite⟩

/-- A rating beyond single precision is accepted, but the text that is then written is refused. -/
theorem ratings_lost_on_overflow :
    ∃ v, unmarshal? ValidatorRatings (Text.utf8
        "\x7b\"infos\":[\x7b\"public_key\":\"k\",\"rating\":1e39\x7d]\x7d") = some v ∧
      unmarshal? ValidatorRatings (marshal v) = none :=
  ⟨⟨0, "", [⟨"k", ⟨⟨false, .infinite⟩⟩⟩]⟩, by decide +kernel, by decide +kernel⟩

end Marshal

end BlockFeed
