import BlockFeed.Proofs.Json.Trees
import BlockFeed.Proofs.OrderedMap
import BlockFeed.Report

/-!
# Records read back

What is marshaled is unmarshaled as the same value, for every record without floating-point
fields.

## Main definitions

* `Marshal.Reread`: what the text of a value is read as.
* `Marshal.Survives`: the text of a value is read back as that value.

## Main results

* `Reread.list`, `Reread.record`, `Survives.map?`: lists, records and maps are reread by their
  parts.
* `Marshal.records_survive`.
-/

namespace BlockFeed

namespace Marshal

open Json (Written StringText Reads)

/-- The text of a value is read as `r`, which is `none` if the text is refused. -/
def Reread {α : Type} [Marshal α] (a : α) (r : Option α) : Prop :=
  ∃ w, Reads (toJson a) w ∧ ofWritten? w = r

/-- The text of a value is read back as that value. -/
def Survives {α : Type} [Marshal α] (a : α) : Prop := Reread a (some a)

theorem Reread.unmarshal? {α : Type} [Marshal α] {a : α} {r : Option α} (h : Reread a r) :
    unmarshal? α (marshal a) = r := by
  obtain ⟨w, hreads, hw⟩ := h
  rw [Marshal.unmarshal?, marshal, hreads.read?, Option.bind_some, hw]

theorem mapM_of_forall₂ {α β : Type} {f : α → Option β} {as : List α} (bs : List β)
    (h : List.Forall₂ (fun a b => f a = some b) as bs) : as.mapM f = some bs := by
  induction h with
  | nil => rfl
  | cons ha _ ih => rw [List.mapM_cons, ha, ih]; rfl

theorem natural?_ofNat {n bound : Nat} (h : n < bound) (hbound : bound ≤ UInt64.size) :
    natural? bound (.number (.ofNat n)) = some n := by
  have hn := Json.NumberText.natural?_ofNat (Nat.lt_of_lt_of_le h hbound)
  have hpositive : (Json.NumberText.ofNat n).negative = false := rfl
  simp [natural?, hn, hpositive, h]

/-- The pieces of a digit are the digit itself. -/
theorem pieceOf_digit : ∀ d < 10,
    Json.pieceOf (UInt8.ofNat (0x30 + d)) = .byte (UInt8.ofNat (0x30 + d)) := by decide

/-- The digits of a natural are read as a key. -/
theorem keyNatural?_ofText {n : Nat} (h : n < UInt32.size) :
    keyNatural? (.ofText (toString n)) = some n := by
  rw [keyNatural?, StringText.ofText, Text.utf8_toString, Text.digitBytes, List.map_map,
    mapM_of_forall₂ (Text.decimal n), Option.bind_eq_bind, Option.bind_some]
  · split
    · next heq => exact absurd heq (Text.decimal_ne_nil n)
    · next heq => exact absurd heq (Json.NumberText.decimal_ne_zero_cons n _ _)
    · simp [h]
  · refine List.forall₂_map_left_iff.mpr (List.forall₂_same.mpr fun d hd => ?_)
    have hd := Text.lt_of_mem_decimal n d hd
    simp only [Function.comp_apply, pieceOf_digit d hd, Json.digitByte?_digit d hd]

/-- Under distinct keys each key finds its own entry alone. -/
theorem filter_key {members : List (String × Written)} (hnodup : (members.map Prod.fst).Nodup)
    {key : String} {w : Written} (h : (key, w) ∈ members) :
    members.filter (fun m => m.1 == key) = [(key, w)] := by
  induction members with
  | nil => exact absurd h List.not_mem_nil
  | cons m rest ih =>
    obtain ⟨hm, hrest⟩ := List.nodup_cons.mp hnodup
    rcases List.mem_cons.mp h with rfl | h
    · have hnone : rest.filter (fun m => m.1 == key) = [] := by
        rw [List.filter_eq_nil_iff]
        rintro m hmem heq
        exact hm (List.mem_map.mpr ⟨m, hmem, by simpa using heq⟩)
      rw [List.filter_cons_of_pos (by simp), hnone]
    · have hne : m.1 ≠ key := by
        rintro rfl
        exact hm (List.mem_map.mpr ⟨_, h, rfl⟩)
      rw [List.filter_cons_of_neg (by simpa using hne), ih hrest h]

/-- The fields of an object with exactly the names of a record. -/
theorem fields?_object {names : List String} {ws : List Written} (hnodup : names.Nodup)
    (hlen : names.length = ws.length) :
    fields? names (.object ((names.map .ofText).zip ws)) = some (ws.map some) := by
  have hkeys : (names.zip ws).map Prod.fst = names := List.map_fst_zip hlen.le
  have hmembers : ((names.map StringText.ofText).zip ws).mapM
      (fun m => m.1.text?.map fun k => (k, m.2)) = some (names.zip ws) := by
    rw [List.zip_map_left]
    refine mapM_of_forall₂ _ (List.forall₂_map_left_iff.mpr (List.forall₂_same.mpr ?_))
    rintro ⟨n, w⟩ -
    simp
  have hfields : names.mapM (fun n => member? n (names.zip ws)) = some (ws.map some) := by
    refine mapM_of_forall₂ _ (List.forall₂_map_right_iff.mpr (List.forall₂_iff_zip.mpr ?_))
    refine ⟨hlen, fun {n w} hmem => ?_⟩
    rw [member?, filter_key (hkeys.symm ▸ hnodup) hmem]
  simp only [fields?, hmembers, hfields, Option.bind_eq_bind, Option.bind_some]

namespace Reread

theorem list {α : Type} [Marshal α] {items : List α} {read : α → Option α}
    (h : ∀ a ∈ items, Reread a (read a)) : Reread items (items.mapM read) := by
  have : Nonempty Written := ⟨.null⟩
  choose! tree hreads hread using h
  refine ⟨.array (items.map tree), Reads.array ?_, ?_⟩
  · exact List.forall₂_map_left_iff.mpr (List.forall₂_map_right_iff.mpr
      (List.forall₂_same.mpr hreads))
  · clear hreads
    induction items with
    | nil => rfl
    | cons a items ih =>
      have ih : (items.map tree).mapM ofWritten? = items.mapM read :=
        ih fun b hb => hread b (List.mem_cons_of_mem a hb)
      change ((a :: items).map tree).mapM ofWritten? = _
      rw [List.map_cons, List.mapM_cons, List.mapM_cons, hread a List.mem_cons_self, ih]

/-- A record that is written as an object is built from its written fields. -/
theorem record {α : Type} [Marshal α] {a : α} {r : Option α} (names : List String)
    (hnodup : names.Nodup) {build : List (Option Written) → Option α}
    (hbuild : ∀ w, ofWritten? w = (fields? names w).bind build)
    {values : List Json} {ws : List Written} (hjson : toJson a = .object (names.zip values))
    (hlen : names.length = values.length) (hreads : List.Forall₂ Reads values ws)
    (hread : build (ws.map some) = r) : Reread a r := by
  have hws : names.length = ws.length := hlen.trans hreads.length_eq
  refine ⟨.object ((names.map .ofText).zip ws), ?_, ?_⟩
  · rw [hjson]
    refine Reads.object ?_
    clear hjson hbuild hread hnodup
    induction names generalizing values ws with
    | nil => exact .nil
    | cons n names ih =>
      cases hreads with
      | nil => cases hlen
      | cons hv hrest =>
        exact .cons ⟨rfl, hv⟩ (ih (by simpa using hlen) hrest (by simpa using hws))
  · rw [hbuild, fields?_object hnodup hws, Option.bind_some, hread]

end Reread

namespace Survives

theorem ofUInt32 (n : UInt32) : Survives n := by
  refine ⟨_, Reads.number (Json.NumberText.proper_ofNat _)
    (Json.NumberText.printNumber_natural n.toNat), ?_⟩
  have hn := natural?_ofNat n.toNat_lt (by decide : UInt32.size ≤ UInt64.size)
  simp only [ofWritten?, hn, Option.map_some, UInt32.ofNat_toNat]

theorem ofUInt64 (n : UInt64) : Survives n := by
  refine ⟨_, Reads.number (Json.NumberText.proper_ofNat _)
    (Json.NumberText.printNumber_natural n.toNat), ?_⟩
  have hn := natural?_ofNat n.toNat_lt (Nat.le_refl UInt64.size)
  simp only [ofWritten?, hn, Option.map_some, UInt64.ofNat_toNat]

theorem ofBool (b : Bool) : Survives b := ⟨_, Reads.bool b, rfl⟩

theorem ofString (s : String) : Survives s :=
  ⟨_, Reads.string s, Json.StringText.text?_ofText s⟩

theorem list {α : Type} [Marshal α] {items : List α} (h : ∀ a ∈ items, Survives a) :
    Survives items := by
  have hsome : items.mapM some = some items :=
    mapM_of_forall₂ items (List.forall₂_same.mpr fun _ _ => rfl)
  rw [Survives, ← hsome]
  exact Reread.list h

/-- A map survives if its keys are read back and its values survive. -/
theorem map? {K α : Type} [LT K] [DecidableLT K] [Trans (α := K) (· < ·) (· < ·) (· < ·)]
    [Std.Asymm (α := K) (· < ·)] [Marshal α] (key? : StringText → Option K) (name : K → String)
    (hkey : ∀ k, key? (.ofText (name k)) = some k) {m : OrderedMap K α}
    (h : ∀ e ∈ m.entries, Survives e.2) :
    ∃ w, Reads (.object (m.entries.map fun e => (name e.1, toJson e.2))) w ∧
      Marshal.map? key? w = some m := by
  have : Nonempty Written := ⟨.null⟩
  choose! tree hreads hread using h
  refine ⟨.object (m.entries.map fun e => (.ofText (name e.1), tree e)), Reads.object ?_, ?_⟩
  · exact List.forall₂_map_left_iff.mpr (List.forall₂_map_right_iff.mpr
      (List.forall₂_same.mpr fun e he => ⟨rfl, hreads e he⟩))
  · rw [Marshal.map?, mapM_of_forall₂ m.entries, Option.map_some,
      OrderedMap.ofList_entries]
    refine List.forall₂_map_left_iff.mpr (List.forall₂_same.mpr fun e he => ?_)
    simp [hkey, hread e he]

theorem ofUInt32Map {α : Type} [Marshal α] {m : OrderedMap UInt32 α}
    (h : ∀ e ∈ m.entries, Survives e.2) : Survives m := by
  refine map? (fun k => (keyNatural? k).map UInt32.ofNat) (fun k => toString k.toNat) ?_ h
  intro k
  rw [keyNatural?_ofText k.toNat_lt, Option.map_some, UInt32.ofNat_toNat]

theorem ofStringMap {α : Type} [Marshal α] {m : OrderedMap String α}
    (h : ∀ e ∈ m.entries, Survives e.2) : Survives m :=
  map? StringText.text? id StringText.text?_ofText h

theorem ofSavedBlock (b : SavedBlock) : Survives b := by
  obtain ⟨w₁, hreads₁, hw₁⟩ := ofUInt32 b.shardId
  obtain ⟨w₂, hreads₂, hw₂⟩ := ofUInt64 b.nonce
  obtain ⟨w₃, hreads₃, hw₃⟩ := ofUInt64 b.round
  obtain ⟨w₄, hreads₄, hw₄⟩ := ofString b.hash
  obtain ⟨w₅, hreads₅, hw₅⟩ := list fun s (_ : s ∈ b.transactions) => ofString s
  obtain ⟨w₆, hreads₆, hw₆⟩ := ofString b.header
  exact Reread.record ["shard_id", "nonce", "round", "hash", "transactions",
      "header"] (by decide) (fun _ => rfl) rfl rfl
    (.cons hreads₁ <| .cons hreads₂ <| .cons hreads₃ <| .cons hreads₄ <| .cons hreads₅ <|
      .cons hreads₆ .nil)
    (by simp [field?, hw₁, hw₂, hw₃, hw₄, hw₅, hw₆])

theorem ofBlockRef (b : BlockRef) : Survives b := by
  obtain ⟨w₁, hreads₁, hw₁⟩ := ofUInt32 b.shardId
  obtain ⟨w₂, hreads₂, hw₂⟩ := ofUInt64 b.nonce
  obtain ⟨w₃, hreads₃, hw₃⟩ := ofString b.hash
  exact Reread.record ["shard_id", "nonce", "hash"] (by decide) (fun _ => rfl) rfl rfl
    (.cons hreads₁ <| .cons hreads₂ <| .cons hreads₃ .nil)
    (by simp [field?, hw₁, hw₂, hw₃])

theorem ofRound (r : Round) : Survives r := by
  obtain ⟨w₁, hreads₁, hw₁⟩ := ofUInt64 r.round
  obtain ⟨w₂, hreads₂, hw₂⟩ := list fun n (_ : n ∈ r.signersIndexes) => ofUInt64 n
  obtain ⟨w₃, hreads₃, hw₃⟩ := ofBool r.blockWasProposed
  obtain ⟨w₄, hreads₄, hw₄⟩ := ofUInt32 r.shardId
  obtain ⟨w₅, hreads₅, hw₅⟩ := ofUInt32 r.epoch
  obtain ⟨w₆, hreads₆, hw₆⟩ := ofUInt64 r.timestamp
  exact Reread.record ["round", "signers_indexes", "block_was_proposed", "shard_id", "epoch",
      "timestamp"] (by decide) (fun _ => rfl) rfl rfl
    (.cons hreads₁ <| .cons hreads₂ <| .cons hreads₃ <| .cons hreads₄ <| .cons hreads₅ <|
      .cons hreads₆ .nil)
    (by simp [field?, hw₁, hw₂, hw₃, hw₄, hw₅, hw₆])

theorem ofRoundList (r : RoundList) : Survives r := by
  obtain ⟨w₁, hreads₁, hw₁⟩ := ofUInt32 r.shardId
  obtain ⟨w₂, hreads₂, hw₂⟩ := list fun x (_ : x ∈ r.rounds) => ofRound x
  exact Reread.record ["shard_id", "rounds"] (by decide) (fun _ => rfl) rfl rfl
    (.cons hreads₁ <| .cons hreads₂ .nil)
    (by simp [field?, hw₁, hw₂])

theorem ofValidatorKeys (v : ValidatorKeys) : Survives v := by
  obtain ⟨w₁, hreads₁, hw₁⟩ := ofUInt32 v.shardId
  obtain ⟨w₂, hreads₂, hw₂⟩ := ofUInt32 v.epoch
  obtain ⟨w₃, hreads₃, hw₃⟩ :=
    ofUInt32Map fun e (_ : e ∈ v.keysByShard.entries) => list fun s _ => ofString s
  exact Reread.record ["shard_id", "epoch", "shard_validators_pub_keys"] (by decide)
    (fun _ => rfl) rfl rfl
    (.cons hreads₁ <| .cons hreads₂ <| .cons hreads₃ .nil)
    (by simp [field?, hw₁, hw₂, hw₃])

theorem ofAccount (a : Account) : Survives a := by
  obtain ⟨w₁, hreads₁, hw₁⟩ := ofString a.address
  obtain ⟨w₂, hreads₂, hw₂⟩ := ofString a.balance
  obtain ⟨w₃, hreads₃, hw₃⟩ := ofUInt64 a.nonce
  exact Reread.record ["address", "balance", "nonce"] (by decide) (fun _ => rfl) rfl rfl
    (.cons hreads₁ <| .cons hreads₂ <| .cons hreads₃ .nil)
    (by simp [field?, hw₁, hw₂, hw₃])

theorem ofAccountChanges (a : AccountChanges) : Survives a := by
  obtain ⟨w₁, hreads₁, hw₁⟩ := ofUInt32 a.shardId
  obtain ⟨w₂, hreads₂, hw₂⟩ := ofUInt64 a.blockTimestamp
  obtain ⟨w₃, hreads₃, hw₃⟩ :=
    ofStringMap fun e (_ : e ∈ a.alteredAccounts.entries) => ofAccount e.2
  exact Reread.record ["shard_id", "block_timestamp",
      "altered_accounts"] (by decide) (fun _ => rfl) rfl rfl
    (.cons hreads₁ <| .cons hreads₂ <| .cons hreads₃ .nil)
    (by simp [field?, hw₁, hw₂, hw₃])

theorem ofFinalBlock (b : FinalBlock) : Survives b := by
  obtain ⟨w₁, hreads₁, hw₁⟩ := ofUInt32 b.shardId
  obtain ⟨w₂, hreads₂, hw₂⟩ := ofString b.headerHash
  exact Reread.record ["shard_id", "header_hash"] (by decide) (fun _ => rfl) rfl rfl
    (.cons hreads₁ <| .cons hreads₂ .nil)
    (by simp [field?, hw₁, hw₂])

theorem ofFeedSettings (s : FeedSettings) : Survives s := by
  obtain ⟨w₁, hreads₁, hw₁⟩ := ofString s.hashingType
  obtain ⟨w₂, hreads₂, hw₂⟩ := ofString s.marshallerType
  exact Reread.record ["hashing_type", "marshaller_type"] (by decide) (fun _ => rfl) rfl rfl
    (.cons hreads₁ <| .cons hreads₂ .nil)
    (by simp [field?, hw₁, hw₂])

end Survives

/-- Every value of a type is marshaled, and its text is read back as that value. -/
def Faithful (α : Type) [Marshal α] : Prop :=
  ∀ a : α, ∃ bytes, Marshaler.json.marshal (toJson a) = .ok bytes ∧ unmarshal? α bytes = some a

theorem Faithful.of_survives {α : Type} [Marshal α] (h : ∀ a : α, Survives a) : Faithful α :=
  fun a => ⟨_, rfl, Reread.unmarshal? (h a)⟩

/-- Every record without floating-point fields is marshaled and read back as it was. -/
theorem records_survive :
    Faithful SavedBlock ∧ Faithful BlockRef ∧ Faithful RoundList ∧ Faithful ValidatorKeys ∧
      Faithful AccountChanges ∧ Faithful FinalBlock ∧ Faithful FeedSettings :=
  ⟨.of_survives Survives.ofSavedBlock, .of_survives Survives.ofBlockRef,
    .of_survives Survives.ofRoundList, .of_survives Survives.ofValidatorKeys,
    .of_survives Survives.ofAccountChanges, .of_survives Survives.ofFinalBlock,
    .of_survives Survives.ofFeedSettings⟩

end Marshal

end BlockFeed
