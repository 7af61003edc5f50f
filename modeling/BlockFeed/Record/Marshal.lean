import BlockFeed.Json.Value
import BlockFeed.Operation
import BlockFeed.Record.Basic

/-!
# Records as JSON

Writing records as JSON texts and reading them back.

## Main definitions

* `Marshal`: types with a JSON form.
* `Marshal.marshal`, `Marshal.unmarshal?`: the text of a record, and the record of a text.
* `Marshal.fields?`: the written fields of a record.

## Design notes

A record is written as an object, its fields in order. It is read from an object, whose unknown
members are passed over and in which no known field may stand twice, or from an array of its first
fields; fields that are not there take their defaults. Integers are plain integer tokens in range.
A rating is any number token, rounded to single precision; an infinite one is written `null`.
-/

namespace BlockFeed

open Json (Written StringText)

/-- Types with a JSON form. -/
class Marshal (α : Type) where
  /-- The JSON value that a value is written as. -/
  toJson : α → Json
  /-- The value that a tree is read as. -/
  ofWritten? : Written → Option α

namespace Marshal

def marshal {α : Type} [Marshal α] (a : α) : Bytes := (toJson a).print

def unmarshal? (α : Type) [Marshal α] (bs : Bytes) : Option α :=
  (Written.read? bs).bind ofWritten?

/-- The natural below `bound` that a tree writes as a plain integer token. -/
def natural? (bound : Nat) : Written → Option Nat
  | .number t => if t.negative then none else t.natural?.filter (· < bound)
  | _ => none

instance : Marshal UInt32 where
  toJson n := .number (.integer n.toNat)
  ofWritten? w := (natural? UInt32.size w).map UInt32.ofNat

instance : Marshal UInt64 where
  toJson n := .number (.integer n.toNat)
  ofWritten? w := (natural? UInt64.size w).map UInt64.ofNat

instance : Marshal Bool where
  toJson := .bool
  ofWritten?
    | .bool b => some b
    | _ => none

instance : Marshal String where
  toJson := .string
  ofWritten?
    | .string s => s.text?
    | _ => none

instance {α : Type} [Marshal α] : Marshal (List α) where
  toJson items := .array (items.map toJson)
  ofWritten?
    | .array items => items.mapM ofWritten?
    | _ => none

/-- The single-precision number that a number is rounded to. -/
def Rating.ofNumber : Json.Number → Rating
  | .integer i => ⟨⟨decide (i < 0), Binary.single.ofNat i.natAbs⟩⟩
  | .real _ x => ⟨⟨x.negative, Binary.single.convert x.magnitude⟩⟩

instance : Marshal Rating where
  toJson r := .number (.real .single r.value)
  ofWritten?
    | .number t => t.number?.map Rating.ofNumber
    | _ => none

/-- The natural below `2 ^ 32` that a key writes: digits without escapes, signs or leading
zeros. -/
def keyNatural? (k : StringText) : Option Nat := do
  let ds ← k.mapM fun
    | .byte b => Json.digitByte? b
    | _ => none
  match ds with
  | [] => none
  | 0 :: _ :: _ => none
  | ds => some (Json.digitsNat ds) |>.filter (· < UInt32.size)

/-- The map of an object whose keys are read by `key?`. -/
def map? {K α : Type} [LT K] [DecidableLT K] [Marshal α] (key? : StringText → Option K) :
    Written → Option (OrderedMap K α)
  | .object members =>
    (members.mapM fun (m : StringText × Written) => do
      return (← key? m.1, ← ofWritten? m.2)).map OrderedMap.ofList
  | _ => none

instance {α : Type} [Marshal α] : Marshal (OrderedMap UInt32 α) where
  toJson m := .object (m.entries.map fun e => (toString e.1.toNat, toJson e.2))
  ofWritten? := map? fun k => (keyNatural? k).map UInt32.ofNat

instance {α : Type} [Marshal α] : Marshal (OrderedMap String α) where
  toJson m := .object (m.entries.map fun e => (e.1, toJson e.2))
  ofWritten? := map? StringText.text?

/-- The trees under one key; `none` if there are two. -/
def member? (key : String) (members : List (String × Written)) : Option (Option Written) :=
  match members.filter fun m => m.1 == key with
  | [] => some none
  | [m] => some (some m.2)
  | _ => none

/-- The written fields of a record with the given field names, each `none` where it is left
out. -/
def fields? (names : List String) : Written → Option (List (Option Written))
  | .object members => do
    let members ← members.mapM fun m => m.1.text?.map fun k => (k, m.2)
    names.mapM fun n => member? n members
  | .array items =>
    if items.length ≤ names.length then
      some (items.map some ++ List.replicate (names.length - items.length) none)
    else none
  | _ => none

/-- The value of a field, its default where it is left out. -/
def field? {α : Type} [Marshal α] (default : α) : Option Written → Option α
  | none => some default
  | some w => ofWritten? w

instance : Marshal SavedBlock where
  toJson b := .object [("shard_id", toJson b.shardId), ("nonce", toJson b.nonce),
    ("round", toJson b.round), ("hash", toJson b.hash), ("transactions", toJson b.transactions),
    ("header", toJson b.header)]
  ofWritten? w := do
    let [shardId, nonce, round, hash, transactions, header] ←
      fields? ["shard_id", "nonce", "round", "hash", "transactions", "header"] w | none
    return ⟨← field? 0 shardId, ← field? 0 nonce, ← field? 0 round, ← field? "" hash,
      ← field? [] transactions, ← field? "" header⟩

instance : Marshal BlockRef where
  toJson b := .object [("shard_id", toJson b.shardId), ("nonce", toJson b.nonce),
    ("hash", toJson b.hash)]
  ofWritten? w := do
    let [shardId, nonce, hash] ← fields? ["shard_id", "nonce", "hash"] w | none
    return ⟨← field? 0 shardId, ← field? 0 nonce, ← field? "" hash⟩

instance : Marshal Round where
  toJson r := .object [("round", toJson r.round), ("signers_indexes", toJson r.signersIndexes),
    ("block_was_proposed", toJson r.blockWasProposed), ("shard_id", toJson r.shardId),
    ("epoch", toJson r.epoch), ("timestamp", toJson r.timestamp)]
  ofWritten? w := do
    let [round, signersIndexes, blockWasProposed, shardId, epoch, timestamp] ←
      fields? ["round", "signers_indexes", "block_was_proposed", "shard_id", "epoch",
        "timestamp"] w | none
    return ⟨← field? 0 round, ← field? [] signersIndexes, ← field? false blockWasProposed,
      ← field? 0 shardId, ← field? 0 epoch, ← field? 0 timestamp⟩

instance : Marshal RoundList where
  toJson r := .object [("shard_id", toJson r.shardId), ("rounds", toJson r.rounds)]
  ofWritten? w := do
    let [shardId, rounds] ← fields? ["shard_id", "rounds"] w | none
    return ⟨← field? 0 shardId, ← field? [] rounds⟩

instance : Marshal ValidatorKeys where
  toJson v := .object [("shard_id", toJson v.shardId), ("epoch", toJson v.epoch),
    ("shard_validators_pub_keys", toJson v.keysByShard)]
  ofWritten? w := do
    let [shardId, epoch, keys] ←
      fields? ["shard_id", "epoch", "shard_validators_pub_keys"] w | none
    return ⟨← field? 0 shardId, ← field? 0 epoch, ← field? {} keys⟩

instance : Marshal ValidatorRating where
  toJson v := .object [("public_key", toJson v.publicKey), ("rating", toJson v.rating)]
  ofWritten? w := do
    let [publicKey, rating] ← fields? ["public_key", "rating"] w | none
    return ⟨← field? "" publicKey, ← field? {} rating⟩

instance : Marshal ValidatorRatings where
  toJson v := .object [("shard_id", toJson v.shardId), ("index_id", toJson v.indexId),
    ("infos", toJson v.infos)]
  ofWritten? w := do
    let [shardId, indexId, infos] ← fields? ["shard_id", "index_id", "infos"] w | none
    return ⟨← field? 0 shardId, ← field? "" indexId, ← field? [] infos⟩

instance : Marshal Account where
  toJson a := .object [("address", toJson a.address), ("balance", toJson a.balance),
    ("nonce", toJson a.nonce)]
  ofWritten? w := do
    let [address, balance, nonce] ← fields? ["address", "balance", "nonce"] w | none
    return ⟨← field? "" address, ← field? "" balance, ← field? 0 nonce⟩

instance : Marshal AccountChanges where
  toJson a := .object [("shard_id", toJson a.shardId),
    ("block_timestamp", toJson a.blockTimestamp), ("altered_accounts", toJson a.alteredAccounts)]
  ofWritten? w := do
    let [shardId, blockTimestamp, accounts] ←
      fields? ["shard_id", "block_timestamp", "altered_accounts"] w | none
    return ⟨← field? 0 shardId, ← field? 0 blockTimestamp, ← field? {} accounts⟩

instance : Marshal FinalBlock where
  toJson b := .object [("shard_id", toJson b.shardId), ("header_hash", toJson b.headerHash)]
  ofWritten? w := do
    let [shardId, headerHash] ← fields? ["shard_id", "header_hash"] w | none
    return ⟨← field? 0 shardId, ← field? "" headerHash⟩

instance : Marshal FeedSettings where
  toJson s := .object [("hashing_type", toJson s.hashingType),
    ("marshaller_type", toJson s.marshallerType)]
  ofWritten? w := do
    let [hashingType, marshallerType] ← fields? ["hashing_type", "marshaller_type"] w | none
    return ⟨← field? "" hashingType, ← field? "" marshallerType⟩

instance : Marshal Operation where
  toJson op := .string op.name
  ofWritten?
    | .string s => s.text?.bind Operation.ofName?
    | .object [(k, .null)] => k.text?.bind Operation.ofName?
    | _ => none

end Marshal

end BlockFeed
