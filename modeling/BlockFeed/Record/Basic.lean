import BlockFeed.Binary.Rounding
import BlockFeed.OrderedMap

/-!
# Records

The data that operations carry.

## Main definitions

* `SavedBlock`, `BlockRef`, `RoundList`, `ValidatorKeys`, `ValidatorRatings`, `AccountChanges`,
  `FinalBlock`, `FeedSettings`: one record for each kind of operation.
-/

namespace BlockFeed

/-- A single-precision number. -/
structure Rating where
  value : Binary.Number := ⟨false, Binary.single.zero⟩
  deriving DecidableEq, Repr, Inhabited

/-- A block with its transactions and its header. -/
structure SavedBlock where
  shardId : UInt32 := 0
  /-- The number of the block in its shard. -/
  nonce : UInt64 := 0
  round : UInt64 := 0
  hash : String := ""
  transactions : List String := []
  header : String := ""
  deriving DecidableEq, Repr, Inhabited

/-- A block, by its number and hash. -/
structure BlockRef where
  shardId : UInt32 := 0
  /-- The number of the block in its shard. -/
  nonce : UInt64 := 0
  hash : String := ""
  deriving DecidableEq, Repr, Inhabited

/-- A round of a shard. -/
structure Round where
  round : UInt64 := 0
  /-- The places of the validators that signed. -/
  signersIndexes : List UInt64 := []
  blockWasProposed : Bool := false
  shardId : UInt32 := 0
  epoch : UInt32 := 0
  timestamp : UInt64 := 0
  deriving DecidableEq, Repr, Inhabited

/-- Rounds of a shard. -/
structure RoundList where
  shardId : UInt32 := 0
  rounds : List Round := []
  deriving DecidableEq, Repr, Inhabited

/-- The public keys of the validators of an epoch, by shard. -/
structure ValidatorKeys where
  shardId : UInt32 := 0
  epoch : UInt32 := 0
  keysByShard : OrderedMap UInt32 (List String) := {}

/-- The rating of one validator. -/
structure ValidatorRating where
  publicKey : String := ""
  rating : Rating := {}
  deriving DecidableEq, Repr, Inhabited

/-- Ratings of validators. -/
structure ValidatorRatings where
  shardId : UInt32 := 0
  indexId : String := ""
  infos : List ValidatorRating := []
  deriving DecidableEq, Repr, Inhabited

/-- An account after a block. -/
structure Account where
  address : String := ""
  balance : String := ""
  nonce : UInt64 := 0
  deriving DecidableEq, Repr, Inhabited

/-- The accounts that a block changed, by address. -/
structure AccountChanges where
  shardId : UInt32 := 0
  blockTimestamp : UInt64 := 0
  alteredAccounts : OrderedMap String Account := {}

/-- A block that can no longer be reverted. -/
structure FinalBlock where
  shardId : UInt32 := 0
  headerHash : String := ""
  deriving DecidableEq, Repr, Inhabited

/-- How the data of a feed is hashed and written. -/
structure FeedSettings where
  hashingType : String := ""
  marshallerType : String := ""
  deriving DecidableEq, Repr, Inhabited

end BlockFeed
