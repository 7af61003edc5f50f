import BlockFeed.Text.Blank
import BlockFeed.Text.Digits
import BlockFeed.Text.Lowercase

/-!
# Operations

What a producer reports to its consumers, each operation under a tag and a name.

## Main definitions

* `Operation`: the operations, with `Operation.tag` and `Operation.name`.
* `Operation.ofTag?`: the operation under a tag.
* `Operation.parse`: the operation that a text names, by tag or by name.

## Design notes

A text is trimmed first. If the rest is a number below `2 ^ 32` (an optional plus sign and ASCII
digits), it names an operation by tag and nothing else; otherwise it names one by name, in any
ASCII case.
-/

namespace BlockFeed

/-- What a producer reports. -/
inductive Operation where
  | saveBlock
  | revertIndexedBlock
  | saveRoundsInfo
  | saveValidatorsPubKeys
  | saveValidatorsRating
  | saveAccounts
  | finalizedBlock
  | settings
  deriving DecidableEq, Repr

/-- Why a tag or a text names no operation. -/
inductive OperationError where
  | unknownTag (tag : UInt32)
  | unknownName (name : String)
  deriving DecidableEq, Repr

namespace Operation

/-- The operations, in the order of their tags. -/
def all : List Operation :=
  [saveBlock, revertIndexedBlock, saveRoundsInfo, saveValidatorsPubKeys, saveValidatorsRating,
    saveAccounts, finalizedBlock, settings]

def tag : Operation → UInt32
  | saveBlock => 0
  | revertIndexedBlock => 1
  | saveRoundsInfo => 2
  | saveValidatorsPubKeys => 3
  | saveValidatorsRating => 4
  | saveAccounts => 5
  | finalizedBlock => 6
  | settings => 7

def name : Operation → String
  | saveBlock => "save_block"
  | revertIndexedBlock => "revert_indexed_block"
  | saveRoundsInfo => "save_rounds_info"
  | saveValidatorsPubKeys => "save_validators_pub_keys"
  | saveValidatorsRating => "save_validators_rating"
  | saveAccounts => "save_accounts"
  | finalizedBlock => "finalized_block"
  | settings => "settings"

def ofTag? (t : UInt32) : Option Operation := all.find? fun op => op.tag == t

def ofName? (n : String) : Option Operation := all.find? fun op => op.name == n

/-- The operation under a tag, or the error that no operation has it. -/
def ofTag (t : UInt32) : Except OperationError Operation :=
  match ofTag? t with
  | some op => .ok op
  | none => .error (.unknownTag t)

/-- The operation that a text names, by tag or by name. -/
def parse (s : String) : Except OperationError Operation :=
  let t := Text.trim s
  match Text.unsigned? UInt32.size t with
  | some n => ofTag (UInt32.ofNat n)
  | none =>
    match ofName? (Text.lowerAscii t) with
    | some op => .ok op
    | none => .error (.unknownName t)

theorem mem_all (op : Operation) : op ∈ all := by cases op <;> decide

@[simp] theorem ofTag?_tag (op : Operation) : ofTag? op.tag = some op := by cases op <;> decide

end Operation

end BlockFeed
