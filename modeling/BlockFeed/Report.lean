import BlockFeed.FeedError
import BlockFeed.Record.Marshal

/-!
# Reports

What a producer has to tell, and the payload that tells it: the data of an operation in an
envelope.

## Main definitions

* `Marshaler`: how values are written, under a name that is announced to consumers.
* `Report`: an operation with its data.
* `Report.read?`: the report of an operation whose data is a JSON text.
* `Report.payload`: the payload of a report.
* `Report.submit`: a report put into the hands of a transport.
-/

namespace BlockFeed

/-- How values are written. -/
structure Marshaler where
  name : String
  /-- The data of a value, or why it has none. -/
  marshal : Json → Except String Bytes

def Marshaler.json : Marshaler := ⟨"json", fun v => .ok v.print⟩

def Marshaler.settings (m : Marshaler) (hashing : String) : FeedSettings :=
  { hashingType := hashing, marshallerType := m.name }

/-- An operation with its data. -/
inductive Report where
  | saveBlock (block : SavedBlock)
  | revertIndexedBlock (block : BlockRef)
  | saveRoundsInfo (rounds : RoundList)
  | saveValidatorsPubKeys (keys : ValidatorKeys)
  | saveValidatorsRating (ratings : ValidatorRatings)
  | saveAccounts (changes : AccountChanges)
  | finalizedBlock (block : FinalBlock)
  | settings (settings : FeedSettings)
  | value (operation : Operation) (value : Json)
  | raw (operation : Operation) (data : Bytes)

namespace Report

def operation : Report → Operation
  | saveBlock _ => .saveBlock
  | revertIndexedBlock _ => .revertIndexedBlock
  | saveRoundsInfo _ => .saveRoundsInfo
  | saveValidatorsPubKeys _ => .saveValidatorsPubKeys
  | saveValidatorsRating _ => .saveValidatorsRating
  | saveAccounts _ => .saveAccounts
  | finalizedBlock _ => .finalizedBlock
  | settings _ => .settings
  | value op _ => op
  | raw op _ => op

def data (m : Marshaler) : Report → Except String Bytes
  | saveBlock v => m.marshal (Marshal.toJson v)
  | revertIndexedBlock v => m.marshal (Marshal.toJson v)
  | saveRoundsInfo v => m.marshal (Marshal.toJson v)
  | saveValidatorsPubKeys v => m.marshal (Marshal.toJson v)
  | saveValidatorsRating v => m.marshal (Marshal.toJson v)
  | saveAccounts v => m.marshal (Marshal.toJson v)
  | finalizedBlock v => m.marshal (Marshal.toJson v)
  | settings v => m.marshal (Marshal.toJson v)
  | value _ v => m.marshal v
  | raw _ data => .ok data

/-- The report of an operation whose data is a JSON text. -/
def read? (op : Operation) (text : Bytes) : Option Report :=
  match op with
  | .saveBlock => (Marshal.unmarshal? SavedBlock text).map saveBlock
  | .revertIndexedBlock => (Marshal.unmarshal? BlockRef text).map revertIndexedBlock
  | .saveRoundsInfo => (Marshal.unmarshal? RoundList text).map saveRoundsInfo
  | .saveValidatorsPubKeys => (Marshal.unmarshal? ValidatorKeys text).map saveValidatorsPubKeys
  | .saveValidatorsRating => (Marshal.unmarshal? ValidatorRatings text).map saveValidatorsRating
  | .saveAccounts => (Marshal.unmarshal? AccountChanges text).map saveAccounts
  | .finalizedBlock => (Marshal.unmarshal? FinalBlock text).map finalizedBlock
  | .settings => (Marshal.unmarshal? FeedSettings text).map settings

def payload (m : Marshaler) (r : Report) : Except FeedError Bytes :=
  match r.data m with
  | .error message => .error (.marshal r.operation message)
  | .ok data =>
    match Envelope.encode ⟨r.operation.tag, data⟩ with
    | .error e => .error (.envelope e)
    | .ok bytes => .ok bytes

/-- Put a report into the hands of a transport with a state of its own. -/
def submit {S : Type} (m : Marshaler) (send : Bytes → S → Except SendError Unit × S)
    (r : Report) (s : S) : Except FeedError Unit × S :=
  match r.payload m with
  | .error e => (.error e, s)
  | .ok bytes =>
    match send bytes s with
    | (.ok (), s) => (.ok (), s)
    | (.error e, s) => (.error (.send e), s)

end Report

end BlockFeed
