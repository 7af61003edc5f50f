import BlockFeed.Codec.Frame

/-!
# Envelopes

An envelope names an operation by its tag and carries that operation's data: tag (4 bytes),
length of the data (4 bytes), data.

## Main definitions

* `Envelope.encode`, `Envelope.decode`.

## Design notes

The tag is any 32-bit word here: whether it names a known operation is for the reader of the
envelope to say. The declared length must be the length of the data exactly.
-/

namespace BlockFeed

/-- The data of an operation under the operation's tag. -/
structure Envelope where
  tag : UInt32
  data : Bytes
  deriving DecidableEq, Repr

namespace Envelope

/-- The bytes of an envelope before its data. -/
def headerLength : Nat := 8

/-- The bytes of an envelope, if its data is short enough to declare. -/
def encode (e : Envelope) : Except CodecError Bytes :=
  if e.data.length < UInt32.size then
    .ok (BigEndian.encode 4 e.tag.toNat ++ BigEndian.encode 4 e.data.length ++ e.data)
  else .error (.payloadTooLarge e.data.length)

def decode (bs : Bytes) : Except CodecError Envelope :=
  if bs.length < headerLength then .error (.tooShort bs.length headerLength)
  else
    let declared := BigEndian.decode ((bs.drop 4).take 4)
    let data := bs.drop 8
    if data.length = declared then .ok ⟨UInt32.ofNat (BigEndian.decode (bs.take 4)), data⟩
    else .error (.lengthMismatch declared data.length)

end Envelope

end BlockFeed
