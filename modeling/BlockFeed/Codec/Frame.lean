import BlockFeed.Codec.BigEndian
import BlockFeed.Text.Hex

/-!
# Frames and acknowledgments

The two messages of a link. A frame carries a payload under a counter and says whether its
receiver is to acknowledge it; an acknowledgment is the counter alone.

| message        | layout                                            |
|----------------|---------------------------------------------------|
| frame          | flag (1 byte, 0 or 1), counter (8 bytes), payload |
| acknowledgment | counter (8 bytes)                                 |

## Main definitions

* `CodecError`: why a byte string is not a message, with its wording.
* `Frame.encode`, `Frame.decode`; `Ack.encode`, `Ack.decode`.

## Design notes

A frame has at least nine bytes and an acknowledgment exactly eight, so no byte string is both.
-/

namespace BlockFeed

/-- Why a byte string is not a message, or a payload cannot become one. -/
inductive CodecError where
  /-- Fewer bytes than the fixed part of the message. -/
  | tooShort (actual minimum : Nat)
  /-- The first byte of a frame is neither 0 nor 1. -/
  | invalidFlag (flag : UInt8)
  /-- An acknowledgment that is not eight bytes long. -/
  | invalidAckLength (length : Nat)
  /-- An envelope whose data is not as long as it says. -/
  | lengthMismatch (declared actual : Nat)
  | payloadTooLarge (length : Nat)
  deriving DecidableEq, Repr

namespace CodecError

def message : CodecError → String
  | tooShort actual minimum =>
    "frame too short: " ++ toString actual ++ " bytes, need at least " ++ toString minimum
  | invalidFlag flag => "invalid acknowledgment flag 0x" ++ Text.hexByte flag
  | invalidAckLength length =>
    "invalid acknowledgment length " ++ toString length ++ ", expected 8"
  | lengthMismatch declared actual =>
    "payload length mismatch: declared " ++ toString declared ++ ", actual " ++ toString actual
  | payloadTooLarge length =>
    "payload of " ++ toString length ++ " bytes exceeds the envelope length limit"

end CodecError

/-- A payload under a counter, with the wish for an acknowledgment. -/
structure Frame where
  /-- Whether the receiver is to acknowledge the frame. -/
  ackRequested : Bool
  counter : UInt64
  payload : Bytes
  deriving DecidableEq, Repr

namespace Frame

/-- The bytes of a frame before its payload. -/
def headerLength : Nat := 9

def flag (ackRequested : Bool) : UInt8 := if ackRequested then 1 else 0

def encode (f : Frame) : Bytes :=
  flag f.ackRequested :: BigEndian.encode 8 f.counter.toNat ++ f.payload

/-- The frame that a byte string writes; the length is checked before the flag. -/
def decode : Bytes → Except CodecError Frame
  | [] => .error (.tooShort 0 headerLength)
  | b :: rest =>
    if rest.length < 8 then .error (.tooShort (rest.length + 1) headerLength)
    else
      let counter := UInt64.ofNat (BigEndian.decode (rest.take 8))
      if b = 0 then .ok ⟨false, counter, rest.drop 8⟩
      else if b = 1 then .ok ⟨true, counter, rest.drop 8⟩
      else .error (.invalidFlag b)

end Frame

namespace Ack

def encode (counter : UInt64) : Bytes := BigEndian.encode 8 counter.toNat

def decode (bs : Bytes) : Except CodecError UInt64 :=
  if bs.length = 8 then .ok (UInt64.ofNat (BigEndian.decode bs))
  else .error (.invalidAckLength bs.length)

end Ack

end BlockFeed
