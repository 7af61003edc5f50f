import BlockFeed.Codec.Envelope
import BlockFeed.Link.Error
import BlockFeed.Operation
import BlockFeed.Text.Quoted

/-!
# Errors of a feed

What can go wrong between an operation and the link that carries it.

## Main definitions

* `FeedError`: failures of producing or consuming an operation, with `FeedError.message?`.
* `HandlerError`: failures of whoever handles a payload.
-/

namespace BlockFeed

def OperationError.message : OperationError → String
  | unknownTag tag => "unknown operation tag " ++ toString tag.toNat
  | unknownName name => "unknown operation name " ++ Text.quoted name

/-- Failures of producing or consuming an operation. -/
inductive FeedError where
  | operation (error : OperationError)
  /-- The data of an operation could not be written. -/
  | marshal (operation : Operation) (message : String)
  /-- The data of an operation could not be read. -/
  | unmarshal
  /-- A payload is not an envelope, or the data does not fit one. -/
  | envelope (error : CodecError)
  | send (error : SendError)
  deriving DecidableEq, Repr

/-- The wording of an error; how reading failed is not told. -/
def FeedError.message? : FeedError → Option String
  | operation error => some error.message
  | marshal op message => some ("marshal " ++ op.name ++ ": " ++ message)
  | unmarshal => none
  | envelope error => some ("envelope: " ++ error.message)
  | send error => some ("send: " ++ error.message)

/-- Failures of whoever handles a payload. -/
inductive HandlerError where
  /-- The payload was not an operation that could be handled. -/
  | feed (error : FeedError)
  | refused (message : String)
  deriving DecidableEq, Repr

end BlockFeed
