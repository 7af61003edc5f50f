import BlockFeed.FeedError
import BlockFeed.Receiver

/-!
# Dispatchers

A dispatcher opens the envelope of a payload and hands the data to whoever is registered for its
operation.

## Main definitions

* `Dispatcher.register`, `Dispatcher.registerAll`: choose the handler of one operation, or of all.
* `Dispatcher.route`: the call that a payload leads to, if any.
* `Dispatcher.process`: the calls made for a payload, with the result.

## Design notes

An operation that exists but has no handler is passed over without an error. Handlers are values
of any type, so that a call tells which of them was chosen; what a handler does with a call is a
parameter.
-/

namespace BlockFeed

/-- The handlers of operations, at most one for each. -/
structure Dispatcher (H : Type) where
  handler? : Operation → Option H := fun _ => none

/-- The data of an operation in the hands of a handler. -/
structure OperationCall (H : Type) where
  handler : H
  operation : Operation
  data : Bytes
  deriving DecidableEq, Repr

namespace Dispatcher

variable {H : Type}

/-- Choose the handler of an operation, in the place of any other. -/
def register (d : Dispatcher H) (op : Operation) (h : H) : Dispatcher H where
  handler? o := if o = op then some h else d.handler? o

def registerAll (d : Dispatcher H) (h : H) : Dispatcher H :=
  Operation.all.foldl (fun d op => d.register op h) d

def handles (d : Dispatcher H) (op : Operation) : Bool := (d.handler? op).isSome

/-- The call that a payload leads to; none if its operation has no handler. -/
def route (d : Dispatcher H) (payload : Bytes) : Except FeedError (Option (OperationCall H)) :=
  match Envelope.decode payload with
  | .error e => .error (.envelope e)
  | .ok envelope =>
    match Operation.ofTag envelope.tag with
    | .error e => .error (.operation e)
    | .ok op => .ok ((d.handler? op).map fun h => ⟨h, op, envelope.data⟩)

/-- The calls made for a payload, with the result: that of the call, if there is one. -/
def process (d : Dispatcher H) (act : OperationCall H → Except HandlerError Unit)
    (payload : Bytes) : List (OperationCall H) × Except HandlerError Unit :=
  match d.route payload with
  | .error e => ([], .error (.feed e))
  | .ok none => ([], .ok ())
  | .ok (some call) => ([call], act call)

/-- A dispatcher as the handler of a receiver. -/
def asHandler (d : Dispatcher H) (act : OperationCall H → Except HandlerError Unit) : Handler :=
  fun _ delivery => ⟨(d.process act delivery.payload).2, false⟩

end Dispatcher

end BlockFeed
