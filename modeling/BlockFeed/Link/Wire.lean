import BlockFeed.Link.Connection

/-!
# Wires

Connections side by side, some of them joined: what one end accepts arrives at the other.

## Main definitions

* `Wire`: connections by their places.
* `Wire.read?`, `Wire.write`, `Wire.close`: the operations of a connection in its place.
* `Wire.add`, `Wire.join`: a new connection; two ends of one link.

## Design notes

A place (`Ref`) stands for one connection for ever, whatever its id is: two connections may have
the same id. A place where nothing was put holds a connection that is not open.
-/

namespace BlockFeed

abbrev Ref := Nat

/-- Connections by their places. -/
structure Wire where
  connections : List Connection := []
  joints : List (Ref × Ref) := []
  deriving DecidableEq, Repr

namespace Wire

def conn (w : Wire) (r : Ref) : Connection := w.connections.getD r {}

/-- The other end of a connection, if it is joined. -/
def peer? (w : Wire) (r : Ref) : Option Ref := w.joints.lookup r

/-- The messages and failures that wait to be read. -/
def backlog (w : Wire) : Nat := w.connections.foldl (fun n c => n + c.inbound.length) 0

def set (w : Wire) (r : Ref) (c : Connection) : Wire :=
  { w with connections := w.connections.set r c }

def add (w : Wire) (c : Connection) : Wire × Ref :=
  ({ w with connections := w.connections ++ [c] }, w.connections.length)

/-- Make two connections the two ends of one link. -/
def join (w : Wire) (a b : Ref) : Wire := { w with joints := (a, b) :: (b, a) :: w.joints }

/-- What happens to the connection at a place. -/
def undergo (w : Wire) (r : Ref) (o : Occurrence) : Wire := w.set r ((w.conn r).undergo o)

def read? (w : Wire) (r : Ref) : Option (Except ConnectionError Bytes × Wire) :=
  (w.conn r).read?.map fun a => (a.1, w.set r a.2)

/-- Pass an accepted message on to the other end, if there is one. -/
def carry (w : Wire) (r : Ref) (bytes : Bytes) : Wire :=
  match w.peer? r with
  | some p => w.undergo p (.arrive [.data bytes])
  | none => w

/-- What a write at a place amounts to, given what its connection made of it. -/
def afterWrite (w : Wire) (r : Ref) (bytes : Bytes) :
    Except ConnectionError Unit × Connection → Except ConnectionError Unit × Wire
  | (.ok (), c) => (.ok (), (w.set r c).carry r bytes)
  | (.error e, c) => (.error e, w.set r c)

def write (w : Wire) (r : Ref) (bytes : Bytes) : Except ConnectionError Unit × Wire :=
  w.afterWrite r bytes ((w.conn r).write bytes)

/-- Tell the other end, if there is one, that this end is gone. -/
def hangUp (w : Wire) (r : Ref) : Wire :=
  match w.peer? r with
  | some p => w.undergo p (.arrive [.failure .closedByPeer])
  | none => w

/-- Close at a place; a connection that drops lets its other end know. -/
def close (w : Wire) (r : Ref) : Except ConnectionError Unit × Wire :=
  let c := w.conn r
  let (result, closed) := c.close
  (result, if c.drops && c.isOpen then (w.set r closed).hangUp r else w.set r closed)

theorem conn_set (w : Wire) (r r' : Ref) (c : Connection) :
    (w.set r c).conn r' = if r = r' ∧ r < w.connections.length then c else w.conn r' := by
  simp only [conn, set, List.getD_eq_getElem?_getD, List.getElem?_set]
  by_cases h : r = r'
  · subst h
    by_cases hr : r < w.connections.length <;> simp [hr]
  · simp [h]

end Wire

end BlockFeed
