import BlockFeed.Link.Wire
import BlockFeed.Table

/-!
# Registries

The connections that are in use, each under its id.

## Main definitions

* `Registry.add`: register a connection, in the place of the one that had its id.
* `Registry.closeAndRemove`, `Registry.closeAll`: unregister and close.
* `Registry.removeClosed`: forget the connections that are no longer open;
  `Registry.closedCount`: how many that are.

## Design notes

A connection is unregistered before it is closed, and stays unregistered if closing it fails.
-/

namespace BlockFeed

abbrev Registry := Table Ref

namespace Registry

/-- Register a connection, in the place of the one that had its id. -/
def add (g : Registry) (w : Wire) (r : Ref) : Registry := g.insert (w.conn r).id r

def closeAndRemove (g : Registry) (w : Wire) (id : String) :
    Except RegistryError Unit × Registry × Wire :=
  match g.get? id with
  | none => (.error (.notFound id), g, w)
  | some r =>
    match w.close r with
    | (.ok (), w) => (.ok (), g.erase id, w)
    | (.error e, w) => (.error (.close e), g.erase id, w)

/-- Forget the connections that are no longer open. -/
def removeClosed (g : Registry) (w : Wire) : Registry := g.filter fun _ r => (w.conn r).isOpen

/-- How many connections `removeClosed` forgets. -/
def closedCount (g : Registry) (w : Wire) : Nat := g.size - (g.removeClosed w).size

/-- Unregister and close the connections under some ids. -/
def closeEach (g : Registry) (w : Wire) : List String → Registry × Wire
  | [] => (g, w)
  | id :: rest =>
    let (_, g, w) := closeAndRemove g w id
    closeEach g w rest

def closeAll (g : Registry) (w : Wire) : Registry × Wire := closeEach g w g.names

end Registry

end BlockFeed
