/-!
# Addresses

Where connections are made to.

## Main definitions

* `Address.route`: the path of the upgrade endpoint.
* `Address.endpoint`: the url that is dialed for an address.
-/

namespace BlockFeed.Address

def route : String := "/outport"

/-- The url that is dialed for an address: a socket url stands for itself, a bare host and port
get the scheme and the path. -/
def endpoint (address : String) : String :=
  if address.startsWith "ws://" || address.startsWith "wss://" then address
  else "ws://" ++ address ++ route

end BlockFeed.Address
