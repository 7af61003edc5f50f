/-!
# Cancellation signals

A signal that releases everyone who waits on it, and that can be made ready for another round.

## Main definitions

* `Signal.close`, `Signal.reset`: release all waiters; put a new token in the place of a fired one.
* `Signal.wait`: a handle on the current token.
* `Signal.fired`: whether the token of a handle has fired.

## Design notes

Tokens are numbered in the order in which they were current. `close` fires the current token alone,
and a handle observes its own token, whichever is current.
-/

namespace BlockFeed

/-- A signal: its current token, and those that were current before. -/
structure Signal where
  /-- Whether each of the former tokens has fired, from the first to the last. -/
  former : List Bool := []
  /-- Whether the current token has fired. -/
  closed : Bool := false
  deriving DecidableEq, Repr

namespace Signal

/-- A handle on the token under a number. -/
structure Handle where
  token : Nat
  deriving DecidableEq, Repr

/-- Whether each token has fired, the current one being the last. -/
def tokens (s : Signal) : List Bool := s.former ++ [s.closed]

def close (s : Signal) : Signal := { s with closed := true }

/-- Put a new token in the place of the current one, if that has fired. -/
def reset (s : Signal) : Signal := if s.closed then ⟨s.tokens, false⟩ else s

def wait (s : Signal) : Handle := ⟨s.former.length⟩

def fired (s : Signal) (h : Handle) : Bool := s.tokens.getD h.token false

end Signal

end BlockFeed
