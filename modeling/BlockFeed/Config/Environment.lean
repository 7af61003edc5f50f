import BlockFeed.Config.Basic
import BlockFeed.Text.Digits
import BlockFeed.Text.Lowercase

/-!
# Settings from the environment

Variables that override single settings.

## Main definitions

* `Text.bool?`, `Mode.parse?`: spellings of truth values and modes.
* `Config.override`: a configuration with the overrides of an environment.

## Design notes

A variable that is empty, or whose value cannot be used, changes nothing.
-/

namespace BlockFeed

/-- The truth value that a word stands for, in any case of its letters. -/
def Text.bool? (s : String) : Option Bool :=
  let w := Text.lower s
  if w = "true" ∨ w = "1" ∨ w = "yes" ∨ w = "on" then some true
  else if w = "false" ∨ w = "0" ∨ w = "no" ∨ w = "off" then some false
  else none

/-- The mode that a word stands for, in any case of its letters. -/
def Mode.parse? (s : String) : Option Mode := Mode.ofName? (Text.lower s)

abbrev Environment := String → Option String

namespace Environment

/-- The value of a variable that is not empty. -/
def get? (env : Environment) (name : String) : Option String :=
  (env name).filter fun v => !v.isEmpty

def names : List String :=
  ["OUTPORT_URL", "OUTPORT_MODE", "OUTPORT_WITH_ACK", "OUTPORT_BLOCKING_ACK_ON_ERROR",
    "OUTPORT_RETRY_SECS"]

end Environment

/-- The bounds of a retry interval that the environment may set, in seconds. -/
def Config.retryBounds : UInt64 × UInt64 := (1, 3600)

/-- A configuration with the overrides of an environment. -/
def Config.override (c : Config) (env : Environment) : Config where
  url := (env.get? "OUTPORT_URL").getD c.url
  mode := ((env.get? "OUTPORT_MODE").bind Mode.parse?).getD c.mode
  withAcknowledge := ((env.get? "OUTPORT_WITH_ACK").bind Text.bool?).getD c.withAcknowledge
  blockingAckOnError :=
    ((env.get? "OUTPORT_BLOCKING_ACK_ON_ERROR").bind Text.bool?).getD c.blockingAckOnError
  retryDurationSecs :=
    ((env.get? "OUTPORT_RETRY_SECS").bind
      (Text.inRange? Config.retryBounds.1 Config.retryBounds.2)).getD c.retryDurationSecs
  maxMessageSize := c.maxMessageSize

end BlockFeed
