import BlockFeed.Link.Error
import BlockFeed.Text.Blank

/-!
# Configuration

The settings of a client or server.

## Main definitions

* `Config`: the settings, with their defaults.
* `ConfigError`: why there is no valid configuration.
* `Config.validate`: the url is not blank and the retry interval not zero.
-/

namespace BlockFeed

/-- The side of a link to play. -/
inductive Mode where
  | client
  | server
  deriving DecidableEq, Repr

def Mode.name : Mode → String
  | client => "client"
  | server => "server"

def Mode.ofName? (n : String) : Option Mode :=
  if n = "client" then some client else if n = "server" then some server else none

/-- The settings of a client or server. -/
structure Config where
  url : String := "localhost:22111"
  mode : Mode := .client
  withAcknowledge : Bool := true
  /-- Whether a payload that its handler refuses stays unacknowledged. -/
  blockingAckOnError : Bool := false
  /-- The pause between attempts, in seconds. -/
  retryDurationSecs : UInt64 := 5
  /-- The largest message a server accepts, in bytes. -/
  maxMessageSize : UInt64 := 16777216
  deriving DecidableEq, Repr

/-- What is wrong with a JSON text. -/
inductive JsonFault where
  | grammar
  | data
  deriving DecidableEq, Repr

/-- Why there is no valid configuration. -/
inductive ConfigError where
  | emptyUrl
  | zeroRetryDuration
  | io
  | json (fault : JsonFault)
  deriving DecidableEq, Repr

/-- The wording of an error of validation; the wording of the others is not told. -/
def ConfigError.message? : ConfigError → Option String
  | emptyUrl => some "empty url"
  | zeroRetryDuration => some "retry duration must be greater than zero"
  | io | json _ => none

/-- Whether a configuration can be used; a blank url is reported first. -/
def Config.validate (c : Config) : Except ConfigError Unit :=
  if (Text.trim c.url).isEmpty then .error .emptyUrl
  else if c.retryDurationSecs = 0 then .error .zeroRetryDuration
  else .ok ()

/-- Failures of a server. -/
inductive ServerError where
  | config (error : ConfigError)
  | io (kind : IoKind) (message : String)
  deriving DecidableEq, Repr

/-- The wording of an error, where it is told. -/
def ServerError.message? : ServerError → Option String
  | config error => error.message?
  | io _ message => some ("server io: " ++ message)

end BlockFeed
