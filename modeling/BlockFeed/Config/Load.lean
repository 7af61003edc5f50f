import BlockFeed.Config.Environment
import BlockFeed.Config.Merge

/-!
# Loading a configuration

From a JSON file over the defaults, with the overrides of the environment.

## Main definitions

* `Config.toJson`, `Config.ofJson?`: the settings as a JSON object, and the settings of a value.
* `Config.ofFile`: the settings of a file, laid over the defaults.
* `Config.load`: the settings of a file and an environment, validated.

## Design notes

The file is laid over the defaults before its settings are read, so a null leaves a default in
place, and a file that is not an object takes the place of all of them. The environment is
consulted only after the file has been read without error.
-/

namespace BlockFeed

/-- What is found where a configuration file is looked for. -/
inductive ConfigFile where
  | absent
  /-- There is something that cannot be read as a file. -/
  | unreadable
  | contents (bytes : Bytes)
  deriving DecidableEq, Repr

namespace Config

/-- The settings as members of a JSON object, in the order they are written in. -/
def members (c : Config) : List (String × Json) :=
  [("url", .string c.url), ("mode", .string c.mode.name),
    ("with_acknowledge", .bool c.withAcknowledge),
    ("blocking_ack_on_error", .bool c.blockingAckOnError),
    ("retry_duration_secs", .number (.integer c.retryDurationSecs.toNat)),
    ("max_message_size", .number (.integer c.maxMessageSize.toNat))]

def toJson (c : Config) : Json := .object c.members

/-- The settings as a layer that others can be laid over: sorted by key. -/
def layer (c : Config) : Json := .object (Entries.ofList c.members)

/-- A mode setting: its name, or an object with that name as its only key and nothing under
it. -/
def mode? : Json → Option Mode
  | .string s => Mode.ofName? s
  | .object [(k, .null)] => Mode.ofName? k
  | _ => none

/-- A setting, its default where it is left out. -/
def setting? {α : Type} (read : Json → Option α) (default : α) : Option Json → Option α
  | none => some default
  | some v => read v

/-- The six settings of a value in order, each `none` where it is left out: the members of an
object, or the items of an array of at most six. -/
def settings? : Json → Option (Option Json × Option Json × Option Json × Option Json ×
    Option Json × Option Json)
  | .object m => some (m.lookup "url", m.lookup "mode", m.lookup "with_acknowledge",
      m.lookup "blocking_ack_on_error", m.lookup "retry_duration_secs",
      m.lookup "max_message_size")
  | .array a =>
    if a.length ≤ 6 then some (a[0]?, a[1]?, a[2]?, a[3]?, a[4]?, a[5]?) else none
  | _ => none

def ofJson? (v : Json) : Option Config := do
  let (url, mode, withAcknowledge, blockingAckOnError, retryDurationSecs, maxMessageSize) ←
    settings? v
  let d : Config := {}
  return {
    url := ← setting? Json.string? d.url url
    mode := ← setting? mode? d.mode mode
    withAcknowledge := ← setting? Json.bool? d.withAcknowledge withAcknowledge
    blockingAckOnError := ← setting? Json.bool? d.blockingAckOnError blockingAckOnError
    retryDurationSecs := ← setting? Json.word? d.retryDurationSecs retryDurationSecs
    maxMessageSize := ← setting? Json.word? d.maxMessageSize maxMessageSize }

/-- The settings of a JSON value laid over the defaults. -/
def ofLayer (layer : Json) : Except ConfigError Config :=
  match ofJson? (Json.merge (Config.layer {}) layer) with
  | some c => .ok c
  | none => .error (.json .data)

/-- The settings of a file laid over the defaults; without a file, the defaults. -/
def ofFile : ConfigFile → Except ConfigError Config
  | .absent => .ok {}
  | .unreadable => .error .io
  | .contents bytes =>
    if (Text.ofUtf8? bytes).isNone then .error .io
    else
      match Json.read? bytes with
      | some layer => ofLayer layer
      | none => .error (.json .grammar)

/-- The settings of a file, if one is asked for, and an environment, validated. -/
def load (file : Option ConfigFile) (env : Environment) : Except ConfigError Config := do
  let c ← match file with
    | some file => ofFile file
    | none => .ok {}
  let c := c.override env
  c.validate
  return c

end Config

end BlockFeed
