import BlockFeed.Command.Invocation
import BlockFeed.Command.LogFilter
import BlockFeed.Config.Load
import BlockFeed.Dispatcher
import BlockFeed.Host
import BlockFeed.Report

/-!
# Programs

What an invocation does on a host, from its start to its exit.

## Main definitions

* `Note`: what a program logs.
* `Program`: a program that has begun, and how far it has got.
* `Program.launch`: begin what a command line asks for.
* `Program.run`: go on as far as the host allows; `Program.interrupt`: ask it to end.

## Design notes

A program that listens ends when it is interrupted. One that sends ends when its operation is
delivered or cannot be, or when it is interrupted; as a server it first waits for a consumer. In
each case its client or server is closed before the program ends, and a second interruption
changes nothing.
-/

namespace BlockFeed

/-- What a program logs. -/
inductive Note where
  | configLoaded (config : Config)
  | received (operation : Operation) (data : Bytes)
  | delivered (operation : Operation)
  /-- The program was interrupted before the operation had been sent. -/
  | interrupted (operation : Operation)
  | shutdownComplete
  deriving DecidableEq, Repr

namespace Note

def message : Note → String
  | configLoaded _ => "config loaded"
  | received .. => "operation received"
  | delivered _ => "operation delivered"
  | interrupted _ => "interrupted before delivery"
  | shutdownComplete => "Shutdown complete"

/-- The beginning of received data as a text of at most 120 characters. -/
def preview (data : Bytes) : String := String.ofList ((Text.ofUtf8Lossy data).toList.take 120)

/-- The operation that has come, and its data. -/
def received? : Note → Option (Operation × Bytes)
  | received op data => some (op, data)
  | _ => none

def level : Note → LogLevel
  | interrupted _ => .warn
  | _ => .info

def details : Note → List (String × Json)
  | configLoaded c =>
    [("url", .string c.url), ("mode", .string c.mode.name.capitalize),
      ("ack", .bool c.withAcknowledge)]
  | received op data =>
    [("operation", .string op.name), ("bytes", .number (.integer data.length)),
      ("preview", .string (preview data))]
  | delivered op | interrupted op => [("operation", .string op.name)]
  | shutdownComplete => []

def target : String := "outport"

/-- All that a note tells, its wording first. -/
def fields (n : Note) : List (String × Json) := ("message", .string n.message) :: n.details

/-- The log line of a note as JSON. -/
def line (n : Note) : String :=
  Text.ofUtf8Lossy (Json.print (.object
    [("level", .string n.level.name.toUpper), ("fields", .object n.fields),
      ("target", .string target)]))

def passes (n : Note) (f : LogFilter) : Bool := f.shows n.level target (n.fields.map (·.1))

end Note

/-- How a program has ended: its exit status and what it says about a failure. -/
structure Ending where
  status : Nat
  /-- What failed, and why, from the whole to the part. -/
  failure : List String := []
  deriving DecidableEq, Repr

namespace Ending

def failed (causes : List String) : Ending := ⟨1, causes⟩

def lines (e : Ending) : List String :=
  match e.failure with
  | [] => []
  | [failure] => ["Error: " ++ failure]
  | [failure, cause] => ["Error: " ++ failure, "Caused by:", cause]
  | failure :: causes =>
    ["Error: " ++ failure, "Caused by:"]
      ++ causes.zipIdx.map fun e => toString e.2 ++ ": " ++ e.1

end Ending

/-- How far a program has got. -/
inductive ProgramPhase where
  | listening (p : Party)
  | awaiting (server : Nat) (operation : Operation) (payload : Bytes)
  /-- It sends, by the activity at a place. -/
  | sending (p : Party) (operation : Operation) (place : Nat)
  /-- It closes everything, by the activity at a place, before it ends. -/
  | closing (place : Nat) (last : Option Note) (ending : Ending)
  | ended (ending : Ending)

/-- A program that has begun. -/
structure Program where
  /-- Whether its log lines can be read as JSON. -/
  jsonLogs : Bool := false
  logFilter : LogFilter
  /-- Its client or server, if it takes operations. -/
  listener : Option Party := none
  notes : List Note := []
  phase : ProgramPhase

namespace Program

/-- What is said about an error of sending, from the whole to the part. -/
def sendCauses (e : SendError) : List String := [(FeedError.send e).message?.getD "", e.message]

/-- What is said about an error of serving, from the whole to the part. -/
def serverCauses (e : ServerError) : List String :=
  e.message?.toList ++ match e with
    | .config _ => []
    | .io _ message => [message]

/-- What is said about an address that cannot be bound. -/
def bindMessage : IoKind → String
  | .addrInUse => "Address already in use (os error 98)"
  | _ => "invalid socket address"

/-- The way to take operations: all of them are accepted. -/
def dispatcher : Dispatcher Unit := Dispatcher.registerAll {} ()

def handler : Handler := dispatcher.asHandler fun _ => .ok ()

/-- The operations that a program has received, from the first to the last. -/
def received (p : Program) (h : Host) : List Note :=
  let handled := (p.listener.elim [] h.receivers).flatMap (·.handled)
  handled.flatMap fun x =>
    (dispatcher.process (fun _ => .ok ()) x.delivery.payload).1.map fun c =>
      .received c.operation c.data

/-- What the program has logged so far; operations come after the first note. -/
def shown (p : Program) (h : Host) : List Note :=
  (p.notes.take 1 ++ p.received h ++ p.notes.drop 1).filter (·.passes p.logFilter)

/-- How a program has ended, if it has. -/
def ending? (p : Program) : Option Ending :=
  match p.phase with
  | .ended ending => some ending
  | _ => none

/-- A new server that is bound, or what went wrong. -/
def serve (c : Config) (handler : Option Handler) (h : Host) :
    Except ServerError (Nat × Host) := do
  let s ← (Server.ofConfig c).mapError .config
  let place := h.servers.length
  let h := (h.addServer (handler.elim s s.register)).2
  match h.bind c.url (.server place) with
  | .ok h => return (place, h)
  | .error kind => throw (.io kind (bindMessage kind))

def begin (task : Task) (c : Config) (h : Host) : ProgramPhase × Host :=
  match task, c.mode with
  | .listen, .server =>
    match serve c (some handler) h with
    | .ok (i, h) => (.listening (.server i), h)
    | .error e => (.ended (.failed ("Server stopped" :: serverCauses e)), h)
  | .listen, .client =>
    match Client.ofConfig c handler with
    | .ok client =>
      let (p, h) := h.addClient client
      (.listening p, (p.listen?).elim h h.begin)
    | .error e => (.ended (.failed ("Failed to create client" :: e.message?.toList)), h)
  | .send op data, mode =>
    match (Report.raw op (Text.utf8 data)).payload .json, mode with
    | .error e, _ => (.ended (.failed (("Failed to send " ++ op.name) :: e.message?.toList)), h)
    | .ok payload, .server =>
      match serve c none h with
      | .ok (i, h) => (.awaiting i op payload, h)
      | .error e =>
        (.ended (.failed ("Server stopped before a consumer connected" :: serverCauses e)), h)
    | .ok payload, .client =>
      match Client.ofConfig c .accepting with
      | .ok client =>
        let place := h.activities.length
        let (p, h) := h.addClient client
        (.sending p op place, h.begin (p.send payload))
      | .error e => (.ended (.failed ("Failed to create client" :: e.message?.toList)), h)

/-- Begin what a command line asks for; `file` is what is found at a path. What is logged may be
given by `logs` instead of the command line, if all of it can be read. -/
def launch (words : List String) (file : String → ConfigFile) (env : Environment)
    (logs : Option String) (h : Host) : Program × Host :=
  match Invocation.parse words with
  | .error refusal => ({ logFilter := .ofDirectives [], phase := .ended ⟨refusal.status, []⟩ }, h)
  | .ok i =>
    let p : Program :=
      { jsonLogs := i.jsonLogs
        logFilter := (logs.bind LogFilter.ofText?).getD (LogFilter.ofText i.logLevel)
        phase := .ended ⟨0, []⟩ }
    match Config.load (i.config.map file) env with
    | .error e =>
      ({ p with phase := .ended (.failed ("Failed to load config" :: e.message?.toList)) }, h)
    | .ok c =>
      let (phase, h) := begin i.task c h
      let listener := match phase with
        | .listening party => some party
        | _ => none
      ({ p with notes := [.configLoaded c], phase, listener }, h)

def close (p : Program) (party : Party) (last : Option Note) (ending : Ending) (h : Host) :
    Program × Host :=
  ({ p with phase := .closing h.activities.length last ending }, h.begin party.close)

/-- The next step of a program, if it can take one now. -/
def step (p : Program) (h : Host) : Option (Program × Host) :=
  match p.phase with
  | .awaiting i op payload =>
    if (h.servers[i]?).any fun s => !s.sender.registry.isEmpty then
      some ({ p with phase := .sending (.server i) op h.activities.length },
        h.begin (Party.send payload (.server i)))
    else none
  | .sending party op place =>
    match h.outcome? place with
    | some (.sent (.ok ())) => some (p.close party (some (.delivered op)) ⟨0, []⟩ h)
    | some (.sent (.error e)) =>
      some (p.close party none (.failed (("Failed to send " ++ op.name) :: sendCauses e)) h)
    | _ => none
  | .closing place last ending =>
    (h.outcome? place).map fun _ =>
      ({ p with notes := p.notes ++ last.toList, phase := .ended ending }, h)
  | .listening _ | .ended _ => none

/-- Go on until neither the host nor the program moves, with at most so many steps of the
program. -/
def runFor : Nat → Program → Host → Program × Host
  | 0, p, h => (p, Schedule.settle h)
  | n + 1, p, h =>
    let h := Schedule.settle h
    match p.step h with
    | none => (p, h)
    | some (p, h) => runFor n p h

/-- Go on until neither the host nor the program moves: a program takes three steps at most. -/
def run (p : Program) (h : Host) : Program × Host := runFor 3 p h

def interrupt (p : Program) (h : Host) : Program × Host :=
  match p.phase with
  | .listening party => p.close party (some .shutdownComplete) ⟨0, []⟩ h
  | .awaiting i _ _ => p.close (.server i) none ⟨0, []⟩ h
  | .sending party op _ => p.close party (some (.interrupted op)) ⟨0, []⟩ h
  | .closing .. | .ended _ => (p, h)

end Program

end BlockFeed
