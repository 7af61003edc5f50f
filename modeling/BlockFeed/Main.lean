import BlockFeed.Command.Program

/-!
# The command line

Reads the arguments, the configuration file and the environment, runs the program on a host of its
own, and reports how it ended.

## Design notes

Here is all the input and output there is: what a program does is decided in
`BlockFeed.Command.Program`. Time on the host passes a second at a time, with the clock.
-/

namespace BlockFeed.Main

/-- What is said to whoever asks for help. -/
def help : String :=
  "Stream outport operations over WebSocket\n\n" ++
  "Usage: outport [OPTIONS] <COMMAND>\n\n" ++
  "Commands:\n" ++
  "  listen                         Receive operations and log each one until interrupted\n" ++
  "  send --operation <OP> <DATA>   Send a single operation\n" ++
  "  help                           Print this message\n\n" ++
  "Options:\n" ++
  "  --config <CONFIG>              JSON config file\n" ++
  "  --log-level <LOG_LEVEL>        Log level [default: info]\n" ++
  "  --json-logs                    Emit JSON log lines\n" ++
  "  -h, --help                     Print help"

/-- The variables of a configuration as the process has them. -/
def environment : IO Environment := do
  let values ← Environment.names.mapM fun name => return (name, ← IO.getEnv name)
  return fun name => (values.lookup name).join

def readConfig (path : String) : IO ConfigFile := do
  try
    return .contents (← IO.FS.readBinFile path).toList
  catch
    | .noFileOrDirectory .. => return .absent
    | _ => return .unreadable

/-- Log the notes that have not been logged yet. -/
def log (p : Program) (notes : List Note) : IO Unit :=
  notes.forM fun n => IO.eprintln (if p.jsonLogs then n.line else n.message)

/-- Run a program to its end, with so many notes logged already. -/
partial def attend (p : Program) (h : Host) (logged : Nat) : IO UInt32 := do
  let (p, h) := p.run h
  let notes := p.shown h
  log p (notes.drop logged)
  match p.ending? with
  | some ending =>
    ending.lines.forM fun line => IO.eprintln line
    return ending.status.toUInt32
  | none =>
    IO.sleep 1000
    attend p (Schedule.advance h 1000) notes.length

end BlockFeed.Main

open BlockFeed in
def main (words : List String) : IO UInt32 := do
  match Invocation.parse words with
  | .error .help => IO.println Main.help
  | .error .usage => IO.eprintln Main.help
  | .ok _ => pure ()
  let path := (Invocation.parse words).toOption.bind (·.config)
  let file ← match path with
    | some path => Main.readConfig path
    | none => pure .absent
  let (p, h) := Program.launch words (fun _ => file) (← Main.environment) none {}
  Main.attend p h 0
