import BlockFeed.Operation

/-!
# Invocations

What the words of a command line ask for.

## Main definitions

* `Invocation`: a task with its options.
* `Invocation.Reading`: how far a command line has been read; `Reading.step` takes one more word.
* `Invocation.parse`: the invocation that a command line gives, or why there is none.

## Design notes

Options may stand before the name of the task and after it, once in each place; what stands after
the name wins. The value of an option is the next word or follows an equals sign; a next word that
looks like an option is no value. After two hyphens alone, all words are plain. Words are read
from the left, and the first that asks for help, or cannot be used, decides.
-/

namespace BlockFeed

/-- What a program is to do. -/
inductive Task where
  | listen
  | send (operation : Operation) (data : String)
  deriving DecidableEq, Repr

/-- A task with its options. -/
structure Invocation where
  config : Option String
  /-- What is logged, as a filter or a level. -/
  logLevel : String
  jsonLogs : Bool
  task : Task
  deriving DecidableEq, Repr

/-- Why a command line gives no invocation. -/
inductive Refusal where
  | help
  | usage
  deriving DecidableEq, Repr

/-- The exit status of a program that has nothing to do. -/
def Refusal.status : Refusal → Nat
  | help => 0
  | usage => 2

namespace Invocation

/-- The part of a command line that is being read. -/
inductive Part where
  /-- What stands before the name of a task. -/
  | front
  /-- What follows the word for help; whether a task has been named. -/
  | help (named : Bool)
  /-- What follows the name of the task that listens. -/
  | listen
  /-- What follows the name of the task that sends. -/
  | send
  deriving DecidableEq, Repr

/-- The options of one part. -/
structure Options where
  config : Option String := none
  /-- What is logged, as a filter or a level. -/
  logLevel : Option String := none
  jsonLogs : Bool := false
  operation : Option Operation := none
  data : Option String := none

/-- How far a command line has been read. -/
structure Reading where
  part : Part := .front
  /-- The options that stood before the name of the task. -/
  front : Options := {}
  options : Options := {}
  /-- The option whose value is the next word. -/
  pending : Option String := none
  /-- Whether all words are plain from now on. -/
  plain : Bool := false

/-- What a word is. -/
inductive Word where
  /-- Two hyphens alone. -/
  | rule
  /-- Two hyphens and a name, with what follows an equals sign. -/
  | long (name : String) (value : Option String)
  /-- A hyphen and letters. -/
  | short (letters : List Char)
  /-- Any other word; a hyphen alone is one. -/
  | plain (text : String)
  deriving DecidableEq, Repr

def Word.of (s : String) : Word :=
  match s.toList with
  | ['-', '-'] => .rule
  | '-' :: '-' :: rest =>
    match rest.span (· != '=') with
    | (name, _ :: value) => .long (String.ofList name) (some (String.ofList value))
    | (name, []) => .long (String.ofList name) none
  | '-' :: c :: letters => .short (c :: letters)
  | _ => .plain s

def takesValue (part : Part) (name : String) : Bool :=
  name == "config" || name == "log-level" || (name == "operation" && part == .send)

/-- Give an option a value that it can use and has not got yet. -/
def Options.set? (o : Options) (name value : String) : Option Options :=
  if name = "config" then
    if o.config.isSome || value.isEmpty then none else some { o with config := value }
  else if name = "log-level" then
    if o.logLevel.isSome then none else some { o with logLevel := value }
  else if name = "operation" then
    match o.operation, Operation.parse value with
    | none, .ok op => some { o with operation := some op }
    | _, _ => none
  else none

namespace Reading

/-- Give the option of a name its value. -/
def set (r : Reading) (name value : String) : Except Refusal Reading :=
  match r.options.set? name value with
  | some options => .ok { r with options, pending := none }
  | none => .error .usage

/-- Go on to the part after the name of a task. -/
def enter (r : Reading) (part : Part) : Reading := { part, front := r.options }

/-- Take a word that is neither an option nor a value. -/
def word (r : Reading) (text : String) : Except Refusal Reading :=
  match r.part with
  | .front =>
    if text = "listen" then .ok (r.enter .listen)
    else if text = "send" then .ok (r.enter .send)
    else if text = "help" then .ok (r.enter (.help false))
    else .error .usage
  | .send =>
    if r.options.data.isNone then .ok { r with options.data := some text } else .error .usage
  | _ => .error .usage

/-- Take an option, with its value if it came along. -/
def option (r : Reading) (name : String) : Option String → Except Refusal Reading
  | some value => if takesValue r.part name then r.set name value else .error .usage
  | none =>
    if name = "help" then .error .help
    else if takesValue r.part name then .ok { r with pending := some name }
    else if name = "json-logs" && !r.options.jsonLogs then
      .ok { r with options.jsonLogs := true }
    else .error .usage

def step (r : Reading) (text : String) : Except Refusal Reading :=
  match r.part, Word.of text with
  | .help false, _ =>
    if text = "listen" ∨ text = "send" ∨ text = "help" then .ok { r with part := .help true }
    else .error .usage
  | .help true, _ => .error .usage
  | _, kind =>
    if r.plain then if r.part = .front then .error .usage else r.word text
    else
      match r.pending, kind with
      | some name, .plain value => r.set name value
      | some _, _ => .error .usage
      | none, .rule => .ok { r with plain := true }
      | none, .long name value => r.option name value
      | none, .short letters => .error (if letters.head? = some 'h' then .help else .usage)
      | none, .plain word => r.word word

/-- What has been asked for when no word is left. -/
def task (r : Reading) : Except Refusal Task :=
  if r.pending.isSome then .error .usage
  else
    match r.part, r.options.operation, r.options.data with
    | .help _, _, _ => .error .help
    | .listen, _, _ => .ok .listen
    | .send, some op, some data => .ok (.send op data)
    | _, _, _ => .error .usage

def finish (r : Reading) : Except Refusal Invocation := do
  let task ← r.task
  return {
    config := r.options.config.or r.front.config
    logLevel := (r.options.logLevel.or r.front.logLevel).getD "info"
    jsonLogs := r.options.jsonLogs || r.front.jsonLogs
    task }

end Reading

/-- The invocation that the words of a command line give, the name of the program apart. -/
def parse (words : List String) : Except Refusal Invocation := do
  let r ← words.foldlM Reading.step {}
  r.finish

end Invocation

end BlockFeed
