import BlockFeed.Text.Blank
import BlockFeed.Text.Digits
import BlockFeed.Text.Lowercase

/-!
# Log filters

Which of the things that a program could log it does log.

## Main definitions

* `LogLevel`: how much is shown.
* `LogDirective`: how much is shown of some things; `LogDirective.parse?` reads one.
* `LogFilter`: directives; `LogFilter.shows` decides by the closest of those that apply.
* `LogFilter.ofText`, `LogFilter.ofText?`: the filter that a text describes.

## Design notes

A filter is written as directives between commas. A directive is a level alone, or a target, which
may be followed by a scope in brackets, then an equals sign and a level. All things whose target
begins with the target of a directive are meant; without a level all of them are shown. The scope
`[name]` is that of a span, and `[{name}]` that of the things with a detail. Blanks belong to what
they stand beside, so that a name with a blank beside it means nothing that there is.
-/

namespace BlockFeed

/-- How much is shown, from nothing to everything. -/
inductive LogLevel where
  | off
  | error
  | warn
  | info
  | debug
  | trace
  deriving DecidableEq, Repr

namespace LogLevel

def all : List LogLevel := [off, error, warn, info, debug, trace]

def rank : LogLevel → Nat
  | off => 0
  | error => 1
  | warn => 2
  | info => 3
  | debug => 4
  | trace => 5

def name : LogLevel → String
  | off => "off"
  | error => "error"
  | warn => "warn"
  | info => "info"
  | debug => "debug"
  | trace => "trace"

/-- The level with a number or with a name, in any case of its letters. -/
def parse? (s : String) : Option LogLevel :=
  match Text.unsigned? UInt64.size s with
  | some n => all[n]?
  | none => all.find? fun l => l.name == Text.lowerAscii s

end LogLevel

/-- What a directive is about, among the things with its target. -/
inductive LogScope where
  | all
  | detail (name : String)
  /-- Those in a span, which this program never opens. -/
  | span
  deriving DecidableEq, Repr

/-- How much is shown of some things. -/
structure LogDirective where
  target : String := ""
  scope : LogScope := .all
  level : LogLevel := .trace
  deriving DecidableEq, Repr

namespace LogDirective

/-- Whether a directive is about things with a target and with details of some names. -/
def applies (d : LogDirective) (target : String) (details : List String) : Bool :=
  d.target.toList.isPrefixOf target.toList &&
    match d.scope with
    | .all => true
    | .detail name => details.contains name
    | .span => false

/-- Whether a directive gives way to a later one that applies as well: a longer target is closer,
and of the same target, a detail; else the later one in the order of the details, or in writing. -/
def yields (d later : LogDirective) : Bool :=
  if d.target.length = later.target.length then
    match d.scope, later.scope with
    | .detail a, .detail b => a ≤ b
    | .detail _, _ => false
    | _, _ => true
  else d.target.length < later.target.length

/-- Whether a target, or a level that stands alone, may begin with a character. -/
def opens (c : Char) : Bool := c.isAlphanum || c == '-' || c == ':' || c == '_'

/-- A scope in brackets, after the first of them, and what follows it. -/
def scope? (cs : List Char) : Option (LogScope × List Char) :=
  match cs.span fun c => c != ']' && c != '\x7b' with
  | (_, ']' :: rest) => some (.span, rest)
  | (span, _ :: cs) =>
    match cs.span (· != '\x7d') with
    | (c :: name, '\x7d' :: ']' :: rest) =>
      some (if span.isEmpty && !(c :: name).contains '=' then .detail (String.ofList (c :: name))
        else .span, rest)
    | _ => none
  | _ => none

/-- The level at the end of a directive. -/
def level? : List Char → Option LogLevel
  | '=' :: cs => if cs.isEmpty then some .trace else LogLevel.parse? (String.ofList cs)
  | cs => if cs.all Text.isBlank then some .trace else none

def parse? (s : String) : Option LogDirective :=
  match s.toList.span fun c => c != '=' && c != '[' with
  | (_, []) =>
    if (Text.trim s).toList.head?.any opens then
      some ((LogLevel.parse? s).elim { target := s } fun level => { level })
    else none
  | (target, c :: cs) =>
    if target.head?.elim (c == '[') opens then do
      let (scope, rest) ← if c = '[' then scope? cs else some (.all, c :: cs)
      return { target := String.ofList target, scope, level := ← level? rest }
    else none

end LogDirective

/-- Directives, from the first that was written to the last; there is at least one. -/
structure LogFilter where
  directives : List LogDirective
  deriving DecidableEq, Repr

namespace LogFilter

/-- The filter with some directives; if there are none, errors are shown. -/
def ofDirectives (ds : List LogDirective) : LogFilter :=
  ⟨if ds.isEmpty then [{ level := .error }] else ds⟩

/-- The texts between commas that are not empty. -/
def pieces (s : String) : List String := (s.splitOn ",").filter fun p => !p.isEmpty

/-- The filter that a text describes, if each of its directives can be read. -/
def ofText? (s : String) : Option LogFilter :=
  ((pieces s).mapM LogDirective.parse?).map ofDirectives

/-- The filter that a text describes, without the directives that cannot be read. -/
def ofText (s : String) : LogFilter := ofDirectives ((pieces s).filterMap LogDirective.parse?)

/-- The directive that decides about things with a target and with details of some names. -/
def closest? (f : LogFilter) (target : String) (details : List String) : Option LogDirective :=
  (f.directives.filter (·.applies target details)).foldl
    (fun best d => if best.all (·.yields d) then some d else best) none

/-- Whether something with a level, a target and details of some names is shown. -/
def shows (f : LogFilter) (level : LogLevel) (target : String) (details : List String) : Bool :=
  (f.closest? target details).any fun d => level.rank ≤ d.level.rank

end LogFilter

end BlockFeed
