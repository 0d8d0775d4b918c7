import SiblingQuery.Regex.Source
import SiblingQuery.Text.Terminal

/-!
# Log records

A record has a level and the name of the part of the program that it comes from, its target.
Which records are shown is said by a filter text: directives between commas, each of them a level
for all targets, a target for all levels, or a target with a level.  A target stands for all that
begin with it.  For a record the directive with the longest target decides, of equally long ones
the last.  After a slash a filter text may give a pattern that must occur in a shown message.
-/

namespace SiblingQuery

/-- How grave a record is, from the gravest on. -/
inductive LogLevel where
  | error | warn | info | debug | trace
deriving DecidableEq, Repr, Inhabited

namespace LogLevel

/-- The rank of a level; the gravest has the least. -/
def rank : LogLevel → Nat
  | .error => 1
  | .warn => 2
  | .info => 3
  | .debug => 4
  | .trace => 5

/-- The name of a level, five characters long. -/
def label : LogLevel → String
  | .error => "ERROR"
  | .warn => "WARN "
  | .info => "INFO "
  | .debug => "DEBUG"
  | .trace => "TRACE"

end LogLevel

/-- One record. -/
structure LogRecord where
  level : LogLevel
  target : String
  message : String
deriving DecidableEq, Repr, Inhabited

namespace LogRecord

/-- A record as lines.  Further lines of its message are indented. -/
def lines (record : LogRecord) : String :=
  "[" ++ record.level.label ++ " " ++ record.target ++ "] " ++
    record.message.replace "\n" "\n    " ++ "\n"

/-- A record as it is shown. -/
def shown (record : LogRecord) : String := Text.shown record.lines

end LogRecord

/-! ## Filters -/

/-- One directive: the targets that it is for, all of them when there is none, and the rank up to
which it shows their records. -/
structure LogDirective where
  target : Option String
  rank : Nat
deriving DecidableEq, Repr, Inhabited

namespace LogDirective

/-- The rank up to which a name of a level shows records. -/
def rank? (name : List Char) : Option Nat :=
  match Text.lowerAscii (String.ofList name) with
  | "off" => some 0
  | "error" => some LogLevel.error.rank
  | "warn" => some LogLevel.warn.rank
  | "info" => some LogLevel.info.rank
  | "debug" => some LogLevel.debug.rank
  | "trace" => some LogLevel.trace.rank
  | _ => none

/-- The directive of a text without blanks around it; `none` when it is no directive. -/
def parse? (text : List Char) : Option LogDirective :=
  match Text.splitOn '=' text with
  | [name] =>
    match rank? name with
    | some rank => some ⟨none, rank⟩
    | none => some ⟨some (String.ofList name), LogLevel.trace.rank⟩
  | [target, name] =>
    let name := Text.trim name
    if name = [] then some ⟨some (String.ofList target), LogLevel.trace.rank⟩
    else (rank? name).map fun rank => ⟨some (String.ofList target), rank⟩
  | _ => none

/-- The directive is for records of a target. -/
def covers (directive : LogDirective) (target : String) : Bool :=
  match directive.target with
  | none => true
  | some start => target.startsWith start

/-- The length of the directive's target. -/
def weight (directive : LogDirective) : Nat := (directive.target.getD "").utf8ByteSize

end LogDirective

/-- Which records are shown. -/
structure LogFilter where
  directives : List LogDirective
  /-- What must occur in the message. -/
  pattern : Option Regex.Pattern
deriving DecidableEq, Repr, Inhabited

namespace LogFilter

/-- Adds a directive: one for the same target keeps its place and is replaced. -/
def add (directive : LogDirective) : List LogDirective → List LogDirective
  | [] => [directive]
  | first :: rest =>
    if first.target = directive.target then directive :: rest else first :: add directive rest

/-- The directives of a text. -/
def directivesOf (text : List Char) : List LogDirective :=
  (((Text.splitOn ',' text).map Text.trim).filter (· ≠ [])).filterMap LogDirective.parse?
    |>.foldl (fun done directive => add directive done) []

/-- The filter that a text means.  A text without directives shows errors, a text with two slashes
has none, and what is not a pattern after a slash asks nothing of messages. -/
def parse (text : String) : LogFilter :=
  let (directives, pattern) : List LogDirective × Option Regex.Pattern :=
    match Text.splitOn '/' text.toList with
    | [directives] => (directivesOf directives, none)
    | [directives, pattern] =>
      (directivesOf directives, Regex.Pattern.parse? (String.ofList pattern))
    | _ => ([], none)
  ⟨if directives = [] then [⟨none, LogLevel.error.rank⟩] else directives, pattern⟩

/-- Of the directives that cover a target the last with the longest target of its own. -/
def decisive? (directives : List LogDirective) (target : String) : Option LogDirective :=
  (directives.filter (·.covers target)).foldl
    (fun best directive =>
      match best with
      | none => some directive
      | some other => if other.weight ≤ directive.weight then some directive else some other)
    none

/-- Whether a record is shown. -/
def admits (filter : LogFilter) (record : LogRecord) : Bool :=
  (match decisive? filter.directives record.target with
    | some directive => record.level.rank ≤ directive.rank
    | none => false) &&
  filter.pattern.all (·.occursIn record.message)

end LogFilter

end SiblingQuery
