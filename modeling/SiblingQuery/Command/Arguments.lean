/-!
# Arguments of the command

A command line is read from left to right.  An option is a letter after a hyphen or a name after
two; switches stand alone, and letters of switches may share a hyphen.  Every other option has a
value: attached, after an equals sign if there is one, or else the next argument.  A value that
begins with a hyphen has to be attached, except for the options that take any argument.  What is
left is the file, and after two hyphens alone everything is.

Reading stops at the first argument that asks for help or for the version, and at the first
that cannot be.
-/

namespace SiblingQuery

/-- What a command line asks for. -/
structure Arguments where
  /-- The file to load the tree from, instead of the standard input. -/
  file : Option String
  /-- The path to the parent. -/
  parent : String
  /-- Where to start. -/
  after : String
  /-- The tests, any of which is enough. -/
  tests : List String
  /-- The name of the format to write. -/
  format : Option String
  /-- Write JSON on one line. -/
  compact : Bool
  /-- The file to save to, instead of the standard output. -/
  output : Option String
  /-- How many times more records were asked for. -/
  verbosity : Nat
deriving DecidableEq, Repr, Inhabited

/-- Why a command line asks for no search. -/
inductive Halt where
  | help
  | version
  | misuse
deriving DecidableEq, Repr, Inhabited

/-! ## Options -/

/-- An option with a value. -/
inductive ValueOption where
  | parent | after | test | format | output
deriving DecidableEq, Repr, Inhabited

/-- An option without one. -/
inductive Switch where
  | compact | verbose | help | version
deriving DecidableEq, Repr, Inhabited

/-- An option of either kind. -/
inductive CommandOption where
  | value (option : ValueOption)
  | switch (switch : Switch)
deriving DecidableEq, Repr, Inhabited

/-- The next argument is the value of the option whatever it is. -/
def ValueOption.takesAny : ValueOption → Bool
  | .after | .test => true
  | _ => false

namespace CommandOption

/-- The option of a letter. -/
def ofLetter? : Char → Option CommandOption
  | 'p' => some (.value .parent)
  | 'a' => some (.value .after)
  | 't' => some (.value .test)
  | 'f' => some (.value .format)
  | 'o' => some (.value .output)
  | 'v' => some (.switch .verbose)
  | 'h' => some (.switch .help)
  | 'V' => some (.switch .version)
  | _ => none

/-- The option of a name. -/
def ofName? (name : List Char) : Option CommandOption :=
  match String.ofList name with
  | "parent" => some (.value .parent)
  | "after" => some (.value .after)
  | "test" => some (.value .test)
  | "format" => some (.value .format)
  | "output" => some (.value .output)
  | "compact" => some (.switch .compact)
  | "verbose" => some (.switch .verbose)
  | "help" => some (.switch .help)
  | "version" => some (.switch .version)
  | _ => none

end CommandOption

/-! ## Reading -/

/-- What has been read of a command line. -/
structure CommandLine where
  file : Option String := none
  parent : Option String := none
  after : Option String := none
  tests : List String := []
  format : Option String := none
  compact : Bool := false
  output : Option String := none
  verbosity : Nat := 0
  /-- The option whose value comes next. -/
  awaiting : Option ValueOption := none
  /-- Two hyphens alone have been read. -/
  onlyFiles : Bool := false
deriving Repr, Inhabited

namespace CommandLine

/-- Something that may be given once. -/
def once (old : Option String) (new : String) : Except Halt (Option String) :=
  match old with
  | none => .ok (some new)
  | some _ => .error .misuse

/-- The name of a file, which is never empty. -/
def onceFile (old : Option String) (new : String) : Except Halt (Option String) :=
  if new = "" then .error .misuse else once old new

/-- Takes the value of an option. -/
def fill (option : ValueOption) (value : String) (read : CommandLine) : Except Halt CommandLine :=
  match option with
  | .parent => (once read.parent value).map fun new => { read with parent := new }
  | .after => (once read.after value).map fun new => { read with after := new }
  | .test => .ok { read with tests := read.tests ++ [value] }
  | .format => (once read.format value).map fun new => { read with format := new }
  | .output => (onceFile read.output value).map fun new => { read with output := new }

/-- Takes a switch. -/
def flip (switch : Switch) (read : CommandLine) : Except Halt CommandLine :=
  match switch with
  | .compact => if read.compact then .error .misuse else .ok { read with compact := true }
  | .verbose => .ok { read with verbosity := read.verbosity + 1 }
  | .help => .error .help
  | .version => .error .version

/-- Waits for the value of an option. -/
def await (option : ValueOption) (read : CommandLine) : CommandLine :=
  { read with awaiting := some option }

/-- Takes the file. -/
def takeFile (name : String) (read : CommandLine) : Except Halt CommandLine :=
  (onceFile read.file name).map fun new => { read with file := new }

/-- Takes the letters after one hyphen. -/
def letters : List Char → CommandLine → Except Halt CommandLine
  | [], read => .ok read
  | letter :: rest, read =>
    match CommandOption.ofLetter? letter with
    | none => .error .misuse
    | some (.switch switch) =>
      match read.flip switch with
      | .ok read => letters rest read
      | .error halt => .error halt
    | some (.value option) =>
      match rest with
      | [] => .ok (read.await option)
      | '=' :: value => read.fill option (String.ofList value)
      | value => read.fill option (String.ofList value)

/-- Takes what follows two hyphens. -/
def named (text : List Char) (read : CommandLine) : Except Halt CommandLine :=
  let (name, attached) := text.span (· ≠ '=')
  match CommandOption.ofName? name, attached with
  | some (.value option), [] => .ok (read.await option)
  | some (.value option), _ :: value => read.fill option (String.ofList value)
  | some (.switch switch), [] => read.flip switch
  | _, _ => .error .misuse

/-- An argument that can be an option: it begins with a hyphen and is not that alone. -/
def looksLikeOption (argument : String) : Bool :=
  argument.startsWith "-" && argument ≠ "-"

/-- Takes one argument. -/
def step (read : CommandLine) (argument : String) : Except Halt CommandLine :=
  match read.awaiting with
  | some option =>
    if option.takesAny || !looksLikeOption argument then
      fill option argument { read with awaiting := none }
    else .error .misuse
  | none =>
    if read.onlyFiles then read.takeFile argument
    else
      match argument.toList with
      | ['-', '-'] => .ok { read with onlyFiles := true }
      | '-' :: '-' :: text => read.named text
      | '-' :: letter :: rest => read.letters (letter :: rest)
      | _ => read.takeFile argument

/-- The arguments once all have been read: every value has come, and so has a start. -/
def finish (read : CommandLine) : Except Halt Arguments :=
  match read.awaiting, read.after with
  | none, some after =>
    .ok ⟨read.file, read.parent.getD "", after, read.tests, read.format,
      read.compact, read.output, read.verbosity⟩
  | _, _ => .error .misuse

end CommandLine

/-- Reads a command line. -/
def Arguments.parse (line : List String) : Except Halt Arguments :=
  match line.foldlM CommandLine.step {} with
  | .ok read => read.finish
  | .error halt => .error halt

end SiblingQuery
