import SiblingQuery.Command.Arguments
import SiblingQuery.Command.Log
import SiblingQuery.Command.Settings
import SiblingQuery.Files.Loading
import SiblingQuery.Files.Saving
import SiblingQuery.Query.Search
import SiblingQuery.Tree.Path
import SiblingQuery.Tree.Rendering

/-!
# A run of the command

A run loads a tree, searches it, renders what was found, and prints or saves the result.  It fails
at the first of these steps that fails.

`Arguments.answer` is everything between reading and writing.  `runOn` is a whole run as a function of
its surroundings: the arguments, the standard input, the settings file, the filter for log records,
and the files.  What it changes is a `World`, the text on the standard output and the files, and it
does so on a `Medium`, where printing may fail, and saving at any step.  `run` is a run where only
the store stands in the way.
-/

namespace SiblingQuery

/-- Why a run fails. -/
inductive Failure where
  | load (error : LoadError)
  | address (error : AddressError)
  | find (error : FindError)
  | format (error : FormatError)
  | save (path : String) (error : SaveError)
deriving DecidableEq, Repr, Inhabited

/-- What is said first about a run that fails. -/
def Failure.message : Failure → String
  | .load e => e.context
  | .address e => e.context
  | .find e => e.message
  | .format e => e.message
  | .save path _ => "Failed to write " ++ path

/-- The text of a run before it is printed or saved, and the records on the way to it. -/
structure Reply where
  records : List LogRecord
  result : Except Failure String

/-- What the standard input is. -/
inductive Input where
  | terminal
  /-- Something that cannot be read to its end. -/
  | unreadable
  | octets (octets : List UInt8)
deriving DecidableEq, Repr, Inhabited

instance : Coe (List UInt8) Input := ⟨.octets⟩

/-- What a tree is loaded from. -/
inductive Intake where
  /-- The standard input. -/
  | input (input : Input)
  /-- A path, and what it leads to. -/
  | file (path : String) (item : Option Item)
deriving Repr, Inhabited

/-- The records of loading: a file is announced once its text has been read. -/
def Intake.records : Intake → List LogRecord
  | .input _ => []
  | .file path item =>
    match textOfItem path item with
    | .ok _ => [⟨.debug, "unist_find_all_after::file::loader", announce path⟩]
    | .error _ => []

/-- Loads the tree. -/
def Intake.load : Intake → Except LoadError Node
  | .input .terminal => .error .noInput
  | .input .unreadable => .error .unreadInput
  | .input (.octets octets) => loadOctets octets
  | .file path item => loadItem path item

namespace Arguments

/-- The search that the arguments ask of a tree. -/
def search (arguments : Arguments) (tree : Node) : Except Failure Search :=
  match (Occurrence.root tree 0).parentAt arguments.parent with
  | .error e => .error (.address e)
  | .ok parent =>
    match Position.parse arguments.after with
    | .error e => .error (.find e)
    | .ok position =>
      match Test.parseAll arguments.tests with
      | .error e => .error (.find e)
      | .ok test => (SiblingQuery.search parent position test).mapError .find

/-- Renders what was found.  An argument for the format goes before the setting, and JSON is
spread over lines only if neither is against it. -/
def render (arguments : Arguments) (settings : Settings) (found : List Occurrence) :
    Except Failure String :=
  match Format.ofName (arguments.format.getD settings.outputFormat) with
  | .error e => .error (.format e)
  | .ok format =>
    .ok (Node.render (found.map (·.node)) format (settings.pretty && !arguments.compact))

/-- The records of a search that has been carried out. -/
def searchRecords (s : Search) : List LogRecord :=
  [⟨.debug, "unist_find_all_after::query::finder", s.report⟩,
    ⟨.info, "find_all_after", "Found " ++ toString s.found.length ++ " matching siblings"⟩]

/-- The reply to the arguments for a tree. -/
def reply (arguments : Arguments) (settings : Settings) (tree : Node) : Reply :=
  match arguments.search tree with
  | .error e => ⟨[], .error e⟩
  | .ok s => ⟨searchRecords s, arguments.render settings s.found⟩

/-- The reply to the arguments for what a tree is loaded from. -/
def answer (arguments : Arguments) (settings : Settings) (intake : Intake) : Reply :=
  match intake.load with
  | .error e => ⟨intake.records, .error (.load e)⟩
  | .ok tree =>
    let reply := arguments.reply settings tree
    ⟨intake.records ++ reply.records, reply.result⟩

/-- The text of the filter for log records: one that is given from outside, or else a level as
often as more records were asked for, or else the setting. -/
def logSpec (arguments : Arguments) (settings : Settings) (given : Option String) : String :=
  given.getD
    (match arguments.verbosity with
      | 0 => settings.logLevel
      | 1 => "info"
      | 2 => "debug"
      | _ => "trace")

end Arguments

/-! ## Surroundings -/

/-- What surrounds a run, files apart. -/
structure Surroundings where
  /-- The standard input. -/
  input : Input
  /-- The home directory. -/
  home : String
  /-- The settings file. -/
  settings : SettingsFile
  /-- The text of a filter for log records, if one is given from outside. -/
  logSpec : Option String
deriving Repr, Inhabited

namespace Surroundings

/-- The settings, or the standard ones when there is a failure to load them. -/
def settingsUsed (around : Surroundings) : Settings :=
  match Settings.load around.home around.settings with
  | .ok settings => settings
  | .error _ => .standard

/-- The record of a failure to load the settings. -/
def settingsRecords (around : Surroundings) : List LogRecord :=
  match Settings.load around.home around.settings with
  | .ok _ => []
  | .error e => [⟨.warn, "find_all_after", "Ignoring config file: " ++ e.message⟩]

/-- The records that are shown of a run with some reply. -/
def shown (around : Surroundings) (arguments : Arguments) (reply : Reply) : List LogRecord :=
  let filter := LogFilter.parse (arguments.logSpec around.settingsUsed around.logSpec)
  (around.settingsRecords ++ reply.records).filter filter.admits

end Surroundings

/-! ## Endings -/

/-- Where a run stops. -/
inductive Stop where
  /-- At its end. -/
  | done
  /-- At a step that fails. -/
  | failed (failure : Failure)
  /-- Before anything, because the arguments cannot be. -/
  | misused
  /-- At a text that the standard output does not take. -/
  | broken
deriving DecidableEq, Repr, Inhabited

namespace Stop

/-- The exit status. -/
def code : Stop → Nat
  | .done => 0
  | .failed _ => 1
  | .misused => 2
  | .broken => 101

/-- What is said about a failure. -/
def message? : Stop → Option String
  | .failed failure => some failure.message
  | _ => none

end Stop

/-- How a run ends: where it stops, and what is on the standard output then. -/
structure Ending where
  stop : Stop
  output : String
deriving DecidableEq, Repr, Inhabited

namespace Ending

/-- Well, with a text on the standard output. -/
def printed (text : String) : Ending := ⟨.done, text⟩

/-- At a step that fails, with nothing on the standard output. -/
def failed (failure : Failure) : Ending := ⟨.failed failure, ""⟩

/-- The exit status. -/
def code (ending : Ending) : Nat := ending.stop.code

/-- What is said about a failure. -/
def message? (ending : Ending) : Option String := ending.stop.message?

end Ending

/-- What is left of a run: how it ended, the records that were shown, and the files. -/
structure Outcome where
  ending : Ending
  records : List LogRecord
  store : Store
deriving Repr, Inhabited

/-- What is on the standard error output: the records, and what is said about a failure. -/
def Outcome.diagnostics (outcome : Outcome) : String :=
  String.join (outcome.records.map LogRecord.shown) ++
    match outcome.ending.message? with
    | some message => "Error: " ++ message ++ "\n"
    | none => ""

/-- The answer to a question for the version. -/
def versionText : String := "find-all-after 0.1.0\n"

/-- The answer to a question for help. -/
def helpText : String :=
  "Find all siblings after a child in a unist tree\n\n" ++
  "Usage: find-all-after [OPTIONS] --after <AFTER> [FILE]\n\n" ++
  "Arguments:\n" ++
  "  [FILE]  unist tree as JSON or YAML, optionally gzipped (omit to read stdin)\n\n" ++
  "Options:\n" ++
  "  -p, --parent <PARENT>  Child-index path from the root to the parent, e.g. `0.2` " ++
    "(default: the root) [default: ]\n" ++
  "  -a, --after <AFTER>    Index of the child to start after " ++
    "(the child itself is excluded)\n" ++
  "  -t, --test <TESTS>     Test siblings must pass: a type name, or JSON " ++
    "(object, array, null). Repeat to keep siblings passing any of them\n" ++
  "  -f, --format <FORMAT>  Output format: json or yaml (default from config)\n" ++
  "      --compact          Print JSON on a single line\n" ++
  "  -o, --output <OUTPUT>  Write results to this file instead of stdout " ++
    "(`.gz` compresses)\n" ++
  "  -v, --verbose...       Increase log verbosity (-v info, -vv debug, -vvv trace)\n" ++
  "  -h, --help             Print help\n" ++
  "  -V, --version          Print version\n"

/-! ## Runs -/

/-- What the arguments load the tree from. -/
def Arguments.intake (arguments : Arguments) (input : Input) (store : Store) : Intake :=
  match arguments.file with
  | none => .input input
  | some path => .file path (store.item? path)

/-- What a run changes: the standard output, with the text on it so far, and the files. -/
structure World where
  output : String
  store : Store
deriving DecidableEq, Repr, Inhabited

/-- Prints a text, and says whether the standard output has taken all of it. -/
def World.print (world : World) (medium : Medium) (text : String) : Bool × World :=
  match medium.cut? text with
  | none => (true, { world with output := world.output ++ text })
  | some part => (false, { world with output := world.output ++ part })

/-- Saves a text under a path, and releases the failure if there is one. -/
def World.save (world : World) (medium : Medium) (path text : String) :
    Except SaveError Unit × World :=
  match world.store.saveOn medium path text with
  | (.ok (), after) => (.ok (), { world with store := after })
  | (.error failure, after) =>
    (.error failure.error, { world with store := failure.release after })

/-- What a run comes to that does not come to a search.  It does not matter whether the standard
output takes an answer. -/
def Halt.deliver (halt : Halt) (medium : Medium) (world : World) : Stop × World :=
  match halt with
  | .help => (.done, (world.print medium helpText).2)
  | .version => (.done, (world.print medium versionText).2)
  | .misuse => (.misused, world)

/-- Prints or saves the result of a run. -/
def Arguments.deliver (arguments : Arguments) (medium : Medium) (result : Except Failure String)
    (world : World) : Stop × World :=
  match result with
  | .error e => (.failed e, world)
  | .ok text =>
    match arguments.output with
    | none =>
      match world.print medium text with
      | (true, after) => (.done, after)
      | (false, after) => (.broken, after)
    | some path =>
      match world.save medium path text with
      | (.ok (), after) => (.done, after)
      | (.error e, after) => (.failed (.save path e), after)

/-- A run of the command on a medium. -/
def runOn (medium : Medium) (line : List String) (around : Surroundings) (store : Store) :
    Outcome :=
  match Arguments.parse line with
  | .error halt =>
    let (stop, world) := halt.deliver medium ⟨"", store⟩
    ⟨⟨stop, world.output⟩, [], world.store⟩
  | .ok arguments =>
    let reply := arguments.answer around.settingsUsed (arguments.intake around.input store)
    let (stop, world) := arguments.deliver medium reply.result ⟨"", store⟩
    ⟨⟨stop, world.output⟩, around.shown arguments reply, world.store⟩

/-- A run of the command where only the store stands in the way. -/
def run (line : List String) (around : Surroundings) (store : Store) : Outcome :=
  runOn .reliable line around store

end SiblingQuery
