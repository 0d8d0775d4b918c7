import SiblingQuery.Command.Run

/-!
# The command

The outer layer: it reads the surroundings of a run, carries the run out, and shows how it ended.
-/

namespace SiblingQuery

/-- What a path leads to in the working directory. -/
def look (path : String) : IO (Option Item) := do
  let place := (← IO.currentDir) / path
  if ← place.isDir then return some .directory
  try
    return some (.file (← IO.FS.readBinFile place).toList)
  catch _ => return none

/-- The settings file, if it stands at a path. -/
def lookForSettings (path : String) : IO SettingsFile := do
  let place := (← IO.currentDir) / path
  unless ← place.pathExists do return .missing
  try
    return .content (← IO.FS.readBinFile place).toList
  catch _ => return .unreadable

/-- Reads a stream to its end. -/
partial def readAll (stream : IO.FS.Stream) (done : ByteArray) : IO ByteArray := do
  let more ← stream.read 65536
  if more.isEmpty then return done else readAll stream (done ++ more)

/-- Reads the standard input, unless it is a terminal. -/
def readInput : IO Input := do
  let stream ← IO.getStdin
  if ← stream.isTty then return .terminal
  try
    return .octets (← readAll stream .empty).toList
  catch _ => return .unreadable

/-- Prints a text, and says whether the standard output has taken all of it. -/
def print (text : String) : IO Bool := do
  try
    IO.print text
    (← IO.getStdout).flush
    return true
  catch _ => return false

/-- Saves octets under a path: first in a fresh file beside it, which then takes its place.  The
fresh file is removed when a step fails. -/
def save (path : String) (octets : List UInt8) : IO (Except SaveError Unit) := do
  let target := (← IO.currentDir) / path
  let fresh := (target.parent.getD target) / ("." ++ toString (← IO.monoNanosNow) ++ ".tmp")
  let handle ← try IO.FS.Handle.mk fresh .writeNew catch _ => return .error .noDirectory
  try
    handle.write ⟨octets.toArray⟩
    handle.flush
  catch _ =>
    IO.FS.removeFile fresh
    return .error (if path.endsWith ".gz" then .uncompressed else .unwritten)
  try
    IO.FS.rename fresh target
    return .ok ()
  catch _ =>
    IO.FS.removeFile fresh
    return .error .noTarget

/-- Shows where a run stopped, and gives its exit status. -/
def conclude (stop : Stop) : IO UInt32 := do
  match stop.message? with
  | some message => IO.eprintln ("Error: " ++ message)
  | none => pure ()
  if stop = .misused then IO.eprint helpText
  return stop.code.toUInt32

/-- Answers arguments that do not come to a search. -/
def halt : Halt → IO UInt32
  | .help => do
    discard <| print helpText
    conclude .done
  | .version => do
    discard <| print versionText
    conclude .done
  | .misuse => conclude .misused

/-- Carries out a run with readable arguments. -/
def carryOut (arguments : Arguments) : IO UInt32 := do
  let home := (← IO.getEnv "HOME").getD ""
  let settings ← lookForSettings (home ++ "/" ++ Settings.path)
  let around : Surroundings := ⟨.octets [], home, settings, ← IO.getEnv "RUST_LOG"⟩
  let intake ← match arguments.file with
    | some path => pure (.file path (← look path))
    | none => pure (.input (← readInput))
  let reply := arguments.answer around.settingsUsed intake
  for record in around.shown arguments reply do
    IO.eprint record.shown
  match reply.result, arguments.output with
  | .ok text, some path =>
    match ← save path (savedOctets path text) with
    | .ok () => conclude .done
    | .error e => conclude (.failed (.save path e))
  | .ok text, none => conclude (if ← print text then .done else .broken)
  | .error e, _ => conclude (.failed e)

end SiblingQuery

open SiblingQuery in
/-- The command `find-all-after`. -/
def main (line : List String) : IO UInt32 :=
  match Arguments.parse line with
  | .error stop => halt stop
  | .ok arguments => carryOut arguments
