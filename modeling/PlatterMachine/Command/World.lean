import PlatterMachine.Config.Settings
import PlatterMachine.Engine.Basic
import PlatterMachine.Snapshot.Store
import PlatterMachine.Stream.Source

/-!
# The world of a command

What a command finds when it starts and leaves when it ends: files, snapshot stores, the
environment, its input and what it has written. A command either goes on or ends with an exit code.
-/

namespace PlatterMachine

structure World where
  files : FileSystem := {}
  /-- The snapshot stores, by their directories. -/
  stores : List (Location × Database) := []
  env : Settings.Environment := []
  input : Source := .ofBytes []
  output : List UInt8 := []
  errors : String := ""
  /-- Nanoseconds since 1970. -/
  clock : Int64 := 0
  showTime : Int64 → String := fun t => toString t.toInt

abbrev Command (α : Type) := ExceptT UInt32 (StateM World) α

namespace Command

def exit {α : Type} (code : UInt32) : Command α := throw code

def execute (c : Command UInt32) (w : World) : UInt32 × World :=
  match c w with
  | (.ok code, w) | (.error code, w) => (code, w)

def say (text : String) : Command Unit := modify fun w => { w with errors := w.errors ++ text }

def abort {α : Type} (code : UInt32) (reason : String) : Command α := do
  say (reason ++ "\n")
  exit code

def write (bytes : List UInt8) : Command Unit :=
  modify fun w => { w with output := w.output ++ bytes }

def store (location : Location) : Command Database := do
  return ((← get).stores.lookup location).getD ∅

def putStore (location : Location) (db : Database) : Command Unit :=
  modify fun w => { w with stores := (location, db) :: w.stores.filter (·.1 ≠ location) }

/-- Opens the store in a directory, which is made if there is none. -/
def openStore (path : String) : Command (Except Fault Location) := do
  match (← get).files.openDirectory path with
  | .ok (location, files) =>
    modify fun w => { w with files }
    return .ok location
  | .error e =>
    return .error ((e.fault.during s!"error opening database at {Quoted.quote path}").during
      "opening snapshot store")

/-- Where records go besides the standard error output, and from which level on. -/
structure Log where
  level : LogLevel
  file : Option Location

def joinLines (lines : List String) : String := String.join (lines.map (· ++ "\n"))

def Log.write (l : Log) (records : List LogRecord) : Command Unit := do
  let logger := Logger.logAll { level := l.level } records
  say (joinLines logger.textLines)
  match l.file with
  | none => pure ()
  | some location =>
    modify fun w =>
      { w with files := w.files.append location (Utf8.encode (joinLines logger.jsonLines)) }

def openLog (s : Settings) : Command (Except Fault Log) := do
  match Logger.ofName s.logLevel with
  | .error f => return .error f
  | .ok logger =>
    if s.logFile.isEmpty then return .ok ⟨logger.level, none⟩
    match (← get).files.openToAppend s.logFile with
    | .error e => return .error (e.fault.during "opening log file")
    | .ok (location, files) =>
      modify fun w => { w with files }
      return .ok ⟨logger.level, some location⟩

end Command

end PlatterMachine
