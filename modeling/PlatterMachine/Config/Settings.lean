import PlatterMachine.FileSystem
import PlatterMachine.Toml.Document

/-!
# Settings

Settings start from defaults, are changed by an optional TOML file and then by environment
variables. In the file, keys are matched without regard to case, and unknown keys are an error.
-/

namespace PlatterMachine

structure Settings where
  logLevel : String := "info"
  logFile : String := ""
  journal : Bool := false
  snapshotDir : String := "um-snapshots"
  listen : String := "localhost:4850"
  fingerprint : String := ""
  deriving DecidableEq, Repr

/-- Why settings cannot be loaded. -/
inductive SettingsError where
  | unreadable (path : String) (error : FileError)
  | malformed (path : String)
  | unknownKeys (path : String) (keys : List Toml.Key)

def SettingsError.message : SettingsError → String
  | unreadable path e => s!"parse error in {path}: {e.fault.message}"
  | malformed path => s!"parse error in {path}: toml: not a valid document"
  | unknownKeys path keys =>
    s!"unknown keys in {path}: " ++ ", ".intercalate (keys.map Toml.showKey)

namespace Settings

/-- A character without regard to case, as far as that makes it an ASCII letter. -/
def fold (c : Char) : Char :=
  if c.toNat = 0x17F then 's' else if c.toNat = 0x212A then 'k' else c.toLower

def folded (key : String) : String := String.ofList (key.toList.map fold)

abbrev Used := Settings × List Toml.Key

/-- Applies the entries of one table; fails on a value of the wrong type. -/
def applySection (name group : String) (u : Used) : Toml.Entries → Option Used
  | [] => some u
  | (key, node) :: rest =>
    let (s, used) := u
    let change : Option (Option Settings) :=
      match group, folded key, node with
      | "log", "level", .text t => some (some { s with logLevel := t })
      | "log", "file", .text t => some (some { s with logFile := t })
      | "log", "journal", .bool b => some (some { s with journal := b })
      | "snapshot", "dir", .text t => some (some { s with snapshotDir := t })
      | "console", "listen", .text t => some (some { s with listen := t })
      | "console", "fingerprint", .text t => some (some { s with fingerprint := t })
      | "log", "level", _ | "log", "file", _ | "log", "journal", _ | "snapshot", "dir", _
      | "console", "listen", _ | "console", "fingerprint", _ => none
      | _, _, _ => some none
    match change with
    | none => none
    | some none => applySection name group u rest
    | some (some s) => applySection name group (s, [name, key] :: used) rest

def sections : List String := ["log", "snapshot", "console"]

/-- Applies the tables of a document; fails where something else stands in the place of one. -/
def applyTables (u : Used) : Toml.Entries → Option Used
  | [] => some u
  | (key, node) :: rest =>
    if folded key ∈ sections then
      match node with
      | .table entries =>
        match applySection key (folded key) (u.1, [key] :: u.2) entries with
        | some u => applyTables u rest
        | none => none
      | _ => none
    else applyTables u rest

def applyFile (s : Settings) (path : String) (bytes : List UInt8) :
    Except SettingsError Settings :=
  match Toml.Document.parse bytes with
  | none => .error (.malformed path)
  | some doc =>
    match applyTables (s, []) doc.root with
    | none => .error (.malformed path)
    | some (s, used) =>
      let unknown := doc.keys.filter (!used.contains ·)
      if unknown.isEmpty then .ok s else .error (.unknownKeys path unknown)

abbrev Environment := List (String × String)

/-- The value of a variable, unless it is empty. -/
def value? (env : Environment) (name : String) : Option String :=
  (env.lookup name).filter (!·.isEmpty)

def affirmations : List String :=
  ["1", "absolutely", "affirmative", "enable", "enabled", "positive", "t", "true", "y", "yes"]

def affirms (word : String) : Bool :=
  affirmations.any fun w => word = w || word = w.toUpper || word = w.capitalize

def applyEnvironment (s : Settings) (env : Environment) : Settings where
  logLevel := (value? env "UM_LOG_LEVEL").getD s.logLevel
  logFile := (value? env "UM_LOG_FILE").getD s.logFile
  journal := (value? env "UM_LOG_JOURNAL").elim s.journal affirms
  snapshotDir := (value? env "UM_SNAPSHOT_DIR").getD s.snapshotDir
  listen := (value? env "UM_LISTEN").getD s.listen
  fingerprint := (value? env "UM_FINGERPRINT").getD s.fingerprint

/-- The settings from the file at `path`, unless that is empty, and the environment. -/
def load (fs : FileSystem) (env : Environment) (path : String) : Except SettingsError Settings := do
  let s ←
    if path.isEmpty then .ok {}
    else
      match fs.read path with
      | .ok bytes => applyFile {} path bytes
      | .error e => .error (.unreadable path e)
  .ok (s.applyEnvironment env)

end Settings

end PlatterMachine
