import PlatterMachine.Fault

/-!
# Files and directories

The tree of files that a command works in. Names are relative to its root, where the command was
started; of what lies outside only that is known which every system has.
-/

namespace PlatterMachine

inductive Refusal where
  | notFound
  | notDirectory
  | isDirectory
  | alreadyExists
  | invalidName
  | nameTooLong
  deriving DecidableEq, Repr

def Refusal.message : Refusal → String
  | notFound => "no such file or directory"
  | notDirectory => "not a directory"
  | isDirectory => "is a directory"
  | alreadyExists => "file exists"
  | invalidName => "invalid argument"
  | nameTooLong => "file name too long"

/-- A refused request: what was asked for, and of which name. -/
structure FileError where
  request : String
  name : String
  refusal : Refusal
  deriving DecidableEq, Repr

def FileError.fault (e : FileError) : Fault :=
  .plain s!"{e.request} {e.name}: {e.refusal.message}"

inductive FileEntry where
  | file (content : List UInt8)
  | directory
  /-- Nothing can be read from a device, and what is written to it is lost. -/
  | device

abbrev Location := List String

structure FileSystem where
  entries : List (Location × FileEntry) := []

namespace FileSystem

def top : Location := ["/"]

def systemDirectories : List String :=
  ["bin", "dev", "etc", "home", "lib", "media", "mnt", "opt", "proc", "root", "run", "sbin", "srv",
   "sys", "tmp", "usr", "var"]

def devices : List String := ["full", "null", "random", "tty", "urandom", "zero"]

def isAbove (location : Location) : Bool := location.all (· = "..")

def outside? (location : Location) : Option FileEntry :=
  match location with
  | ["/"] => some .directory
  | ["/", name] => if systemDirectories.contains name then some .directory else none
  | ["/", "dev", name] => if devices.contains name then some .device else none
  | location => if isAbove location then some .directory else none

def entry? (fs : FileSystem) (location : Location) : Option FileEntry :=
  (outside? location).or (fs.entries.lookup location)

def descend (location : Location) (name : String) : Location :=
  if name.isEmpty ∨ name = "." then location
  else if name = ".." ∧ location = top then location
  else if name = ".." ∧ !isAbove location then location.dropLast
  else location ++ [name]

/-- Follows the names of a path; all that are passed must be directories. -/
def walk (fs : FileSystem) (location : Location) : List String → Except Refusal Location
  | [] => .ok location
  | name :: rest =>
    match fs.entry? location with
    | none => .error .notFound
    | some .directory =>
      if 255 < name.utf8ByteSize then .error .nameTooLong else walk fs (descend location name) rest
    | some _ => .error .notDirectory

/-- The names that a path consists of. A path that ends in a slash has an empty one at its end. -/
def names (path : String) : Except Refusal (List String) :=
  if path.contains '\x00' then .error .invalidName
  else if path.isEmpty then .error .notFound
  else if 4096 ≤ path.utf8ByteSize then .error .nameTooLong
  else .ok (path.splitOn "/")

def origin (path : String) : Location := if path.startsWith "/" then top else []

/-- The location that a path leads to; there need not be anything. -/
def locate (fs : FileSystem) (path : String) : Except Refusal Location := do
  fs.walk (origin path) (← names path)

def find (fs : FileSystem) (path : String) : Except Refusal FileEntry := do
  match fs.entry? (← fs.locate path) with
  | some entry => .ok entry
  | none => .error .notFound

def set (fs : FileSystem) (location : Location) (entry : FileEntry) : FileSystem :=
  ⟨(location, entry) :: fs.entries.filter (·.1 ≠ location)⟩

def read (fs : FileSystem) (path : String) : Except FileError (List UInt8) :=
  match fs.find path with
  | .error r => .error ⟨"open", path, r⟩
  | .ok .directory => .error ⟨"read", path, .isDirectory⟩
  | .ok .device => .ok []
  | .ok (.file content) => .ok content

def dropEmptyEnd (names : List String) : List String :=
  (names.reverse.dropWhile String.isEmpty).reverse

/-- The location of a file that is to be written at its end, made if there is none. A slash behind
its name asks for a directory, once those on the way are found. -/
def openToAppend (fs : FileSystem) (path : String) : Except FileError (Location × FileSystem) :=
  Except.mapError (fun r => ⟨"open", path, r⟩) do
    let all ← names path
    let given := dropEmptyEnd all
    if given.length < all.length ∧ !given.isEmpty then
      let _ ← fs.walk (origin path) (given.dropLast ++ [""])
      .error .isDirectory
    else
      let location ← fs.walk (origin path) all
      match fs.entry? location with
      | some .directory => .error .isDirectory
      | some _ => .ok (location, fs)
      | none => .ok (location, fs.set location (.file []))

def append (fs : FileSystem) (location : Location) (bytes : List UInt8) : FileSystem :=
  match fs.entry? location with
  | some (.file content) => fs.set location (.file (content ++ bytes))
  | _ => fs

/-- A path without its last name and the slash before it. -/
def parentPath (path : List Char) : List Char :=
  (((path.reverse.dropWhile (· = '/')).dropWhile (· ≠ '/')).drop 1).reverse

def makeDirectory (fs : FileSystem) (path : String) : Except FileError FileSystem :=
  Except.mapError (fun r => ⟨"mkdir", path, r⟩) do
    let location ← fs.walk (origin path) (dropEmptyEnd (← names path))
    match fs.entry? location with
    | none => .ok (fs.set location .directory)
    | some _ =>
      match fs.find path with
      | .ok .directory => .ok fs
      | _ => .error .alreadyExists

/-- Makes a directory and those it lies in; every step shortens the path. -/
def makeAll (fs : FileSystem) : (fuel : Nat) → (path : String) → Except FileError FileSystem
  | 0, _ => .ok fs
  | fuel + 1, path =>
    match fs.find path with
    | .ok .directory => .ok fs
    | .ok _ => .error ⟨"mkdir", path, .notDirectory⟩
    | .error _ => do
      let parent := String.ofList (parentPath path.toList)
      let fs ← if parent.isEmpty then .ok fs else makeAll fs fuel parent
      fs.makeDirectory path

def openDirectory (fs : FileSystem) (path : String) : Except FileError (Location × FileSystem) := do
  let fs ← fs.makeAll (path.length + 1) path
  let location ← (fs.locate path).mapError fun r => ⟨"open", path, r⟩
  .ok (location, fs)

end FileSystem

end PlatterMachine
