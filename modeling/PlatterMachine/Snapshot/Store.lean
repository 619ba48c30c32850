import PlatterMachine.Engine.State
import PlatterMachine.Scroll
import PlatterMachine.Snapshot.Record
import PlatterMachine.Text.Printable
import Std.Data.TreeMap

/-!
# Snapshot stores

Suspended machines under names, kept as entries of a database whose keys are byte strings in
lexicographic order. A snapshot has one entry for its record and one for each array, all behind a
common start of key, so that it is replaced or deleted as one range.
-/

namespace PlatterMachine

abbrev Database := Std.TreeMap (List UInt8) (List UInt8)

namespace Database

/-- Removes the keys from `low` up to but without `high`. -/
def eraseRange (db : Database) (low high : List UInt8) : Database :=
  db.filter fun key _ => (compare key low).isLT || (compare key high).isGE

/-- The keys from `low` up to but without `high`. -/
def keysBetween (db : Database) (low high : List UInt8) : List (List UInt8) :=
  db.keys.filter fun key => (compare key low).isGE && (compare key high).isLT

/-- The database as a file: keys and values in turn, each a CBOR byte string. -/
def image (db : Database) : List UInt8 :=
  db.toList.flatMap fun (key, value) => Cbor.encodeBytes key ++ Cbor.encodeBytes value

def takeBytes (bytes : List UInt8) : Option (List UInt8 × List UInt8) :=
  match Cbor.readHead bytes with
  | .ok (h, rest) =>
    if h.major = .bytes then (Cbor.readString h.argument rest).toOption else none
  | .error _ => none

/-- Reads entries until the bytes end; every entry takes a byte of `fuel`. -/
def readEntries (db : Database) : (fuel : Nat) → List UInt8 → Option Database
  | _, [] => some db
  | 0, _ => none
  | fuel + 1, bytes =>
    match takeBytes bytes with
    | none => none
    | some (key, rest) =>
      match takeBytes rest with
      | none => none
      | some (value, rest) => readEntries (db.insert key value) fuel rest

def ofImage? (bytes : List UInt8) : Option Database := readEntries ∅ bytes.length bytes

end Database

structure Snapshot where
  name : List UInt8
  hash : Vector UInt8 32
  created : Int64
  state : MachineState

namespace Snapshot

def common : List UInt8 := Utf8.encode "snapshot/"

def keyStart (name : List UInt8) : List UInt8 := common ++ name ++ Utf8.encode "/"

def recordKey (name : List UInt8) : List UInt8 := keyStart name ++ Utf8.encode "meta"

def arrayKey (name : List UInt8) (handle : UInt32) : List UInt8 :=
  keyStart name ++ Utf8.encode "array/" ++ Scroll.bigEndian handle

def keyEnd (start : List UInt8) : List UInt8 :=
  start.dropLast ++ (start.getLast?.map (· + 1)).toList

def nameOfKey? (key : List UInt8) : Option (List UInt8) :=
  let rest := if common.isPrefixOf key then key.drop common.length else key
  let tail := Utf8.encode "/meta"
  if tail.isSuffixOf rest then
    let name := rest.take (rest.length - tail.length)
    if name.contains '/'.toUInt8 then none else some name
  else none

end Snapshot

/-- Why a snapshot cannot be loaded. -/
inductive LoadError where
  | fault (f : Fault)
  | badRecord (name : List UInt8) (flaw : Cbor.Flaw)

def Snapshot.subject (name : List UInt8) : String := s!"snapshot {Quoted.quoteBytes name}"

def LoadError.toFault : LoadError → Fault
  | fault f => f
  | badRecord name flaw => (Fault.plain flaw.message).during (Snapshot.subject name)

def decodeArray (value : List UInt8) : Except Fault (Array Platter) :=
  if value.length % 4 = 0 then .ok (Scroll.decode value)
  else .error (.plain s!"array value length {value.length} is not a multiple of 4")

namespace Store

open Snapshot

/-- A name has at least one byte, and no slash. -/
def checkName (name : List UInt8) : Except Fault Unit :=
  if name.isEmpty ∨ name.contains '/'.toUInt8 then
    .error (.plain s!"invalid snapshot name {Quoted.quoteBytes name}")
  else .ok ()

/-- The version of the records written, and the only one read. -/
def version : UInt8 := 1

def recordOf (hash : Vector UInt8 32) (created : Int64) (state : MachineState) :
    SnapshotRecord where
  version := version
  hash := hash
  registers := state.registers
  finger := state.finger
  handles := some state.handles
  created := created

def save (db : Database) (name : List UInt8) (hash : Vector UInt8 32) (created : Int64)
    (state : MachineState) : Except Fault Database := do
  checkName name
  if (state.array? 0).isNone then
    .error (.plain s!"{subject name}: state has no array 0")
  else
    let start := keyStart name
    let db := (db.eraseRange start (keyEnd start)).insert (recordKey name)
      (recordOf hash created state).encode
    .ok (state.arrays.foldl
      (fun db (handle, words) => db.insert (arrayKey name handle) (Scroll.encode words.toList)) db)

def loadArrays (db : Database) (name : List UInt8) : List UInt32 → Array (UInt32 × Array Platter) →
    Except Fault (List (UInt32 × Array Platter))
  | [], arrays => .ok arrays.toList
  | handle :: rest, arrays =>
    let value :=
      match db[arrayKey name handle]? with
      | some value => decodeArray value
      | none => .error .snapshotMissing
    match value with
    | .ok words => loadArrays db name rest (arrays.push (handle, words))
    | .error f => .error ((f.during s!"array {handle.toNat}").during (subject name))

def load (db : Database) (name : List UInt8) : Except LoadError Snapshot := do
  (checkName name).mapError .fault
  match db[recordKey name]? with
  | none => .error (.fault (Fault.snapshotMissing.during (subject name)))
  | some bytes =>
    let r ← (SnapshotRecord.decode bytes).mapError (.badRecord name)
    if r.version ≠ version then
      .error (.fault (.plain
        s!"{subject name}: unsupported record version {r.version.toNat}"))
    else
      let arrays ← (loadArrays db name (r.handles.getD []) #[]).mapError .fault
      .ok ⟨name, r.hash, r.created, .ofEntries r.registers r.finger arrays⟩

/-- The names of all snapshots, in the order of their keys. -/
def names (db : Database) : List (List UInt8) :=
  (db.keysBetween common (keyEnd common)).filterMap nameOfKey?

def delete (db : Database) (name : List UInt8) : Except Fault Database := do
  checkName name
  .ok (db.eraseRange (keyStart name) (keyEnd (keyStart name)))

end Store

end PlatterMachine
