import PlatterMachine.Cbor.Item

/-!
# Snapshot records

What a store keeps about a suspended machine besides its arrays: a CBOR map with the keys 1 to 6.
Writing is canonical. Reading is lenient about lengths, order, additional keys and tags, and strict
about types and ranges.
-/

namespace PlatterMachine

open Cbor (Item Flaw)

structure SnapshotRecord where
  version : UInt8 := 0
  /-- The hash of the program that was started. -/
  hash : Vector UInt8 32 := Vector.replicate 32 0
  registers : Vector UInt32 8 := Vector.replicate 8 0
  finger : UInt32 := 0
  /-- The live handles; a record may also lack the list. -/
  handles : Option (List UInt32) := none
  /-- Nanoseconds since 1970. -/
  created : Int64 := 0
  deriving DecidableEq, Repr

namespace SnapshotRecord

def encodeWords (ws : List UInt32) : List UInt8 :=
  Cbor.encodeArray (ws.map fun w => Cbor.encodeHead .unsigned w.toNat)

def encode (r : SnapshotRecord) : List UInt8 :=
  Cbor.encodeHead .map 6 ++
    (Cbor.encodeInt 1 ++ Cbor.encodeInt r.version.toNat) ++
    (Cbor.encodeInt 2 ++ Cbor.encodeBytes r.hash.toList) ++
    (Cbor.encodeInt 3 ++ encodeWords r.registers.toList) ++
    (Cbor.encodeInt 4 ++ Cbor.encodeInt r.finger.toNat) ++
    (Cbor.encodeInt 5 ++ r.handles.elim Cbor.encodeNull encodeWords) ++
    (Cbor.encodeInt 6 ++ Cbor.encodeInt r.created.toInt)

inductive Value where
  | nothing
  | number (n : Int)
  /-- A number of any size, in big-endian bytes; `-1 - n` if `negative`. -/
  | big (negative : Bool) (digits : List UInt8)
  | bytes (value : List UInt8)
  | array (items : List Item)
  | map (items : List Item)
  | other

def tagFits (number : Nat) (content : Item) : Bool :=
  match number, content with
  | 0, .text _ => true
  | 1, .unsigned _ | 1, .negative _ | 1, .float => true
  | 2, .bytes _ | 3, .bytes _ => true
  | n, _ => 3 < n

def value : Item → Except Flaw Value
  | .unsigned n => .ok (.number n)
  | .negative n => .ok (if n < 0x8000000000000000 then .number (-1 - n) else .other)
  | .bytes b => .ok (.bytes b)
  | .text _ => .ok .other
  | .array items => .ok (.array items)
  | .map items => .ok (.map items)
  | .simple n =>
    .ok (if n = 20 ∨ n = 21 then .other else if n = 22 ∨ n = 23 then .nothing else .number n)
  | .float => .ok .other
  | .tagged n content =>
    if tagFits n content then
      match n, content with
      | 2, .bytes digits => .ok (.big false digits)
      | 3, .bytes digits => .ok (.big true digits)
      | _, content => value content
    else .error .wrongType

/-- An item as a number in a range; nothing is 0. -/
def integer (least greatest : Int) (item : Item) : Except Flaw Int := do
  let inRange (n : Int) : Except Flaw Int :=
    if least ≤ n ∧ n ≤ greatest then .ok n else .error .wrongType
  match ← value item with
  | .nothing => .ok 0
  | .number n => inRange n
  | .big false digits => inRange (digits.foldl (fun n b => 256 * n + b.toNat) 0 : Nat)
  | .big true digits => inRange (-1 - (digits.foldl (fun n b => 256 * n + b.toNat) 0 : Nat))
  | _ => .error .wrongType

def byte (item : Item) : Except Flaw UInt8 := do
  .ok (UInt8.ofNat (← integer 0 (0xFF) item).toNat)

def word (item : Item) : Except Flaw UInt32 := do
  .ok (UInt32.ofNat (← integer 0 (0xFFFFFFFF) item).toNat)

def readAll {α : Type} (read : Item → Except Flaw α) (items : List Item) :
    Except Flaw (List α) := do
  let values ← items.foldlM (fun (values : Array α) item => do .ok (values.push (← read item))) #[]
  .ok values.toList

/-- Exactly `n` values: what is too much is dropped and what lacks is `fill`. -/
def fitTo {α : Type} (n : Nat) (fill : α) (values : List α) : Vector α n :=
  Vector.ofFn fun i => values.getD i.val fill

def readHash (item : Item) : Except Flaw (Vector UInt8 32) := do
  match ← value item with
  | .nothing => .ok (fitTo 32 0 [])
  | .bytes b | .big _ b => .ok (fitTo 32 0 b)
  | .array items => .ok (fitTo 32 0 (← readAll byte (items.take 32)))
  | _ => .error .wrongType

def readRegisters (item : Item) : Except Flaw (Vector UInt32 8) := do
  match ← value item with
  | .nothing => .ok (fitTo 8 0 [])
  | .array items => .ok (fitTo 8 0 (← readAll word (items.take 8)))
  | _ => .error .wrongType

def readHandles (item : Item) : Except Flaw (Option (List UInt32)) := do
  match ← value item with
  | .nothing => .ok none
  | .array items => .ok (some (← readAll word items))
  | _ => .error .wrongType

inductive Field where
  | version
  | hash
  | registers
  | finger
  | handles
  | created
  deriving DecidableEq, Repr

def Field.ofNumber? (n : Nat) : Option Field :=
  match n with
  | 1 => some version
  | 2 => some hash
  | 3 => some registers
  | 4 => some finger
  | 5 => some handles
  | 6 => some created
  | _ => none

def Field.ofText? (bytes : List UInt8) : Option Field :=
  match bytes with
  | [b] => if 0x30 ≤ b then ofNumber? (b.toNat - 0x30) else none
  | _ => none

/-- The field a key names, if any. A negative number has to fit 64 bits. -/
def Field.ofKey? : Item → Except Flaw (Option Field)
  | .unsigned n => .ok (ofNumber? n)
  | .negative n => if n < 0x8000000000000000 then .ok none else .error .wrongType
  | .text pieces =>
    if pieces.all fun p => Utf8.isValid p.length p then .ok (ofText? pieces.flatten)
    else .error .malformed
  | _ => .error .wrongType

def setField (r : SnapshotRecord) (field : Field) (item : Item) : Except Flaw SnapshotRecord := do
  match field with
  | .version => .ok { r with version := ← byte item }
  | .hash => .ok { r with hash := ← readHash item }
  | .registers => .ok { r with registers := ← readRegisters item }
  | .finger => .ok { r with finger := ← word item }
  | .handles => .ok { r with handles := ← readHandles item }
  | .created =>
    .ok { r with created := Int64.ofInt (← integer (-0x8000000000000000) 0x7FFFFFFFFFFFFFFF item) }

/-- Sets the fields that keys and values in turn give, but for those in `seen`. -/
def setFields (r : SnapshotRecord) (seen : List Field) : List Item → Except Flaw SnapshotRecord
  | key :: item :: rest =>
    match Field.ofKey? key with
    | .error flaw => .error flaw
    | .ok none => setFields r seen rest
    | .ok (some field) =>
      if field ∈ seen then setFields r seen rest
      else
        match setField r field item with
        | .ok r => setFields r (field :: seen) rest
        | .error flaw => .error flaw
  | _ => .ok r

def decode (bytes : List UInt8) : Except Flaw SnapshotRecord := do
  match ← value (← Item.decode bytes) with
  | .nothing => .ok {}
  | .map items => setFields {} [] items
  | _ => .error .wrongType

end SnapshotRecord

end PlatterMachine
