import PlatterMachine.HostCode.CodeObject

/-!
# The machine as generated code sees it

The register file, the running program and the arrays by handle. Handle 0 names the running program
until the program abandons it; the program then goes on running without a handle.
-/

namespace PlatterMachine

/-- Words, and the code generated from them if there is any. A dirty array was written since. -/
structure PlatterArray where
  words : Array Platter
  buffer : Buffer
  dirty : Bool := false
  code : Option CodeObject := none
  deriving DecidableEq

structure Machine where
  file : Vector UInt32 fileSize
  running : PlatterArray
  /-- Whether handle 0 still names the running array. -/
  zeroLive : Bool
  /-- The arrays with handles from 1 on. -/
  others : Array (Option PlatterArray)
  deriving DecidableEq

/-- A live array, by where it is kept. -/
inductive Place where
  | running
  | other (index : Nat)
  deriving DecidableEq, Repr

namespace Machine

def place? (m : Machine) (handle : UInt32) : Option Place :=
  if handle = 0 then if m.zeroLive then some .running else none
  else
    match m.others[handle.toNat - 1]? with
    | some (some _) => some (.other (handle.toNat - 1))
    | _ => none

def array? (m : Machine) : Place → Option PlatterArray
  | .running => some m.running
  | .other i => m.others[i]?.join

def lookup (m : Machine) (handle : UInt32) : Option PlatterArray :=
  if handle = 0 then if m.zeroLive then some m.running else none
  else m.others[handle.toNat - 1]?.join

def modifyArray (m : Machine) (place : Place) (f : PlatterArray → PlatterArray) : Machine :=
  match place with
  | .running => { m with running := f m.running }
  | .other i => { m with others := m.others.modify i (Option.map f) }

def setOther (m : Machine) (handle : Nat) (a : Option PlatterArray) : Machine :=
  if handle - 1 < m.others.size then
    { m with others := m.others.setIfInBounds (handle - 1) a }
  else { m with others := m.others.push a }

def slot (m : Machine) (i : UInt8) : UInt32 := (m.file.toArray).getD i.toNat 0

def setSlot (m : Machine) (i : UInt8) (v : UInt32) : Machine :=
  { m with file := m.file.setIfInBounds i.toNat v }

def registers (m : Machine) : Vector UInt32 8 :=
  Vector.ofFn fun i => m.file.get (i.castLE (by decide))

end Machine

end PlatterMachine
