import PlatterMachine.Instruction

/-!
# Plain interpretation

The machine as its instructions define it: one platter after the other is decoded and carried out,
without generated code. `Interpreter.step` carries out one instruction and `Interpreter.run` as many
as there is fuel for. Input is what has not been read yet, output what has been written so far.
-/

namespace PlatterMachine

structure Interpreter where
  registers : Vector UInt32 8
  program : Array Platter
  /-- Whether handle 0 names the running program. -/
  zeroLive : Bool
  /-- The arrays with handles from 1 on. -/
  others : Array (Option (Array Platter))
  finger : Nat
  input : List UInt8
  output : Array UInt8
  /-- Whether the machine stops at the end of input, to be continued later. -/
  suspendOnEnd : Bool

namespace Interpreter

def start (program : Array Platter) (input : List UInt8) (suspendOnEnd : Bool) : Interpreter :=
  ⟨Vector.replicate 8 0, program, true, #[], 0, input, #[], suspendOnEnd⟩

/-- What comes of one instruction: the machine goes on, or it stops. -/
inductive Result where
  | next (m : Interpreter)
  | stop (result : Except Fault Unit) (m : Interpreter)

def get (m : Interpreter) (r : Register) : UInt32 := m.registers.get r

def set (m : Interpreter) (r : Register) (v : UInt32) : Interpreter :=
  { m with registers := m.registers.set r.val v r.isLt }

def advance (m : Interpreter) : Result := .next { m with finger := m.finger + 1 }

def fail (m : Interpreter) (fault : Fault) : Result := .stop (.error fault) m

/-- An abnormal halt, which leaves a line of output. -/
def halt (m : Interpreter) (reason word : UInt32) : Result :=
  let fault : Fault := .halt reason word
  fail { m with output := m.output ++ ("\n" ++ fault.message ++ "\n").toUTF8.toList } fault

def lookup (m : Interpreter) (handle : UInt32) : Option (Array Platter) :=
  if handle = 0 then if m.zeroLive then some m.program else none
  else m.others[handle.toNat - 1]?.join

def word? (m : Interpreter) (handle offset : UInt32) : Option Platter :=
  (m.lookup handle).bind (·[offset.toNat]?)

def write (m : Interpreter) (handle offset : UInt32) (v : Platter) : Interpreter :=
  if handle = 0 then { m with program := m.program.setIfInBounds offset.toNat v }
  else
    { m with
      others := m.others.modify (handle.toNat - 1) (Option.map (·.setIfInBounds offset.toNat v)) }

/-- An access to a word that does not exist. -/
def badAccess (m : Interpreter) (handle offset : UInt32) : Result :=
  match m.lookup handle with
  | none => m.fail (.invalidIndex "access to unallocated array" handle)
  | some _ => m.fail (.invalidIndex s!"offset beyond array {handle.toNat}" offset)

/-- Where the array with the least free handle goes. -/
def freeIndex (m : Interpreter) : Nat := (m.others.findIdx? Option.isNone).getD m.others.size

def allocate (m : Interpreter) (size : UInt32) : UInt32 × Interpreter :=
  let i := m.freeIndex
  let a := some (Array.replicate size.toNat 0)
  (UInt32.ofNat (i + 1),
    { m with
      others := if i < m.others.size then m.others.setIfInBounds i a else m.others.push a })

def abandon (m : Interpreter) (handle : UInt32) : Interpreter :=
  if handle = 0 then { m with zeroLive := false }
  else { m with others := m.others.setIfInBounds (handle.toNat - 1) none }

/-- Reads a byte into a register. At the end of input the register gets all ones, or the machine
stops before the instruction. -/
def readInput (m : Interpreter) (r : Register) : Result :=
  match m.input with
  | b :: rest => ({ m with input := rest }.set r b.toUInt32).advance
  | [] => if m.suspendOnEnd then m.fail .suspended else (m.set r 0xFFFFFFFF).advance

/-- Goes on at `finger` of the array with the given handle. An array other than the running program
is first copied in its place. -/
def load (m : Interpreter) (handle finger : UInt32) : Result :=
  if handle = 0 then .next { m with finger := finger.toNat }
  else
    match m.lookup handle with
    | none => m.fail (.invalidIndex "load-program from unallocated array" handle)
    | some source =>
      if source.size ≤ finger.toNat then
        m.fail (.invalidIndex "program finger beyond loaded array" finger)
      else .next { m with program := source, zeroLive := true, finger := finger.toNat }

def carryOut (m : Interpreter) (i : Instruction) : Result :=
  let a := m.get i.a
  let b := m.get i.b
  let c := m.get i.c
  match i.op with
  | .conditionalMove => (if c = 0 then m else m.set i.a b).advance
  | .arrayIndex =>
    match m.word? b c with
    | some v => (m.set i.a v).advance
    | none => m.badAccess b c
  | .arrayAmendment =>
    match m.word? a b with
    | some _ => (m.write a b c).advance
    | none => m.badAccess a b
  | .addition => (m.set i.a (b + c)).advance
  | .multiplication => (m.set i.a (b * c)).advance
  | .division =>
    if c = 0 then m.halt Halt.divisionByZero 0 else (m.set i.a (b / c)).advance
  | .notAnd => (m.set i.a (~~~(b &&& c))).advance
  | .halt => .stop (.ok ()) m
  | .allocation =>
    let (handle, m) := m.allocate c
    (m.set i.b handle).advance
  | .abandonment =>
    match m.lookup c with
    | some _ => (m.abandon c).advance
    | none => m.fail (.invalidIndex "abandonment of unallocated array" c)
  | .output => { m with output := m.output.push c.toUInt8 }.advance
  | .input => m.readInput i.c
  | .loadProgram => m.load b c
  | .orthography => (m.set i.a i.value).advance

def step (m : Interpreter) : Result :=
  match m.program[m.finger]? with
  | none => m.halt Halt.outOfBounds 0
  | some p =>
    match p.decode with
    | .ok i => m.carryOut i
    | .error _ => m.halt Halt.invalidOperator p

/-- Up to `fuel` instructions; the result is none if the machine has not stopped by then. -/
def run : (fuel : Nat) → Interpreter → Option (Except Fault Unit) × Interpreter
  | 0, m => (none, m)
  | fuel + 1, m =>
    match m.step with
    | .next m => run fuel m
    | .stop result m => (some result, m)

end Interpreter

end PlatterMachine
