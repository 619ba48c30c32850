import PlatterMachine.HostCode.Assembler
import PlatterMachine.Instruction

/-!
# Routines

The routine of a platter is the host code that does what the platter says. Behind the last routine
of a program stands a guard that halts execution beyond its end, and over an amended slot of a
running program a stub that asks for the program to be compiled anew.
-/

namespace PlatterMachine

namespace Routine

def slotOf (r : Register) : UInt8 := UInt8.ofNat r.val

def emitInstruction (i : Instruction) : Action Assembler Unit :=
  let a := slotOf i.a
  let b := slotOf i.b
  let c := slotOf i.c
  match i.op with
  | .conditionalMove => do
    let skip ← Assembler.emitJump (.jz c)
    Assembler.emit (.mov a b)
    Assembler.patchJump skip
  | .arrayIndex => Assembler.emit (.load a b c)
  | .arrayAmendment => Assembler.emit (.store a b c)
  | .addition => Assembler.emit (.arith .add a b c)
  | .multiplication => Assembler.emit (.arith .mul a b c)
  | .division => Assembler.emit (.arith .div a b c)
  | .notAnd => Assembler.emit (.arith .nand a b c)
  | .halt => do
    Assembler.emit (.movi slotV1 Halt.normal)
    Assembler.emit (.ret Reason.halt.code)
  | .allocation => do
    Assembler.emit (.mov slotV1 c)
    Assembler.emit (.ret Reason.allocation.code)
    Assembler.emit (.mov b slotAcc)
  | .abandonment => do
    Assembler.emit (.mov slotV1 c)
    Assembler.emit (.ret Reason.abandonment.code)
  | .output => do
    Assembler.emit (.mov slotV1 c)
    Assembler.emit (.ret Reason.output.code)
  | .input => do
    Assembler.emit (.ret Reason.input.code)
    Assembler.emit (.mov c slotAcc)
  | .loadProgram => do
    Assembler.emit (.mov slotV1 b)
    Assembler.emit (.mov slotV2 c)
    let load ← Assembler.emitJump (.jnz slotV1)
    Assembler.emit (.jmpt slotV2)
    Assembler.patchJump load
    Assembler.emit (.ret Reason.loadProgram.code)
  | .orthography => Assembler.emit (.movi a i.value)

/-- The routine of any platter; a malformed one halts with its word. -/
def emit (p : Platter) : Action Assembler Unit :=
  match p.decode with
  | .ok i => emitInstruction i
  | .error _ => do
    Assembler.emit (.movi slotV1 Halt.invalidOperator)
    Assembler.emit (.movi slotV2 p)
    Assembler.emit (.ret Reason.halt.code)

def emitGuard : Action Assembler Unit := do
  Assembler.emit (.movi slotV1 Halt.outOfBounds)
  Assembler.emit (.ret Reason.halt.code)

/-- Every routine is at least this long, so that a stub always fits over it. -/
def stubSize : Nat := HostInstr.retSize

def sizeOrEmit (p : Platter) : Action Assembler Nat := do
  emit p
  let size ← Action.read (·.length)
  if size < stubSize then
    Action.crash (.broken
      s!"um: routine for {p.text} is {size} bytes, shorter than the recompile stub")
  pure size

def sizeOrEmitGuard : Action Assembler Nat := do
  emitGuard
  Action.read (·.length)

def size (p : Platter) : Nat := (emit p .measuring).2.length

def guardSize : Nat := (emitGuard .measuring).2.length

end Routine

end PlatterMachine
