import PlatterMachine.HostCode.Routine
import PlatterMachine.Memory

/-!
# Code objects

The code object of an array holds the routines of its platters in order, then the bounds guard, and
a jump table from instruction indices to the addresses of routines.
-/

namespace PlatterMachine

structure CodeObject where
  code : Array UInt8
  codeBuffer : Buffer
  table : Array UInt32
  tableBuffer : Buffer
  guard : UInt32
  deriving DecidableEq

/-- The least `i` in `lo ≤ i < hi` with `f i`, or `hi`, by bisection: exact when `f` never turns
false again. -/
def bisect (f : Nat → Bool) : (fuel lo hi : Nat) → Nat
  | 0, lo, _ => lo
  | fuel + 1, lo, hi =>
    if lo < hi then
      let mid := (lo + hi) / 2
      if f mid then bisect f fuel lo mid else bisect f fuel (mid + 1) hi
    else lo

namespace CodeObject

/-- Where execution at instruction `i` starts; past the end that is the guard. -/
def entry (co : CodeObject) (i : UInt32) : UInt32 :=
  co.table.getD i.toNat co.guard

def fingerFor (co : CodeObject) (addr : UInt32) : Except Fault UInt32 :=
  let n := co.table.size
  let j := bisect (fun i => addr ≤ co.entry (UInt32.ofNat i)) (n + 1) 0 (n + 1)
  if j = 0 then .error (.invalidIndex "resume address precedes the first routine" addr)
  else if n < j then .error (.invalidIndex "resume address past the bounds guard" addr)
  else .ok (UInt32.ofNat (j - 1))

def stubFits (co : CodeObject) (addr : UInt32) : Bool :=
  let stop := addr + UInt32.ofNat Routine.stubSize
  addr ≤ stop && stop.toNat ≤ co.codeBuffer.capacity

def plantStub (co : CodeObject) (addr : UInt32) : CodeObject :=
  { co with
    code := Assembler.writeBytes co.code addr.toNat (addr.toNat + Routine.stubSize)
      (HostInstr.ret Reason.recompile.code).bytes }

def measure (platters : List Platter) : Outcome Nat := do
  let rec go : List Platter → Nat → Outcome Nat
    | [], total => pure total
    | p :: ps, total =>
      match Routine.sizeOrEmit p .measuring with
      | (.done size, _) => go ps (total + size)
      | (.failed fault, _) => .failed fault
      | (.crashed crash, _) => .crashed crash
  let total ← go platters 0
  pure (total + Routine.guardSize)

structure Emission where
  code : Array UInt8
  table : Array UInt32
  addr : Nat

def emitRoutines : List Platter → Emission → Outcome Emission
  | [], e => pure e
  | p :: ps, ⟨code, table, addr⟩ =>
    match Routine.sizeOrEmit p (.into code addr) with
    | (.done size, asm) =>
      emitRoutines ps ⟨asm.code.getD #[], table.push (UInt32.ofNat addr), addr + size⟩
    | (.failed fault, _) => .failed fault
    | (.crashed crash, _) => .crashed crash

/-- Emits the routines and the guard over whatever `buffer` holds; the result's address is that of
the guard. -/
def emitProgram (platters : List Platter) (buffer : Array UInt8) : Outcome Emission := do
  let e ← emitRoutines platters ⟨buffer, #[], 0⟩
  match Routine.sizeOrEmitGuard (.into e.code e.addr) with
  | (.done size, asm) =>
    if e.addr + size = buffer.size then pure ⟨asm.code.getD #[], e.table, e.addr⟩
    else .crashed (.broken "um: emitted code size differs from measured size")
  | (.failed fault, _) => .failed fault
  | (.crashed crash, _) => .crashed crash

def generate (platters : Array Platter) : Action Memory CodeObject := do
  let total ← Action.ofOutcome (measure platters.toList)
  let codeBuffer ← Memory.inCode (Arena.alloc total false)
  let tableBuffer ← (Memory.inSlots (Arena.alloc platters.size false)).cleaningUp
    (Memory.inCode (Arena.release codeBuffer))
  let e ← Action.ofOutcome (emitProgram platters.toList (Array.replicate total 0))
  pure ⟨e.code, codeBuffer, e.table, tableBuffer, UInt32.ofNat e.addr⟩

/-- A code object with the given contents, less those for which no memory is to be had. -/
def install (code : Array UInt8) (table : Array UInt32) (guard : UInt32) :
    Action Memory CodeObject := do
  let codeBuffer ← (Memory.inCode (Arena.alloc code.size false)).orElse .empty
  let tableBuffer ← (Memory.inSlots (Arena.alloc table.size false)).orElse .empty
  pure ⟨code.take codeBuffer.length, codeBuffer, table.take tableBuffer.length, tableBuffer, guard⟩

def release (co : CodeObject) : Action Memory Unit := do
  Memory.inCode (Arena.release co.codeBuffer)
  Memory.inSlots (Arena.release co.tableBuffer)

end CodeObject

end PlatterMachine
