import PlatterMachine.Action
import PlatterMachine.HostCode.Instr

/-!
# Assembling host code

An assembler emits code into a window of a buffer. Without a buffer it only counts, which is how a
size is measured before memory for it is obtained.
-/

namespace PlatterMachine

structure Assembler where
  /-- The buffer, if anything is to be written. -/
  code : Option (Array UInt8)
  base : Nat := 0
  limit : Nat := 0
  length : Nat := 0

namespace Assembler

/-- Counts only. -/
def measuring : Assembler := ⟨none, 0, 0, 0⟩

def into (code : Array UInt8) (base : Nat) : Assembler := ⟨some code, base, code.size - base, 0⟩

def writeBytes (code : Array UInt8) (place stop : Nat) : List UInt8 → Array UInt8
  | [] => code
  | b :: bs =>
    if place < stop then writeBytes (code.setIfInBounds place b) (place + 1) stop bs else code

@[inline] def put (bytes : List UInt8) (fits : (length limit : Nat) → Bool) :
    Action Assembler Unit := fun asm =>
  match asm with
  | ⟨none, base, limit, length⟩ => (.done (), ⟨none, base, limit, length + bytes.length⟩)
  | ⟨some code, base, limit, length⟩ =>
    if fits length limit then
      (.done (), ⟨some (writeBytes code (base + length) (base + limit) bytes), base, limit,
        length + bytes.length⟩)
    else (.crashed .outOfRange, ⟨some code, base, limit, length⟩)

/-- One byte, which the window must have room for. -/
def emitByte (b : UInt8) : Action Assembler Unit :=
  put [b] fun length limit => length < limit

/-- Several bytes; those beyond the window are dropped, but count. -/
def emitBytes (bytes : List UInt8) : Action Assembler Unit :=
  put bytes fun length limit => length ≤ limit

/-- A word, which the window must have room for. -/
def emitWord (w : UInt32) : Action Assembler Unit :=
  put (littleEndian w) fun length limit => length + 4 ≤ limit

def emit : HostInstr → Action Assembler Unit
  | .movi d imm => do
    emitBytes [0x02, d]
    emitWord imm
  | i => emitBytes i.bytes

def emitJump (jump : UInt8 → HostInstr) : Action Assembler Nat := do
  let position ← Action.read (·.length)
  emit (jump 0)
  pure position

def patchJump (position : Int) : Action Assembler Unit := fun asm =>
  let skip : Int := asm.length - position - HostInstr.jumpSize
  if skip < 0 ∨ skip > HostInstr.maxSkip then
    (.crashed (.broken "um: jump displacement out of range"), asm)
  else
    match asm with
    | ⟨none, base, limit, length⟩ => (.done (), ⟨none, base, limit, length⟩)
    | ⟨some code, base, limit, length⟩ =>
      let place := position + 2
      if 0 ≤ place ∧ place < limit then
        (.done (), ⟨some (code.setIfInBounds (base + place.toNat) (UInt8.ofNat skip.toNat)), base,
          limit, length⟩)
      else (.crashed .outOfRange, ⟨some code, base, limit, length⟩)

end Assembler

end PlatterMachine
