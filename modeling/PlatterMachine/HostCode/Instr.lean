import PlatterMachine.HostCode.Reason

/-!
# Host code

Host code is a byte-encoded set of register transfers. Operands number the slots of a register file:
the eight machine registers, then three scratch registers that pass values across a return to the
host. Multi-byte operands are little endian.
-/

namespace PlatterMachine

def fileSize : Nat := 11

/-- The scratch slots: two values for the host, and the accumulator it answers in. -/
def slotV1 : UInt8 := 8

@[inherit_doc slotV1] def slotV2 : UInt8 := 9

@[inherit_doc slotV1] def slotAcc : UInt8 := 10

inductive ArithOp where
  | add
  | mul
  | div
  | nand
  deriving DecidableEq, Repr

inductive HostInstr where
  /-- `d := s` -/
  | mov (d s : UInt8)
  | movi (d : UInt8) (imm : UInt32)
  /-- Skips `rel` bytes when `s` is zero. -/
  | jz (s rel : UInt8)
  /-- Skips `rel` bytes when `s` is not zero. -/
  | jnz (s rel : UInt8)
  /-- `d` becomes element `i` of array `a`. -/
  | load (d a i : UInt8)
  /-- Element `i` of array `a` becomes `v`. -/
  | store (a i v : UInt8)
  | arith (op : ArithOp) (d x y : UInt8)
  /-- Returns to the host, which resumes behind it. -/
  | ret (reason : UInt8)
  /-- Jumps to the routine that the jump table lists for `s`. -/
  | jmpt (s : UInt8)
  deriving DecidableEq, Repr

namespace ArithOp

def code : ArithOp → UInt8
  | add => 0x07
  | mul => 0x08
  | div => 0x09
  | nand => 0x0A

def apply : ArithOp → UInt32 → UInt32 → UInt32
  | add, x, y => x + y
  | mul, x, y => x * y
  | div, x, y => x / y
  | nand, x, y => ~~~(x &&& y)

end ArithOp

inductive HostOp where
  | mov
  | movi
  | jz
  | jnz
  | load
  | store
  | arith (op : ArithOp)
  | ret
  | jmpt
  deriving DecidableEq, Repr

def HostOp.ofByte? (b : UInt8) : Option HostOp :=
  match b with
  | 0x01 => some .mov
  | 0x02 => some .movi
  | 0x03 => some .jz
  | 0x04 => some .jnz
  | 0x05 => some .load
  | 0x06 => some .store
  | 0x07 => some (.arith .add)
  | 0x08 => some (.arith .mul)
  | 0x09 => some (.arith .div)
  | 0x0A => some (.arith .nand)
  | 0x0B => some .ret
  | 0x0C => some .jmpt
  | _ => none

def littleEndian (w : UInt32) : List UInt8 :=
  [w.toUInt8, (w >>> 8).toUInt8, (w >>> 16).toUInt8, (w >>> 24).toUInt8]

def ofLittleEndian (b₀ b₁ b₂ b₃ : UInt8) : UInt32 :=
  b₀.toUInt32 ||| b₁.toUInt32 <<< 8 ||| b₂.toUInt32 <<< 16 ||| b₃.toUInt32 <<< 24

namespace HostInstr

def bytes : HostInstr → List UInt8
  | mov d s => [0x01, d, s]
  | movi d imm => 0x02 :: d :: littleEndian imm
  | jz s rel => [0x03, s, rel]
  | jnz s rel => [0x04, s, rel]
  | load d a i => [0x05, d, a, i]
  | store a i v => [0x06, a, i, v]
  | arith op d x y => [op.code, d, x, y]
  | ret reason => [0x0B, reason]
  | jmpt s => [0x0C, s]

def jumpSize : Nat := 3

def retSize : Nat := 2

def maxSkip : Nat := 255

end HostInstr

end PlatterMachine
