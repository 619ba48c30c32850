import PlatterMachine.Arena.Basic
import PlatterMachine.Digest.Blake2b
import PlatterMachine.Instruction
import PlatterMachine.Stream.Reader

/-!
# Scrolls

A scroll is a program image: big-endian platters with nothing before or after them. It is known by
the digest of its bytes.
-/

namespace PlatterMachine.Scroll

def bigEndian (w : UInt32) : List UInt8 :=
  [(w >>> 24).toUInt8, (w >>> 16).toUInt8, (w >>> 8).toUInt8, w.toUInt8]

def ofBigEndian (b₀ b₁ b₂ b₃ : UInt8) : UInt32 :=
  b₀.toUInt32 <<< 24 ||| b₁.toUInt32 <<< 16 ||| b₂.toUInt32 <<< 8 ||| b₃.toUInt32

def encode (platters : List Platter) : List UInt8 :=
  platters.flatMap bigEndian

/-- The platters of an image, behind those already read; bytes that do not fill a platter are left
out. -/
def decodeAfter (read : Array Platter) : List UInt8 → Array Platter
  | b₀ :: b₁ :: b₂ :: b₃ :: rest => decodeAfter (read.push (ofBigEndian b₀ b₁ b₂ b₃)) rest
  | _ => read

def decode (image : List UInt8) : Array Platter := decodeAfter #[] image

def hash (platters : List Platter) : List UInt8 :=
  Blake2b.digest (encode platters)

/-- Why reading stopped before all of `total` platters had come. What is taken for an end of input is
not kept as the cause. -/
def shortFault (fault : Fault) (read total : Nat) : Fault :=
  if fault.isEndOfInput || fault.isUnexpectedEnd then
    .format s!"scroll truncated at platter {read} of {total}"
  else .wrapped .format "reading scroll" fault

def readPlatters (total : Nat) : (left : Nat) → Reader → Array Platter →
    Except Fault (Array Platter)
  | 0, _, read => .ok read
  | left + 1, r, read =>
    match r.readFull 4 with
    | (.ok [b₀, b₁, b₂, b₃], r) => readPlatters total left r (read.push (ofBigEndian b₀ b₁ b₂ b₃))
    | (.ok _, _) => .error (shortFault .endOfInput read.size total)
    | (.error fault, _) => .error (shortFault fault read.size total)
  termination_by structural left => left

def read (source : Source) (size : Int) : Action (Arena UInt32) (Array Platter × Buffer) := do
  if size < 0 ∨ size % 4 ≠ 0 then
    Action.fail (.format s!"scroll length {size} is not a multiple of 4")
  let count := (size / 4).toNat
  let buffer ← Arena.alloc count false
  let platters ← (Action.ofExcept (readPlatters count count ⟨source, []⟩ #[])).cleaningUp
    (Arena.release buffer)
  pure (platters, buffer)

end PlatterMachine.Scroll
