import PlatterMachine.Engine.Machine

/-!
# Executing host code

`Machine.step` executes one host instruction of the running program. Execution leaves the code when
a routine returns to the host; bad array accesses and divisions by zero leave it too, so that the
host decides about them. Code that was generated never crashes; code that was not may.
-/

namespace PlatterMachine

/-- What the host learns when execution leaves the code. -/
structure Exit where
  reason : UInt8
  value1 : UInt32
  value2 : UInt32
  /-- The address behind the returning instruction. -/
  resume : UInt32
  deriving DecidableEq, Repr

inductive Step where
  | next (m : Machine) (pc : UInt32)
  | exit (m : Machine) (exit : Exit)
  | crash (m : Machine) (crash : Crash)

namespace Machine

def operand? (m : Machine) (code : Array UInt8) (addr : UInt32) : Option UInt32 := do
  let i ← code[addr.toNat]?
  m.file[i.toNat]?

def immediate? (code : Array UInt8) (addr : UInt32) : Option UInt32 := do
  let i := addr.toNat
  pure (ofLittleEndian (← code[i]?) (← code[i + 1]?) (← code[i + 2]?) (← code[i + 3]?))

def assign (m : Machine) (dest : Option UInt8) (value : Option UInt32) (pc : UInt32) : Step :=
  match dest, value with
  | some i, some v =>
    if i.toNat < fileSize then .next { m with file := m.file.setIfInBounds i.toNat v } pc
    else .crash m .outOfRange
  | _, _ => .crash m .outOfRange

def readWord? (m : Machine) (handle offset : UInt32) : Option Platter :=
  match m.lookup handle with
  | some a => a.words[offset.toNat]?
  | none => none

def writeWord (m : Machine) (handle offset : UInt32) (v : Platter) : Machine :=
  let write := fun (a : PlatterArray) =>
    { a with words := a.words.setIfInBounds offset.toNat v, dirty := true }
  if handle = 0 then { m with running := write m.running }
  else { m with others := m.others.modify (handle.toNat - 1) (Option.map write) }

def plantStub (m : Machine) (offset pc : UInt32) : Step :=
  match m with
  | ⟨file, ⟨words, buffer, dirty, some co⟩, zeroLive, others⟩ =>
    let addr := co.entry offset
    if co.stubFits addr then
      .next ⟨file, ⟨words, buffer, dirty, some (co.plantStub addr)⟩, zeroLive, others⟩ pc
    else .crash ⟨file, ⟨words, buffer, dirty, some co⟩, zeroLive, others⟩ .outOfRange
  | m => .crash m .outOfRange

/-- Writes a word; in the running program the slot's routine is then stale and gets a stub. -/
def store (m : Machine) (handle offset : UInt32) (v : Platter) (pc : UInt32) : Step :=
  let m := m.writeWord handle offset v
  if handle = 0 then m.plantStub offset pc else .next m pc

def badAccess (handle offset pc : UInt32) : Exit :=
  ⟨Reason.fault.code, handle, offset, pc⟩

/-- One host instruction at `pc`. `interrupted` tells whether the run has been cancelled, which only
jumps look at. -/
def step (m : Machine) (interrupted : Bool) (pc : UInt32) : Step :=
  match m.running.code with
  | none => .crash m .outOfRange
  | some co =>
    match co.code[pc.toNat]? with
    | none => .crash m .outOfRange
    | some byte =>
      match HostOp.ofByte? byte with
      | none =>
        .crash m (.broken
          ("um: bad host opcode 0x" ++ Hex.number 2 byte.toNat ++ " at 0x" ++
            Hex.number 1 pc.toNat))
      | some .mov => m.assign co.code[(pc + 1).toNat]? (m.operand? co.code (pc + 2)) (pc + 3)
      | some .movi => m.assign co.code[(pc + 1).toNat]? (immediate? co.code (pc + 2)) (pc + 6)
      | some .jz => jump co.code (· = 0)
      | some .jnz => jump co.code (· ≠ 0)
      | some .load =>
        match m.operand? co.code (pc + 2), m.operand? co.code (pc + 3) with
        | some handle, some offset =>
          match m.readWord? handle offset with
          | some v => m.assign co.code[(pc + 1).toNat]? (some v) (pc + 4)
          | none => .exit m (badAccess handle offset pc)
        | _, _ => .crash m .outOfRange
      | some .store =>
        match m.operand? co.code (pc + 1), m.operand? co.code (pc + 2) with
        | some handle, some offset =>
          match m.readWord? handle offset with
          | some _ =>
            match m.operand? co.code (pc + 3) with
            | some v => m.store handle offset v (pc + 4)
            | none => .crash m .outOfRange
          | none => .exit m (badAccess handle offset pc)
        | _, _ => .crash m .outOfRange
      | some (.arith .div) =>
        match m.operand? co.code (pc + 3) with
        | some divisor =>
          if divisor = 0 then
            .exit ((m.setSlot slotV1 Halt.divisionByZero).setSlot slotV2 0)
              ⟨Reason.halt.code, Halt.divisionByZero, 0, pc⟩
          else
            m.assign co.code[(pc + 1).toNat]?
              ((m.operand? co.code (pc + 2)).map (ArithOp.div.apply · divisor)) (pc + 4)
        | none => .crash m .outOfRange
      | some (.arith op) =>
        match m.operand? co.code (pc + 2), m.operand? co.code (pc + 3) with
        | some x, some y => m.assign co.code[(pc + 1).toNat]? (some (op.apply x y)) (pc + 4)
        | _, _ => .crash m .outOfRange
      | some .ret =>
        match co.code[(pc + 1).toNat]? with
        | some reason => .exit m ⟨reason, m.slot slotV1, m.slot slotV2, pc + 2⟩
        | none => .crash m .outOfRange
      | some .jmpt =>
        match m.operand? co.code (pc + 1) with
        | some i =>
          let target := co.entry i
          if interrupted then .exit m ⟨Reason.interrupt.code, 0, 0, target⟩ else .next m target
        | none => .crash m .outOfRange
where
  /-- A jump that is taken when its operand passes `test`. -/
  jump (code : Array UInt8) (test : UInt32 → Bool) : Step :=
    match m.operand? code (pc + 1) with
    | some v =>
      if test v then
        match code[(pc + 2).toNat]? with
        | some rel => .next m (pc + 3 + rel.toUInt32)
        | none => .crash m .outOfRange
      else .next m (pc + 3)
    | none => .crash m .outOfRange

inductive Stretch where
  | exit (m : Machine) (exit : Exit)
  | crash (m : Machine) (crash : Crash)
  /-- The given number of instructions did not suffice. -/
  | unfinished (m : Machine) (pc : UInt32)

/-- Executes at most `fuel` host instructions from `pc` until one leaves the code. -/
def execute (interrupted : Bool) : (fuel : Nat) → Machine → UInt32 → Stretch
  | 0, m, pc => .unfinished m pc
  | fuel + 1, m, pc =>
    match m.step interrupted pc with
    | .next m pc => execute interrupted fuel m pc
    | .exit m exit => .exit m exit
    | .crash m crash => .crash m crash

end Machine

end PlatterMachine
