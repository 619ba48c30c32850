import PlatterMachine.Engine.Exec
import PlatterMachine.Proofs.HostCode.Patching

/-!
# Executing placed instructions

`Machine.perform` says what a host instruction does, without any bytes. Where the bytes of an
instruction stand in the running code, `Machine.step` does exactly that.
-/

namespace PlatterMachine

def HostInstr.slots : HostInstr → List UInt8
  | mov d s => [d, s]
  | movi d _ => [d]
  | jz s _ => [s]
  | jnz s _ => [s]
  | load d a i => [d, a, i]
  | store a i v => [a, i, v]
  | arith _ d x y => [d, x, y]
  | ret _ => []
  | jmpt s => [s]

theorem ofLittleEndian_bytes (w : UInt32) :
    ofLittleEndian w.toUInt8 (w >>> 8).toUInt8 (w >>> 16).toUInt8 (w >>> 24).toUInt8 = w := by
  apply UInt32.toBitVec_inj.mp
  apply BitVec.eq_of_getLsbD_eq
  intro i hi
  have h8 : UInt32.toBitVec 8 % 32 = 8#32 := by decide
  have h16 : UInt32.toBitVec 16 % 32 = 16#32 := by decide
  have h24 : UInt32.toBitVec 24 % 32 = 24#32 := by decide
  simp only [ofLittleEndian, UInt32.toBitVec_or, UInt32.toBitVec_shiftLeft,
    UInt32.toBitVec_shiftRight, UInt8.toBitVec_toUInt32, UInt32.toBitVec_toUInt8,
    BitVec.getLsbD_or, h8, h16, h24, BitVec.shiftLeft_eq', BitVec.ushiftRight_eq',
    BitVec.toNat_ofNat, BitVec.getLsbD_shiftLeft, BitVec.getLsbD_setWidth,
    BitVec.getLsbD_ushiftRight]
  -- each bit comes from the one byte it lies in
  by_cases h1 : i < 8
  · simp [h1, hi, show i < 16 by omega, show i < 24 by omega]
  · by_cases h2 : i < 16
    · simp [h1, hi, h2, show i < 24 by omega, show i - 8 < 8 by omega, show i - 8 < 32 by omega,
        show 8 + (i - 8) = i by omega]
    · by_cases h3 : i < 24
      · simp [h1, hi, h2, h3, show ¬ i - 8 < 8 by omega, show i - 16 < 8 by omega,
          show i - 16 < 32 by omega, show 16 + (i - 16) = i by omega]
      · simp [h1, hi, h2, h3, show ¬ i - 8 < 8 by omega, show ¬ i - 16 < 8 by omega,
          show i - 24 < 8 by omega, show i - 24 < 32 by omega, show 24 + (i - 24) = i by omega]

namespace Machine

def perform (m : Machine) (interrupted : Bool) (pc : UInt32) : HostInstr → Step
  | .mov d s => .next (m.setSlot d (m.slot s)) (pc + 3)
  | .movi d imm => .next (m.setSlot d imm) (pc + 6)
  | .jz s rel => .next m (if m.slot s = 0 then pc + 3 + rel.toUInt32 else pc + 3)
  | .jnz s rel => .next m (if m.slot s = 0 then pc + 3 else pc + 3 + rel.toUInt32)
  | .load d a i =>
    match m.readWord? (m.slot a) (m.slot i) with
    | some v => .next (m.setSlot d v) (pc + 4)
    | none => .exit m (badAccess (m.slot a) (m.slot i) pc)
  | .store a i v =>
    match m.readWord? (m.slot a) (m.slot i) with
    | some _ => m.store (m.slot a) (m.slot i) (m.slot v) (pc + 4)
    | none => .exit m (badAccess (m.slot a) (m.slot i) pc)
  | .arith .div d x y =>
    if m.slot y = 0 then
      .exit ((m.setSlot slotV1 Halt.divisionByZero).setSlot slotV2 0)
        ⟨Reason.halt.code, Halt.divisionByZero, 0, pc⟩
    else .next (m.setSlot d (m.slot x / m.slot y)) (pc + 4)
  | .arith op d x y => .next (m.setSlot d (op.apply (m.slot x) (m.slot y))) (pc + 4)
  | .ret reason => .exit m ⟨reason, m.slot slotV1, m.slot slotV2, pc + 2⟩
  | .jmpt s =>
    match m.running.code with
    | none => .crash m .outOfRange
    | some co =>
      if interrupted then .exit m ⟨Reason.interrupt.code, 0, 0, co.entry (m.slot s)⟩
      else .next m (co.entry (m.slot s))

theorem operand?_eq (m : Machine) {code : Array UInt8} {addr : UInt32} {i : UInt8}
    (h : code[addr.toNat]? = some i) (hi : i.toNat < fileSize) :
    m.operand? code addr = some (m.slot i) := by
  have hfile : m.file[i.toNat]? = some m.file[i.toNat] := Vector.getElem?_eq_getElem hi
  have hslot : m.slot i = m.file[i.toNat] := by
    simp [slot, Array.getD, hi]
  simp [operand?, h, hfile, hslot]

theorem assign_eq (m : Machine) {i : UInt8} (v : UInt32) (pc : UInt32) (hi : i.toNat < fileSize) :
    m.assign (some i) (some v) pc = .next (m.setSlot i v) pc := by
  simp only [assign, if_pos hi, setSlot]

/-- Bytes `k` behind `pc` can be read off what is placed at `pc`. -/
theorem getElem?_of_placed {code : Array UInt8} {pc : UInt32} {bytes : List UInt8}
    (h : Placed code pc.toNat bytes) (hsize : code.size ≤ Layout.limit) {k : UInt32} {b : UInt8}
    (hb : bytes[k.toNat]? = some b) : code[(pc + k).toNat]? = some b := by
  have hk : k.toNat < bytes.length := (List.getElem?_eq_some_iff.mp hb).1
  have hcode := h k.toNat hk
  rw [hb] at hcode
  have hlt : pc.toNat + k.toNat < code.size := (Array.getElem?_eq_some_iff.mp hcode).1
  rw [Layout.toNat_add (Nat.lt_of_lt_of_le hlt hsize), hcode]

theorem immediate?_eq {code : Array UInt8} {addr : UInt32} {w : UInt32}
    (h : Placed code addr.toNat (littleEndian w)) : immediate? code addr = some w := by
  have h0 := h 0 (by simp [littleEndian])
  have h1 := h 1 (by simp [littleEndian])
  have h2 := h 2 (by simp [littleEndian])
  have h3 := h 3 (by simp [littleEndian])
  simp only [Nat.add_zero, littleEndian, List.getElem?_cons_zero, List.getElem?_cons_succ]
    at h0 h1 h2 h3
  simp [immediate?, h0, h1, h2, h3, ofLittleEndian_bytes]

variable {m : Machine} {co : CodeObject} {pc : UInt32} {interrupted : Bool}

/-- Where an instruction is placed in the running code, a step performs it. -/
theorem step_eq_perform (hco : m.running.code = some co) (hsize : co.code.size ≤ Layout.limit)
    {i : HostInstr} (h : Placed co.code pc.toNat i.bytes)
    (hslots : ∀ s ∈ i.slots, s.toNat < fileSize) :
    m.step interrupted pc = m.perform interrupted pc i := by
  have byte {k : UInt32} {b : UInt8} (hb : i.bytes[k.toNat]? = some b) :
      co.code[(pc + k).toNat]? = some b := getElem?_of_placed h hsize hb
  have slot {k : UInt32} {s : UInt8} (hb : i.bytes[k.toNat]? = some s) (hs : s ∈ i.slots) :
      m.operand? co.code (pc + k) = some (m.slot s) := m.operand?_eq (byte hb) (hslots s hs)
  have first {b : UInt8} (hb : i.bytes[0]? = some b) : co.code[pc.toNat]? = some b := by
    simpa using byte (k := 0) hb
  cases i with
  | mov d s =>
    simp only [step, hco, first rfl, HostOp.ofByte?, byte (k := 1) rfl,
      slot (k := 2) rfl (by simp [HostInstr.slots]), perform]
    exact assign_eq m _ _ (hslots d (by simp [HostInstr.slots]))
  | movi d imm =>
    have himm : immediate? co.code (pc + 2) = some imm := by
      have hlast := h 2 (by simp [HostInstr.bytes, littleEndian])
      have hlt : pc.toNat + 2 < co.code.size :=
        (Array.getElem?_eq_some_iff.mp (hlast.trans rfl)).1
      apply immediate?_eq
      rw [Layout.toNat_add (Nat.lt_of_lt_of_le hlt hsize)]
      exact (Placed.append_iff (s := [0x02, d]).mp h).2
    simp only [step, hco, first rfl, HostOp.ofByte?, byte (k := 1) rfl, himm, perform]
    exact assign_eq m _ _ (hslots d (by simp [HostInstr.slots]))
  | jz s rel =>
    simp only [step, hco, first rfl, HostOp.ofByte?, step.jump,
      slot (k := 1) rfl (by simp [HostInstr.slots]), byte (k := 2) rfl, perform]
    split <;> simp_all
  | jnz s rel =>
    simp only [step, hco, first rfl, HostOp.ofByte?, step.jump,
      slot (k := 1) rfl (by simp [HostInstr.slots]), byte (k := 2) rfl, perform]
    split <;> simp_all
  | load d a i =>
    simp only [step, hco, first rfl, HostOp.ofByte?, byte (k := 1) rfl,
      slot (k := 2) rfl (by simp [HostInstr.slots]), slot (k := 3) rfl (by simp [HostInstr.slots]),
      perform]
    cases m.readWord? (m.slot a) (m.slot i) with
    | some v => exact assign_eq m _ _ (hslots d (by simp [HostInstr.slots]))
    | none => rfl
  | store a i v =>
    rcases hread : m.readWord? (m.slot a) (m.slot i) with _ | v'
    all_goals
      simp only [step, hco, first rfl, HostOp.ofByte?,
        slot (k := 1) rfl (by simp [HostInstr.slots]),
        slot (k := 2) rfl (by simp [HostInstr.slots]),
        slot (k := 3) rfl (by simp [HostInstr.slots]), perform, hread]
  | arith op d x y =>
    have hd := hslots d (by simp [HostInstr.slots])
    cases op <;>
    simp only [step, hco, first rfl, HostOp.ofByte?, ArithOp.code, byte (k := 1) rfl,
      slot (k := 2) rfl (by simp [HostInstr.slots]), slot (k := 3) rfl (by simp [HostInstr.slots]),
      perform, assign_eq m _ _ hd, Option.map_some, ArithOp.apply]
  | ret reason =>
    simp only [step, hco, first rfl, HostOp.ofByte?, byte (k := 1) rfl, perform]
  | jmpt s =>
    simp only [step, hco, first rfl, HostOp.ofByte?, slot (k := 1) rfl (by simp [HostInstr.slots]),
      perform]

end Machine

end PlatterMachine
