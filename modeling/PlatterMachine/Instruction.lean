import PlatterMachine.Fault

/-!
# Platters and instructions

A platter is a 32-bit word. Its top four bits number an operator. The first thirteen operators take
three registers from the low nine bits; the fourteenth, orthography, takes one register and a 25-bit
value. The two remaining numbers are malformed. Main statement: decoding gives the one instruction
whose fields the word has, and fails exactly on the two malformed numbers.
-/

namespace PlatterMachine

abbrev Platter := UInt32

abbrev Register := Fin 8

inductive Opcode where
  | conditionalMove
  | arrayIndex
  | arrayAmendment
  | addition
  | multiplication
  | division
  | notAnd
  | halt
  | allocation
  | abandonment
  | output
  | input
  | loadProgram
  | orthography
  deriving DecidableEq, Repr

namespace Opcode

def number : Opcode → UInt8
  | conditionalMove => 0
  | arrayIndex => 1
  | arrayAmendment => 2
  | addition => 3
  | multiplication => 4
  | division => 5
  | notAnd => 6
  | halt => 7
  | allocation => 8
  | abandonment => 9
  | output => 10
  | input => 11
  | loadProgram => 12
  | orthography => 13

def all : List Opcode :=
  [conditionalMove, arrayIndex, arrayAmendment, addition, multiplication, division, notAnd, halt,
    allocation, abandonment, output, input, loadProgram, orthography]

def ofNumber? (n : UInt8) : Option Opcode :=
  all[n.toNat]?

def name : Opcode → String
  | conditionalMove => "conditional-move"
  | arrayIndex => "array-index"
  | arrayAmendment => "array-amendment"
  | addition => "addition"
  | multiplication => "multiplication"
  | division => "division"
  | notAnd => "not-and"
  | halt => "halt"
  | allocation => "allocation"
  | abandonment => "abandonment"
  | output => "output"
  | input => "input"
  | loadProgram => "load-program"
  | orthography => "orthography"

def nameOf (n : UInt8) : String :=
  match ofNumber? n with
  | some op => op.name
  | none => "opcode(" ++ toString n.toNat ++ ")"

theorem ofNumber?_number (op : Opcode) : ofNumber? op.number = some op := by
  cases op <;> rfl

theorem number_of_ofNumber? {n : UInt8} {op : Opcode} (h : ofNumber? n = some op) :
    op.number = n := by
  have hnumber : ∀ i : Fin all.length, (all.get i).number.toNat = i := by decide
  obtain ⟨hlt, rfl⟩ := List.getElem?_eq_some_iff.mp h
  exact UInt8.toNat_inj.mp (hnumber ⟨n.toNat, hlt⟩)

theorem ofNumber?_eq_none_iff {n : UInt8} : ofNumber? n = none ↔ 14 ≤ n.toNat :=
  List.getElem?_eq_none_iff

end Opcode

/-- A decoded platter: orthography uses `a` and `value`, every other operator `a`, `b` and `c`. -/
structure Instruction where
  op : Opcode
  a : Register
  b : Register
  c : Register
  value : UInt32
  deriving DecidableEq, Repr

namespace Instruction

def textOf (op a b c : UInt8) (value : UInt32) : String :=
  if op = Opcode.orthography.number then
    s!"{Opcode.nameOf op} r{a.toNat} <- {value.toNat}"
  else
    s!"{Opcode.nameOf op} a=r{a.toNat} b=r{b.toNat} c=r{c.toNat}"

def text (i : Instruction) : String :=
  textOf i.op.number (UInt8.ofNat i.a) (UInt8.ofNat i.b) (UInt8.ofNat i.c) i.value

end Instruction

namespace Platter

def maxValue : UInt32 := 0x1FFFFFF

def text (p : Platter) : String := "0x" ++ Hex.number 8 p.toNat

def operator (p : Platter) : UInt8 := (p >>> 28).toUInt8

def register (p : Platter) (low : UInt32) : Register :=
  Fin.ofNat 8 (p >>> low).toNat

def decode (p : Platter) : Except Fault Instruction :=
  match Opcode.ofNumber? p.operator with
  | some .orthography => .ok ⟨.orthography, register p 25, 0, 0, p &&& maxValue⟩
  | some op => .ok ⟨op, register p 6, register p 3, register p 0, 0⟩
  | none => .error (.format s!"operator number {p.operator.toNat} in platter {text p} is not valid")

theorem toNat_operator (p : Platter) : p.operator.toNat = p.toNat / 0x10000000 := by
  have hlt : p.toNat < 0x100000000 := p.toNat_lt
  rw [operator, UInt32.toNat_toUInt8, UInt32.toNat_shiftRight, Nat.shiftRight_eq_div_pow]
  exact Nat.mod_eq_of_lt (show p.toNat / 0x10000000 < 256 by omega)

theorem val_register (p : Platter) {low : UInt32} {weight : Nat} (h : low.toNat < 32)
    (hweight : 1 <<< low.toNat = weight) : (register p low).val = p.toNat / weight % 8 := by
  rw [register, Fin.val_ofNat, UInt32.toNat_shiftRight, Nat.mod_eq_of_lt h,
    Nat.shiftRight_eq_div_pow, ← hweight, Nat.one_shiftLeft]

theorem toNat_and_maxValue (p : Platter) : (p &&& maxValue).toNat = p.toNat % 0x2000000 := by
  rw [UInt32.toNat_and]
  exact Nat.and_two_pow_sub_one_eq_mod p.toNat 25

structure Spells (p : Platter) (i : Instruction) : Prop where
  number_eq : i.op.number.toNat = p.toNat / 0x10000000
  registers : i.op ≠ .orthography → i.a.val = p.toNat / 64 % 8 ∧ i.b.val = p.toNat / 8 % 8 ∧
    i.c.val = p.toNat % 8 ∧ i.value = 0
  immediate : i.op = .orthography → i.a.val = p.toNat / 0x2000000 % 8 ∧ i.b = 0 ∧ i.c = 0 ∧
    i.value.toNat = p.toNat % 0x2000000

theorem Spells.ofNumber?_eq {p : Platter} {i : Instruction} (h : p.Spells i) :
    Opcode.ofNumber? p.operator = some i.op := by
  have hoperator : p.operator = i.op.number :=
    UInt8.toNat_inj.mp ((toNat_operator p).trans h.number_eq.symm)
  rw [hoperator, Opcode.ofNumber?_number]

theorem Spells.unique {p : Platter} {i i' : Instruction} (h : p.Spells i) (h' : p.Spells i') :
    i = i' := by
  have hop := h.ofNumber?_eq.symm.trans h'.ofNumber?_eq
  obtain ⟨op, a, b, c, value⟩ := i
  obtain ⟨_, a', b', c', value'⟩ := i'
  cases hop
  by_cases himmediate : op = .orthography
  · obtain ⟨ha, hb, hc, hvalue⟩ := h.immediate himmediate
    obtain ⟨ha', hb', hc', hvalue'⟩ := h'.immediate himmediate
    cases Fin.ext (ha.trans ha'.symm)
    cases hb.trans hb'.symm
    cases hc.trans hc'.symm
    cases UInt32.toNat_inj.mp (hvalue.trans hvalue'.symm)
    rfl
  · obtain ⟨ha, hb, hc, hvalue⟩ := h.registers himmediate
    obtain ⟨ha', hb', hc', hvalue'⟩ := h'.registers himmediate
    cases Fin.ext (ha.trans ha'.symm)
    cases Fin.ext (hb.trans hb'.symm)
    cases Fin.ext (hc.trans hc'.symm)
    cases hvalue.trans hvalue'.symm
    rfl

theorem spells_of_decode {p : Platter} {i : Instruction} (h : p.decode = .ok i) : p.Spells i := by
  have hnumber {op : Opcode} (hop : Opcode.ofNumber? p.operator = some op) :
      op.number.toNat = p.toNat / 0x10000000 := by
    rw [Opcode.number_of_ofNumber? hop, toNat_operator]
  unfold decode at h
  split at h
  · rename_i hop
    cases h
    exact ⟨hnumber hop, fun hne => absurd rfl hne,
      fun _ => ⟨val_register p (by decide) rfl, rfl, rfl, toNat_and_maxValue p⟩⟩
  · rename_i op hregisters hop
    cases h
    have hlast : (register p 0).val = p.toNat / 1 % 8 := val_register p (by decide) rfl
    rw [Nat.div_one] at hlast
    exact ⟨hnumber hop,
      fun _ => ⟨val_register p (by decide) rfl, val_register p (by decide) rfl, hlast, rfl⟩,
      fun himmediate => absurd himmediate hregisters⟩
  · cases h

/-- A platter decodes to the instruction that it spells, and only to that one. -/
theorem decode_eq_ok_iff {p : Platter} {i : Instruction} : p.decode = .ok i ↔ p.Spells i := by
  refine ⟨spells_of_decode, fun h => ?_⟩
  cases hdecode : p.decode with
  | ok i' => rw [h.unique (spells_of_decode hdecode)]
  | error fault =>
    rw [decode, h.ofNumber?_eq] at hdecode
    split at hdecode
    · cases hdecode
    · cases hdecode
    · rename_i hnone
      cases hnone

/-- The two largest operator numbers spell nothing. -/
theorem decode_eq_error_iff {p : Platter} :
    p.decode = .error (.format
      s!"operator number {p.operator.toNat} in platter {text p} is not valid") ↔
      14 ≤ p.toNat / 0x10000000 := by
  rw [← toNat_operator, ← Opcode.ofNumber?_eq_none_iff]
  unfold decode
  cases hop : Opcode.ofNumber? p.operator with
  | none => exact iff_of_true rfl rfl
  | some op => cases op <;> exact iff_of_false (by rintro ⟨⟩) (by rintro ⟨⟩)

/-- A platter of three registers; every field keeps only its low bits. -/
def encode (op a b c : UInt8) : Platter :=
  (op &&& 0xF).toUInt32 <<< 28 ||| (a &&& 7).toUInt32 <<< 6 ||| (b &&& 7).toUInt32 <<< 3 |||
    (c &&& 7).toUInt32

def encodeOrthography (a : UInt8) (value : UInt32) : Platter :=
  Opcode.orthography.number.toUInt32 <<< 28 ||| (a &&& 7).toUInt32 <<< 25 ||| value &&& maxValue

end Platter

end PlatterMachine
