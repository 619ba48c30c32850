import PlatterMachine.HostCode.CodeObject
import PlatterMachine.Proofs.HostCode.Emission

/-!
# The layout of generated code

The routines of a program stand one behind the other, in the order of its platters, with the guard
behind the last. `Layout.address ps i` is where routine `i` begins. Generating code allocates its two
buffers and fills them with this layout; as long as the code is shorter than 2^32 bytes the jump
table holds the true addresses.
-/

namespace PlatterMachine

namespace Routine

def instrsOf (i : Instruction) : List HostInstr :=
  let a := slotOf i.a
  let b := slotOf i.b
  let c := slotOf i.c
  match i.op with
  | .conditionalMove => [.jz c 3, .mov a b]
  | .arrayIndex => [.load a b c]
  | .arrayAmendment => [.store a b c]
  | .addition => [.arith .add a b c]
  | .multiplication => [.arith .mul a b c]
  | .division => [.arith .div a b c]
  | .notAnd => [.arith .nand a b c]
  | .halt => [.movi slotV1 Halt.normal, .ret Reason.halt.code]
  | .allocation => [.mov slotV1 c, .ret Reason.allocation.code, .mov b slotAcc]
  | .abandonment => [.mov slotV1 c, .ret Reason.abandonment.code]
  | .output => [.mov slotV1 c, .ret Reason.output.code]
  | .input => [.ret Reason.input.code, .mov c slotAcc]
  | .loadProgram =>
    [.mov slotV1 b, .mov slotV2 c, .jnz slotV1 2, .jmpt slotV2, .ret Reason.loadProgram.code]
  | .orthography => [.movi a i.value]

def instrs (p : Platter) : List HostInstr :=
  match p.decode with
  | .ok i => instrsOf i
  | .error _ =>
    [.movi slotV1 Halt.invalidOperator, .movi slotV2 p, .ret Reason.halt.code]

def bytes (p : Platter) : List UInt8 := (instrs p).flatMap HostInstr.bytes

def guardInstrs : List HostInstr := [.movi slotV1 Halt.outOfBounds, .ret Reason.halt.code]

def guardBytes : List UInt8 := guardInstrs.flatMap HostInstr.bytes

open Assembler

theorem emits_emitInstruction (i : Instruction) :
    Emits (emitInstruction i) ((instrsOf i).flatMap HostInstr.bytes) := by
  have done : Emits (pure ()) [] := ⟨fun _ _ _ => rfl, fun _ _ _ _ _ => rfl⟩
  obtain ⟨op, a, b, c, value⟩ := i
  cases op <;> simp only [emitInstruction, instrsOf, List.flatMap_cons, List.flatMap_nil]
  case conditionalMove =>
    have h := Emits.skip (.jz (slotOf c)) (fun _ => rfl)
      (emits_emit (.mov (slotOf a) (slotOf b))) done 3 rfl
    simpa only [Action.bind_pure_unit] using h
  case loadProgram =>
    have h := Emits.skip (.jnz slotV1) (fun _ => rfl) (emits_emit (.jmpt slotV2))
      (emits_emit (.ret Reason.loadProgram.code)) 2 rfl
    simpa only [List.append_nil] using (emits_emit _).bind ((emits_emit _).bind h)
  case allocation =>
    simpa only [List.append_nil] using (emits_emit _).bind ((emits_emit _).bind (emits_emit _))
  case halt | abandonment | output | input =>
    simpa only [List.append_nil] using (emits_emit _).bind (emits_emit _)
  all_goals simpa only [List.append_nil] using emits_emit _

theorem emits_routine (p : Platter) : Emits (Routine.emit p) (bytes p) := by
  unfold Routine.emit bytes instrs
  cases p.decode with
  | ok i => exact emits_emitInstruction i
  | error _ => exact (emits_emit _).bind ((emits_emit _).bind (emits_emit _))

theorem emits_guard : Emits emitGuard guardBytes := (emits_emit _).bind (emits_emit _)

theorem four_le_length_bytes (p : Platter) : 4 ≤ (bytes p).length := by
  unfold bytes instrs
  cases p.decode with
  | error _ => simp [HostInstr.bytes, littleEndian]
  | ok i =>
    obtain ⟨op, a, b, c, value⟩ := i
    cases op <;> simp [instrsOf, HostInstr.bytes, littleEndian]

theorem length_bytes_le (p : Platter) : (bytes p).length ≤ 14 := by
  unfold bytes instrs
  cases p.decode with
  | error _ => simp [HostInstr.bytes, littleEndian]
  | ok i =>
    obtain ⟨op, a, b, c, value⟩ := i
    cases op <;> simp [instrsOf, HostInstr.bytes, littleEndian]

theorem length_guardBytes : guardBytes.length = 8 := rfl

theorem sizeOrEmit_measuring (p : Platter) :
    (sizeOrEmit p .measuring).1 = .done (bytes p).length := by
  have hlen := four_le_length_bytes p
  have hemit := (emits_routine p).counts 0 0 0
  rw [sizeOrEmit, measuring, Action.bind_done hemit, Action.read_bind_apply,
    if_neg (by simp only [stubSize, HostInstr.retSize]; omega)]
  simp

theorem sizeOrEmit_writes (p : Platter) (code : Array UInt8) (base : Nat) {limit : Nat}
    (h : (bytes p).length ≤ limit) :
    sizeOrEmit p ⟨some code, base, limit, 0⟩ =
      (.done (bytes p).length,
        ⟨some (writeBytes code base (base + limit) (bytes p)), base, limit, (bytes p).length⟩) := by
  have hlen := four_le_length_bytes p
  have hemit := (emits_routine p).writes code base limit 0 (by omega)
  rw [sizeOrEmit, Action.bind_done hemit, Action.read_bind_apply,
    if_neg (by simp only [stubSize, HostInstr.retSize]; omega)]
  simp

theorem sizeOrEmit_into (p : Platter) (code : Array UInt8) (base : Nat)
    (h : base + (bytes p).length ≤ code.size) :
    sizeOrEmit p (.into code base) =
      (.done (bytes p).length,
        ⟨some (writeBytes code base code.size (bytes p)), base, code.size - base,
          (bytes p).length⟩) := by
  rw [into, sizeOrEmit_writes p code base (by omega), Nat.add_sub_of_le (by omega)]

theorem sizeOrEmitGuard_into (code : Array UInt8) (base : Nat)
    (h : base + guardBytes.length ≤ code.size) :
    sizeOrEmitGuard (.into code base) =
      (.done guardBytes.length,
        ⟨some (writeBytes code base code.size guardBytes), base, code.size - base,
          guardBytes.length⟩) := by
  have hemit := emits_guard.writes code base (code.size - base) 0 (by omega)
  rw [sizeOrEmitGuard, into, Action.bind_done hemit]
  simp [show base + (code.size - base) = code.size by omega]

theorem guardSize_eq : guardSize = guardBytes.length := rfl

end Routine

namespace Layout

open Routine Assembler

/-- Where routine `i` begins; past the last routine that is where the guard begins. -/
def address (ps : List Platter) (i : Nat) : Nat := ((ps.take i).flatMap Routine.bytes).length

def code (ps : List Platter) : List UInt8 := ps.flatMap Routine.bytes ++ guardBytes

def size (ps : List Platter) : Nat := (code ps).length

def table (ps : List Platter) : List UInt32 :=
  (List.range ps.length).map fun i => UInt32.ofNat (address ps i)

@[simp] theorem address_zero (ps : List Platter) : address ps 0 = 0 := by simp [address]

theorem address_cons_succ (p : Platter) (ps : List Platter) (i : Nat) :
    address (p :: ps) (i + 1) = (bytes p).length + address ps i := by
  simp [address]

theorem address_succ {ps : List Platter} {i : Nat} {p : Platter} (h : ps[i]? = some p) :
    address ps (i + 1) = address ps i + (bytes p).length := by
  simp only [address, List.take_add_one, h, List.flatMap_append, List.length_append]
  simp

theorem address_length (ps : List Platter) :
    address ps ps.length = (ps.flatMap Routine.bytes).length := by
  simp [address]

theorem size_eq (ps : List Platter) : size ps = address ps ps.length + 8 := by
  rw [size, code, List.length_append, address_length, length_guardBytes]

theorem size_le (ps : List Platter) : size ps ≤ 14 * ps.length + 8 := by
  induction ps with
  | nil => exact Nat.le_refl 8
  | cons p ps ih =>
    have hlen := length_bytes_le p
    rw [size_eq] at ih ⊢
    rw [List.length_cons, address_cons_succ]
    omega

theorem address_add_four_le (ps : List Platter) {i : Nat} (h : i < ps.length) :
    address ps i + 4 ≤ address ps (i + 1) := by
  have hlen := four_le_length_bytes ps[i]
  rw [address_succ (List.getElem?_eq_getElem h)]
  omega

theorem address_mono (ps : List Platter) {i j : Nat} (hij : i ≤ j) (hj : j ≤ ps.length) :
    address ps i + 4 * (j - i) ≤ address ps j := by
  induction j with
  | zero => simp [show i = 0 by omega]
  | succ j ih =>
    by_cases h : i = j + 1
    · subst h
      omega
    · have hstep := address_add_four_le ps (i := j) (by omega)
      have hprev := ih (by omega) (by omega)
      omega

theorem length_le_address (ps : List Platter) : ps.length ≤ address ps ps.length := by
  have h := address_mono ps (Nat.zero_le _) (Nat.le_refl _)
  rw [address_zero] at h
  omega

theorem address_add_eight_le (ps : List Platter) {i : Nat} (h : i ≤ ps.length) :
    address ps i + 8 ≤ size ps := by
  have hm := address_mono ps h (Nat.le_refl _)
  rw [size_eq]
  omega

theorem measureGo_eq (ps : List Platter) (total : Nat) :
    CodeObject.measure.go ps total = .done (total + (ps.flatMap Routine.bytes).length) := by
  induction ps generalizing total with
  | nil => rfl
  | cons p ps ih =>
    have hm := sizeOrEmit_measuring p
    rcases h : sizeOrEmit p .measuring with ⟨o, asm⟩
    rw [h] at hm
    simp only at hm
    simp only [CodeObject.measure.go, h, hm, ih, List.flatMap_cons, List.length_append]
    congr 1
    omega

theorem measure_eq (ps : List Platter) : CodeObject.measure ps = .done (size ps) := by
  change (CodeObject.measure.go ps 0 >>= fun total => pure (total + guardSize) : Outcome Nat) = _
  rw [measureGo_eq, guardSize_eq, size, code, List.length_append, Nat.zero_add]
  rfl

theorem emitRoutines_eq (ps : List Platter) (buffer : Array UInt8) (slots : Array UInt32)
    (addr : Nat) (h : addr + (ps.flatMap Routine.bytes).length ≤ buffer.size) :
    CodeObject.emitRoutines ps ⟨buffer, slots, addr⟩ =
      .done ⟨writeBytes buffer addr buffer.size (ps.flatMap Routine.bytes),
        slots ++ ((List.range ps.length).map fun i => UInt32.ofNat (addr + address ps i)).toArray,
        addr + (ps.flatMap Routine.bytes).length⟩ := by
  induction ps generalizing buffer slots addr with
  | nil => simp [CodeObject.emitRoutines, writeBytes]; rfl
  | cons p ps ih =>
    rw [List.flatMap_cons, List.length_append] at h
    have hsize := size_writeBytes buffer addr buffer.size (bytes p)
    simp only [CodeObject.emitRoutines, sizeOrEmit_into p buffer addr (by omega), Option.getD_some]
    rw [ih _ _ _ (by omega), hsize, writeBytes_append, List.flatMap_cons, List.length_append,
      List.length_cons, List.range_succ_eq_map, Nat.add_assoc]
    congr 2
    apply Array.ext'
    simp [address_cons_succ, Function.comp_def, Nat.add_assoc]

/-- Emission overwrites the whole buffer with the layout, whatever was there before. -/
theorem emitProgram_eq (ps : List Platter) (buffer : Array UInt8) (h : buffer.size = size ps) :
    CodeObject.emitProgram ps buffer =
      .done ⟨(code ps).toArray, (table ps).toArray, address ps ps.length⟩ := by
  have hsize := size_eq ps
  have hlen := address_length ps
  have hroutines := emitRoutines_eq ps buffer #[] 0 (by omega)
  have hguard := sizeOrEmitGuard_into (writeBytes buffer 0 buffer.size (ps.flatMap Routine.bytes))
    (address ps ps.length) (by rw [size_writeBytes, length_guardBytes]; omega)
  have hfull : writeBytes buffer 0 buffer.size (code ps) = (code ps).toArray := by
    apply Array.ext_getElem?
    intro i
    rw [getElem?_writeBytes _ _ _ _ (by rw [h, size]; omega) (by rw [h, size]; omega)]
    by_cases hi : i < (code ps).length
    · rw [if_pos (by omega)]
      simp
    · rw [if_neg (by omega), Array.getElem?_eq_none (by rw [h, size]; omega)]
      simp; omega
  have hwhole : writeBytes (writeBytes buffer 0 buffer.size (ps.flatMap Routine.bytes))
      (address ps ps.length) buffer.size guardBytes = (code ps).toArray := by
    rw [hlen, ← Nat.zero_add (List.length _), writeBytes_append, ← hfull, code]
  have htable : (#[] : Array UInt32) ++ ((List.range ps.length).map
      fun i => UInt32.ofNat (0 + address ps i)).toArray = (table ps).toArray := by
    simp [table]
  rw [Nat.zero_add, ← hlen] at hroutines
  rw [CodeObject.emitProgram, hroutines, htable]
  dsimp only [bind, Outcome.bind]
  rw [hguard]
  simp only [Option.getD_some]
  rw [if_pos (by rw [length_guardBytes]; omega), size_writeBytes, hwhole]
  rfl

end Layout

namespace CodeObject

structure IsFor (co : CodeObject) (words : Array Platter) : Prop where
  code_eq : co.code = (Layout.code words.toList).toArray
  table_eq : co.table = (Layout.table words.toList).toArray
  guard_eq : co.guard = UInt32.ofNat (Layout.address words.toList words.size)

/-- Generating code is to allocate its two buffers; what they then hold is the layout. -/
theorem generate_eq (words : Array Platter) :
    generate words = (do
      let codeBuffer ← Memory.inCode (Arena.alloc (Layout.size words.toList) false)
      let tableBuffer ← (Memory.inSlots (Arena.alloc words.size false)).cleaningUp
        (Memory.inCode (Arena.release codeBuffer))
      pure ⟨(Layout.code words.toList).toArray, codeBuffer, (Layout.table words.toList).toArray,
        tableBuffer, UInt32.ofNat (Layout.address words.toList words.size)⟩) := by
  rw [generate, Layout.measure_eq]
  change (do
    let codeBuffer ← Memory.inCode (Arena.alloc (Layout.size words.toList) false)
    let tableBuffer ← (Memory.inSlots (Arena.alloc words.size false)).cleaningUp
      (Memory.inCode (Arena.release codeBuffer))
    let e ← Action.ofOutcome (emitProgram words.toList
      (Array.replicate (Layout.size words.toList) 0))
    pure (CodeObject.mk e.code codeBuffer e.table tableBuffer (UInt32.ofNat e.addr))) = _
  rw [Layout.emitProgram_eq _ _ Array.size_replicate]
  rfl

theorem isFor_of_generate {words : Array Platter} {memory memory' : Memory} {co : CodeObject}
    (h : generate words memory = (.done co, memory')) : co.IsFor words := by
  rw [generate_eq] at h
  rcases hc : Memory.inCode (Arena.alloc (Layout.size words.toList) false) memory with
    ⟨codeBuffer | _ | _, m₁⟩
  · rw [Action.bind_done hc] at h
    rcases ht : (Memory.inSlots (Arena.alloc words.size false)).cleaningUp
      (Memory.inCode (Arena.release codeBuffer)) m₁ with ⟨tableBuffer | _ | _, m₂⟩
    · rw [Action.bind_done ht] at h
      obtain ⟨hco, _⟩ := Prod.mk.inj h
      cases hco
      exact ⟨rfl, rfl, rfl⟩
    · rw [Action.bind_failed ht] at h
      cases h
    · rw [Action.bind_crashed ht] at h
      cases h
  · rw [Action.bind_failed hc] at h
    cases h
  · rw [Action.bind_crashed hc] at h
    cases h

/-- What is generated for given words does not depend on the memory. -/
theorem generate_agree {words : Array Platter} {memory₁ memory₁' memory₂ memory₂' : Memory}
    {co co' : CodeObject} (h : generate words memory₁ = (.done co, memory₁'))
    (h' : generate words memory₂ = (.done co', memory₂')) :
    co'.code = co.code ∧ co'.table = co.table ∧ co'.guard = co.guard := by
  have hco := isFor_of_generate h
  have hco' := isFor_of_generate h'
  rw [hco.code_eq, hco.table_eq, hco.guard_eq]
  exact ⟨hco'.code_eq, hco'.table_eq, hco'.guard_eq⟩

end CodeObject

end PlatterMachine
