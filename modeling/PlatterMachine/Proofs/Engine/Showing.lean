import PlatterMachine.Proofs.Engine.Amendment
import PlatterMachine.Proofs.Engine.Picture
import PlatterMachine.Proofs.Interpreter.Similar
import PlatterMachine.Proofs.Stream.Delivery
import PlatterMachine.Proofs.Stream.Emission

/-!
# The plain machine that an engine shows

An engine shows a plain machine when registers, program and arrays are equal, its reader delivers the
input to come, and its writer has been given the output so far. The finger is not part of it: while
code executes, the address of the next host instruction stands for it.
-/

namespace PlatterMachine

namespace Machine

variable {m : Machine}

theorem toNat_slotOf (r : Register) : (Routine.slotOf r).toNat = r.val := by
  rw [Routine.slotOf, UInt8.toNat_ofNat_of_lt']
  exact Nat.lt_trans r.isLt (by decide)

theorem eight_le_fileSize : 8 ≤ fileSize := by decide

theorem slot_eq_getElem (m : Machine) {i : UInt8} (hi : i.toNat < fileSize) :
    m.slot i = m.file[i.toNat] := by
  simp [slot, Array.getD, hi]

theorem slot_slotOf (m : Machine) (r : Register) :
    m.slot (Routine.slotOf r) = m.registers.get r := by
  have hlt : (Routine.slotOf r).toNat < fileSize := by
    rw [toNat_slotOf]
    exact Nat.lt_of_lt_of_le r.isLt eight_le_fileSize
  rw [slot_eq_getElem m hlt]
  simp only [toNat_slotOf]
  exact (Vector.getElem_ofFn (f := fun i : Fin 8 => m.file.get (i.castLE eight_le_fileSize))
    r.isLt).symm

theorem slot_setSlot_self (m : Machine) {i : UInt8} (hi : i.toNat < fileSize) (v : UInt32) :
    (m.setSlot i v).slot i = v := by
  rw [slot_eq_getElem _ hi, setSlot, Vector.getElem_setIfInBounds, if_pos rfl]

theorem slot_setSlot_of_ne (m : Machine) {i j : UInt8} (hij : i ≠ j) (hj : j.toNat < fileSize)
    (v : UInt32) : (m.setSlot i v).slot j = m.slot j := by
  rw [slot_eq_getElem _ hj, slot_eq_getElem _ hj, setSlot, Vector.getElem_setIfInBounds,
    if_neg fun h => hij (UInt8.toNat_inj.mp h)]

theorem registers_setSlot (m : Machine) (r : Register) (v : UInt32) :
    (m.setSlot (Routine.slotOf r) v).registers = m.registers.set r.val v r.isLt := by
  apply Vector.ext
  intro i hi
  simp only [registers, setSlot, Vector.getElem_ofFn, toNat_slotOf, Vector.getElem_set]
  exact Vector.getElem_setIfInBounds (Nat.lt_trans hi (by decide))

/-- The scratch slots are no registers. -/
theorem registers_setSlot_scratch (m : Machine) {i : UInt8} (hi : 8 ≤ i.toNat) (v : UInt32) :
    (m.setSlot i v).registers = m.registers := by
  apply Vector.ext
  intro j hj
  simp only [registers, setSlot, Vector.getElem_ofFn]
  refine (Vector.getElem_setIfInBounds (Nat.lt_trans hj (by decide))).trans ?_
  rw [if_neg (by omega)]
  rfl

end Machine

namespace Picture

def registers (p : Picture) : Vector UInt32 8 :=
  Vector.ofFn fun i => p.file.get (i.castLE Machine.eight_le_fileSize)

/-- A running engine with this picture is as good as the plain machine `s`. -/
structure Shows (p : Picture) (s : Interpreter) : Prop where
  registers_eq : p.registers = s.registers
  program_eq : p.program = s.program
  zeroLive_eq : p.zeroLive = s.zeroLive
  others_eq : p.others = s.others
  suspendOnEnd_eq : p.suspendOnEnd = s.suspendOnEnd
  delivers : p.input.Delivers s.input
  emits : p.output.Emits s.output
  free_pos : 1 ≤ p.minFree
  free_le : p.minFree ≤ p.others.size + 1
  live : ∀ k, k + 1 < p.minFree → p.others[k]?.join ≠ none
  opened : p.closed = false
  going : p.stopped = false

variable {p : Picture} {s : Interpreter}

theorem Shows.withFinger (h : p.Shows s) (finger : UInt32) : Shows { p with finger } s :=
  { h with }

theorem Shows.atFinger (h : p.Shows s) (finger : Nat) : p.Shows { s with finger } :=
  { h with }

theorem Shows.allocated (h : p.Shows s) {i : Nat} (hle : i ≤ p.others.size)
    (hnone : p.others[i]?.join = none) (hlive : ∀ k, k < i → p.others[k]?.join ≠ none)
    (size : UInt32) :
    UInt32.ofNat (i + 1) = (s.allocate size).1 ∧
      Shows { p with
        others :=
          if i < p.others.size then
            p.others.setIfInBounds i (some (Array.replicate size.toNat 0))
          else p.others.push (some (Array.replicate size.toNat 0))
        minFree := i + 2 } (s.allocate size).2 := by
  have hfree : s.freeIndex = i :=
    Interpreter.freeIndex_eq (h.others_eq ▸ hnone) (h.others_eq ▸ hlive)
  simp only [Interpreter.allocate, hfree, ← h.others_eq]
  refine ⟨trivial, { h with
    others_eq := rfl, free_pos := by simp, free_le := ?_, live := fun k hk => ?_ }⟩
  · dsimp only
    split
    · rw [Array.size_setIfInBounds]
      omega
    · rw [Array.size_push]
      omega
  · dsimp only at hk ⊢
    by_cases hki : k = i
    · subst hki
      split
      · rename_i hlt
        rw [Array.getElem?_setIfInBounds_self_of_lt hlt]
        exact Option.some_ne_none _
      · rw [show k = p.others.size by omega, Array.getElem?_push_size]
        exact Option.some_ne_none _
    · have hlt : k < i := by omega
      split
      · rw [Array.getElem?_setIfInBounds_ne (by omega)]
        exact hlive k hlt
      · rw [Array.getElem?_push, if_neg (by omega)]
        exact hlive k hlt

theorem Shows.abandoned (h : p.Shows s) {i : Nat} (hlt : i < p.others.size) :
    Shows { p with others := p.others.setIfInBounds i none, minFree := min p.minFree (i + 1) }
      { s with others := s.others.setIfInBounds i none } :=
  { h with
    others_eq := by rw [h.others_eq]
    free_pos := by
      have := h.free_pos
      dsimp only
      omega
    free_le := by
      dsimp only
      rw [Array.size_setIfInBounds]
      omega
    live := fun k hk => by
      dsimp only at hk ⊢
      rw [Array.getElem?_setIfInBounds_ne (by omega)]
      exact h.live k (by omega) }

end Picture

namespace Engine

variable {e : Engine} {s : Interpreter}

theorem slot_of_shows (h : e.picture.Shows s) (r : Register) :
    e.machine.slot (Routine.slotOf r) = s.get r := by
  rw [Machine.slot_slotOf, Interpreter.get, ← h.registers_eq]
  rfl

theorem shows_setSlot (h : e.picture.Shows s) (r : Register) (v : UInt32) :
    (picture ⟨e.machine.setSlot (Routine.slotOf r) v, e.host⟩).Shows (s.set r v) :=
  { h with
    registers_eq := by
      refine (e.machine.registers_setSlot r v).trans ?_
      rw [Interpreter.set, ← h.registers_eq]
      rfl }

theorem shows_setSlot_scratch (h : e.picture.Shows s) {i : UInt8} (hi : 8 ≤ i.toNat)
    (v : UInt32) : (picture ⟨e.machine.setSlot i v, e.host⟩).Shows s :=
  { h with registers_eq := (e.machine.registers_setSlot_scratch hi v).trans h.registers_eq }

theorem map_lookup_of_shows (h : e.picture.Shows s) (handle : UInt32) :
    (e.machine.lookup handle).map PlatterArray.words = s.lookup handle := by
  rw [Interpreter.lookup, ← h.others_eq, ← h.zeroLive_eq, ← h.program_eq]
  by_cases h0 : handle = 0
  · rw [h0, Machine.lookup_zero, if_pos rfl]
    change _ = if e.machine.zeroLive then _ else _
    split <;> rfl
  · rw [Machine.lookup_of_ne_zero h0, if_neg h0]
    exact (e.machine.join_getElem?_otherWords _).symm

theorem readWord?_of_shows (h : e.picture.Shows s) (handle offset : UInt32) :
    e.machine.readWord? handle offset = s.word? handle offset := by
  rw [Interpreter.word?, ← map_lookup_of_shows h, Machine.readWord?]
  cases e.machine.lookup handle <;> rfl

theorem shows_writeWord (h : e.picture.Shows s) (handle offset : UInt32) (v : Platter) :
    (picture ⟨e.machine.writeWord handle offset v, e.host⟩).Shows (s.write handle offset v) := by
  by_cases h0 : handle = 0
  · subst h0
    exact { h with program_eq := congrArg (·.setIfInBounds offset.toNat v) h.program_eq }
  · have hwords := e.machine.otherWords_modifyArray_other (handle.toNat - 1)
      (f := fun a => { a with words := a.words.setIfInBounds offset.toNat v, dirty := true })
      (g := (·.setIfInBounds offset.toNat v)) fun _ => rfl
    have hwrite : e.machine.writeWord handle offset v =
        e.machine.modifyArray (.other (handle.toNat - 1)) fun a =>
          { a with words := a.words.setIfInBounds offset.toNat v, dirty := true } := by
      rw [Machine.writeWord]
      exact if_neg h0
    rw [Interpreter.write, if_neg h0, hwrite]
    refine { h with others_eq := ?_, free_le := ?_, live := fun k hk => ?_ }
    · rw [← h.others_eq]
      exact hwords
    · have hle := h.free_le
      change e.host.minFree ≤ (Machine.otherWords _).size + 1
      rw [hwords, Array.size_modify]
      exact hle
    · have hlive := h.live k hk
      change (Machine.otherWords _)[k]?.join ≠ none
      rw [hwords, Array.getElem?_modify]
      change e.machine.otherWords[k]?.join ≠ none at hlive
      split
      · rcases ho : e.machine.otherWords[k]? with _ | _ | a
        · rw [ho] at hlive
          exact absurd rfl hlive
        · rw [ho] at hlive
          exact absurd rfl hlive
        · exact Option.some_ne_none _
      · exact hlive

end Engine

end PlatterMachine
