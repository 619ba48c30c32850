import PlatterMachine.Proofs.Engine.Table
import PlatterMachine.Proofs.HostCode.Patching

/-!
# Amending the running program

While code executes, every slot of the running program has a stub or the routine of its present
platter. Host instructions keep it so: the only one that writes plants a stub where it writes into
the running program. `Effect` says all that one of them can do, wherever it stands; what they keep
is derived from that.
-/

namespace PlatterMachine

def Step.machine : Step → Machine
  | .next m _ => m
  | .exit m _ => m
  | .crash m _ => m

namespace Machine

variable {m : Machine}

/-- The handle of the array that the host instruction at `pc` is to write to, if it is to write. -/
def written? (m : Machine) (pc : UInt32) : Option UInt32 := do
  let co ← m.running.code
  let byte ← co.code[pc.toNat]?
  match HostOp.ofByte? byte with
  | some .store => m.operand? co.code (pc + 1)
  | _ => none

/-- A jump over one instruction is three bytes and the distance long. -/
theorem toNat_three_add (rel : UInt8) : (3 + rel.toUInt32 : UInt32).toNat = 3 + rel.toNat := by
  have hlt := rel.toNat_lt
  rw [UInt32.toNat_add, UInt8.toNat_toUInt32, Nat.mod_eq_of_lt]
  · rfl
  · change 3 + rel.toNat < _
    omega

/-- All that a host instruction at `pc` can do, whatever the code is that it stands in. -/
inductive Effect (m : Machine) (interrupted : Bool) (pc : UInt32) : Step → Prop
  | crashed (crash : Crash) : Effect m interrupted pc (.crash m crash)
  | assigned (i : Nat) (v : UInt32) {n : UInt32}
      (hn : 0 < n.toNat ∧ n.toNat ≤ HostInstr.jumpSize + HostInstr.maxSkip) :
      Effect m interrupted pc (.next { m with file := m.file.setIfInBounds i v } (pc + n))
  | passed {n : UInt32} (hn : 0 < n.toNat ∧ n.toNat ≤ HostInstr.jumpSize + HostInstr.maxSkip) :
      Effect m interrupted pc (.next m (pc + n))
  | stored {handle offset : UInt32} {v p : Platter} {s : Step}
      (hwritten : m.written? pc = some handle) (hread : m.readWord? handle offset = some p)
      (hs : m.store handle offset v (pc + 4) = s) : Effect m interrupted pc s
  | refused (handle offset : UInt32) :
      Effect m interrupted pc (.exit m (badAccess handle offset pc))
  | divided : Effect m interrupted pc
      (.exit ((m.setSlot slotV1 Halt.divisionByZero).setSlot slotV2 0)
        ⟨Reason.halt.code, Halt.divisionByZero, 0, pc⟩)
  | returned (reason : UInt8) : Effect m interrupted pc
      (.exit m ⟨reason, m.slot slotV1, m.slot slotV2, pc + 2⟩)
  | jumped (target : UInt32) (hon : interrupted = false) :
      Effect m interrupted pc (.next m target)
  | stopped (target : UInt32) (hoff : interrupted = true) :
      Effect m interrupted pc (.exit m ⟨Reason.interrupt.code, 0, 0, target⟩)

theorem effect_assign (m : Machine) (interrupted : Bool) (pc : UInt32) (dest : Option UInt8)
    (value : Option UInt32) {n : UInt32}
    (hn : 0 < n.toNat ∧ n.toNat ≤ HostInstr.jumpSize + HostInstr.maxSkip) :
    m.Effect interrupted pc (m.assign dest value (pc + n)) := by
  unfold assign
  split
  · split
    · exact .assigned _ _ hn
    · exact .crashed _
  · exact .crashed _

theorem effect_jump (m : Machine) (interrupted : Bool) (pc : UInt32) (code : Array UInt8)
    (test : UInt32 → Bool) : m.Effect interrupted pc (step.jump m pc code test) := by
  unfold step.jump
  split
  · split
    · split
      · rename_i rel _
        have hrel := rel.toNat_lt
        rw [UInt32.add_assoc]
        refine .passed ?_
        rw [toNat_three_add, HostInstr.jumpSize, HostInstr.maxSkip]
        omega
      · exact .crashed _
    · exact .passed (by decide)
  · exact .crashed _

theorem effect_step (m : Machine) (interrupted : Bool) (pc : UInt32) :
    m.Effect interrupted pc (m.step interrupted pc) := by
  unfold step
  split
  · exact .crashed _
  rename_i co hco
  split
  · exact .crashed _
  rename_i byte hbyte
  split
  · exact .crashed _
  · exact effect_assign _ _ _ _ _ (by decide)
  · exact effect_assign _ _ _ _ _ (by decide)
  · exact effect_jump ..
  · exact effect_jump ..
  · split
    · split
      · exact effect_assign _ _ _ _ _ (by decide)
      · exact .refused _ _
    · exact .crashed _
  · rename_i hop
    split
    · rename_i handle offset hhandle _
      have hwritten : m.written? pc = some handle := by
        simp only [written?, hco, hbyte, hop, Option.bind_eq_bind, Option.bind_some, hhandle]
      split
      · rename_i hread
        split
        · exact .stored hwritten hread rfl
        · exact .crashed _
      · exact .refused _ _
    · exact .crashed _
  · split
    · split
      · exact .divided
      · exact effect_assign _ _ _ _ _ (by decide)
    · exact .crashed _
  · split
    · exact effect_assign _ _ _ _ _ (by decide)
    · exact .crashed _
  · split
    · exact .returned _
    · exact .crashed _
  · split
    · dsimp only
      split
      · rename_i hoff
        exact .stopped _ hoff
      · rename_i hon
        exact .jumped _ (Bool.eq_false_iff.mpr hon)
    · exact .crashed _

/-- A host instruction changes the register file only, or it writes to an existing word. -/
theorem step_cases (m : Machine) (interrupted : Bool) (pc : UInt32) :
    (∃ file, (m.step interrupted pc).machine = { m with file }) ∨
      ∃ handle offset v p pc', m.written? pc = some handle ∧ m.readWord? handle offset = some p ∧
        m.step interrupted pc = m.store handle offset v pc' := by
  have heffect := m.effect_step interrupted pc
  generalize m.step interrupted pc = s at heffect ⊢
  cases heffect with
  | stored hwritten hread hs => exact Or.inr ⟨_, _, _, _, _, hwritten, hread, hs.symm⟩
  | _ => exact Or.inl ⟨_, rfl⟩

/-- The running code suits the running words, unless it is too long to be addressed. -/
def Executable (m : Machine) : Prop :=
  ∃ co, m.running.code = some co ∧
    (co.code.size < Layout.limit → ∃ old, co.Patched old m.running.words)

theorem Executable.exists_patched (h : m.Executable) {co : CodeObject}
    (hco : m.running.code = some co) (hsize : co.code.size < Layout.limit) :
    ∃ old, co.Patched old m.running.words := by
  obtain ⟨co', hco', hpatched⟩ := h
  cases hco.symm.trans hco'
  exact hpatched hsize

theorem Executable.of_running {m' : Machine} (h : m.Executable) (hr : m'.running = m.running) :
    m'.Executable := by
  unfold Executable
  rw [hr]
  exact h

theorem plantStub_cases (m : Machine) (offset pc : UInt32) :
    (∃ co, m.running.code = some co ∧ m.plantStub offset pc =
        .next { m with running := { m.running with
          code := some (co.plantStub (co.entry offset)) } } pc) ∨
      m.plantStub offset pc = .crash m .outOfRange := by
  obtain ⟨file, ⟨words, buffer, dirty, code⟩, zeroLive, others⟩ := m
  cases code with
  | none => exact Or.inr rfl
  | some co =>
    unfold plantStub
    dsimp only
    split
    · exact Or.inl ⟨co, rfl, rfl⟩
    · exact Or.inr rfl

theorem plantStub_eq {co : CodeObject} (hco : m.running.code = some co) {offset : UInt32}
    (hfits : co.stubFits (co.entry offset) = true) (pc : UInt32) :
    m.plantStub offset pc =
      .next { m with running := { m.running with
        code := some (co.plantStub (co.entry offset)) } } pc := by
  obtain ⟨file, ⟨words, buffer, dirty, code⟩, zeroLive, others⟩ := m
  cases hco
  simp only [plantStub, hfits, if_true]

/-- A write into the running program puts a stub over the routine of the old word. -/
theorem Executable.store (h : m.Executable) {handle offset pc pc' : UInt32} {p v : Platter}
    {m' : Machine} (hread : m.readWord? handle offset = some p)
    (heq : m.store handle offset v pc = .next m' pc') : m'.Executable := by
  obtain ⟨place, a, hplace, ha, hp⟩ := readWord?_eq_some hread
  have hrunning := place?_eq_running_iff hplace
  rw [Machine.store, writeWord_eq hplace] at heq
  by_cases h0 : handle = 0
  · obtain rfl := hrunning.mpr h0
    simp only [h0, if_true] at heq
    cases ha
    obtain ⟨co, hco, hpatched⟩ := h
    rcases plantStub_cases (m.modifyArray .running fun a =>
      { a with words := a.words.setIfInBounds offset.toNat v, dirty := true }) offset pc with
      ⟨co', hco', hplant⟩ | hplant
    · cases hco.symm.trans hco'
      cases hplant.symm.trans heq
      refine ⟨_, rfl, fun hsize => ?_⟩
      rw [CodeObject.plantStub, Assembler.size_writeBytes] at hsize
      obtain ⟨old, hold⟩ := hpatched hsize
      exact ⟨old, hold.plantStub (Array.getElem?_eq_some_iff.mp hp).1 v⟩
    · cases hplant.symm.trans heq
  · simp only [h0, if_false] at heq
    cases heq
    cases place with
    | running => exact absurd (hrunning.mp rfl) h0
    | other i => exact h.of_running rfl

theorem store_ne_exit (m : Machine) (handle offset : UInt32) (v : Platter) (pc : UInt32)
    (m' : Machine) (exit : Exit) : m.store handle offset v pc ≠ .exit m' exit := by
  intro heq
  rw [Machine.store] at heq
  split at heq
  · rcases plantStub_cases (m.writeWord handle offset v) offset pc with ⟨co, -, hplant⟩ | hplant
    · cases hplant.symm.trans heq
    · cases hplant.symm.trans heq
  · cases heq

theorem store_eq_next {handle offset pc pc' : UInt32} {v : Platter} {m' : Machine}
    (h : m.store handle offset v pc = .next m' pc') : pc' = pc := by
  rw [store] at h
  split at h
  · rcases plantStub_cases (m.writeWord handle offset v) offset pc with ⟨_, -, hplant⟩ | hplant
    · cases hplant.symm.trans h
      rfl
    · cases hplant.symm.trans h
  · cases h
    rfl

theorem Executable.step_next (h : m.Executable) {interrupted : Bool} {pc pc' : UInt32}
    {m' : Machine} (heq : m.step interrupted pc = .next m' pc') : m'.Executable := by
  rcases step_cases m interrupted pc with ⟨file, hfile⟩ |
    ⟨handle, offset, v, p, _, -, hread, hstore⟩
  · rw [heq] at hfile
    cases hfile
    exact h.of_running rfl
  · exact h.store hread (hstore.symm.trans heq)

/-- Leaving the code changes no array. -/
theorem exists_file_of_step_exit {interrupted : Bool} {pc : UInt32} {m' : Machine} {exit : Exit}
    (heq : m.step interrupted pc = .exit m' exit) : ∃ file, m' = { m with file } := by
  rcases step_cases m interrupted pc with ⟨file, hfile⟩ |
    ⟨handle, offset, v, p, _, -, -, hstore⟩
  · rw [heq] at hfile
    exact ⟨file, hfile⟩
  · exact absurd (hstore.symm.trans heq) (store_ne_exit _ _ _ _ _ _ _)

theorem Executable.step_exit (h : m.Executable) {interrupted : Bool} {pc : UInt32} {m' : Machine}
    {exit : Exit} (heq : m.step interrupted pc = .exit m' exit) : m'.Executable := by
  obtain ⟨file, rfl⟩ := exists_file_of_step_exit heq
  exact h.of_running rfl

end Machine

end PlatterMachine
