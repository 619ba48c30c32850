import PlatterMachine.Proofs.Engine.Instructions

/-!
# Whole runs of code

At an entry there is a routine, a stub or the guard, and each leads to what one step of the plain
machine comes to; a stub does so after the program has been compiled anew. So a run follows the
plain machine step by step, and whenever it is at an entry the plain machine has been there too.
-/

namespace PlatterMachine

/-- However the program changes, its code is short enough to be addressed. -/
def Interpreter.Addressable (s : Interpreter) : Prop :=
  ∀ n s', s.run n = (none, s') → Layout.size s'.program.toList < Layout.limit

theorem Interpreter.Addressable.size_lt {s : Interpreter} (h : s.Addressable) :
    Layout.size s.program.toList < Layout.limit := h 0 s rfl

theorem Interpreter.Addressable.step {s s' : Interpreter} (h : s.Addressable)
    (hstep : s.step = .next s') : s'.Addressable := by
  intro n s'' hrun
  refine h (n + 1) s'' ?_
  rw [run, hstep]
  exact hrun

/-- A machine that has stopped stays as it stopped. -/
theorem Interpreter.run_add {s s' : Interpreter} {n : Nat} {result : Except Fault Unit}
    (h : s.run n = (some result, s')) (k : Nat) : s.run (n + k) = (some result, s') := by
  induction n generalizing s with
  | zero => cases h
  | succ n ih =>
    rw [Nat.add_right_comm, run]
    rw [run] at h
    cases hstep : s.step with
    | next s₁ =>
      rw [hstep] at h
      exact ih h
    | stop result₁ s₁ =>
      rw [hstep] at h
      exact h

/-- Only the steps up to a stop matter. -/
theorem Interpreter.addressable_of_run {s s' : Interpreter} {n : Nat} {result : Except Fault Unit}
    (h : s.run n = (some result, s'))
    (hsize : ∀ k, k < n → Layout.size (s.run k).2.program.toList < Layout.limit) :
    s.Addressable := by
  intro k s₁ hrun
  by_cases hk : k < n
  · have hlt := hsize k hk
    rw [hrun] at hlt
    exact hlt
  · obtain ⟨j, rfl⟩ := Nat.exists_eq_add_of_le (Nat.le_of_not_lt hk)
    rw [run_add h] at hrun
    cases hrun

namespace Engine.Moment

variable {g g' : Moment} {co : CodeObject} {s s' t : Interpreter} {old : Array Platter}

theorem toNat_entry (hpatched : co.Patched old s.program) (hi : s.finger < old.size)
    (hpc : g.pc = co.entryAt s.finger) :
    g.pc.toNat = Layout.address old.toList s.finger := by
  rw [hpc, hpatched.toNat_entryAt, Nat.min_eq_left (Nat.le_of_lt hi)]

/-- A return that begins a routine is traced back to it. -/
theorem fingerFor_entry (hpatched : co.Patched old s.program) (hi : s.finger < old.size)
    (hpc : g.pc = co.entryAt s.finger) :
    ∃ finger, co.fingerFor (g.pc + 2) = .ok finger ∧ finger.toNat = s.finger := by
  have hpc' := toNat_entry hpatched hi hpc
  have hmono := Layout.address_mono old.toList (i := 0) (j := s.finger) (by omega)
    (by rw [Array.length_toList]; omega)
  have hfour := Layout.address_add_four_le old.toList (i := s.finger) (by simpa using hi)
  have hroom := Layout.address_add_eight_le old.toList (i := s.finger + 1)
    (by rw [Array.length_toList]; omega)
  have hshort := hpatched.short
  simp only [Layout.limit] at hshort
  refine ⟨_, hpatched.fingerFor_add_two hi (by omega) (by omega), UInt32.toNat_ofNat_of_lt' ?_⟩
  simp only [UInt32.size]
  omega

/-- Where the routine of the next platter stands, it is executed. -/
theorem Executes.leads_routine (hx : g.Executes co s) (hl : g.looking = false)
    (hpc : g.pc = co.entryAt s.finger) {p : Platter} (hp : s.program[s.finger]? = some p)
    (hpatched : co.Patched old s.program) (hold : old[s.finger]? = some p)
    (hplaced : Placed co.code (Layout.address old.toList s.finger) (Routine.bytes p))
    (hshort : ∀ s', s.step = .next s' → Layout.size s'.program.toList < Layout.limit) :
    g.Leads (Within t) (Follows s.step) := by
  have hi : s.finger < old.size := (Array.getElem?_eq_some_iff.mp hold).1
  have hpc' := toNat_entry hpatched hi hpc
  have hsucc : Layout.address old.toList (s.finger + 1) =
      Layout.address old.toList s.finger + (Routine.bytes p).length :=
    Layout.address_succ (by simpa using hold)
  have hnext : (co.entryAt (s.finger + 1)).toNat = Layout.address old.toList (s.finger + 1) := by
    rw [hpatched.toNat_entryAt, Nat.min_eq_left hi]
  have hroom := Layout.address_add_eight_le old.toList (i := s.finger + 1)
    (by rw [Array.length_toList]; omega)
  have hshort' := hpatched.short
  have hinside : g.Inside co s (Layout.address old.toList s.finger)
      (Layout.address old.toList (s.finger + 1)) (Routine.instrs p) :=
    { hx with
      placed := hpc'.symm ▸ hplaced
      lo_le := Nat.le_of_eq hpc'.symm
      hi_eq := by rw [hpc', hsucc]; rfl
      hi_lt := by omega
      clear := hpatched.clear_entries hi
      slots := Routine.slots_lt p }
  obtain ⟨finger, hfor, hfinger⟩ := fingerFor_entry hpatched hi hpc
  exact hinside.leads_routine hp hl hnext hfor hfinger hshort

theorem Executes.leads_guard (hx : g.Executes co s) (hl : g.looking = false)
    (hpc : g.pc = co.entryAt s.finger) (hp : s.program[s.finger]? = none) :
    g.Leads (Within t) (Follows s.step) := by
  obtain ⟨old, hpatched⟩ := hx.patched
  have hle : old.size ≤ s.finger := by
    rw [← hpatched.size_eq]
    exact Array.getElem?_eq_none_iff.mp hp
  have hpc' : g.pc.toNat = Layout.address old.toList old.size := by
    rw [hpc, hpatched.toNat_entryAt, Nat.min_eq_right hle]
  have hsize := Layout.size_eq old.toList
  rw [Array.length_toList] at hsize
  have hinside : g.Inside co s (Layout.address old.toList old.size) (Layout.size old.toList)
      Routine.guardInstrs :=
    { hx with
      placed := hpc'.symm ▸ hpatched.guard
      lo_le := Nat.le_of_eq hpc'.symm
      hi_eq := by rw [hpc', hsize]; rfl
      hi_lt := hpatched.short
      clear := fun i => by
        have hmono := Layout.address_mono old.toList (i := min i old.size) (j := old.size)
          (by omega) (by simp)
        rw [hpatched.toNat_entryAt]
        omega
      slots := by simp [Routine.guardInstrs, HostInstr.slots, slotV1, fileSize] }
  rw [Interpreter.step, hp]
  exact hinside.leads_guard hl

/-- A stub leads to the same entry in code without stubs. -/
theorem Executes.next_stub (hx : g.Executes co s) (hl : g.looking = false)
    (hpc : g.pc = co.entryAt s.finger) (hpatched : co.Patched old s.program)
    (hi : s.finger < old.size)
    (hstub : Placed co.code (Layout.address old.toList s.finger) Routine.stubBytes)
    (hsize : Layout.size s.program.toList < Layout.limit) :
    ∃ e co', g.next .none = .inl (g.resumed e (co'.entryAt s.finger)) ∧
      (g.resumed e (co'.entryAt s.finger)).Executes co' s ∧ co'.IsFor s.program := by
  have hstep : g.machine.step false g.pc = .exit g.machine (g.leaving .recompile) :=
    Machine.step_eq_perform hx.code_eq (Nat.le_of_lt hx.short) (i := .ret Reason.recompile.code)
      ((toNat_entry hpatched hi hpc).symm ▸ hstub) (by simp [HostInstr.slots])
  obtain ⟨finger, hfor, hfinger⟩ := fingerFor_entry hpatched hi hpc
  obtain ⟨e, co', heq, hco', hclean, hr⟩ :=
    hx.represents.serveRecompile (g.leaving .recompile) hx.code_eq hfor hsize
  rw [CodeObject.entry_eq_entryAt, hfinger] at heq
  obtain ⟨hn, hx', hfor'⟩ := hx.next_compiled .recompile hl hstep rfl heq hr hco' hclean hsize
  exact ⟨e, co', hn, hx', hfor'⟩

theorem Executes.leads_entry (hx : g.Executes co s) (hl : g.looking = false)
    (hpc : g.pc = co.entryAt s.finger) (hs : s.Addressable) :
    g.Leads (Within s) (Follows s.step) := by
  have hshort (s' : Interpreter) (hstep : s.step = .next s') :
      Layout.size s'.program.toList < Layout.limit := (hs.step hstep).size_lt
  cases hp : s.program[s.finger]? with
  | none => exact hx.leads_guard hl hpc hp
  | some p =>
    obtain ⟨old, hpatched⟩ := hx.patched
    rcases hpatched.slot s.finger p hp with hstub | ⟨hold, hplaced⟩
    · have hi : s.finger < old.size := hpatched.size_eq ▸ (Array.getElem?_eq_some_iff.mp hp).1
      obtain ⟨e, co', hn, hx', hfor⟩ := hx.next_stub hl hpc hpatched hi hstub hs.size_lt
      obtain ⟨hn', hx''⟩ := hx'.next_looked rfl
      refine .more hn (Or.inr ⟨co', hx', rfl⟩) (.more hn' (Or.inr ⟨co', hx'', rfl⟩) ?_)
      refine hx''.leads_routine rfl rfl hp (hfor.patched hs.size_lt) hp ?_ hshort
      rw [hfor.code_eq]
      exact CodeObject.placed_address _ (by simpa using hp)
    · exact hx.leads_routine hl hpc hp hpatched hold hplaced hshort

/-- One step of the plain machine. -/
theorem At.leads (hat : g.At s) (hs : s.Addressable) : g.Leads (Within s) (Follows s.step) := by
  obtain ⟨co, hx, hpc⟩ := hat
  cases hl : g.looking with
  | false => exact hx.leads_entry hl hpc hs
  | true =>
    obtain ⟨hn, hx'⟩ := hx.next_looked hl
    exact .more hn (Or.inr ⟨co, hx', hpc⟩) (hx'.leads_entry rfl hpc hs)

/-- A run gets wherever the plain machine gets. -/
theorem At.exists_after (hat : g.At s) (hs : s.Addressable) {n : Nat}
    (hrun : s.run n = (none, s')) :
    ∃ ticks g', n ≤ ticks ∧ g.after .none ticks = .inl g' ∧ g'.At s' := by
  induction n generalizing g s with
  | zero =>
    cases hrun
    exact ⟨0, g, Nat.le_refl 0, rfl, hat⟩
  | succ n ih =>
    obtain ⟨k, hk, hpost, -⟩ := (hat.leads hs).exists_after
    rw [Interpreter.run] at hrun
    cases hstep : s.step with
    | stop result s₁ =>
      rw [hstep] at hrun
      cases hrun
    | next s₁ =>
      rw [hstep] at hrun hpost
      cases hafter : g.after .none k with
      | inr ended =>
        rw [hafter] at hpost
        obtain ⟨_, _, hstop, -⟩ := hpost
        cases hstop
      | inl g₁ =>
        rw [hafter] at hpost
        obtain ⟨_, hnext, hat₁⟩ := hpost
        cases hnext
        obtain ⟨ticks, g', hle, hafter', hat'⟩ := ih hat₁ (hs.step hstep) hrun
        exact ⟨k + ticks, g', by omega, by rw [after_add hafter, hafter'], hat'⟩

/-- A run ends when the plain machine stops. -/
theorem At.exists_ends (hat : g.At s) (hs : s.Addressable) {n : Nat} {result : Except Fault Unit}
    (hrun : s.run n = (some result, s')) :
    ∃ ticks ended, g.after .none ticks = .inr ended ∧ Ends ended result s' := by
  induction n generalizing g s with
  | zero => cases hrun
  | succ n ih =>
    obtain ⟨k, hk, hpost, -⟩ := (hat.leads hs).exists_after
    rw [Interpreter.run] at hrun
    cases hafter : g.after .none k with
    | inr ended =>
      rw [hafter] at hpost
      obtain ⟨result₁, s₁, hstep, hends⟩ := hpost
      rw [hstep] at hrun
      cases hrun
      exact ⟨k, ended, hafter, hends⟩
    | inl g₁ =>
      rw [hafter] at hpost
      obtain ⟨s₁, hstep, hat₁⟩ := hpost
      rw [hstep] at hrun
      obtain ⟨ticks, ended, hafter', hends⟩ := ih hat₁ (hs.step hstep) hrun
      exact ⟨k + ticks, ended, by rw [after_add hafter, hafter'], hends⟩

/-- A run is at no entry where the plain machine has not been. -/
theorem At.of_atEntry (hat : g.At s) (hs : s.Addressable) {ticks : Nat}
    (hafter : g.after .none ticks = .inl g') (hentry : g'.AtEntry) :
    ∃ n s', n ≤ ticks ∧ s.run n = (none, s') ∧ g'.At s' := by
  induction ticks using Nat.strongRecOn generalizing g s with
  | ind ticks ih =>
    obtain ⟨k, hk, hpost, hbefore⟩ := (hat.leads hs).exists_after
    by_cases hlt : ticks < k
    · by_cases h0 : ticks = 0
      · subst h0
        cases hafter
        exact ⟨0, s, Nat.le_refl 0, rfl, hat⟩
      · obtain ⟨g₁, hg₁, hwithin⟩ := hbefore ticks (by omega) hlt
        cases hafter.symm.trans hg₁
        rcases hwithin with hnot | hat'
        · exact absurd hentry hnot
        · exact ⟨0, s, Nat.zero_le ticks, rfl, hat'⟩
    · obtain ⟨j, rfl⟩ := Nat.exists_eq_add_of_le (Nat.le_of_not_lt hlt)
      cases hafter₁ : g.after .none k with
      | inr ended =>
        rw [after_inr_add hafter₁] at hafter
        cases hafter
      | inl g₁ =>
        rw [hafter₁] at hpost
        obtain ⟨s₁, hstep, hat₁⟩ := hpost
        rw [after_add hafter₁] at hafter
        obtain ⟨n, s', hle, hrun, hat'⟩ := ih j (by omega) hat₁ (hs.step hstep) hafter
        refine ⟨n + 1, s', by omega, ?_, hat'⟩
        rw [Interpreter.run, hstep]
        exact hrun

end Engine.Moment

end PlatterMachine
