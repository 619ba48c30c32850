import PlatterMachine.Proofs.Engine.Containment

/-!
# Generated code makes progress

The running code is divided into routines, stubs and the guard, and those into host instructions. All
through a run execution stands in front of an instruction of the code as it then is, and the address
grows with every instruction that is neither a return nor a jump through the table. Between two jumps
through the table at most as many instructions are executed as the code has bytes.
-/

namespace PlatterMachine

/-- How execution goes on from an instruction that has `rest` behind it. A jump skips one instruction
and a write to an array is the last one. The end of the list is passed only where `through` is
set. -/
def HostInstr.Leads (through : Bool) (rest : List HostInstr) : HostInstr → Prop
  | jz _ rel => ∃ j later, rest = j :: later ∧ rel.toNat = j.bytes.length ∧
      (later = [] → through = true)
  | jnz _ rel => ∃ j later, rest = j :: later ∧ rel.toNat = j.bytes.length ∧
      (later = [] → through = true)
  | store .. => rest = [] ∧ through = true
  | ret code => ∀ reason, Reason.ofCode? code = some reason → reason.Resumes →
      rest = [] → through = true
  | jmpt _ => True
  | _ => rest = [] → through = true

/-- The address `pc'` is where `later` stands when `pc` is where `i` stands with `rest` behind it. -/
def HostInstr.Passes (through : Bool) (rest : List HostInstr) (pc pc' : UInt32)
    (later : List HostInstr) (i : HostInstr) : Prop :=
  ∃ passed n, rest = passed ++ later ∧ (later = [] → through = true) ∧ pc' = pc + n ∧
    n.toNat = ((i :: passed).flatMap bytes).length

def Forward (through : Bool) : List HostInstr → Prop
  | [] => True
  | i :: rest => i.Leads through rest ∧ Forward through rest

theorem Forward.leads {through : Bool} {i : HostInstr} {rest : List HostInstr}
    (before : List HostInstr) (h : Forward through (before ++ i :: rest)) :
    i.Leads through rest := by
  induction before with
  | nil => exact h.1
  | cons _ _ ih => exact ih h.2

theorem Routine.forward (p : Platter) : Forward true (instrs p) := by
  unfold instrs
  cases p.decode with
  | error _ => simp [Forward, HostInstr.Leads]
  | ok i =>
    obtain ⟨op, a, b, c, value⟩ := i
    cases op <;> simp [instrsOf, Forward, HostInstr.Leads, HostInstr.bytes]

theorem Routine.instrs_ne_nil (p : Platter) : instrs p ≠ [] := by
  intro hnil
  have hlen := four_le_length_bytes p
  rw [bytes, hnil] at hlen
  cases hlen

/-- The guard ends in a return that is not resumed. -/
theorem Routine.forward_guard : Forward false guardInstrs := by
  refine ⟨nofun, fun reason hreason hr => ?_, trivial⟩
  cases hreason
  exact hr.elim

/-- So does a stub. -/
theorem Routine.forward_stub : Forward false [.ret Reason.recompile.code] := by
  refine ⟨fun reason hreason hr => ?_, trivial⟩
  cases hreason
  exact hr.elim

theorem Placed.add_length_le {code : Array UInt8} {pos : Nat} {bytes : List UInt8}
    (h : Placed code pos bytes) (hpos : 0 < bytes.length) : pos + bytes.length ≤ code.size := by
  have hlast := h (bytes.length - 1) (by omega)
  rw [List.getElem?_eq_getElem (by omega)] at hlast
  have hlt := (Array.getElem?_eq_some_iff.mp hlast).1
  omega

namespace CodeObject

/-- The code has, whole and at `start`, the instructions `listing` of a routine of `words`, of a stub
or of the guard. -/
inductive Stands (co : CodeObject) (words : Array Platter) :
    (start : Nat) → (listing : List HostInstr) → Prop
  | routine {k : Nat} {p : Platter} (hk : words[k]? = some p)
      (hplaced : Placed co.code (co.entryAt k).toNat (Routine.bytes p)) :
      Stands co words (co.entryAt k).toNat (Routine.instrs p)
  | stub {k : Nat} (hk : k < words.size)
      (hplaced : Placed co.code (co.entryAt k).toNat Routine.stubBytes) :
      Stands co words (co.entryAt k).toNat [.ret Reason.recompile.code]
  | guard (hplaced : Placed co.code co.guard.toNat Routine.guardBytes) :
      Stands co words co.guard.toNat Routine.guardInstrs

def Boundary (co : CodeObject) (words : Array Platter) (pc : Nat) (i : HostInstr) : Prop :=
  ∃ start before rest, co.Stands words start (before ++ i :: rest) ∧
    pc = start + (before.flatMap HostInstr.bytes).length

variable {co : CodeObject} {old words : Array Platter} {start pc : Nat} {i : HostInstr}
variable {listing before rest : List HostInstr}

theorem Stands.placed (h : co.Stands words start listing) :
    Placed co.code start (listing.flatMap HostInstr.bytes) := by
  cases h with
  | routine _ hplaced => exact hplaced
  | stub _ hplaced => exact hplaced
  | guard hplaced => exact hplaced

theorem Stands.slots_lt (h : co.Stands words start listing) :
    ∀ i ∈ listing, ∀ s ∈ i.slots, s.toNat < fileSize := by
  cases h with
  | routine _ _ => exact Routine.slots_lt _
  | stub _ _ => simp [HostInstr.slots]
  | guard _ =>
    have hslot : slotV1.toNat < fileSize := by decide
    simp [Routine.guardInstrs, HostInstr.slots, hslot]

/-- A routine that stands whole is the one that was generated, and the next entry is behind it. -/
theorem Patched.entryAt_succ (hp : co.Patched old words) {k : Nat} {p : Platter}
    (hk : words[k]? = some p)
    (hplaced : Placed co.code (co.entryAt k).toNat (Routine.bytes p)) :
    (co.entryAt k).toNat + (Routine.bytes p).length = (co.entryAt (k + 1)).toNat := by
  have hlt : k < old.size := hp.size_eq ▸ (Array.getElem?_eq_some_iff.mp hk).1
  rw [hp.toNat_entryAt, Nat.min_eq_left (Nat.le_of_lt hlt)] at hplaced ⊢
  rw [hp.toNat_entryAt, Nat.min_eq_left hlt]
  rcases hp.slot k p hk with hstub | ⟨hold, -⟩
  · exact absurd hstub (Routine.not_placed_stub hplaced)
  · exact (Layout.address_succ (by simpa using hold)).symm

/-- Behind code that execution can pass through stands the next entry. -/
theorem Stands.exists_forward (hp : co.Patched old words) (h : co.Stands words start listing) :
    ∃ through, Forward through listing ∧ (through = true →
      ∃ k, start + (listing.flatMap HostInstr.bytes).length = (co.entryAt k).toNat) := by
  cases h with
  | routine hk hplaced => exact ⟨true, Routine.forward _, fun _ => ⟨_, hp.entryAt_succ hk hplaced⟩⟩
  | stub _ _ => exact ⟨false, Routine.forward_stub, nofun⟩
  | guard _ => exact ⟨false, Routine.forward_guard, nofun⟩

/-- An instruction begins at every entry. -/
theorem Patched.exists_boundary_entryAt (hp : co.Patched old words) (k : Nat) :
    ∃ i, co.Boundary words (co.entryAt k).toNat i := by
  have hentry := hp.toNat_entryAt k
  by_cases hk : k < words.size
  · have hword : words[k]? = some words[k] := Array.getElem?_eq_getElem hk
    rw [Nat.min_eq_left (by have := hp.size_eq; omega)] at hentry
    rcases hp.slot k _ hword with hstub | ⟨-, hroutine⟩
    · rw [← hentry] at hstub
      exact ⟨_, _, [], [], .stub hk hstub, rfl⟩
    · rw [← hentry] at hroutine
      have hstands := Stands.routine hword hroutine
      cases hinstrs : Routine.instrs words[k] with
      | nil => exact absurd hinstrs (Routine.instrs_ne_nil _)
      | cons i rest =>
        rw [hinstrs] at hstands
        exact ⟨i, _, [], rest, hstands, rfl⟩
  · rw [Nat.min_eq_right (by have := hp.size_eq; omega), ← hp.toNat_guard] at hentry
    have hguard := hp.guard
    rw [← hp.toNat_guard] at hguard
    exact ⟨_, _, [], _, .guard hguard, hentry⟩

theorem Stands.placed_instr (h : co.Stands words start (before ++ i :: rest)) :
    Placed co.code (start + (before.flatMap HostInstr.bytes).length) i.bytes := by
  have hplaced := h.placed
  rw [List.flatMap_append, List.flatMap_cons] at hplaced
  exact (Placed.append_iff.mp (Placed.append_iff.mp hplaced).2).1

/-- An instruction lies within the code. -/
theorem Boundary.add_length_le (h : co.Boundary words pc i) :
    pc + i.bytes.length ≤ co.code.size := by
  obtain ⟨start, before, rest, hstands, rfl⟩ := h
  exact hstands.placed_instr.add_length_le i.length_bytes_pos

end CodeObject

namespace Machine

variable {m m' : Machine} {co : CodeObject} {old : Array Platter} {pc pc' : UInt32}
variable {interrupted through : Bool} {i : HostInstr} {rest : List HostInstr}

/-- The instruction that begins at an address is the one executed there. -/
theorem step_eq_of_boundary (hco : m.running.code = some co)
    (hp : co.Patched old m.running.words) (h : co.Boundary m.running.words pc.toNat i) :
    m.step interrupted pc = m.perform interrupted pc i := by
  obtain ⟨start, before, rest, hstands, hpc⟩ := h
  refine step_eq_perform hco hp.size_le ?_ (hstands.slots_lt i (by simp))
  rw [hpc]
  exact hstands.placed_instr

theorem passes_behind {n : UInt32} (hn : n.toNat = i.bytes.length)
    (hrest : rest = [] → through = true) : i.Passes through rest pc (pc + n) rest :=
  ⟨[], n, rfl, hrest, rfl, by simpa using hn⟩

theorem passes_over {rel : UInt8} {j : HostInstr} (hi : i.bytes.length = 3)
    (hrel : rel.toNat = j.bytes.length) (hrest : rest = [] → through = true) :
    i.Passes through (j :: rest) pc (pc + 3 + rel.toUInt32) rest := by
  refine ⟨[j], 3 + rel.toUInt32, rfl, hrest, UInt32.add_assoc .., ?_⟩
  rw [toNat_three_add, hrel]
  simp [hi]

/-- An instruction that goes on, other than through the table, goes on behind itself or behind the
next one. Where it may have changed the code it is the last of its routine. -/
theorem passes_of_perform_next (hstep : m.perform interrupted pc i = .next m' pc')
    (hleads : i.Leads through rest) (hi : ∀ s, i ≠ .jmpt s) :
    ∃ later, i.Passes through rest pc pc' later ∧ (m'.running = m.running ∨ later = []) := by
  have hbehind {m₁ : Machine} {n : UInt32} (heq : Step.next m₁ (pc + n) = .next m' pc')
      (hrunning : m₁.running = m.running) (hn : n.toNat = i.bytes.length)
      (hrest : rest = [] → through = true) :
      ∃ later, i.Passes through rest pc pc' later ∧ (m'.running = m.running ∨ later = []) := by
    cases heq
    exact ⟨rest, passes_behind hn hrest, Or.inl hrunning⟩
  cases i with
  | mov d s => exact hbehind hstep rfl rfl hleads
  | movi d imm => exact hbehind hstep rfl rfl hleads
  | jz s rel =>
    obtain ⟨j, later, rfl, hrel, hlater⟩ := hleads
    rw [perform] at hstep
    split at hstep
    · cases hstep
      exact ⟨later, passes_over rfl hrel hlater, Or.inl rfl⟩
    · exact hbehind hstep rfl rfl (absurd · (List.cons_ne_nil j _))
  | jnz s rel =>
    obtain ⟨j, later, rfl, hrel, hlater⟩ := hleads
    rw [perform] at hstep
    split at hstep
    · exact hbehind hstep rfl rfl (absurd · (List.cons_ne_nil j _))
    · cases hstep
      exact ⟨later, passes_over rfl hrel hlater, Or.inl rfl⟩
  | load d a j =>
    rw [perform] at hstep
    split at hstep
    · exact hbehind hstep rfl rfl hleads
    · cases hstep
  | store a j v =>
    obtain ⟨rfl, hthrough⟩ := hleads
    rw [perform] at hstep
    split at hstep
    · cases store_eq_next hstep
      exact ⟨[], passes_behind rfl fun _ => hthrough, Or.inr rfl⟩
    · cases hstep
  | arith op d x y =>
    cases op with
    | div =>
      rw [perform] at hstep
      split at hstep
      · cases hstep
      · exact hbehind hstep rfl rfl hleads
    | add => exact hbehind hstep rfl rfl hleads
    | mul => exact hbehind hstep rfl rfl hleads
    | nand => exact hbehind hstep rfl rfl hleads
  | ret code => cases hstep
  | jmpt s => exact absurd rfl (hi s)

/-- A return that the host resumes is resumed behind itself, or at an entry if it was made by a jump
through the table. -/
theorem passes_of_perform_exit {left : Exit} {reason : Reason} (hco : m.running.code = some co)
    (hstep : m.perform interrupted pc i = .exit m' left)
    (hreason : Reason.ofCode? left.reason = some reason) (hresumes : reason.Resumes)
    (hleads : i.Leads through rest) :
    i.Passes through rest pc left.resume rest ∨ ∃ index, left.resume = co.entry index := by
  have hbad {exit : Exit} {m₁ : Machine} (why : Reason) (heq : Step.exit m₁ exit = .exit m' left)
      (hcode : Reason.ofCode? exit.reason = some why) (hwhy : ¬ why.Resumes) : False := by
    cases heq
    cases hcode.symm.trans hreason
    exact hwhy hresumes
  cases i with
  | mov d s => cases hstep
  | movi d imm => cases hstep
  | jz s rel => cases hstep
  | jnz s rel => cases hstep
  | load d a j =>
    rw [perform] at hstep
    split at hstep
    · cases hstep
    · exact (hbad .fault hstep rfl id).elim
  | store a j v =>
    rw [perform] at hstep
    split at hstep
    · exact absurd hstep (store_ne_exit _ _ _ _ _ _ _)
    · exact (hbad .fault hstep rfl id).elim
  | arith op d x y =>
    cases op with
    | div =>
      rw [perform] at hstep
      split at hstep
      · exact (hbad .halt hstep rfl id).elim
      · cases hstep
    | add => cases hstep
    | mul => cases hstep
    | nand => cases hstep
  | ret code =>
    cases hstep
    exact Or.inl (passes_behind rfl (hleads reason hreason hresumes))
  | jmpt s =>
    simp only [perform, hco] at hstep
    split at hstep
    · cases hstep
      exact Or.inr ⟨_, rfl⟩
    · cases hstep

end Machine

namespace CodeObject

variable {co : CodeObject} {old words : Array Platter} {start : Nat} {i : HostInstr}
variable {before rest later : List HostInstr} {through : Bool} {pc pc' : UInt32}

/-- Addresses within the code are those of numbers, so that passing an instruction is going
forward. -/
theorem Stands.toNat_passed (hsize : co.code.size < Layout.limit)
    (h : co.Stands words start (before ++ i :: rest))
    (hpc : pc.toNat = start + (before.flatMap HostInstr.bytes).length)
    (hpasses : i.Passes through rest pc pc' later) :
    pc < pc' ∧ ∃ passed, rest = passed ++ later ∧
      pc'.toNat = start + ((before ++ i :: passed).flatMap HostInstr.bytes).length := by
  obtain ⟨passed, n, rfl, -, rfl, hn⟩ := hpasses
  have hpos := i.length_bytes_pos
  have hle := h.placed.add_length_le (by simp; omega)
  simp only [List.flatMap_append, List.flatMap_cons, List.length_append] at hle hn ⊢
  have hadd : (pc + n).toNat = pc.toNat + n.toNat := Layout.toNat_add (by omega)
  refine ⟨?_, passed, rfl, ?_⟩
  · rw [UInt32.lt_iff_toNat_lt]
    omega
  · omega

/-- An instruction begins where execution has passed to, also if the code has got a stub while
execution went on to the next entry. -/
theorem Stands.exists_boundary_of_passes {co' : CodeObject} {old' words' : Array Platter}
    (hp' : co'.Patched old' words') (hsize : co.code.size < Layout.limit)
    (h : co.Stands words start (before ++ i :: rest))
    (hend : through = true → ∃ k,
      start + ((before ++ i :: rest).flatMap HostInstr.bytes).length = (co.entryAt k).toNat)
    (hpc : pc.toNat = start + (before.flatMap HostInstr.bytes).length)
    (hpasses : i.Passes through rest pc pc' later)
    (hentry : ∀ k, co'.entryAt k = co.entryAt k)
    (hsame : later = [] ∨ co' = co ∧ words' = words) :
    pc < pc' ∧ ∃ i', co'.Boundary words' pc'.toNat i' := by
  obtain ⟨hlt, passed, hrest, hpc'⟩ := h.toNat_passed hsize hpc hpasses
  obtain ⟨-, -, -, hthrough, -⟩ := hpasses
  refine ⟨hlt, ?_⟩
  cases later with
  | nil =>
    obtain ⟨k, hk⟩ := hend (hthrough rfl)
    rw [hrest, List.append_nil, ← hpc', ← hentry] at hk
    rw [hk]
    exact hp'.exists_boundary_entryAt k
  | cons j later =>
    obtain ⟨rfl, rfl⟩ := hsame.resolve_left (List.cons_ne_nil j later)
    subst hrest
    exact ⟨j, start, before ++ i :: passed, later, by simpa using h, hpc'⟩

end CodeObject

namespace Machine

structure Addresses (m : Machine) (co : CodeObject) : Prop where
  code_eq : m.running.code = some co
  executable : m.Executable
  short : co.code.size < Layout.limit
  room : co.code.size ≤ co.codeBuffer.capacity

variable {m m' : Machine} {co : CodeObject} {pc pc' : UInt32} {interrupted : Bool} {i : HostInstr}

theorem Addresses.exists_patched (h : m.Addresses co) : ∃ old, co.Patched old m.running.words :=
  h.executable.exists_patched h.code_eq h.short

theorem Addresses.step_eq (h : m.Addresses co) (hb : co.Boundary m.running.words pc.toNat i) :
    m.step interrupted pc = m.perform interrupted pc i := by
  obtain ⟨old, hp⟩ := h.exists_patched
  exact step_eq_of_boundary h.code_eq hp hb

/-- A step at most plants a stub, which leaves entries and sizes as they are. -/
theorem Addresses.step_next (h : m.Addresses co) (hstep : m.step interrupted pc = .next m' pc') :
    ∃ co', m'.Addresses co' ∧ co'.code.size = co.code.size ∧
      ∀ k, co'.entryAt k = co.entryAt k := by
  have hexecutable := h.executable.step_next hstep
  obtain ⟨co', hco', rfl | ⟨k, -, rfl⟩⟩ := code_of_step_next h.code_eq hstep
  · exact ⟨co', ⟨hco', hexecutable, h.short, h.room⟩, rfl, fun _ => rfl⟩
  · have hsize : (co.plantStub (co.entryAt k)).code.size = co.code.size :=
      Assembler.size_writeBytes ..
    exact ⟨_, ⟨hco', hexecutable, hsize ▸ h.short, hsize ▸ h.room⟩, hsize, fun _ => rfl⟩

theorem Addresses.store_ne_crash (h : m.Addresses co) {handle offset : UInt32} {p : Platter}
    (hread : m.readWord? handle offset = some p) (v : Platter) (crash : Crash) :
    m.store handle offset v pc ≠ .crash m' crash := by
  obtain ⟨old, hp⟩ := h.exists_patched
  obtain ⟨place, a, hplace, ha, hword⟩ := readWord?_eq_some hread
  rw [store, writeWord_eq hplace]
  split
  · rename_i h0
    obtain rfl := (place?_eq_running_iff hplace).mpr h0
    cases ha
    have hlt := (Array.getElem?_eq_some_iff.mp hword).1
    rw [plantStub_eq (by exact h.code_eq) (hp.stubFits h.room (hp.size_eq ▸ hlt))]
    rintro ⟨⟩
  · rintro ⟨⟩

/-- No instruction of the code fails. -/
theorem Addresses.step_ne_crash (h : m.Addresses co)
    (hb : co.Boundary m.running.words pc.toNat i) (crash : Crash) :
    m.step interrupted pc ≠ .crash m' crash := by
  rw [h.step_eq hb]
  cases i with
  | mov d s => rintro ⟨⟩
  | movi d imm => rintro ⟨⟩
  | jz s rel => rintro ⟨⟩
  | jnz s rel => rintro ⟨⟩
  | load d a j =>
    rw [perform]
    split <;> rintro ⟨⟩
  | store a j v =>
    rw [perform]
    split
    · rename_i hread
      exact h.store_ne_crash hread _ crash
    · rintro ⟨⟩
  | arith op d x y =>
    cases op with
    | div =>
      rw [perform]
      split <;> rintro ⟨⟩
    | add => rintro ⟨⟩
    | mul => rintro ⟨⟩
    | nand => rintro ⟨⟩
  | ret code => rintro ⟨⟩
  | jmpt s =>
    simp only [perform, h.code_eq]
    split <;> rintro ⟨⟩

/-- From an instruction execution comes to another one, further on unless through the table. -/
theorem Addresses.boundary_next (h : m.Addresses co)
    (hb : co.Boundary m.running.words pc.toNat i)
    (hstep : m.step interrupted pc = .next m' pc') :
    ∃ co' i', m'.Addresses co' ∧ co'.code.size = co.code.size ∧
      co'.Boundary m'.running.words pc'.toNat i' ∧ ((∀ s, i ≠ .jmpt s) → pc < pc') := by
  obtain ⟨co', h', hsize, hentry⟩ := h.step_next hstep
  obtain ⟨old, hp⟩ := h.exists_patched
  obtain ⟨old', hp'⟩ := h'.exists_patched
  have hperform := (h.step_eq hb).symm.trans hstep
  obtain ⟨start, before, rest, hstands, hpc⟩ := hb
  by_cases hi : ∃ s, i = .jmpt s
  · obtain ⟨s, rfl⟩ := hi
    simp only [perform, h.code_eq] at hperform
    split at hperform
    · cases hperform
    · cases hperform
      obtain ⟨i', hb'⟩ := hp'.exists_boundary_entryAt (m.slot s).toNat
      rw [hentry] at hb'
      exact ⟨co', i', h', hsize, hb', fun hne => absurd rfl (hne s)⟩
  · rw [not_exists] at hi
    obtain ⟨through, hforward, hend⟩ := hstands.exists_forward hp
    obtain ⟨later, hpasses, hsame⟩ := passes_of_perform_next hperform (hforward.leads before) hi
    obtain ⟨hlt, i', hb'⟩ := hstands.exists_boundary_of_passes hp' h.short hend hpc hpasses hentry
      (hsame.symm.imp_right fun hrunning => by
        have hco' := h'.code_eq
        rw [hrunning, h.code_eq] at hco'
        cases hco'
        exact ⟨rfl, by rw [hrunning]⟩)
    exact ⟨co', i', h', hsize, hb', fun _ => hlt⟩

/-- Where the host resumes execution after a return begins an instruction. -/
theorem Addresses.boundary_resume (h : m.Addresses co)
    (hb : co.Boundary m.running.words pc.toNat i) {left : Exit} {reason : Reason}
    (hstep : m.step interrupted pc = .exit m' left)
    (hreason : Reason.ofCode? left.reason = some reason) (hresumes : reason.Resumes) :
    ∃ i', co.Boundary m.running.words left.resume.toNat i' := by
  obtain ⟨old, hp⟩ := h.exists_patched
  have hperform := (h.step_eq hb).symm.trans hstep
  obtain ⟨start, before, rest, hstands, hpc⟩ := hb
  obtain ⟨through, hforward, hend⟩ := hstands.exists_forward hp
  rcases passes_of_perform_exit h.code_eq hperform hreason hresumes (hforward.leads before) with
    hpasses | ⟨index, hindex⟩
  · exact (hstands.exists_boundary_of_passes hp h.short hend hpc hpasses (fun _ => rfl)
      (Or.inr ⟨rfl, rfl⟩)).2
  · rw [hindex]
    exact hp.exists_boundary_entryAt index.toNat

/-- Execution from `m` at `pc` is at `pc'` in `m'` after `n` instructions, where a jump through the
table that is instruction `k` sees `flags k`. -/
inductive Arrives (flags : Nat → Bool) (m : Machine) (pc : UInt32) :
    (n : Nat) → (m' : Machine) → (pc' : UInt32) → Prop
  | here : Arrives flags m pc 0 m pc
  | on {n : Nat} {m₁ m₂ : Machine} {pc₁ pc₂ : UInt32} (h : Arrives flags m pc n m₁ pc₁)
      (hstep : m₁.step (flags n) pc₁ = .next m₂ pc₂) : Arrives flags m pc (n + 1) m₂ pc₂

def AtJump (m : Machine) (pc : UInt32) : Prop :=
  ∃ co s, m.running.code = some co ∧ co.Boundary m.running.words pc.toNat (.jmpt s)

variable {flags : Nat → Bool} {n k : Nat} {m₁ m₂ : Machine} {pc₁ pc₂ : UInt32}

theorem Arrives.add (h : m.Arrives flags pc n m₁ pc₁)
    (h₁ : m₁.Arrives (fun k => flags (n + k)) pc₁ k m₂ pc₂) :
    m.Arrives flags pc (n + k) m₂ pc₂ := by
  induction h₁ with
  | here => exact h
  | on _ hstep ih => exact ih.on hstep

theorem Arrives.unique (h₁ : m.Arrives flags pc n m₁ pc₁) (h₂ : m.Arrives flags pc n m₂ pc₂) :
    m₁ = m₂ ∧ pc₁ = pc₂ := by
  induction h₁ generalizing m₂ pc₂ with
  | here =>
    cases h₂
    exact ⟨rfl, rfl⟩
  | on _ hstep ih =>
    obtain _ | ⟨h₂, hstep₂⟩ := h₂
    obtain ⟨rfl, rfl⟩ := ih h₂
    cases hstep.symm.trans hstep₂
    exact ⟨rfl, rfl⟩

/-- Execution does not go on behind a return. -/
theorem Arrives.not_succ_of_exit {left : Exit} (h : m.Arrives flags pc n m₁ pc₁)
    (hexit : m₁.step (flags n) pc₁ = .exit m₂ left) : ¬ m.Arrives flags pc (n + 1) m' pc' := by
  rintro (_ | ⟨h', hstep⟩)
  obtain ⟨rfl, rfl⟩ := h.unique h'
  cases hexit.symm.trans hstep

theorem Arrives.execute_add (h : m.Arrives (fun _ => interrupted) pc n m₁ pc₁) (fuel : Nat) :
    execute interrupted (n + fuel) m pc = execute interrupted fuel m₁ pc₁ := by
  induction h generalizing fuel with
  | here => rw [Nat.zero_add]
  | on _ hstep ih =>
    rw [Nat.add_assoc, ih, Nat.add_comm 1, execute, hstep]

/-- All through a stretch of execution an instruction begins where execution is. -/
theorem Addresses.boundary_arrives (h : m.Addresses co)
    (hb : ∃ i, co.Boundary m.running.words pc.toNat i) (ha : m.Arrives flags pc n m₁ pc₁) :
    ∃ co' i, m₁.Addresses co' ∧ co'.code.size = co.code.size ∧
      co'.Boundary m₁.running.words pc₁.toNat i := by
  induction ha with
  | here =>
    obtain ⟨i, hb⟩ := hb
    exact ⟨co, i, h, rfl, hb⟩
  | on _ hstep ih =>
    obtain ⟨co₁, i₁, h₁, hsize₁, hb₁⟩ := ih
    obtain ⟨co₂, i₂, h₂, hsize₂, hb₂, -⟩ := h₁.boundary_next hb₁ hstep
    exact ⟨co₂, i₂, h₂, hsize₂.trans hsize₁, hb₂⟩

/-- From every instruction a return or a jump through the table is reached before the code ends. -/
theorem Addresses.exists_leaving (h : m.Addresses co)
    (hb : ∃ i, co.Boundary m.running.words pc.toNat i) (flags : Nat → Bool) :
    ∃ n m₁ pc₁, pc.toNat + n < co.code.size ∧ m.Arrives flags pc n m₁ pc₁ ∧
      (m₁.AtJump pc₁ ∨ ∃ m₂ left, m₁.step (flags n) pc₁ = .exit m₂ left) := by
  -- the code left in front of execution shrinks with every instruction in between
  induction hleft : co.code.size - pc.toNat using Nat.strong_induction_on
    generalizing m co pc flags with
  | _ left ih =>
    obtain ⟨i, hb⟩ := hb
    have hpos := i.length_bytes_pos
    have hle := hb.add_length_le
    by_cases hi : ∃ s, i = .jmpt s
    · obtain ⟨s, rfl⟩ := hi
      exact ⟨0, m, pc, by omega, .here, Or.inl ⟨co, s, h.code_eq, hb⟩⟩
    · rw [not_exists] at hi
      cases hstep : m.step (flags 0) pc with
      | exit m₂ left => exact ⟨0, m, pc, by omega, .here, Or.inr ⟨m₂, left, hstep⟩⟩
      | crash m₂ crash => exact absurd hstep (h.step_ne_crash hb crash)
      | next m₁ pc₁ =>
        obtain ⟨co₁, i₁, h₁, hsize₁, hb₁, hforward⟩ := h.boundary_next hb hstep
        have hlt := UInt32.lt_iff_toNat_lt.mp (hforward hi)
        obtain ⟨n, m₂, pc₂, hn, harrives, hend⟩ := ih (co₁.code.size - pc₁.toNat) (by omega) h₁
          ⟨i₁, hb₁⟩ (fun k => flags (1 + k)) rfl
        refine ⟨1 + n, m₂, pc₂, by omega, (Arrives.on .here hstep).add harrives, hend⟩

/-- A jump through the table leaves the code when it sees that the run has been cancelled. -/
theorem Addresses.step_jump (h : m.Addresses co) (hj : m.AtJump pc) :
    ∃ left, m.step true pc = .exit m left := by
  obtain ⟨co', s, hco', hb⟩ := hj
  cases h.code_eq.symm.trans hco'
  rw [h.step_eq hb]
  simp only [perform, h.code_eq, if_true]
  exact ⟨_, rfl⟩

/-- Execution that every jump through the table may leave does leave the code. -/
theorem Addresses.exists_exit (h : m.Addresses co)
    (hb : ∃ i, co.Boundary m.running.words pc.toNat i) (flags : Nat → Bool)
    (hflags : ∀ n, flags n = true) :
    ∃ n m₁ pc₁ m₂ left, pc.toNat + n < co.code.size ∧ m.Arrives flags pc n m₁ pc₁ ∧
      m₁.step (flags n) pc₁ = .exit m₂ left := by
  obtain ⟨n, m₁, pc₁, hn, ha, hjump | ⟨m₂, left, hexit⟩⟩ := h.exists_leaving hb flags
  · obtain ⟨co₁, i, h₁, -⟩ := h.boundary_arrives hb ha
    obtain ⟨left, hexit⟩ := h₁.step_jump hjump
    exact ⟨n, m₁, pc₁, m₁, left, hn, ha, by rw [hflags, hexit]⟩
  · exact ⟨n, m₁, pc₁, m₂, left, hn, ha, hexit⟩

/-- Execution goes on for `n` instructions or leaves the code before. -/
theorem Addresses.arrives_or_exit (h : m.Addresses co)
    (hb : ∃ i, co.Boundary m.running.words pc.toNat i) (flags : Nat → Bool) (n : Nat) :
    (∃ m₁ pc₁, m.Arrives flags pc n m₁ pc₁) ∨ ∃ k m₁ pc₁ m₂ left, k < n ∧
      m.Arrives flags pc k m₁ pc₁ ∧ m₁.step (flags k) pc₁ = .exit m₂ left := by
  induction n with
  | zero => exact Or.inl ⟨m, pc, .here⟩
  | succ n ih =>
    rcases ih with ⟨m₁, pc₁, ha⟩ | ⟨k, m₁, pc₁, m₂, left, hk, ha, hexit⟩
    · obtain ⟨co₁, i, h₁, -, hb₁⟩ := h.boundary_arrives hb ha
      cases hstep : m₁.step (flags n) pc₁ with
      | next m₂ pc₂ => exact Or.inl ⟨m₂, pc₂, ha.on hstep⟩
      | exit m₂ left => exact Or.inr ⟨n, m₁, pc₁, m₂, left, n.lt_succ_self, ha, hstep⟩
      | crash m₂ crash => exact absurd hstep (h₁.step_ne_crash hb₁ crash)
    · exact Or.inr ⟨k, m₁, pc₁, m₂, left, Nat.lt_succ_of_lt hk, ha, hexit⟩

end Machine

def Step.Advances (pc : UInt32) (i : HostInstr) : Step → Prop
  | .next _ pc' => (∀ s, i ≠ .jmpt s) → pc < pc'
  | .exit _ _ => True
  | .crash _ _ => False

structure Machine.Progresses (m : Machine) (co : CodeObject) (pc : UInt32) : Prop where
  /-- Execution is always in front of an instruction within the code, executes it and goes forward. -/
  advances : ∀ flags n m₁ pc₁, m.Arrives flags pc n m₁ pc₁ →
    ∃ co₁ i, m₁.running.code = some co₁ ∧ co₁.code.size = co.code.size ∧
      co₁.Boundary m₁.running.words pc₁.toNat i ∧ pc₁.toNat + i.bytes.length ≤ co₁.code.size ∧
      ∀ interrupted, m₁.step interrupted pc₁ = m₁.perform interrupted pc₁ i ∧
        (m₁.step interrupted pc₁).Advances pc₁ i
  /-- It reaches a return or a jump through the table before the end of the code. -/
  leaves : ∀ interrupted, ∃ n, pc.toNat + n < co.code.size ∧
    ((∃ m₁ left, m.execute interrupted (n + 1) pc = .exit m₁ left) ∨
      ∃ m₁ pc₁, m.execute interrupted n pc = .unfinished m₁ pc₁ ∧ m₁.AtJump pc₁)
  /-- Where jumps through the table see that the run has been cancelled, it returns. -/
  total : ∀ fuel, co.code.size - pc.toNat ≤ fuel →
    ∃ m₁ left, m.execute true fuel pc = .exit m₁ left
  stops : ∀ flags n, (∀ k, n ≤ k → flags k = true) → ∃ k m₁ pc₁ m₂ left, k < n + co.code.size ∧
    m.Arrives flags pc k m₁ pc₁ ∧ m₁.step (flags k) pc₁ = .exit m₂ left
  /-- If it goes on forever, it passes jumps through the table again and again. -/
  recurs : ∀ flags, (∀ n, ∃ m₁ pc₁, m.Arrives flags pc n m₁ pc₁) → ∀ n, ∃ k m₁ pc₁, n ≤ k ∧
    k < n + co.code.size ∧ m.Arrives flags pc k m₁ pc₁ ∧ m₁.AtJump pc₁

namespace Machine

variable {m : Machine} {co : CodeObject} {pc : UInt32}

theorem Addresses.progresses (h : m.Addresses co)
    (hb : ∃ i, co.Boundary m.running.words pc.toNat i) : m.Progresses co pc where
  advances flags n m₁ pc₁ ha := by
    obtain ⟨co₁, i, h₁, hsize, hb₁⟩ := h.boundary_arrives hb ha
    refine ⟨co₁, i, h₁.code_eq, hsize, hb₁, hb₁.add_length_le, fun interrupted =>
      ⟨h₁.step_eq hb₁, ?_⟩⟩
    cases hstep : m₁.step interrupted pc₁ with
    | next m₂ pc₂ =>
      obtain ⟨-, -, -, -, -, hforward⟩ := h₁.boundary_next hb₁ hstep
      exact hforward
    | exit m₂ left => trivial
    | crash m₂ crash => exact absurd hstep (h₁.step_ne_crash hb₁ crash)
  leaves interrupted := by
    obtain ⟨n, m₁, pc₁, hn, ha, hjump | ⟨m₂, left, hexit⟩⟩ :=
      h.exists_leaving hb fun _ => interrupted
    · exact ⟨n, hn, Or.inr ⟨m₁, pc₁, ha.execute_add 0, hjump⟩⟩
    · refine ⟨n, hn, Or.inl ⟨m₂, left, ?_⟩⟩
      rw [ha.execute_add 1, execute, hexit]
  total fuel hfuel := by
    obtain ⟨n, m₁, pc₁, m₂, left, hn, ha, hexit⟩ :=
      h.exists_exit hb (fun _ => true) fun _ => rfl
    obtain ⟨extra, rfl⟩ : ∃ extra, fuel = n + (extra + 1) := ⟨fuel - n - 1, by omega⟩
    refine ⟨m₂, left, ?_⟩
    rw [ha.execute_add, execute, hexit]
  stops flags n hflags := by
    rcases h.arrives_or_exit hb flags n with
      ⟨m₁, pc₁, ha⟩ | ⟨k, m₁, pc₁, m₂, left, hk, ha, hexit⟩
    · obtain ⟨co₁, i, h₁, hsize, hb₁⟩ := h.boundary_arrives hb ha
      obtain ⟨k, m₂, pc₂, m₃, left, hk, ha₁, hexit⟩ := h₁.exists_exit ⟨i, hb₁⟩
        (fun k => flags (n + k)) fun k => hflags _ (Nat.le_add_right n k)
      exact ⟨n + k, m₂, pc₂, m₃, left, by omega, ha.add ha₁, hexit⟩
    · exact ⟨k, m₁, pc₁, m₂, left, by omega, ha, hexit⟩
  recurs flags hforever n := by
    obtain ⟨m₁, pc₁, ha⟩ := hforever n
    obtain ⟨co₁, i, h₁, hsize, hb₁⟩ := h.boundary_arrives hb ha
    obtain ⟨k, m₂, pc₂, hk, ha₁, hjump | ⟨m₃, left, hexit⟩⟩ :=
      h₁.exists_leaving ⟨i, hb₁⟩ fun k => flags (n + k)
    · exact ⟨n + k, m₂, pc₂, by omega, by omega, ha.add ha₁, hjump⟩
    · obtain ⟨_, _, hon⟩ := hforever (n + k + 1)
      exact absurd hon ((ha.add ha₁).not_succ_of_exit hexit)

end Machine

namespace Engine

variable {e : Engine} {m₀ : Memory} {l₀ others : Loans} {g : Moment} {co : CodeObject}

def Moment.Aligned (g : Moment) : Prop :=
  ∀ co, g.machine.running.code = some co → co.code.size < Layout.limit →
    ∃ i, co.Boundary g.machine.running.words g.pc.toNat i

theorem addresses_of_owned (ho : e.Owned m₀ l₀ others) (hs : e.Sound)
    (hco : e.machine.running.code = some co) (hsize : co.code.size < Layout.limit) :
    e.machine.Addresses co :=
  ⟨hco, hs.executable, hsize, ho.room hco⟩

theorem Sound.aligned (hs : e.Sound) (hco : e.machine.running.code = some co) (tick : Nat)
    (cancelled looking : Bool) (finger : UInt32) :
    Moment.Aligned ⟨tick, cancelled, looking, e.machine, e.host, co.entry finger⟩ := by
  intro co' hco' hsize
  cases hco.symm.trans hco'
  obtain ⟨old, hp⟩ := hs.executable.exists_patched hco hsize
  exact hp.exists_boundary_entryAt finger.toNat

namespace Moment

theorem Aligned.stepped (h : g.Aligned) (ho : g.engine.Owned m₀ l₀ others) (hs : g.engine.Sound)
    {interrupted : Bool} {m : Machine} {pc : UInt32}
    (hstep : g.machine.step interrupted g.pc = .next m pc) (tick : Nat) (cancelled : Bool) :
    Aligned ⟨tick, cancelled, false, m, g.host, pc⟩ := by
  intro co' hco' hsize'
  obtain ⟨co, hco, -⟩ := hs.executable
  have hsize : co.code.size < Layout.limit := by
    obtain ⟨co₁, hco₁, hsame⟩ := Machine.code_of_step_next hco hstep
    cases hco₁.symm.trans hco'
    rcases hsame with rfl | ⟨k, -, rfl⟩
    · exact hsize'
    · rwa [CodeObject.plantStub, Assembler.size_writeBytes] at hsize'
  have ha := addresses_of_owned ho hs hco hsize
  obtain ⟨i, hb⟩ := h co hco ha.short
  obtain ⟨co₂, i', h₂, -, hb', -⟩ := ha.boundary_next hb hstep
  cases hco'.symm.trans h₂.code_eq
  exact ⟨i', hb'⟩

theorem Aligned.returned (h : g.Aligned) (ho : g.engine.Owned m₀ l₀ others) (hs : g.engine.Sound)
    {interrupted : Bool} {m : Machine} {left : Exit} {reason : Reason}
    {pc : UInt32} {e' : Engine} (hstep : g.machine.step interrupted g.pc = .exit m left)
    (hreason : Reason.ofCode? left.reason = some reason)
    (hserve : serveReason reason left ⟨m, g.host⟩ = (.done (some pc), e')) (hs' : e'.Sound)
    (tick : Nat) (cancelled : Bool) :
    Aligned ⟨tick, cancelled, true, e'.machine, e'.host, pc⟩ := by
  rcases hs.returns hstep hserve pc rfl with ⟨-, co', finger, hco', rfl⟩ | ⟨hresumes, rfl, hsame⟩
  · exact hs'.aligned hco' tick cancelled true finger
  · intro co hco hsize
    dsimp only at hco ⊢
    rw [hsame] at hco ⊢
    obtain ⟨i, hb⟩ := h co hco hsize
    exact (addresses_of_owned ho hs hco hsize).boundary_resume hb hstep hreason hresumes

theorem Aligned.tick {interrupted : Bool} {r : Moment ⊕ RunResult} (h : g.Aligned)
    (ho : g.engine.Owned m₀ l₀ others) (hs : g.engine.Sound) (ht : g.Tick interrupted r) :
    Sum.elim Aligned (fun _ => True) r := by
  have hkept := kept_tick hs ht
  cases ht with
  | canceled _ => trivial
  | looked cancelled _ => exact h
  | stepped cancelled _ hstep => exact h.stepped ho hs hstep _ cancelled
  | crashed _ _ => trivial
  | unknown _ _ _ _ => trivial
  | @returned m left reason cancelled _ hstep hreason =>
    rcases hserve : serveReason reason left ⟨m, g.host⟩ with ⟨(_ | pc) | fault | crash, e'⟩ <;>
      rw [hserve] at hkept
    · trivial
    · exact h.returned ho hs hstep hreason hserve hkept _ cancelled
    · trivial
    · trivial

end Moment

/-- All through a run, an instruction begins where execution is. -/
theorem Owned.aligned_course (ho : e.Owned m₀ l₀ others) (hc : e.Coherent) {signals : Signals}
    {cancelled : Bool} {n : Nat} (hg : e.course signals cancelled n = .inl g) :
    g.engine.Sound ∧ g.engine.Owned m₀ l₀ others ∧ g.Aligned :=
  ho.course_kept hc (fun _ _ hs hco => hs.aligned hco)
    (fun _ _ _ hs ho haligned ht => haligned.tick ho hs ht) hg

namespace Moment

def flagAfter (signals : Signals) (g : Moment) (k : Nat) : Bool :=
  match g.after signals k with
  | .inl g' => g'.interrupted signals
  | .inr _ => false

/-- The ticks of a run execute one instruction each until execution leaves the code. -/
theorem after_of_arrives {signals : Signals} (hl : g.looking = false) {n : Nat} {m : Machine}
    {pc : UInt32} (ha : g.machine.Arrives (g.flagAfter signals) g.pc n m pc) :
    ∃ g', g.after signals n = .inl g' ∧ g'.looking = false ∧ g'.machine = m ∧ g'.pc = pc := by
  induction ha with
  | here => exact ⟨g, rfl, hl, rfl, rfl⟩
  | @on n m₁ m₂ pc₁ pc₂ _ hstep ih =>
    obtain ⟨g', hg', hl', rfl, rfl⟩ := ih
    rw [flagAfter, hg'] at hstep
    change g'.machine.step ((g'.cancelled || signals.cancels g'.tick) && signals.shows g'.tick)
      g'.pc = _ at hstep
    have hnext : g'.next signals =
        .inl ⟨g'.tick + 1, g'.cancelled || signals.cancels g'.tick, false, m₂, g'.host, pc₂⟩ := by
      simp only [next, hl', Bool.false_eq_true, if_false, hstep]
    rw [after_succ, hg']
    exact ⟨_, hnext, rfl, rfl, rfl⟩

def Leaving (signals : Signals) (g : Moment) : Prop :=
  g.looking = false ∧ (g.machine.AtJump g.pc ∨ (g.exit? (g.interrupted signals)).isSome)

theorem exists_leaving (h : g.machine.Addresses co)
    (hb : ∃ i, co.Boundary g.machine.running.words g.pc.toNat i) (hl : g.looking = false)
    (signals : Signals) :
    ∃ k g', g.pc.toNat + k < co.code.size ∧ g.after signals k = .inl g' ∧ g'.Leaving signals := by
  obtain ⟨k, m₁, pc₁, hk, ha, hleaves⟩ := h.exists_leaving hb (g.flagAfter signals)
  obtain ⟨g', hg', hl', rfl, rfl⟩ := after_of_arrives hl ha
  refine ⟨k, g', hk, hg', hl', hleaves.imp_right ?_⟩
  rintro ⟨m₂, left, hexit⟩
  rw [flagAfter, hg'] at hexit
  rw [exit?_eq_some_iff.mpr ⟨hl', hexit⟩]
  rfl

end Moment

theorem course_add {signals : Signals} {cancelled : Bool} {n : Nat}
    (hg : e.course signals cancelled n = .inl g) (k : Nat) :
    e.course signals cancelled (n + k) = g.after signals k := by
  obtain ⟨g₀, hopening, hafter⟩ := exists_opening_of_course hg
  rw [course_of_opening hopening, Moment.after_add hafter]

/-- Generated code makes progress: at every moment of every run, however memory, cancellation and
input turn out, execution of the running code goes forward from instruction to instruction until it
returns or jumps through the table, which it does before it has passed the end of the code. -/
theorem execution_makes_progress {platters code slots : BlockSource} (hplatters : platters.Settled)
    (hcode : code.Settled) (hslots : slots.Settled)
    (h₀ : (Memory.ofSources platters code slots).Traffic 0 m₀ l₀) (h : Operates m₀ l₀ e others)
    (hrunnable : e.host.stopped = false) (signals : Signals) (cancelled : Bool) (n : Nat)
    (hg : e.course signals cancelled n = .inl g) :
    ∃ co, g.machine.running.code = some co ∧ (co.code.size < Layout.limit →
      g.machine.Progresses co g.pc ∧ (g.looking = false → ∃ k g', g.pc.toNat + k < co.code.size ∧
        e.course signals cancelled (n + k) = .inl g' ∧ g'.Leaving signals)) := by
  have haccount := Memory.account_of_traffic hplatters hcode hslots h₀
  rcases h.owned_or_released haccount with ho | hr
  · obtain ⟨hs, hog, haligned⟩ := ho.aligned_course h.reachable.coherent hg
    obtain ⟨co, hco, -⟩ := hs.executable
    refine ⟨co, hco, fun hsize => ?_⟩
    have ha := addresses_of_owned hog hs hco hsize
    refine ⟨ha.progresses (haligned co hco hsize), fun hl => ?_⟩
    obtain ⟨k, g', hk, hg', hleaving⟩ := Moment.exists_leaving ha (haligned co hco hsize) hl signals
    exact ⟨k, g', hk, by rw [course_add hg, hg'], hleaving⟩
  · rw [hr.stopped] at hrunnable
    cases hrunnable

/-- Overwrites its third platter and starts again, forever. -/
def amendingLoop : Array Platter := #[0xD2000002, 0x2000000A, 0x70000000, 0xC0000003]

/-- The loop is in front of the write to its own program. -/
theorem execution_makes_progress_amending :
    Operates (.ofSources .mapped .mapped .heap) 0
        (new amendingLoop { memory := some (.ofSources .mapped .mapped .heap) }).2 0 ∧
      ∃ g co, (new amendingLoop { memory := some (.ofSources .mapped .mapped .heap) }).2.course
          .none false 2 = .inl g ∧ g.looking = false ∧ g.machine.running.code = some co ∧
        co.code.size < Layout.limit ∧ g.machine.Progresses co g.pc ∧
        ∃ k g', g.pc.toNat + k < co.code.size ∧
          (new amendingLoop { memory := some (.ofSources .mapped .mapped .heap) }).2.course
            .none false (2 + k) = .inl g' ∧ g'.Leaving .none := by
  have hnew : Operates (.ofSources .mapped .mapped .heap) 0
      (new amendingLoop { memory := some (.ofSources .mapped .mapped .heap) }).2 0 :=
    .new rfl (by decide) (by decide +kernel)
  refine ⟨hnew, ?_⟩
  have hstore : ((new amendingLoop { memory := some (.ofSources .mapped .mapped .heap) }).2.course
      .none false 2).getLeft?.any (fun g => !g.looking &&
        g.machine.running.code.any fun co => co.code.size < Layout.limit) = true := by
    decide +kernel
  obtain ⟨g, hg, hstore⟩ := (Option.any_eq_true _ _).mp hstore
  rw [Sum.getLeft?_eq_some_iff] at hg
  have hsettled := BlockSource.mapped_settled
  obtain ⟨co, hco, hprogress⟩ := execution_makes_progress hsettled hsettled
    BlockSource.heap_settled ⟨.refl, .refl, .refl⟩ hnew (by decide +kernel) .none false 2 hg
  rw [hco, Option.any_some, Bool.and_eq_true, Bool.not_eq_true', decide_eq_true_iff] at hstore
  obtain ⟨hl, hsize⟩ := hstore
  obtain ⟨hprogresses, hleaving⟩ := hprogress hsize
  exact ⟨g, co, hg, hl, hco, hsize, hprogresses, hleaving hl⟩

end Engine

end PlatterMachine
