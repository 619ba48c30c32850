import PlatterMachine.Proofs.Engine.Routines

/-!
# Execution stays within the code

In code that was generated and has had stubs planted in it, execution stands at an entry or in front
of the rest of a routine, and that rest can be executed. A host instruction at such a position leads
to another one, or it leaves the code for a reason that the host can serve.
-/

namespace PlatterMachine

/-- Execution, if it goes on, goes on right behind the instruction and in the code as it was. -/
def HostInstr.Straight : HostInstr → Prop
  | mov .. => True
  | movi .. => True
  | load .. => True
  | arith .. => True
  | _ => False

def Reason.Resumes : Reason → Prop
  | allocation => True
  | abandonment => True
  | output => True
  | input => True
  | interrupt => True
  | _ => False

/-- The instructions can be executed up to their end. `known` says that the first value for the host
is not zero, without which no program may be loaded. -/
inductive Linked : (known : Bool) → List HostInstr → Prop
  | nil {known : Bool} : Linked known []
  | straight {known : Bool} {i : HostInstr} {rest : List HostInstr} (hi : i.Straight)
      (h : Linked false rest) : Linked known (i :: rest)
  | store {known : Bool} {a i v : UInt8} : Linked known [.store a i v]
  | jz {known : Bool} {s rel : UInt8} {i : HostInstr} {rest : List HostInstr}
      (hrel : rel.toNat = i.bytes.length) (h : Linked false (i :: rest))
      (hskip : Linked false rest) : Linked known (.jz s rel :: i :: rest)
  | jnz {known : Bool} {s rel : UInt8} {i : HostInstr} {rest : List HostInstr}
      (hrel : rel.toNat = i.bytes.length) (h : Linked false (i :: rest))
      (hskip : Linked (s == slotV1) rest) : Linked known (.jnz s rel :: i :: rest)
  | jmpt {known : Bool} {s : UInt8} {rest : List HostInstr} : Linked known (.jmpt s :: rest)
  | resumed {known : Bool} {rest : List HostInstr} (reason : Reason) (hr : reason.Resumes)
      (h : Linked false rest) : Linked known (.ret reason.code :: rest)
  | halt {known : Bool} {rest : List HostInstr} : Linked known (.ret Reason.halt.code :: rest)
  | loadProgram {rest : List HostInstr} : Linked true (.ret Reason.loadProgram.code :: rest)

theorem Routine.linked (p : Platter) : Linked false (instrs p) := by
  unfold instrs
  cases p.decode with
  | error _ => exact .straight trivial (.straight trivial .halt)
  | ok i =>
    obtain ⟨op, a, b, c, value⟩ := i
    cases op with
    | conditionalMove => exact .jz rfl (.straight trivial .nil) .nil
    | arrayIndex => exact .straight trivial .nil
    | arrayAmendment => exact .store
    | addition => exact .straight trivial .nil
    | multiplication => exact .straight trivial .nil
    | division => exact .straight trivial .nil
    | notAnd => exact .straight trivial .nil
    | halt => exact .straight trivial .halt
    | allocation =>
      exact .straight trivial (.resumed .allocation trivial (.straight trivial .nil))
    | abandonment => exact .straight trivial (.resumed .abandonment trivial .nil)
    | output => exact .straight trivial (.resumed .output trivial .nil)
    | input => exact .resumed .input trivial (.straight trivial .nil)
    | loadProgram => exact .straight trivial (.straight trivial (.jnz rfl .jmpt .loadProgram))
    | orthography => exact .straight trivial .nil

/-- What is left of routine `k` at `pc` is `rest`. -/
structure Machine.Facing (m : Machine) (co : CodeObject) (old : Array Platter) (pc : UInt32)
    (k : Nat) (known : Bool) (rest : List HostInstr) : Prop where
  index : k < old.size
  linked : Linked known rest
  value : known = true → m.slot slotV1 ≠ 0
  slots : ∀ i ∈ rest, ∀ s ∈ i.slots, s.toNat < fileSize
  placed : Placed co.code pc.toNat (rest.flatMap HostInstr.bytes)
  start_le : Layout.address old.toList k ≤ pc.toNat
  stop_eq : pc.toNat + (rest.flatMap HostInstr.bytes).length = Layout.address old.toList (k + 1)

inductive Machine.Position (m : Machine) (co : CodeObject) (old : Array Platter) (pc : UInt32) : Prop
  | entry (k : Nat) (hk : k ≤ old.size) (hpc : pc.toNat = Layout.address old.toList k)
  | facing {k : Nat} {known : Bool} {rest : List HostInstr} (h : m.Facing co old pc k known rest)
  | guarded (hpc : pc.toNat = Layout.address old.toList old.size + 6)

structure CodeObject.Leaves (co : CodeObject) (old : Array Platter) (exit : Exit) (reason : Reason) :
    Prop where
  reason_eq : Reason.ofCode? exit.reason = some reason
  source_ne : reason = .loadProgram → exit.value1 ≠ 0
  finger : reason = .input ∨ reason = .recompile →
    ∃ k, k < old.size ∧ co.fingerFor exit.resume = .ok (UInt32.ofNat k)
  resumes : reason.Resumes → ∀ m : Machine, m.Position co old exit.resume

def Step.Within (m : Machine) (co : CodeObject) (old : Array Platter) : Step → Prop
  | .next m' pc => ∃ co', m'.running.code = some co' ∧ co'.Patched old m'.running.words ∧
      m'.Position co' old pc
  | .exit m' left => m'.running = m.running ∧ ∃ reason, co.Leaves old left reason
  | .crash _ _ => False

namespace Machine

variable {m m' : Machine} {co : CodeObject} {old : Array Platter} {pc pc' : UInt32} {k : Nat}
variable {known known' interrupted : Bool} {i : HostInstr} {rest : List HostInstr}

theorem Facing.drop (before : List HostInstr)
    (h : m.Facing co old pc k known (before ++ rest)) (hlinked : Linked known' rest)
    (hvalue : known' = true → m'.slot slotV1 ≠ 0)
    (hpc : pc'.toNat = pc.toNat + (before.flatMap HostInstr.bytes).length) :
    m'.Facing co old pc' k known' rest := by
  have hplaced := h.placed
  have hstop := h.stop_eq
  have hstart := h.start_le
  rw [List.flatMap_append] at hplaced hstop
  rw [List.length_append] at hstop
  refine ⟨h.index, hlinked, hvalue, fun i hi => h.slots i (List.mem_append_right before hi), ?_,
    by omega, by omega⟩
  rw [hpc]
  exact (Placed.append_iff.mp hplaced).2

/-- Addresses within a routine are those of numbers. -/
theorem Facing.toNat_add (h : m.Facing co old pc k known rest)
    (hp : co.Patched old m.running.words) {n : UInt32}
    (hn : n.toNat ≤ (rest.flatMap HostInstr.bytes).length) :
    (pc + n).toNat = pc.toNat + n.toNat := by
  have hindex := h.index
  have hstop := h.stop_eq
  have hle := Layout.address_add_eight_le old.toList (i := k + 1)
    (by rw [Array.length_toList]; omega)
  have hshort := hp.short
  exact Layout.toNat_add (by omega)

theorem Facing.step_eq (hco : m.running.code = some co) (hp : co.Patched old m.running.words)
    (h : m.Facing co old pc k known (i :: rest)) :
    m.step interrupted pc = m.perform interrupted pc i := by
  have hplaced := h.placed
  rw [List.flatMap_cons] at hplaced
  exact step_eq_perform hco hp.size_le (Placed.append_iff.mp hplaced).1
    (h.slots i List.mem_cons_self)

/-- A step that leaves the arrays alone and goes on further down the routine. -/
theorem Facing.within_next (before : List HostInstr) (hco : m.running.code = some co)
    (hp : co.Patched old m.running.words)
    (h : m.Facing co old pc k known (before ++ rest)) (hlinked : Linked known' rest)
    (hvalue : known' = true → m'.slot slotV1 ≠ 0) (hrunning : m'.running = m.running) {n : UInt32}
    (hn : n.toNat = (before.flatMap HostInstr.bytes).length) :
    Step.Within m co old (.next m' (pc + n)) := by
  have hpc : (pc + n).toNat = pc.toNat + n.toNat :=
    h.toNat_add hp (by rw [List.flatMap_append, List.length_append]; omega)
  refine ⟨co, by rw [hrunning, hco], by rwa [hrunning], .facing (h.drop before hlinked hvalue ?_)⟩
  rw [hpc, hn]

/-- A return to the host from within a routine. -/
theorem Facing.within_ret (hp : co.Patched old m.running.words) {reason : Reason}
    (h : m.Facing co old pc k known (.ret reason.code :: rest))
    (hsource : reason = .loadProgram → m.slot slotV1 ≠ 0)
    (hresumes : reason.Resumes → Linked false rest) :
    Step.Within m co old (.exit m ⟨reason.code, m.slot slotV1, m.slot slotV2, pc + 2⟩) := by
  have hlen : (HostInstr.ret reason.code).bytes.length = 2 := rfl
  have hstop := h.stop_eq
  rw [List.flatMap_cons, List.length_append, hlen] at hstop
  have hpc : (pc + 2).toNat = pc.toNat + 2 :=
    h.toNat_add hp (n := 2) (by rw [List.flatMap_cons, List.length_append, hlen]; simp)
  have hstart := h.start_le
  refine ⟨rfl, reason, Reason.ofCode?_code reason, hsource, fun _ => ⟨k, h.index, ?_⟩,
    fun hr m' => ?_⟩
  · exact hp.fingerFor_add_two h.index h.start_le (by omega)
  · exact .facing (h.drop [.ret reason.code] (hresumes hr) nofun
      (hpc.trans (by simp [hlen])))

/-- Bad accesses and divisions by zero leave the code for good. -/
theorem within_stop (file : Vector UInt32 fileSize) {left : Exit} {reason : Reason}
    (hreason : Reason.ofCode? left.reason = some reason) (hstop : reason = .halt ∨ reason = .fault) :
    Step.Within m co old (.exit { m with file } left) := by
  refine ⟨rfl, reason, hreason, ?_, ?_, ?_⟩ <;> rcases hstop with rfl | rfl <;> exact nofun

theorem Facing.within_straight (hco : m.running.code = some co)
    (hp : co.Patched old m.running.words) (h : m.Facing co old pc k known (i :: rest))
    (hi : i.Straight) (hlinked : Linked false rest) :
    Step.Within m co old (m.perform interrupted pc i) := by
  have hnext {m' : Machine} {n : UInt32} (hrunning : m'.running = m.running)
      (hn : n.toNat = i.bytes.length) : Step.Within m co old (.next m' (pc + n)) :=
    h.within_next [i] hco hp hlinked nofun hrunning (by simpa using hn)
  cases i with
  | mov d s => exact hnext rfl rfl
  | movi d imm => exact hnext rfl rfl
  | load d a j =>
    rw [perform]
    split
    · exact hnext rfl rfl
    · exact within_stop m.file rfl (Or.inr rfl)
  | arith op d x y =>
    cases op with
    | div =>
      rw [perform]
      split
      · exact within_stop _ rfl (Or.inl rfl)
      · exact hnext rfl rfl
    | add => exact hnext rfl rfl
    | mul => exact hnext rfl rfl
    | nand => exact hnext rfl rfl
  | store _ _ _ => exact hi.elim
  | jz _ _ => exact hi.elim
  | jnz _ _ => exact hi.elim
  | jmpt _ => exact hi.elim
  | ret _ => exact hi.elim

/-- A jump over one instruction lands behind it. -/
theorem Facing.within_skip {j : HostInstr} {rel : UInt8} (hco : m.running.code = some co)
    (hp : co.Patched old m.running.words) (h : m.Facing co old pc k known (i :: j :: rest))
    (hi : i.bytes.length = 3) (hrel : rel.toNat = j.bytes.length) (hlinked : Linked known' rest)
    (hvalue : known' = true → m.slot slotV1 ≠ 0) :
    Step.Within m co old (.next m (pc + 3 + rel.toUInt32)) := by
  rw [UInt32.add_assoc]
  refine h.within_next [i, j] hco hp hlinked hvalue rfl ?_
  rw [toNat_three_add, hrel]
  simp [hi]

/-- A write into the running program goes on in code with a stub at the slot written. -/
theorem Facing.within_store {a j v : UInt8} (hco : m.running.code = some co)
    (hp : co.Patched old m.running.words) (hroom : co.code.size ≤ co.codeBuffer.capacity)
    (h : m.Facing co old pc k known [.store a j v]) :
    Step.Within m co old (m.perform interrupted pc (.store a j v)) := by
  have hpc : (pc + 4).toNat = Layout.address old.toList (k + 1) := by
    rw [← h.stop_eq]
    exact h.toNat_add hp (n := 4) (Nat.le_refl 4)
  rw [perform]
  split
  · rename_i p hread
    obtain ⟨place, arr, hplace, harr, hword⟩ := readWord?_eq_some hread
    rw [store, writeWord_eq hplace]
    split
    · rename_i h0
      obtain rfl := (place?_eq_running_iff hplace).mpr h0
      cases harr
      have hlt : (m.slot j).toNat < m.running.words.size := (Array.getElem?_eq_some_iff.mp hword).1
      have hfits : co.stubFits (co.entry (m.slot j)) = true :=
        hp.stubFits hroom (hp.size_eq ▸ hlt)
      rw [plantStub_eq (by exact hco) hfits]
      exact ⟨_, rfl, hp.plantStub hlt _, .entry (k + 1) h.index hpc⟩
    · rename_i h0
      cases place with
      | running => exact absurd ((place?_eq_running_iff hplace).mp rfl) h0
      | other _ => exact ⟨co, hco, hp, .entry (k + 1) h.index hpc⟩
  · exact within_stop m.file rfl (Or.inr rfl)

/-- Every index has an entry. -/
theorem position_entry (hp : co.Patched old m.running.words) (index : UInt32) (m' : Machine) :
    m'.Position co old (co.entry index) :=
  .entry (min index.toNat old.size) (Nat.min_le_right _ _) (hp.toNat_entryAt index.toNat)

theorem Facing.within_step (hco : m.running.code = some co) (hp : co.Patched old m.running.words)
    (hroom : co.code.size ≤ co.codeBuffer.capacity) (h : m.Facing co old pc k known (i :: rest)) :
    Step.Within m co old (m.step interrupted pc) := by
  rw [h.step_eq hco hp]
  cases h.linked with
  | straight hi hrest => exact h.within_straight hco hp hi hrest
  | store => exact h.within_store hco hp hroom
  | @jz _ s rel j rest hrel hrest hskip =>
    rw [perform]
    split
    · exact h.within_skip hco hp rfl hrel hskip (absurd · Bool.false_ne_true)
    · exact h.within_next [.jz s rel] hco hp hrest (absurd · Bool.false_ne_true) rfl rfl
  | @jnz _ s rel j rest hrel hrest hskip =>
    rw [perform]
    split
    · exact h.within_next [.jnz s rel] hco hp hrest (absurd · Bool.false_ne_true) rfl rfl
    · rename_i hs
      refine h.within_skip hco hp rfl hrel hskip fun hv1 => ?_
      rw [← eq_of_beq hv1]
      exact hs
  | @jmpt _ s _ =>
    simp only [perform, hco]
    split
    · refine ⟨rfl, .interrupt, rfl, fun h => ?_, fun h => ?_, fun _ m' => position_entry hp _ m'⟩
      · cases h
      · rcases h with h | h <;> cases h
    · exact ⟨co, hco, hp, position_entry hp _ m⟩
  | resumed reason hr hrest =>
    exact h.within_ret hp (by rintro rfl; exact hr.elim) fun _ => hrest
  | halt => exact h.within_ret hp (fun h => by cases h) False.elim
  | loadProgram => exact h.within_ret hp (fun _ => h.value rfl) False.elim

theorem step_guard (hco : m.running.code = some co) (hp : co.Patched old m.running.words)
    (hpc : pc.toNat = Layout.address old.toList old.size) :
    m.step interrupted pc = .next (m.setSlot slotV1 Halt.outOfBounds) (pc + 6) ∧
      (pc + 6).toNat = Layout.address old.toList old.size + 6 := by
  obtain ⟨hmovi, -⟩ :=
    Placed.append_iff (s := (HostInstr.movi slotV1 Halt.outOfBounds).bytes).mp hp.guard
  rw [← hpc] at hmovi
  refine ⟨step_eq_perform hco hp.size_le hmovi (List.forall_mem_singleton.mpr (by decide)), ?_⟩
  have hle := Layout.size_eq old.toList
  have hshort := hp.short
  rw [Array.length_toList] at hle
  rw [← hpc]
  exact Layout.toNat_add (show pc.toNat + 6 < Layout.limit by omega)

theorem step_guarded (hco : m.running.code = some co) (hp : co.Patched old m.running.words)
    (hpc : pc.toNat = Layout.address old.toList old.size + 6) :
    m.step interrupted pc =
      .exit m ⟨Reason.halt.code, m.slot slotV1, m.slot slotV2, pc + 2⟩ := by
  obtain ⟨-, hret⟩ :=
    Placed.append_iff (s := (HostInstr.movi slotV1 Halt.outOfBounds).bytes).mp hp.guard
  have hplaced : Placed co.code pc.toNat (HostInstr.ret Reason.halt.code).bytes := by
    rw [hpc]
    exact hret
  exact step_eq_perform hco hp.size_le hplaced fun _ hs => absurd hs List.not_mem_nil

/-- The guard halts the machine. -/
theorem within_guard (hco : m.running.code = some co) (hp : co.Patched old m.running.words)
    (hpc : pc.toNat = Layout.address old.toList old.size ∨
      pc.toNat = Layout.address old.toList old.size + 6) :
    Step.Within m co old (m.step interrupted pc) := by
  rcases hpc with hpc | hpc
  · obtain ⟨hstep, hpc'⟩ := step_guard hco hp hpc
    rw [hstep]
    exact ⟨co, hco, hp, .guarded hpc'⟩
  · rw [step_guarded hco hp hpc]
    exact within_stop m.file rfl (Or.inl rfl)

/-- Where the routine of a platter stands, execution has all of it in front of it. -/
theorem exists_facing (hlt : k < old.size) (hpc : pc.toNat = Layout.address old.toList k)
    {p : Platter} (hold : old[k]? = some p)
    (hroutine : Placed co.code (Layout.address old.toList k) (Routine.bytes p)) :
    ∃ i rest, Routine.instrs p = i :: rest ∧ m.Facing co old pc k false (i :: rest) := by
  have hfacing : m.Facing co old pc k false (Routine.instrs p) := by
    refine ⟨hlt, Routine.linked p, nofun, Routine.slots_lt p, ?_, Nat.le_of_eq hpc.symm, ?_⟩
    · rw [hpc]
      exact hroutine
    · rw [hpc, Layout.address_succ (by simpa using hold)]
      rfl
  cases hinstrs : Routine.instrs p with
  | nil =>
    have hlen := Routine.four_le_length_bytes p
    rw [Routine.bytes, hinstrs] at hlen
    cases hlen
  | cons i rest =>
    rw [hinstrs] at hfacing
    exact ⟨i, rest, rfl, hfacing⟩

/-- At an entry stands a stub, a routine or the guard. -/
theorem within_entry (hco : m.running.code = some co) (hp : co.Patched old m.running.words)
    (hroom : co.code.size ≤ co.codeBuffer.capacity) (hk : k ≤ old.size)
    (hpc : pc.toNat = Layout.address old.toList k) :
    Step.Within m co old (m.step interrupted pc) := by
  rcases Nat.lt_or_eq_of_le hk with hlt | rfl
  · obtain ⟨p, hword⟩ : ∃ p, m.running.words[k]? = some p :=
      ⟨_, Array.getElem?_eq_getElem (by rw [hp.size_eq]; exact hlt)⟩
    have hnext := Layout.address_add_four_le old.toList (i := k) (by simpa using hlt)
    rcases hp.slot k p hword with hstub | ⟨hold, hroutine⟩
    · have hplaced : Placed co.code pc.toNat (HostInstr.ret Reason.recompile.code).bytes := by
        rw [hpc]
        exact hstub
      rw [step_eq_perform hco hp.size_le hplaced fun _ hs => absurd hs List.not_mem_nil]
      refine ⟨rfl, .recompile, rfl, fun h => ?_, fun _ => ⟨k, hlt, ?_⟩, False.elim⟩
      · cases h
      · exact hp.fingerFor_add_two hlt (by omega) (by omega)
    · obtain ⟨i, rest, -, hfacing⟩ := exists_facing (m := m) hlt hpc hold hroutine
      exact hfacing.within_step hco hp hroom
  · exact within_guard hco hp (Or.inl hpc)

/-- A host instruction stays in the code or leaves it properly. -/
theorem Position.within_step (hco : m.running.code = some co) (hp : co.Patched old m.running.words)
    (hroom : co.code.size ≤ co.codeBuffer.capacity) (h : m.Position co old pc)
    (interrupted : Bool) : Step.Within m co old (m.step interrupted pc) := by
  cases h with
  | entry k hk hpc => exact within_entry hco hp hroom hk hpc
  | @facing k known rest h =>
    cases rest with
    -- the routine is done, so that the next entry is here
    | nil => exact within_entry hco hp hroom h.index h.stop_eq
    | cons i rest => exact h.within_step hco hp hroom
  | guarded hpc => exact within_guard hco hp (Or.inr hpc)

/-- All that a host instruction changes in the running code is one stub. -/
theorem code_of_step_next (hco : m.running.code = some co)
    (hstep : m.step interrupted pc = .next m' pc') :
    ∃ co', m'.running.code = some co' ∧ (co' = co ∨
      ∃ i, i < m.running.words.size ∧ co' = co.plantStub (co.entryAt i)) := by
  rcases step_cases m interrupted pc with ⟨file, hfile⟩ |
    ⟨handle, offset, v, p, _, -, hread, hstore⟩
  · rw [hstep] at hfile
    cases hfile
    exact ⟨co, hco, Or.inl rfl⟩
  obtain ⟨place, a, hplace, ha, hword⟩ := readWord?_eq_some hread
  rw [hstep, store, writeWord_eq hplace] at hstore
  split at hstore
  · rename_i h0
    obtain rfl := (place?_eq_running_iff hplace).mpr h0
    cases ha
    rcases plantStub_cases (m.modifyArray .running fun a =>
      { a with words := a.words.setIfInBounds offset.toNat v, dirty := true }) offset _ with
      ⟨co', hco', hplant⟩ | hplant
    · cases hco.symm.trans hco'
      cases hstore.trans hplant
      exact ⟨_, rfl, Or.inr ⟨offset.toNat, (Array.getElem?_eq_some_iff.mp hword).1, rfl⟩⟩
    · cases hstore.trans hplant
  · rename_i h0
    cases hstore
    cases place with
    | running => exact absurd ((place?_eq_running_iff hplace).mp rfl) h0
    | other _ => exact ⟨co, hco, Or.inl rfl⟩

theorem running_of_step_exit {left : Exit} (hstep : m.step interrupted pc = .exit m' left) :
    m'.running = m.running := by
  obtain ⟨file, rfl⟩ := exists_file_of_step_exit hstep
  rfl

end Machine

end PlatterMachine
