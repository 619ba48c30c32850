import PlatterMachine.Proofs.Engine.Boundaries

/-!
# Routines commit with their last instruction

Up to its last host instruction a routine changes nothing but scratch slots. So within a routine the
registers and arrays are those with which it was entered, until all that is left of it is to take
over what the host has got for it. Where execution leaves the code they still are.
-/

namespace PlatterMachine

structure Contents where
  registers : Vector UInt32 8
  program : Array Platter
  zeroLive : Bool
  others : Array (Option (Array Platter))

namespace Machine

def contents (m : Machine) : Contents :=
  ⟨m.registers, m.running.words, m.zeroLive, m.otherWords⟩

theorem contents_setSlot (m : Machine) {d : UInt8} (hd : 8 ≤ d.toNat) (v : UInt32) :
    (m.setSlot d v).contents = m.contents := by
  rw [contents, registers_setSlot_scratch m hd v]
  rfl

/-- A change that leaves the words alone. -/
theorem contents_modifyArray (m : Machine) (place : Place) {f : PlatterArray → PlatterArray}
    (hf : ∀ a, (f a).words = a.words) : (m.modifyArray place f).contents = m.contents := by
  rw [contents, running_words_modifyArray m place hf, otherWords_modifyArray m place hf,
    modifyArray_zeroLive, registers, modifyArray_file]
  rfl

end Machine

def HostInstr.Inert : HostInstr → Prop
  | mov d _ => 8 ≤ d.toNat
  | movi d _ => 8 ≤ d.toNat
  | jz .. => True
  | jnz .. => True
  | ret .. => True
  | jmpt .. => True
  | _ => False

/-- Only the last instruction changes registers or arrays, and behind a return to the host all that
can be left is to take over what the host has got. -/
inductive Committing : List HostInstr → Prop
  | nil : Committing []
  | last (i : HostInstr) : Committing [i]
  | takes (reason d s : UInt8) : Committing [.ret reason, .mov d s]
  | inert {i : HostInstr} {rest : List HostInstr} (hi : i.Inert) (hret : ∀ reason, i ≠ .ret reason)
      (h : Committing rest) : Committing (i :: rest)

namespace Committing

variable {i : HostInstr} {rest : List HostInstr}

theorem tail (h : Committing (i :: rest)) : Committing rest := by
  cases h with
  | last i => exact .nil
  | takes reason d s => exact .last _
  | inert hi hret h => exact h

theorem inert_of_ne_nil (h : Committing (i :: rest)) (hne : rest ≠ []) : i.Inert := by
  cases h with
  | last i => exact absurd rfl hne
  | takes reason d s => trivial
  | inert hi hret h => exact hi

theorem of_ret {reason : UInt8} (h : Committing (.ret reason :: rest)) :
    rest = [] ∨ ∃ d s, rest = [.mov d s] := by
  cases h with
  | last i => exact Or.inl rfl
  | takes reason d s => exact Or.inr ⟨d, s, rfl⟩
  | inert hi hret h => exact absurd rfl (hret reason)

end Committing

theorem Routine.committing (p : Platter) : Committing (instrs p) := by
  have hscratch : 8 ≤ slotV1.toNat ∧ 8 ≤ slotV2.toNat := by decide
  unfold instrs
  cases p.decode with
  | error _ => exact .inert hscratch.1 nofun (.inert hscratch.2 nofun (.last _))
  | ok i =>
    obtain ⟨op, a, b, c, value⟩ := i
    cases op with
    | conditionalMove => exact .inert trivial nofun (.last _)
    | halt => exact .inert hscratch.1 nofun (.last _)
    | allocation => exact .inert hscratch.1 nofun (.takes _ _ _)
    | abandonment => exact .inert hscratch.1 nofun (.last _)
    | output => exact .inert hscratch.1 nofun (.last _)
    | input => exact .takes _ _ _
    | loadProgram =>
      exact .inert hscratch.1 nofun (.inert hscratch.2 nofun
        (.inert trivial nofun (.inert trivial nofun (.last _))))
    | arrayIndex => exact .last _
    | arrayAmendment => exact .last _
    | addition => exact .last _
    | multiplication => exact .last _
    | division => exact .last _
    | notAnd => exact .last _
    | orthography => exact .last _

/-- Execution is within a routine that was entered with contents `c`: nothing has changed since, or
all that is left is to take over what the host has got. -/
inductive Machine.Amid (c : Contents) (m : Machine) (co : CodeObject) (old : Array Platter)
    (pc : UInt32) : Prop
  | facing {k : Nat} {known : Bool} {rest : List HostInstr} (h : m.Facing co old pc k known rest)
      (hne : rest ≠ []) (hcommitting : Committing rest)
      (hc : m.contents = c ∨ ∃ d s, rest = [.mov d s])
  | guarded (hpc : pc.toNat = Layout.address old.toList old.size + 6) (hc : m.contents = c)

def Machine.Onward (c : Contents) (m : Machine) (co : CodeObject) (old : Array Platter)
    (pc : UInt32) : Prop :=
  (∃ k, k ≤ old.size ∧ pc.toNat = Layout.address old.toList k) ∨ m.Amid c co old pc

def Machine.Standing (c : Contents) (m : Machine) (co : CodeObject) (old : Array Platter)
    (pc : UInt32) : Prop :=
  (m.contents = c ∧ ∃ k, k ≤ old.size ∧ pc.toNat = Layout.address old.toList k) ∨
    m.Amid c co old pc

/-- A step within a routine that was entered with contents `c` goes onward or leaves the code with
these contents; a recompilation is asked for by a stub at an entry. -/
def Step.Commits (c : Contents) (co : CodeObject) (old : Array Platter) : Step → Prop
  | .next m pc' => ∃ co', m.running.code = some co' ∧ co'.Patched old m.running.words ∧
      m.Onward c co' old pc'
  | .exit m left => m.contents = c ∧ ∃ reason, Reason.ofCode? left.reason = some reason ∧
      (reason = .recompile → ∃ k, k < old.size ∧
        Placed co.code (Layout.address old.toList k) Routine.stubBytes) ∧
      (reason.Resumes → ∀ m' : Machine, m'.Onward c co old left.resume)
  | .crash _ _ => True

namespace Machine

variable {m m' : Machine} {c : Contents} {co : CodeObject} {old : Array Platter} {pc pc' : UInt32}
variable {k : Nat} {known known' interrupted : Bool} {i : HostInstr} {rest : List HostInstr}

/-- Wherever execution is, leaving the code changes nothing but scratch slots. -/
theorem contents_of_step_exit {left : Exit} (hstep : m.step interrupted pc = .exit m' left) :
    m'.contents = m.contents := by
  have heffect := m.effect_step interrupted pc
  rw [hstep] at heffect
  cases heffect with
  | stored _ _ hs => exact absurd hs (store_ne_exit _ _ _ _ _ _ _)
  | divided => rw [contents_setSlot _ (by decide), contents_setSlot _ (by decide)]
  | _ => rfl

theorem onward_entry (hp : co.Patched old m.running.words) (index : UInt32) (m' : Machine) :
    m'.Onward c co old (co.entry index) :=
  Or.inl ⟨min index.toNat old.size, Nat.min_le_right _ _, hp.toNat_entryAt index.toNat⟩

/-- Further down a routine there is more of it, or the next entry. -/
theorem Facing.onward (before : List HostInstr) (h : m.Facing co old pc k known (before ++ rest))
    (hlinked : Linked known' rest) (hvalue : known' = true → m'.slot slotV1 ≠ 0)
    (hcommitting : Committing rest)
    (hpc : pc'.toNat = pc.toNat + (before.flatMap HostInstr.bytes).length)
    (hc : rest ≠ [] → m'.contents = c ∨ ∃ d s, rest = [.mov d s]) : m'.Onward c co old pc' := by
  have hrest := h.drop before hlinked hvalue hpc
  by_cases hne : rest = []
  · subst hne
    exact Or.inl ⟨k + 1, h.index, hrest.stop_eq⟩
  · exact Or.inr (.facing hrest hne hcommitting (hc hne))

theorem Facing.commits_next (before : List HostInstr) (hco : m.running.code = some co)
    (hp : co.Patched old m.running.words) (h : m.Facing co old pc k known (before ++ rest))
    (hlinked : Linked known' rest) (hvalue : known' = true → m'.slot slotV1 ≠ 0)
    (hcommitting : Committing rest) (hrunning : m'.running = m.running) {n : UInt32}
    (hn : n.toNat = (before.flatMap HostInstr.bytes).length)
    (hc : rest ≠ [] → m'.contents = c ∨ ∃ d s, rest = [.mov d s]) :
    Step.Commits c co old (.next m' (pc + n)) := by
  have hpc : (pc + n).toNat = pc.toNat + n.toNat :=
    h.toNat_add hp (by rw [List.flatMap_append, List.length_append]; omega)
  refine ⟨co, by rw [hrunning, hco], by rwa [hrunning], ?_⟩
  exact h.onward before hlinked hvalue hcommitting (by omega) hc

/-- Bad accesses and divisions by zero leave the code for good. -/
theorem commits_stop {left : Exit} {reason : Reason} (hc : m.contents = c)
    (hreason : Reason.ofCode? left.reason = some reason)
    (hstop : reason = .halt ∨ reason = .fault) : Step.Commits c co old (.exit m left) := by
  refine ⟨hc, reason, hreason, ?_, ?_⟩ <;> rcases hstop with rfl | rfl <;> exact nofun

theorem Facing.commits_straight (hco : m.running.code = some co)
    (hp : co.Patched old m.running.words) (h : m.Facing co old pc k known (i :: rest))
    (hi : i.Straight) (hlinked : Linked false rest) (hcommitting : Committing (i :: rest))
    (hc : m.contents = c ∨ ∃ d s, i :: rest = [.mov d s]) :
    Step.Commits c co old (m.perform interrupted pc i) := by
  have hnext {m' : Machine} {n : UInt32} (hrunning : m'.running = m.running)
      (hn : n.toNat = i.bytes.length) (hkept : i.Inert → m'.contents = m.contents) :
      Step.Commits c co old (.next m' (pc + n)) := by
    refine h.commits_next [i] hco hp hlinked (by rintro ⟨⟩) hcommitting.tail hrunning
      (by simpa using hn) fun hne => Or.inl ?_
    rw [hkept (hcommitting.inert_of_ne_nil hne)]
    rcases hc with hc | ⟨d, s, heq⟩
    · exact hc
    · cases heq
      exact absurd rfl hne
  have hstays (hmov : ∀ d s, i ≠ .mov d s) : m.contents = c := by
    rcases hc with hc | ⟨d, s, heq⟩
    · exact hc
    · cases heq
      exact absurd rfl (hmov d s)
  cases i with
  | mov d s => exact hnext rfl rfl fun hd => m.contents_setSlot hd _
  | movi d imm => exact hnext rfl rfl fun hd => m.contents_setSlot hd _
  | load d a j =>
    rw [perform]
    split
    · exact hnext rfl rfl False.elim
    · exact commits_stop (hstays (by rintro _ _ ⟨⟩)) rfl (Or.inr rfl)
  | arith op d x y =>
    cases op with
    | div =>
      rw [perform]
      split
      · refine commits_stop ?_ rfl (Or.inl rfl)
        rw [contents_setSlot _ (by decide), contents_setSlot _ (by decide)]
        exact hstays (by rintro _ _ ⟨⟩)
      · exact hnext rfl rfl False.elim
    | add => exact hnext rfl rfl False.elim
    | mul => exact hnext rfl rfl False.elim
    | nand => exact hnext rfl rfl False.elim
  | store _ _ _ => exact hi.elim
  | jz _ _ => exact hi.elim
  | jnz _ _ => exact hi.elim
  | jmpt _ => exact hi.elim
  | ret _ => exact hi.elim

/-- A jump over one instruction lands behind it. -/
theorem Facing.commits_skip {j : HostInstr} {rel : UInt8} (hco : m.running.code = some co)
    (hp : co.Patched old m.running.words) (h : m.Facing co old pc k known (i :: j :: rest))
    (hi : i.bytes.length = 3) (hrel : rel.toNat = j.bytes.length) (hlinked : Linked known' rest)
    (hvalue : known' = true → m.slot slotV1 ≠ 0) (hcommitting : Committing rest)
    (hc : m.contents = c) : Step.Commits c co old (.next m (pc + 3 + rel.toUInt32)) := by
  have hn := toNat_three_add rel
  rw [UInt32.add_assoc]
  refine h.commits_next [i, j] hco hp hlinked hvalue hcommitting rfl ?_ fun _ => Or.inl hc
  rw [hn, hrel]
  simp [hi]

/-- A write ends its routine, and a bad one changes nothing. -/
theorem Facing.commits_store {a j v : UInt8} (hco : m.running.code = some co)
    (hp : co.Patched old m.running.words) (h : m.Facing co old pc k known [.store a j v])
    (hc : m.contents = c) :
    Step.Commits c co old (m.perform interrupted pc (.store a j v)) := by
  have hpc : (pc + 4).toNat = Layout.address old.toList (k + 1) := by
    rw [← h.stop_eq]
    exact h.toNat_add hp (n := 4) (Nat.le_refl 4)
  have hentry (m' : Machine) (co' : CodeObject) : m'.Onward c co' old (pc + 4) :=
    Or.inl ⟨k + 1, h.index, hpc⟩
  rw [perform]
  split
  · rename_i p hread
    obtain ⟨place, arr, hplace, harr, hword⟩ := readWord?_eq_some hread
    rw [store, writeWord_eq hplace]
    split
    · rename_i h0
      obtain rfl := (place?_eq_running_iff hplace).mpr h0
      cases harr
      rcases plantStub_cases (m.modifyArray .running fun a => { a with
        words := a.words.setIfInBounds (m.slot j).toNat (m.slot v), dirty := true }) (m.slot j)
        (pc + 4) with ⟨co', hco', hplant⟩ | hplant
      · cases hco.symm.trans hco'
        rw [hplant]
        exact ⟨_, rfl, hp.plantStub (Array.getElem?_eq_some_iff.mp hword).1 _, hentry _ _⟩
      · rw [hplant]
        trivial
    · rename_i h0
      cases place with
      | running => exact absurd ((place?_eq_running_iff hplace).mp rfl) h0
      | other _ => exact ⟨co, hco, hp, hentry _ _⟩
  · exact commits_stop hc rfl (Or.inr rfl)

/-- A return to the host from within a routine. -/
theorem Facing.commits_ret (hp : co.Patched old m.running.words) {reason : Reason}
    (h : m.Facing co old pc k known (.ret reason.code :: rest))
    (hreason : reason ≠ .recompile) (hresumes : reason.Resumes → Linked false rest)
    (hcommitting : Committing (.ret reason.code :: rest)) (hc : m.contents = c) :
    Step.Commits c co old (.exit m ⟨reason.code, m.slot slotV1, m.slot slotV2, pc + 2⟩) := by
  have hlen : (HostInstr.ret reason.code).bytes.length = 2 := rfl
  have hpc : (pc + 2).toNat = pc.toNat + 2 :=
    h.toNat_add hp (n := 2) (by rw [List.flatMap_cons, List.length_append, hlen]; simp)
  refine ⟨hc, reason, Reason.ofCode?_code reason, fun hr => absurd hr hreason, fun hr m' => ?_⟩
  refine h.onward [.ret reason.code] (hresumes hr) nofun hcommitting.tail
    (hpc.trans (by simp [hlen])) fun hne => Or.inr ?_
  exact hcommitting.of_ret.resolve_left hne

theorem Facing.commits_step (hco : m.running.code = some co) (hp : co.Patched old m.running.words)
    (h : m.Facing co old pc k known (i :: rest)) (hcommitting : Committing (i :: rest))
    (hc : m.contents = c ∨ ∃ d s, i :: rest = [.mov d s]) :
    Step.Commits c co old (m.step interrupted pc) := by
  have hstays (hi : ¬ i.Straight) : m.contents = c := by
    rcases hc with hc | ⟨d, s, heq⟩
    · exact hc
    · cases heq
      exact absurd trivial hi
  rw [h.step_eq hco hp]
  cases h.linked with
  | straight hi hrest => exact h.commits_straight hco hp hi hrest hcommitting hc
  | store => exact h.commits_store hco hp (hstays id)
  | @jz _ s rel j rest hrel hrest hskip =>
    rw [perform]
    split
    · exact h.commits_skip hco hp rfl hrel hskip (by rintro ⟨⟩) hcommitting.tail.tail (hstays id)
    · exact h.commits_next [.jz s rel] hco hp hrest (by rintro ⟨⟩) hcommitting.tail rfl
        rfl fun _ => Or.inl (hstays id)
  | @jnz _ s rel j rest hrel hrest hskip =>
    rw [perform]
    split
    · exact h.commits_next [.jnz s rel] hco hp hrest (by rintro ⟨⟩) hcommitting.tail rfl
        rfl fun _ => Or.inl (hstays id)
    · rename_i hs
      refine h.commits_skip hco hp rfl hrel hskip (fun hv1 => ?_) hcommitting.tail.tail
        (hstays id)
      rw [← eq_of_beq hv1]
      exact hs
  | @jmpt _ s _ =>
    simp only [perform, hco]
    split
    · exact ⟨hstays id, .interrupt, rfl, (by rintro ⟨⟩), fun _ m' => onward_entry hp _ m'⟩
    · exact ⟨co, hco, hp, onward_entry hp _ m⟩
  | resumed reason hr hrest =>
    exact h.commits_ret hp (by rintro rfl; exact hr) (fun _ => hrest) hcommitting (hstays id)
  | halt => exact h.commits_ret hp (by decide) False.elim hcommitting (hstays id)
  | loadProgram => exact h.commits_ret hp (by decide) False.elim hcommitting (hstays id)

theorem commits_guard (hco : m.running.code = some co) (hp : co.Patched old m.running.words)
    (hpc : pc.toNat = Layout.address old.toList old.size ∨
      pc.toNat = Layout.address old.toList old.size + 6) (hc : m.contents = c) :
    Step.Commits c co old (m.step interrupted pc) := by
  rcases hpc with hpc | hpc
  · obtain ⟨hstep, hpc'⟩ := step_guard hco hp hpc
    rw [hstep]
    exact ⟨co, hco, hp, Or.inr (.guarded hpc' ((m.contents_setSlot (by decide) _).trans hc))⟩
  · rw [step_guarded hco hp hpc]
    exact commits_stop hc rfl (Or.inl rfl)

/-- At an entry stands a stub, a routine or the guard. -/
theorem commits_entry (hco : m.running.code = some co) (hp : co.Patched old m.running.words)
    (hk : k ≤ old.size) (hpc : pc.toNat = Layout.address old.toList k) (hc : m.contents = c) :
    Step.Commits c co old (m.step interrupted pc) := by
  rcases Nat.lt_or_eq_of_le hk with hlt | rfl
  · obtain ⟨p, hword⟩ : ∃ p, m.running.words[k]? = some p :=
      ⟨_, Array.getElem?_eq_getElem (by rw [hp.size_eq]; exact hlt)⟩
    rcases hp.slot k p hword with hstub | ⟨hold, hroutine⟩
    · rw [step_eq_perform hco hp.size_le (hpc ▸ hstub) fun _ hs => absurd hs List.not_mem_nil]
      exact ⟨hc, .recompile, rfl, fun _ => ⟨k, hlt, hstub⟩, False.elim⟩
    · obtain ⟨i, rest, hinstrs, hfacing⟩ := exists_facing (m := m) hlt hpc hold hroutine
      have hcommitting := Routine.committing p
      rw [hinstrs] at hcommitting
      exact hfacing.commits_step hco hp hcommitting (Or.inl hc)
  · exact commits_guard hco hp (Or.inl hpc) hc

/-- A host instruction goes onward or leaves the code as the machine was at the last entry. -/
theorem Standing.commits_step (hco : m.running.code = some co)
    (hp : co.Patched old m.running.words) (h : m.Standing c co old pc) (interrupted : Bool) :
    Step.Commits c co old (m.step interrupted pc) := by
  rcases h with ⟨hc, k, hk, hpc⟩ | h
  · exact commits_entry hco hp hk hpc hc
  · cases h with
    | @facing k known rest h hne hcommitting hc =>
      cases rest with
      | nil => exact absurd rfl hne
      | cons i rest => exact h.commits_step hco hp hcommitting hc
    | guarded hpc hc => exact commits_guard hco hp (Or.inr hpc) hc

end Machine

end PlatterMachine
