import PlatterMachine.Proofs.Engine.Routines

/-!
# Routines carry out instructions

From the entry of a routine, host instructions lead to the entry of the routine that is to be
executed next, or to the end of the run, and to no other entry on the way. The plain machine that the
engine represents has then carried out the instruction that the routine was generated for.
-/

namespace PlatterMachine.Engine.Moment

open Routine (slotOf)

variable {g : Moment} {co : CodeObject} {s s' t : Interpreter} {lo hi : Nat}
variable {m : Machine} {e : Engine} {exit : Exit} {fault fault' : Fault}

theorem Executes.leads_of_failed (reason : Reason) (hx : g.Executes co s) (hl : g.looking = false)
    (hstep : g.machine.step false g.pc = .exit m exit) (hreason : exit.reason = reason.code)
    (hserve : serveReason reason exit ⟨m, g.host⟩ = (.failed fault, e)) (hr : e.Represents s')
    (haccords : Accords (.failed fault) (.error fault'))
    (hfinger : fault' = .suspended → e.host.finger.toNat = s'.finger) :
    g.Leads (Within t) (Follows (.stop (.error fault') s')) := by
  refine .last ?_
  rw [hx.next_failed reason hl hstep hreason hserve]
  refine ⟨_, _, rfl, _, e, rfl, haccords, hr, fun hsuspended => hfinger ?_⟩
  cases hsuspended
  rfl

theorem Inside.leads_orthography {r : Register} {v : UInt32}
    (h : g.Inside co s lo hi [.movi (slotOf r) v]) (hl : g.looking = false)
    (hnext : (co.entryAt (s.finger + 1)).toNat = hi) :
    g.Leads (Within t) (Follows (s.set r v).advance) :=
  h.leads_of_assign hl hnext (k := 6) rfl rfl

theorem Inside.leads_mov {r : Register} {slot : UInt8} {v : UInt32}
    (h : g.Inside co s lo hi [.mov (slotOf r) slot]) (hl : g.looking = false)
    (hnext : (co.entryAt (s.finger + 1)).toNat = hi) (hv : g.machine.slot slot = v) :
    g.Leads (Within t) (Follows (s.set r v).advance) := by
  subst hv
  exact h.leads_of_assign hl hnext (k := 3) rfl rfl

theorem Inside.leads_conditionalMove {a b c : Register}
    (h : g.Inside co s lo hi [.jz (slotOf c) 3, .mov (slotOf a) (slotOf b)])
    (hl : g.looking = false) (hnext : (co.entryAt (s.finger + 1)).toNat = hi) :
    g.Leads (Within t)
      (Follows (if s.get c = 0 then s else s.set a (s.get b)).advance) := by
  have hc := h.slot_eq c
  have hstep := h.step_eq
  rw [Machine.perform] at hstep
  by_cases h0 : s.get c = 0
  · rw [if_pos (hc.trans h0)] at hstep
    have hpc : (g.pc + 3 + 3).toNat = g.pc.toNat + 6 := by
      rw [UInt32.add_assoc]
      exact h.toNat_pc_add (k := 3 + 3) (by simp [HostInstr.bytes])
    obtain ⟨hn, hx⟩ := h.next_moved hl hstep h.represents h.code_eq h.short
    rw [if_pos h0]
    refine .last ?_
    rw [hn]
    exact ⟨_, rfl, hx.at_next (hpc.trans h.hi_eq) hnext⟩
  · rw [if_neg fun hz => h0 (hc.symm.trans hz)] at hstep
    rw [if_neg h0]
    exact h.leads_of_moves [_] hl hstep h.represents rfl
      (h.toNat_pc_add (by simp [HostInstr.bytes])) (by simp [HostInstr.bytes])
      (by simp [HostInstr.bytes]) fun h' => h'.leads_mov rfl hnext
        (h'.slot_eq b)

theorem Inside.leads_arithmetic (op : ArithOp) {a b c : Register} (hop : op ≠ .div)
    (h : g.Inside co s lo hi [.arith op (slotOf a) (slotOf b) (slotOf c)])
    (hl : g.looking = false) (hnext : (co.entryAt (s.finger + 1)).toNat = hi) :
    g.Leads (Within t) (Follows (s.set a (op.apply (s.get b) (s.get c))).advance) := by
  rw [← h.slot_eq b, ← h.slot_eq c]
  refine h.leads_of_assign hl hnext (k := 4) rfl ?_
  cases op with
  | div => exact absurd rfl hop
  | add => rfl
  | mul => rfl
  | nand => rfl

theorem Inside.leads_division {a b c : Register}
    (h : g.Inside co s lo hi [.arith .div (slotOf a) (slotOf b) (slotOf c)])
    (hl : g.looking = false) (hnext : (co.entryAt (s.finger + 1)).toNat = hi) :
    g.Leads (Within t) (Follows (if s.get c = 0 then s.halt Halt.divisionByZero 0
      else (s.set a (s.get b / s.get c)).advance)) := by
  have hb := h.slot_eq b
  have hc := h.slot_eq c
  by_cases h0 : s.get c = 0
  · have hstep := h.step_eq
    rw [Machine.perform, if_pos (hc.trans h0)] at hstep
    have hr := (h.represents.setSlot_scratch (i := slotV1) (by decide)
      Halt.divisionByZero).setSlot_scratch (i := slotV2) (by decide) 0
    obtain ⟨e, hserve, hr'⟩ := hr.serveHalt
      ⟨Reason.halt.code, Halt.divisionByZero, 0, g.pc⟩
      (show Halt.divisionByZero ≠ Halt.normal by decide)
    rw [if_pos h0]
    refine h.leads_of_failed .halt hl hstep rfl hserve hr' (Or.inl rfl) fun h => ?_
    cases h
  · rw [if_neg h0, ← hb, ← hc]
    refine h.leads_of_assign hl hnext (k := 4) rfl ?_
    rw [Machine.perform, if_neg fun hz => h0 (hc.symm.trans hz)]

theorem Inside.leads_badAccess {i : HostInstr} {handle offset : UInt32}
    (h : g.Inside co s lo hi [i]) (hl : g.looking = false)
    (hperform : g.machine.perform false g.pc i =
      .exit g.machine (Machine.badAccess handle offset g.pc)) :
    g.Leads (Within t) (Follows (s.badAccess handle offset)) := by
  obtain ⟨fault, hbad, hserve⟩ := h.represents.serveFault (Machine.badAccess handle offset g.pc)
  rw [Machine.badAccess] at hbad
  dsimp only at hbad
  rw [hbad]
  refine h.leads_of_failed .fault hl (h.step_eq.trans hperform) rfl hserve h.represents
    (Or.inl rfl) fun hsuspended => ?_
  rw [hsuspended, Interpreter.badAccess] at hbad
  split at hbad <;> cases hbad

theorem Inside.leads_arrayIndex {a b c : Register}
    (h : g.Inside co s lo hi [.load (slotOf a) (slotOf b) (slotOf c)])
    (hl : g.looking = false) (hnext : (co.entryAt (s.finger + 1)).toNat = hi) :
    g.Leads (Within t) (Follows (match s.word? (s.get b) (s.get c) with
      | some v => (s.set a v).advance
      | none => s.badAccess (s.get b) (s.get c))) := by
  have hread := readWord?_of_shows h.represents.shows (s.get b) (s.get c)
  change g.machine.readWord? _ _ = _ at hread
  cases hword : s.word? (s.get b) (s.get c) with
  | some v =>
    refine h.leads_of_assign hl hnext (k := 4) rfl ?_
    rw [Machine.perform, h.slot_eq b, h.slot_eq c, hread, hword]
  | none =>
    refine h.leads_badAccess hl ?_
    rw [Machine.perform, h.slot_eq b, h.slot_eq c, hread, hword]

theorem write_finger (s : Interpreter) (handle offset : UInt32) (v : Platter) :
    (s.write handle offset v).finger = s.finger := by
  unfold Interpreter.write
  split <;> rfl

theorem Inside.leads_arrayAmendment {a b c : Register}
    (h : g.Inside co s lo hi [.store (slotOf a) (slotOf b) (slotOf c)])
    (hl : g.looking = false) (hnext : (co.entryAt (s.finger + 1)).toNat = hi) :
    g.Leads (Within t) (Follows (match s.word? (s.get a) (s.get b) with
      | some _ => (s.write (s.get a) (s.get b) (s.get c)).advance
      | none => s.badAccess (s.get a) (s.get b))) := by
  have hread := readWord?_of_shows h.represents.shows (s.get a) (s.get b)
  change g.machine.readWord? _ _ = _ at hread
  cases hword : s.word? (s.get a) (s.get b) with
  | some p =>
    obtain ⟨old, hpatched⟩ := h.patched
    obtain ⟨m, co', hstore, hco', hsize, hentry, hr⟩ :=
      h.represents.store h.code_eq hpatched hword (s.get c) (g.pc + 4)
    have hstep : g.machine.step false g.pc = .next m (g.pc + 4) := by
      rw [h.step_eq, Machine.perform, h.slot_eq a, h.slot_eq b, h.slot_eq c, hread, hword]
      exact hstore
    obtain ⟨hn, hx⟩ := h.next_moved hl hstep hr hco' (hsize ▸ h.short)
    have hpc : (g.pc + 4).toNat = hi := by
      rw [h.toNat_pc_add (by simp [HostInstr.bytes]), ← h.hi_eq]
      rfl
    refine .last ?_
    rw [hn]
    refine ⟨_, rfl, hx.at_next hpc ?_⟩
    rw [hentry, write_finger, hnext]
  | none =>
    refine h.leads_badAccess hl ?_
    rw [Machine.perform, h.slot_eq a, h.slot_eq b, hread, hword]

theorem Halt.message_eq {reason : UInt32} (h : reason ≠ Halt.invalidOperator)
    (word word' : UInt32) : Halt.message reason word = Halt.message reason word' := by
  rw [Halt.message, if_neg h, Halt.message, if_neg h]

/-- A return to the host that halts the machine. -/
theorem Inside.leads_abnormal {halt word : UInt32}
    (h : g.Inside co s lo hi [.ret Reason.halt.code]) (hl : g.looking = false)
    (hhalt : g.machine.slot slotV1 = halt) (hne : halt ≠ Halt.normal)
    (hword : g.machine.slot slotV2 = word) :
    g.Leads (Within t) (Follows (s.halt halt word)) := by
  obtain ⟨e, hserve, hr⟩ := h.represents.serveHalt (g.leaving .halt)
    (fun hnormal => hne (hhalt.symm.trans hnormal))
  simp only [leaving, hhalt, hword] at hr
  refine h.leads_of_failed .halt hl h.step_ret rfl hserve hr (Or.inl ?_) nofun
  simp only [leaving, hhalt, hword]

/-- The word is whatever was left in its slot, and only the message does not show it. -/
theorem Inside.leads_guard (h : g.Inside co s lo hi Routine.guardInstrs)
    (hl : g.looking = false) : g.Leads (Within t) (Follows (s.halt Halt.outOfBounds 0)) := by
  refine h.leads_of_scratch hl (k := 6) rfl rfl (by decide) (by decide) fun g' h' hl' hv _ => ?_
  obtain ⟨e, hserve, hr⟩ := h'.represents.serveHalt (g'.leaving .halt)
    (fun hnormal => absurd (hv.symm.trans hnormal) (by decide))
  simp only [leaving, hv, Halt.message_eq (show Halt.outOfBounds ≠ Halt.invalidOperator by decide)
    _ 0] at hr
  refine h'.leads_of_failed .halt hl' h'.step_ret rfl hserve hr (Or.inr ?_) nofun
  exact ⟨g'.machine.slot slotV2, 0, by simp only [leaving, hv], rfl⟩

theorem Inside.leads_malformed {p : Platter}
    (h : g.Inside co s lo hi
      [.movi slotV1 Halt.invalidOperator, .movi slotV2 p, .ret Reason.halt.code])
    (hl : g.looking = false) : g.Leads (Within t) (Follows (s.halt Halt.invalidOperator p)) := by
  refine h.leads_of_scratch hl (k := 6) rfl rfl (by decide) (by decide) fun g₁ h₁ hl₁ hv₁ _ => ?_
  refine h₁.leads_of_scratch hl₁ (k := 6) rfl rfl (by decide) (by decide)
    fun g₂ h₂ hl₂ hv₂ hkeep => ?_
  exact h₂.leads_abnormal hl₂ ((hkeep _ (by decide) (by decide)).trans hv₁) (by decide) hv₂

theorem Inside.leads_halt
    (h : g.Inside co s lo hi [.movi slotV1 Halt.normal, .ret Reason.halt.code])
    (hl : g.looking = false) : g.Leads (Within t) (Follows (.stop (.ok ()) s)) := by
  refine h.leads_of_scratch hl (k := 6) rfl rfl (by decide) (by decide) fun g' h' hl' hv _ => ?_
  have hserve := serveHalt_normal (g'.leaving .halt) hv g'.engine
  refine .last ?_
  rw [h'.next_halted .halt hl' h'.step_ret rfl hserve]
  exact ⟨_, _, rfl, _, _, rfl, trivial, h'.represents, nofun⟩

theorem Inside.leads_allocation {b c : Register}
    (h : g.Inside co s lo hi
      [.mov slotV1 (slotOf c), .ret Reason.allocation.code, .mov (slotOf b) slotAcc])
    (hl : g.looking = false) (hnext : (co.entryAt (s.finger + 1)).toNat = hi) :
    g.Leads (Within t)
      (Follows (((s.allocate (s.get c)).2.set b (s.allocate (s.get c)).1).advance)) := by
  refine h.leads_of_scratch hl (k := 3) rfl rfl (by decide) (by decide) fun g' h' hl' hv _ => ?_
  rw [h.slot_eq] at hv
  obtain ⟨e, heq, hrunning, hr⟩ := h'.represents.allocate (s.get c)
  rw [← hv] at heq
  refine h'.leads_of_resumed hl' (Action.bind_done heq) (hr.setSlot_scratch (by decide) _)
    (congrArg PlatterArray.code hrunning) (by simp [HostInstr.bytes]) fun h'' => ?_
  rw [hv] at h'' ⊢
  exact h''.leads_mov rfl hnext (Machine.slot_setSlot_self _ (by decide) _)

theorem Inside.leads_abandonment {c : Register}
    (h : g.Inside co s lo hi [.mov slotV1 (slotOf c), .ret Reason.abandonment.code])
    (hl : g.looking = false) (hnext : (co.entryAt (s.finger + 1)).toNat = hi) :
    g.Leads (Within t) (Follows (match s.lookup (s.get c) with
      | some _ => (s.abandon (s.get c)).advance
      | none => s.fail (.invalidIndex "abandonment of unallocated array" (s.get c)))) := by
  refine h.leads_of_scratch hl (k := 3) rfl rfl (by decide) (by decide) fun g' h' hl' hv _ => ?_
  rw [h.slot_eq] at hv
  cases hlookup : s.lookup (s.get c) with
  | some words =>
    obtain ⟨e, heq, hrunning, hr⟩ := h'.represents.abandon hlookup
    rw [← hv] at heq
    refine h'.leads_of_return hl' ?_ hnext (Action.bind_done heq) hr
      (congrArg PlatterArray.code hrunning)
    unfold Interpreter.abandon
    split <;> rfl
  | none =>
    have heq := h'.represents.abandon_of_none hlookup
    rw [← hv] at heq ⊢
    exact h'.leads_of_failed .abandonment hl' h'.step_ret rfl (Action.bind_failed heq)
      h'.represents (Or.inl rfl) nofun

theorem Inside.leads_output {c : Register}
    (h : g.Inside co s lo hi [.mov slotV1 (slotOf c), .ret Reason.output.code])
    (hl : g.looking = false) (hnext : (co.entryAt (s.finger + 1)).toNat = hi) :
    g.Leads (Within t)
      (Follows { s with output := s.output.push (s.get c).toUInt8 }.advance) := by
  refine h.leads_of_scratch hl (k := 3) rfl rfl (by decide) (by decide) fun g' h' hl' hv _ => ?_
  rw [h.slot_eq] at hv
  obtain ⟨e, heq, hmachine, hr⟩ := h'.represents.serveOutput (g'.leaving .output)
  rw [← hv]
  exact h'.leads_of_return hl' rfl hnext heq hr (by rw [hmachine]; rfl)

theorem Inside.leads_input {c : Register}
    (h : g.Inside co s lo hi [.ret Reason.input.code, .mov (slotOf c) slotAcc])
    (hl : g.looking = false) (hnext : (co.entryAt (s.finger + 1)).toNat = hi) {finger : UInt32}
    (hfor : co.fingerFor (g.pc + 2) = .ok finger) (hfinger : finger.toNat = s.finger) :
    g.Leads (Within t) (Follows (s.readInput c)) := by
  have hrest : 0 < ([HostInstr.mov (slotOf c) slotAcc].flatMap HostInstr.bytes).length := by
    simp [HostInstr.bytes]
  rw [Interpreter.readInput]
  cases hinput : s.input with
  | cons b rest =>
    obtain ⟨e, heq, hmachine, hr⟩ := h.represents.serveInput_byte (g.leaving .input) hinput
    refine h.leads_of_resumed hl heq hr (by rw [hmachine]; rfl) hrest fun h' => ?_
    refine h'.leads_mov rfl hnext ?_
    change e.machine.slot slotAcc = _
    rw [hmachine]
    exact Machine.slot_setSlot_self _ (by decide) _
  | nil =>
    cases hsuspend : s.suspendOnEnd with
    | false =>
      obtain ⟨e, heq, hmachine, hr⟩ :=
        h.represents.serveInput_end (g.leaving .input) hinput hsuspend
      refine h.leads_of_resumed hl heq hr (by rw [hmachine]; rfl) hrest fun h' => ?_
      refine h'.leads_mov rfl hnext ?_
      change e.machine.slot slotAcc = _
      rw [hmachine]
      exact Machine.slot_setSlot_self _ (by decide) _
    | true =>
      obtain ⟨e, heq, -, hhost, hr⟩ := h.represents.serveInput_suspend (g.leaving .input)
        hinput hsuspend h.code_eq hfor
      exact h.leads_of_failed .input hl h.step_ret rfl heq hr (Or.inl rfl)
        fun _ => hhost ▸ hfinger

/-- A jump inside the running program. -/
theorem Inside.leads_jump {finger : UInt32} {rest : List HostInstr}
    (h : g.Inside co s lo hi (.jmpt slotV2 :: rest)) (hl : g.looking = false)
    (hv : g.machine.slot slotV2 = finger) :
    g.Leads (Within t) (Follows (.next { s with finger := finger.toNat })) := by
  have hstep : g.machine.step false g.pc = .next g.machine (co.entry finger) := by
    rw [h.step_eq, Machine.perform, h.code_eq, hv]
    rfl
  obtain ⟨hn, hx⟩ := h.next_moved hl hstep h.represents h.code_eq h.short
  refine .last ?_
  rw [hn]
  exact ⟨_, rfl, co, hx.atFinger _, rfl⟩

/-- A return to the host that replaces the running program. -/
theorem Inside.leads_load {handle finger : UInt32}
    (h : g.Inside co s lo hi [.ret Reason.loadProgram.code]) (hl : g.looking = false)
    (h0 : handle ≠ 0) (hv1 : g.machine.slot slotV1 = handle)
    (hv2 : g.machine.slot slotV2 = finger)
    (hshort : ∀ s', s.load handle finger = .next s' →
      Layout.size s'.program.toList < Layout.limit) :
    g.Leads (Within t) (Follows (s.load handle finger)) := by
  subst hv1 hv2
  have hlookup := map_lookup_of_shows h.represents.shows (g.machine.slot slotV1)
  rw [Interpreter.load, if_neg h0] at hshort ⊢
  cases hwords : s.lookup (g.machine.slot slotV1) with
  | none =>
    rw [hwords, Option.map_eq_none_iff] at hlookup
    refine h.leads_of_failed .loadProgram hl h.step_ret rfl
      (Action.bind_failed (loadProgram_of_none h0 hlookup)) h.represents (Or.inl rfl) fun h => ?_
    cases h
  | some words =>
    rw [hwords] at hlookup hshort
    obtain ⟨a, ha, hwords'⟩ := Option.map_eq_some_iff.mp hlookup
    dsimp only at hshort ⊢
    by_cases hle : words.size ≤ (g.machine.slot slotV2).toNat
    · rw [if_pos hle]
      refine h.leads_of_failed .loadProgram hl h.step_ret rfl
        (Action.bind_failed (loadProgram_of_le h0 ha (hwords' ▸ hle))) h.represents
        (Or.inl rfl) fun h => ?_
      cases h
    · rw [if_neg hle] at hshort ⊢
      have hsize : Layout.size words.toList < Layout.limit := hshort _ rfl
      obtain ⟨e, co', heq, hco', hclean, hr⟩ :=
        h.represents.loadProgram h0 hwords (Nat.lt_of_not_le hle) hsize
      obtain ⟨hn, hx, -⟩ := h.next_compiled .loadProgram hl h.step_ret rfl
        (Action.bind_done heq) hr hco' hclean hsize
      refine .last ?_
      rw [hn]
      exact ⟨_, rfl, co', hx, rfl⟩

theorem Inside.leads_loadProgram {b c : Register}
    (h : g.Inside co s lo hi
      [.mov slotV1 (slotOf b), .mov slotV2 (slotOf c), .jnz slotV1 2, .jmpt slotV2,
        .ret Reason.loadProgram.code])
    (hl : g.looking = false)
    (hshort : ∀ s', s.load (s.get b) (s.get c) = .next s' →
      Layout.size s'.program.toList < Layout.limit) :
    g.Leads (Within t) (Follows (s.load (s.get b) (s.get c))) := by
  refine h.leads_of_scratch hl (k := 3) rfl rfl (by decide) (by decide) fun g₁ h₁ hl₁ hv₁ _ => ?_
  refine h₁.leads_of_scratch hl₁ (k := 3) rfl rfl (by decide) (by decide)
    fun g₂ h₂ hl₂ hv₂ hkeep => ?_
  have hv1 : g₂.machine.slot slotV1 = s.get b :=
    (hkeep _ (by decide) (by decide)).trans (hv₁.trans (h.slot_eq b))
  have hv2 : g₂.machine.slot slotV2 = s.get c := hv₂.trans (h₁.slot_eq c)
  have hstep := h₂.step_eq
  rw [Machine.perform, hv1] at hstep
  by_cases h0 : s.get b = 0
  · rw [if_pos h0] at hstep
    rw [Interpreter.load, if_pos h0]
    exact h₂.leads_of_moves [_] hl₂ hstep h₂.represents rfl
      (h₂.toNat_pc_add (by simp [HostInstr.bytes])) (by simp [HostInstr.bytes])
      (by simp [HostInstr.bytes]) fun h₃ => h₃.leads_jump rfl hv2
  · rw [if_neg h0] at hstep
    have hpc : (g₂.pc + 3 + 2).toNat = g₂.pc.toNat + 5 := by
      rw [UInt32.add_assoc]
      exact h₂.toNat_pc_add (k := 3 + 2) (by simp [HostInstr.bytes])
    exact h₂.leads_of_moves [_, _] hl₂ hstep h₂.represents rfl hpc (by simp [HostInstr.bytes])
      (by simp [HostInstr.bytes]) fun h₃ => h₃.leads_load rfl h0 hv1 hv2 hshort

theorem Inside.leads_carryOut {i : Instruction} (h : g.Inside co s lo hi (Routine.instrsOf i))
    (hl : g.looking = false) (hnext : (co.entryAt (s.finger + 1)).toNat = hi) {finger : UInt32}
    (hfor : co.fingerFor (g.pc + 2) = .ok finger) (hfinger : finger.toNat = s.finger)
    (hshort : ∀ s', s.carryOut i = .next s' → Layout.size s'.program.toList < Layout.limit) :
    g.Leads (Within t) (Follows (s.carryOut i)) := by
  obtain ⟨op, a, b, c, value⟩ := i
  cases op with
  | conditionalMove => exact h.leads_conditionalMove hl hnext
  | arrayIndex => exact h.leads_arrayIndex hl hnext
  | arrayAmendment => exact h.leads_arrayAmendment hl hnext
  | addition => exact h.leads_arithmetic .add nofun hl hnext
  | multiplication => exact h.leads_arithmetic .mul nofun hl hnext
  | division => exact h.leads_division hl hnext
  | notAnd => exact h.leads_arithmetic .nand nofun hl hnext
  | halt => exact h.leads_halt hl
  | allocation => exact h.leads_allocation hl hnext
  | abandonment => exact h.leads_abandonment hl hnext
  | output => exact h.leads_output hl hnext
  | input => exact h.leads_input hl hnext hfor hfinger
  | loadProgram => exact h.leads_loadProgram hl hshort
  | orthography => exact h.leads_orthography hl hnext

theorem Inside.leads_routine {p : Platter} (hp : s.program[s.finger]? = some p)
    (h : g.Inside co s lo hi (Routine.instrs p)) (hl : g.looking = false)
    (hnext : (co.entryAt (s.finger + 1)).toNat = hi) {finger : UInt32}
    (hfor : co.fingerFor (g.pc + 2) = .ok finger) (hfinger : finger.toNat = s.finger)
    (hshort : ∀ s', s.step = .next s' → Layout.size s'.program.toList < Layout.limit) :
    g.Leads (Within t) (Follows s.step) := by
  rw [Interpreter.step, hp] at hshort ⊢
  dsimp only at hshort ⊢
  rw [Routine.instrs] at h
  cases hdecode : p.decode with
  | ok i =>
    rw [hdecode] at h hshort
    exact h.leads_carryOut hl hnext hfor hfinger hshort
  | error _ =>
    rw [hdecode] at h
    exact h.leads_malformed hl

end PlatterMachine.Engine.Moment
