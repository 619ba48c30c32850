import PlatterMachine.Proofs.Engine.Executing

/-!
# Moving through a routine

A run is inside a routine when the host instructions from where it is to the end of the routine are
known, and no entry lies between. Each host instruction and each return to the host leads to the rest
of the routine; the last one leads to the entry of the routine behind it.
-/

namespace PlatterMachine

theorem Routine.slots_lt (p : Platter) :
    ∀ i ∈ instrs p, ∀ slot ∈ i.slots, slot.toNat < fileSize := by
  have hr (r : Register) : (slotOf r).toNat < fileSize := by
    rw [Machine.toNat_slotOf]
    exact Nat.lt_trans r.isLt (by decide)
  have hv1 : slotV1.toNat < fileSize := by decide
  have hv2 : slotV2.toNat < fileSize := by decide
  have hacc : slotAcc.toNat < fileSize := by decide
  unfold instrs
  split
  · rename_i i _
    unfold instrsOf
    cases i.op <;> simp [HostInstr.slots, hr, hv1, hv2, hacc]
  · simp [HostInstr.slots, hv1, hv2]

theorem HostInstr.length_bytes_pos (i : HostInstr) : 0 < i.bytes.length := by
  cases i <;> simp [HostInstr.bytes]

namespace Engine.Moment

variable {g g' : Moment} {co : CodeObject} {s s' : Interpreter} {lo hi : Nat}
variable {instrs before rest : List HostInstr}

/-- Not between two instructions of the plain machine, or still before the one of `s`. -/
def Within (s : Interpreter) (g : Moment) : Prop := ¬ g.AtEntry ∨ g.At s

def Follows (r : Interpreter.Result) : Moment ⊕ RunResult → Prop
  | .inl g => ∃ s, r = .next s ∧ g.At s
  | .inr ended => ∃ result s, r = .stop result s ∧ Ends ended result s

/-- The host instructions from here to `hi` are `instrs`; there is no entry between `lo` and `hi`. -/
structure Inside (g : Moment) (co : CodeObject) (s : Interpreter) (lo hi : Nat)
    (instrs : List HostInstr) : Prop extends g.Executes co s where
  placed : Placed co.code g.pc.toNat (instrs.flatMap HostInstr.bytes)
  lo_le : lo ≤ g.pc.toNat
  hi_eq : g.pc.toNat + (instrs.flatMap HostInstr.bytes).length = hi
  hi_lt : hi < Layout.limit
  clear : ∀ i, (co.entryAt i).toNat ≤ lo ∨ hi ≤ (co.entryAt i).toNat
  slots : ∀ i ∈ instrs, ∀ slot ∈ i.slots, slot.toNat < fileSize

theorem Inside.drop (h : g.Inside co s lo hi (before ++ rest)) (hx : g'.Executes co s')
    (hpc : g'.pc.toNat = g.pc.toNat + (before.flatMap HostInstr.bytes).length) :
    g'.Inside co s' lo hi rest := by
  have hplaced := h.placed
  have hhi := h.hi_eq
  rw [List.flatMap_append] at hplaced hhi
  rw [List.length_append] at hhi
  refine { hx with
    placed := ?_
    lo_le := Nat.le_trans h.lo_le (by omega)
    hi_eq := by omega
    hi_lt := h.hi_lt
    clear := h.clear
    slots := fun i hi' => h.slots i (List.mem_append_right before hi') }
  rw [hpc]
  exact (Placed.append_iff.mp hplaced).2

theorem Inside.toNat_pc_add (h : g.Inside co s lo hi instrs) {k : UInt32}
    (hk : k.toNat ≤ (instrs.flatMap HostInstr.bytes).length) :
    (g.pc + k).toNat = g.pc.toNat + k.toNat := by
  have hhi := h.hi_eq
  have hlt := h.hi_lt
  exact Layout.toNat_add (by omega)

theorem Inside.not_atEntry (h : g.Inside co s lo hi instrs) (hlo : lo < g.pc.toNat)
    (hhi : g.pc.toNat < hi) : ¬ g.AtEntry := by
  rintro ⟨co', i, hco', hpc⟩
  cases h.code_eq.symm.trans hco'
  have hclear := h.clear i
  rw [← hpc] at hclear
  omega

theorem Inside.step_eq {i : HostInstr} (h : g.Inside co s lo hi (i :: rest)) :
    g.machine.step false g.pc = g.machine.perform false g.pc i := by
  have hplaced := h.placed
  rw [List.flatMap_cons] at hplaced
  exact Machine.step_eq_perform h.code_eq (Nat.le_of_lt h.short) (Placed.append_iff.mp hplaced).1
    (h.slots i List.mem_cons_self)

variable {t : Interpreter} {post : Moment ⊕ RunResult → Prop} {m : Machine} {e : Engine}
variable {pc : UInt32}

theorem Inside.moves (h : g.Inside co s lo hi (before ++ rest)) (hl : g.looking = false)
    (hstep : g.machine.step false g.pc = .next m pc) (hr : Represents ⟨m, g.host⟩ s')
    (hcode : m.running.code = g.machine.running.code)
    (hpc : pc.toNat = g.pc.toNat + (before.flatMap HostInstr.bytes).length) :
    g.next .none = .inl (g.moved m pc) ∧ (g.moved m pc).Inside co s' lo hi rest := by
  obtain ⟨hn, hx⟩ := h.next_moved hl hstep hr (hcode.trans h.code_eq) h.short
  exact ⟨hn, h.drop hx hpc⟩

/-- A step that stays inside the routine. -/
theorem Inside.leads_of_moves (before : List HostInstr)
    (h : g.Inside co s lo hi (before ++ rest)) (hl : g.looking = false)
    (hstep : g.machine.step false g.pc = .next m pc) (hr : Represents ⟨m, g.host⟩ s')
    (hcode : m.running.code = g.machine.running.code)
    (hpc : pc.toNat = g.pc.toNat + (before.flatMap HostInstr.bytes).length)
    (hbefore : 0 < (before.flatMap HostInstr.bytes).length)
    (hrest : 0 < (rest.flatMap HostInstr.bytes).length)
    (hcont : (g.moved m pc).Inside co s' lo hi rest → (g.moved m pc).Leads (Within t) post) :
    g.Leads (Within t) post := by
  obtain ⟨hn, hinside⟩ := h.moves hl hstep hr hcode hpc
  have hlo := h.lo_le
  have hhi := hinside.hi_eq
  have hpc' : (g.moved m pc).pc.toNat = pc.toNat := rfl
  exact .more hn (Or.inl (hinside.not_atEntry (by omega) (by omega))) (hcont hinside)

/-- A step that puts a value into a scratch slot, with more of the routine to come. -/
theorem Inside.leads_of_scratch {i j : HostInstr} (h : g.Inside co s lo hi (i :: j :: rest))
    (hl : g.looking = false) {d : UInt8} {v k : UInt32} (hk : k.toNat = i.bytes.length)
    (hperform : g.machine.perform false g.pc i = .next (g.machine.setSlot d v) (g.pc + k))
    (hscratch : 8 ≤ d.toNat) (hd : d.toNat < fileSize)
    (hcont : ∀ g' : Moment, g'.Inside co s lo hi (j :: rest) → g'.looking = false →
      g'.machine.slot d = v →
      (∀ d', d ≠ d' → d'.toNat < fileSize → g'.machine.slot d' = g.machine.slot d') →
      g'.Leads (Within t) post) :
    g.Leads (Within t) post := by
  have hi := i.length_bytes_pos
  have hj := j.length_bytes_pos
  have hpc : (g.pc + k).toNat = g.pc.toNat + k.toNat :=
    h.toNat_pc_add (by rw [List.flatMap_cons, List.length_append]; omega)
  refine h.leads_of_moves [i] hl (h.step_eq.trans hperform)
    (h.represents.setSlot_scratch hscratch v) rfl ?_ ?_ ?_ fun h' => hcont _ h' rfl
      (Machine.slot_setSlot_self _ hd v) fun d' hne hd' => Machine.slot_setSlot_of_ne _ hne hd' v
  · simpa [hk] using hpc
  · simpa using hi
  · rw [List.flatMap_cons, List.length_append]
    omega

def leaving (g : Moment) (reason : Reason) : Exit :=
  ⟨reason.code, g.machine.slot slotV1, g.machine.slot slotV2, g.pc + 2⟩

variable {reason : Reason}

theorem Inside.step_ret (h : g.Inside co s lo hi (.ret reason.code :: rest)) :
    g.machine.step false g.pc = .exit g.machine (g.leaving reason) := h.step_eq

/-- A return after which the routine goes on. -/
theorem Inside.leads_of_resumed (h : g.Inside co s lo hi ([.ret reason.code] ++ rest))
    (hl : g.looking = false)
    (hserve : serveReason reason (g.leaving reason) g.engine = (.done (some (g.pc + 2)), e))
    (hr : e.Represents s') (hcode : e.machine.running.code = g.machine.running.code)
    (hrest : 0 < (rest.flatMap HostInstr.bytes).length)
    (hcont : (g.resumed e (g.pc + 2)).looked.Inside co s' lo hi rest →
      (g.resumed e (g.pc + 2)).looked.Leads (Within t) post) :
    g.Leads (Within t) post := by
  obtain ⟨hn, hx⟩ := h.next_resumed reason hl h.step_ret rfl hserve hr (hcode.trans h.code_eq) h.short
  obtain ⟨hn', hx'⟩ := hx.next_looked rfl
  have hpc : (g.pc + 2).toNat = g.pc.toNat + 2 :=
    h.toNat_pc_add (by simp [HostInstr.bytes])
  have hinside := h.drop hx hpc
  have hinside' := h.drop hx' hpc
  have hlo := h.lo_le
  have hhi := hinside.hi_eq
  have hlt : lo < (g.pc + 2).toNat ∧ (g.pc + 2).toNat < hi := by
    have hpc' : (g.resumed e (g.pc + 2)).pc.toNat = (g.pc + 2).toNat := rfl
    omega
  refine .more hn (Or.inl (hinside.not_atEntry hlt.1 hlt.2)) ?_
  exact .more hn' (Or.inl (hinside'.not_atEntry hlt.1 hlt.2)) (hcont hinside')

theorem Executes.at_next (hx : g.Executes co s) (hpc : g.pc.toNat = hi)
    (hnext : (co.entryAt (s.finger + 1)).toNat = hi) :
    g.At { s with finger := s.finger + 1 } :=
  ⟨co, hx.atFinger _, UInt32.toNat_inj.mp (hpc.trans hnext.symm)⟩

/-- A return at the end of the routine. -/
theorem Inside.leads_of_return (h : g.Inside co s lo hi [.ret reason.code])
    (hl : g.looking = false) (hfinger : s'.finger = s.finger)
    (hnext : (co.entryAt (s.finger + 1)).toNat = hi)
    (hserve : serveReason reason (g.leaving reason) g.engine = (.done (some (g.pc + 2)), e))
    (hr : e.Represents s') (hcode : e.machine.running.code = g.machine.running.code) :
    g.Leads (Within t) (Follows s'.advance) := by
  obtain ⟨hn, hx⟩ := h.next_resumed reason hl h.step_ret rfl hserve hr (hcode.trans h.code_eq) h.short
  have hpc : (g.pc + 2).toNat = hi := by
    rw [h.toNat_pc_add (by simp [HostInstr.bytes]), ← h.hi_eq]
    rfl
  refine .last ?_
  rw [hn]
  exact ⟨_, rfl, hx.at_next hpc (hfinger ▸ hnext)⟩

/-- The last instruction of a routine puts a value into a register. -/
theorem Inside.leads_of_assign {i : HostInstr} (h : g.Inside co s lo hi [i])
    (hl : g.looking = false) (hnext : (co.entryAt (s.finger + 1)).toNat = hi) {r : Register}
    {v k : UInt32} (hk : k.toNat = i.bytes.length)
    (hperform : g.machine.perform false g.pc i =
      .next (g.machine.setSlot (Routine.slotOf r) v) (g.pc + k)) :
    g.Leads (Within t) (Follows (s.set r v).advance) := by
  have hlen : ([i].flatMap HostInstr.bytes).length = k.toNat := by simp [hk]
  have hpc : (g.pc + k).toNat = hi := by
    rw [h.toNat_pc_add (Nat.le_of_eq hlen.symm), ← h.hi_eq, hlen]
  obtain ⟨hn, hx⟩ := h.next_moved hl (h.step_eq.trans hperform) (h.represents.setSlot r v)
    h.code_eq h.short
  refine .last ?_
  rw [hn]
  exact ⟨_, rfl, hx.at_next hpc hnext⟩

end Engine.Moment

end PlatterMachine
