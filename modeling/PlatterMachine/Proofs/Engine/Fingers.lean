import PlatterMachine.Proofs.Engine.Fetch
import PlatterMachine.Proofs.HostCode.Addressing

/-!
# Recovering fingers

When a routine returns to the host, the host knows the address behind the return and nothing else of
where the program stands. In code with stubs planted in it, every address behind the first byte and
up to the guard lies in the half-open stretch of one routine, open at its entry and closed at the
entry of the next; the search through the jump table finds that routine. A return never ends beyond
its own routine, so the finger found is that of the platter that was executed.
-/

namespace PlatterMachine

theorem HostOp.eq_of_ofByte?_ret {b : UInt8} (h : HostOp.ofByte? b = some .ret) : b = 0x0B := by
  unfold HostOp.ofByte? at h
  split at h <;> cases h
  rfl

theorem Platter.value_le_of_decode {p : Platter} {i : Instruction} (h : p.decode = .ok i) :
    i.value ≤ maxValue := by
  have hspells := spells_of_decode h
  rw [UInt32.le_iff_toNat_le]
  by_cases himmediate : i.op = .orthography
  · obtain ⟨-, -, -, hvalue⟩ := hspells.immediate himmediate
    rw [hvalue]
    exact Nat.le_of_lt_succ (Nat.mod_lt _ (by decide))
  · obtain ⟨-, -, -, hvalue⟩ := hspells.registers himmediate
    rw [hvalue]
    exact Nat.zero_le _

/-- The last byte of a routine is not that of a return: it is a slot, the reason of a return or the
high byte of a short value. -/
theorem Routine.getLast?_bytes_ne (p : Platter) : (bytes p).getLast? ≠ some 0x0B := by
  have hslot : ∀ r : Register, slotOf r ≠ 0x0B := by decide
  have hacc : slotAcc ≠ 0x0B := by decide
  have hreason : ∀ reason : Reason, reason.code ≠ 0x0B := by
    intro reason
    cases reason <;> decide
  unfold bytes instrs
  cases hdecode : p.decode with
  | error _ => simp [HostInstr.bytes, littleEndian, hreason]
  | ok i =>
    have hvalue := Platter.value_le_of_decode hdecode
    obtain ⟨op, a, b, c, value⟩ := i
    cases op with
    | orthography =>
      intro hlast
      have hhigh : (value >>> 24).toUInt8 = 0x0B := by
        simpa [instrsOf, HostInstr.bytes, littleEndian] using hlast
      have hdiv : value.toNat / 0x1000000 % 256 = 11 := by
        simpa [Nat.shiftRight_eq_div_pow] using congrArg UInt8.toNat hhigh
      have hle : value.toNat ≤ 0x1FFFFFF := UInt32.le_iff_toNat_le.mp hvalue
      omega
    | _ => simp [instrsOf, HostInstr.bytes, littleEndian, hslot, hacc, hreason]

theorem HostInstr.exists_placed_ret {code : Array UInt8} {pos : Nat} (hop : code[pos]? = some 0x0B)
    (hnext : pos + 1 < code.size) : ∃ reason, Placed code pos (ret reason).bytes := by
  refine ⟨code[pos + 1], fun j hj => ?_⟩
  obtain rfl | rfl : j = 0 ∨ j = 1 := Nat.le_one_iff_eq_zero_or_eq_one.mp (Nat.le_of_lt_succ hj)
  · exact hop
  · exact Array.getElem?_eq_getElem hnext

namespace CodeObject

def planted (co : CodeObject) (slots : List UInt32) : CodeObject :=
  slots.foldl (fun co i => co.plantStub (co.entry i)) co

variable {co : CodeObject} {old words : Array Platter} {slots : List UInt32}

namespace Patched

theorem toNat_entry (h : co.Patched old words) {i : UInt32} (hi : i.toNat ≤ old.size) :
    (co.entry i).toNat = Layout.address old.toList i.toNat := by
  rw [entry_eq_entryAt, h.toNat_entryAt, Nat.min_eq_left hi]

theorem toNat_entry_succ (h : co.Patched old words) {i : UInt32} (hi : i.toNat < old.size) :
    (co.entry (i + 1)).toNat = Layout.address old.toList (i.toNat + 1) := by
  have hsucc : (i + 1).toNat = i.toNat + 1 :=
    Layout.toNat_add (Nat.lt_of_le_of_lt hi (Layout.words_lt_limit h.short))
  rw [h.toNat_entry (by omega), hsucc]

theorem fingerFor_zero (h : co.Patched old words) :
    co.fingerFor 0 = .error (.invalidIndex "resume address precedes the first routine" 0) := by
  rw [h.fingerFor_of_boundary (j := 0) (Nat.zero_le _)
    (fun k hk => absurd hk (Nat.not_lt_zero k)) (fun k _ _ => Nat.zero_le _), if_pos rfl]

theorem fingerFor_of_guard_lt (h : co.Patched old words) {addr : UInt32} (hlt : co.guard < addr) :
    co.fingerFor addr =
      .error (.invalidIndex "resume address past the bounds guard" addr) := by
  rw [UInt32.lt_iff_toNat_lt, h.toNat_guard] at hlt
  rw [h.fingerFor_of_boundary (j := old.size + 1) (Nat.le_refl _) (fun k hk => ?_)
    (fun k hk hle => absurd hle (Nat.not_le_of_lt hk)), if_neg (Nat.succ_ne_zero _),
    if_pos (Nat.lt_succ_self _)]
  have hm := Layout.address_mono old.toList (i := k) (j := old.size) (by omega) (by simp)
  omega

/-- Every address behind the first byte and up to the guard belongs to one routine. -/
theorem exists_routine (h : co.Patched old words) {addr : UInt32} (hpos : addr ≠ 0)
    (hle : addr ≤ co.guard) :
    ∃ i : UInt32, i.toNat < old.size ∧ co.entry i < addr ∧ addr ≤ co.entry (i + 1) := by
  rw [UInt32.le_iff_toNat_le, h.toNat_guard] at hle
  have hpos' : 0 < addr.toNat := Nat.pos_of_ne_zero fun h0 => hpos (UInt32.toNat_inj.mp h0)
  obtain ⟨j, hj, hlo, hhi⟩ := Layout.exists_crossing hpos' hle
  have hindex : (UInt32.ofNat j).toNat = j :=
    UInt32.toNat_ofNat_of_lt' (Nat.lt_trans hj (Layout.words_lt_limit h.short))
  refine ⟨.ofNat j, by rwa [hindex], ?_, ?_⟩
  · rwa [UInt32.lt_iff_toNat_lt, h.toNat_entry (by omega), hindex]
  · rwa [UInt32.le_iff_toNat_le, h.toNat_entry_succ (by omega), hindex]

theorem fingerFor_of_between (h : co.Patched old words) {addr i : UInt32} (hi : i.toNat < old.size)
    (hlo : co.entry i < addr) (hhi : addr ≤ co.entry (i + 1)) : co.fingerFor addr = .ok i := by
  rw [UInt32.lt_iff_toNat_lt, h.toNat_entry (Nat.le_of_lt hi)] at hlo
  rw [UInt32.le_iff_toNat_le, h.toNat_entry_succ hi] at hhi
  rw [h.fingerFor_eq hi hlo hhi, UInt32.ofNat_toNat]

theorem fingerFor_eq_ok_iff (h : co.Patched old words) {addr i : UInt32} :
    co.fingerFor addr = .ok i ↔
      i.toNat < old.size ∧ co.entry i < addr ∧ addr ≤ co.entry (i + 1) := by
  constructor
  · intro hfinger
    by_cases hpos : addr = 0
    · rw [hpos, h.fingerFor_zero] at hfinger
      cases hfinger
    · by_cases hle : addr ≤ co.guard
      · obtain ⟨k, hk, hlo, hhi⟩ := h.exists_routine hpos hle
        rw [h.fingerFor_of_between hk hlo hhi] at hfinger
        cases hfinger
        exact ⟨hk, hlo, hhi⟩
      · rw [h.fingerFor_of_guard_lt (UInt32.not_le.mp hle)] at hfinger
        cases hfinger
  · rintro ⟨hi, hlo, hhi⟩
    exact h.fingerFor_of_between hi hlo hhi

theorem fingerFor_fails_iff (h : co.Patched old words) {addr : UInt32} :
    (∃ fault, co.fingerFor addr = .error fault) ↔ addr = 0 ∨ co.guard < addr := by
  constructor
  · rintro ⟨fault, hfault⟩
    by_contra hinside
    rw [not_or, UInt32.not_lt] at hinside
    obtain ⟨i, hi, hlo, hhi⟩ := h.exists_routine hinside.1 hinside.2
    rw [h.fingerFor_of_between hi hlo hhi] at hfault
    cases hfault
  · rintro (rfl | hlt)
    · exact ⟨_, h.fingerFor_zero⟩
    · exact ⟨_, h.fingerFor_of_guard_lt hlt⟩

theorem plantStub_entry (h : co.Patched old words) {i : UInt32} (hi : i.toNat < old.size) :
    (co.plantStub (co.entry i)).Patched old words := by
  have hwords : i.toNat < words.size := h.size_eq ▸ hi
  have hsame := h.plantStub hwords words[i.toNat]
  rwa [Array.setIfInBounds, dif_pos hwords, Array.set_getElem_self] at hsame

theorem planted (h : co.Patched old words) (hslots : ∀ i ∈ slots, i.toNat < old.size) :
    (co.planted slots).Patched old words := by
  induction slots generalizing co with
  | nil => exact h
  | cons i slots ih =>
    rw [List.forall_mem_cons] at hslots
    exact ih (h.plantStub_entry hslots.1) hslots.2

/-- Planting stubs leaves alone what stands beside them. -/
theorem planted_placed (h : co.Patched old words) (hslots : ∀ i ∈ slots, i.toNat < old.size)
    {j : Nat} {bytes : List UInt8}
    (hdisjoint : ∀ i ∈ slots, j + bytes.length ≤ Layout.address old.toList i.toNat ∨
      Layout.address old.toList i.toNat + 2 ≤ j)
    (hplaced : Placed co.code j bytes) : Placed (co.planted slots).code j bytes := by
  induction slots generalizing co with
  | nil => exact hplaced
  | cons i slots ih =>
    rw [List.forall_mem_cons] at hslots hdisjoint
    exact ih (h.plantStub_entry hslots.1) hslots.2 hdisjoint.2
      (h.plantStub_placed hslots.1 hdisjoint.1 hplaced)

theorem planted_placed_stub (h : co.Patched old words) (hslots : ∀ i ∈ slots, i.toNat < old.size)
    {i : UInt32} (hi : i ∈ slots) :
    Placed (co.planted slots).code (Layout.address old.toList i.toNat) Routine.stubBytes := by
  induction slots generalizing co with
  | nil => cases hi
  | cons k slots ih =>
    rw [List.forall_mem_cons] at hslots
    have hpatched := h.plantStub_entry hslots.1
    by_cases hrest : i ∈ slots
    · exact ih hpatched hslots.2 hrest
    · -- planted here and nowhere later, so the stubs to come stand in other routines
      obtain rfl : i = k := (List.mem_cons.mp hi).resolve_right hrest
      refine hpatched.planted_placed hslots.2 (fun j hj => ?_) (h.plantStub_placed_stub hslots.1)
      have hne : i.toNat ≠ j.toNat := fun heq => hrest (UInt32.toNat_inj.mp heq ▸ hj)
      have hj := hslots.2 j hj
      have hlen : Routine.stubBytes.length = 2 := rfl
      rcases Nat.lt_or_gt_of_ne hne with hlt | hgt
      · have hm := Layout.address_mono old.toList (Nat.le_of_lt hlt)
          (by rw [Array.length_toList]; omega)
        omega
      · have hm := Layout.address_mono old.toList (Nat.le_of_lt hgt)
          (by rw [Array.length_toList]; omega)
        omega

/-- A return within routine `i` tells the host an address that leads back to `i`. -/
theorem step_ret (h : co.Patched old words) {m : Machine} (hco : m.running.code = some co)
    (interrupted : Bool) {i pc : UInt32} (hi : i.toNat < old.size) {reason : UInt8}
    (hplaced : Placed co.code pc.toNat (HostInstr.ret reason).bytes)
    (hlo : Layout.address old.toList i.toNat ≤ pc.toNat)
    (hhi : pc.toNat + 2 ≤ Layout.address old.toList (i.toNat + 1)) :
    ∃ left, m.step interrupted pc = .exit m left ∧ left.reason = reason ∧
      left.resume = pc + 2 ∧ co.fingerFor left.resume = .ok i := by
  refine ⟨⟨reason, m.slot slotV1, m.slot slotV2, pc + 2⟩,
    Machine.step_eq_perform hco h.size_le hplaced (by simp [HostInstr.slots]), rfl, rfl, ?_⟩
  have hfinger := h.fingerFor_add_two hi hlo hhi
  rwa [UInt32.ofNat_toNat] at hfinger

end Patched

namespace IsFor

/-- Behind the place of its stub every routine stays as it was generated. -/
theorem planted_placed_rest (hfor : co.IsFor words) (hp : co.Patched words words)
    (hslots : ∀ i ∈ slots, i.toNat < words.size) {i : Nat} {p : Platter}
    (hi : words.toList[i]? = some p) :
    Placed (co.planted slots).code (Layout.address words.toList i + 2)
      ((Routine.bytes p).drop 2) := by
  have hlong := Routine.four_le_length_bytes p
  have hsucc := Layout.address_succ hi
  have hlt : i < words.toList.length := (List.getElem?_eq_some_iff.mp hi).1
  have hplaced := placed_address words.toList hi
  rw [← hfor.code_eq, ← List.take_append_drop 2 (Routine.bytes p), Placed.append_iff,
    List.length_take_of_le (by omega)] at hplaced
  refine hp.planted_placed hslots (fun j hj => ?_) hplaced.2
  have hj := hslots j hj
  rw [List.length_drop]
  by_cases hji : j.toNat ≤ i
  · right
    have hm := Layout.address_mono words.toList hji (Nat.le_of_lt hlt)
    omega
  · left
    have hm := Layout.address_mono words.toList (i := i + 1) (Nat.lt_of_not_le hji)
      (by rw [Array.length_toList]; omega)
    omega

/-- Where the code reads as a return within a routine, the return ends within that routine. -/
theorem add_two_le_of_ret (hfor : co.IsFor words) (hp : co.Patched words words)
    (hslots : ∀ i ∈ slots, i.toNat < words.size) {i pc : Nat} (hi : i < words.size)
    (hhi : pc < Layout.address words.toList (i + 1))
    (hret : (co.planted slots).code[pc]? = some 0x0B) :
    pc + 2 ≤ Layout.address words.toList (i + 1) := by
  have hlength : i < words.toList.length := by rwa [Array.length_toList]
  obtain ⟨p, hget⟩ : ∃ p, words.toList[i]? = some p := ⟨_, List.getElem?_eq_getElem hlength⟩
  have hlong := Routine.four_le_length_bytes p
  have hsucc := Layout.address_succ hget
  apply Nat.succ_le_of_lt
  apply Nat.lt_of_le_of_ne hhi
  -- otherwise the return stands on the last byte of the routine
  intro hlast
  have hbyte := hfor.planted_placed_rest hp hslots hget ((Routine.bytes p).length - 3)
    (by rw [List.length_drop]; omega)
  rw [List.getElem?_drop, show Layout.address words.toList i + 2 + ((Routine.bytes p).length - 3) = pc
    by omega, hret, show 2 + ((Routine.bytes p).length - 3) = (Routine.bytes p).length - 1 by omega,
    ← List.getLast?_eq_getElem?] at hbyte
  exact Routine.getLast?_bytes_ne p hbyte.symm

end IsFor

/-- Finger recovery inverts the layout. In generated code, whatever stubs are planted, an address is
traced to the routine whose entry it lies behind, up to the entry of the next or to the guard; there
is no such routine exactly for the address 0 and for those beyond the guard. Every stub, and every
return that stands within a routine, tells the host an address that is traced to its own slot. -/
theorem fingerFor_inverts_layout {memory memory' : Memory} {generated : CodeObject}
    (hgenerate : generate words memory = (.done generated, memory'))
    (hshort : generated.code.size < Layout.limit) (hslots : ∀ i ∈ slots, i.toNat < words.size)
    (hco : co = generated.planted slots) :
    co.entry (UInt32.ofNat words.size) = co.guard ∧
    (∀ addr i : UInt32, co.fingerFor addr = .ok i ↔
      i.toNat < words.size ∧ co.entry i < addr ∧ addr ≤ co.entry (i + 1)) ∧
    (∀ addr : UInt32, (∃ fault, co.fingerFor addr = .error fault) ↔
      addr = 0 ∨ co.guard < addr) ∧
    ∀ (m : Machine) (interrupted : Bool), m.running.code = some co →
      (∀ i ∈ slots, ∃ left, m.step interrupted (co.entry i) = .exit m left ∧
        left.reason = Reason.recompile.code ∧ left.resume = co.entry i + 2 ∧
        co.fingerFor left.resume = .ok i) ∧
      ∀ i pc : UInt32, i.toNat < words.size → co.entry i ≤ pc → pc < co.entry (i + 1) →
        co.code[pc.toNat]?.bind HostOp.ofByte? = some .ret →
        ∃ left, m.step interrupted pc = .exit m left ∧ left.resume = pc + 2 ∧
          co.fingerFor left.resume = .ok i := by
  have hfor := isFor_of_generate hgenerate
  rw [hfor.code_eq, List.size_toArray, ← Layout.size] at hshort
  have hgenerated := hfor.patched hshort
  have hp : co.Patched words words := hco ▸ hgenerated.planted hslots
  refine ⟨?_, fun addr i => hp.fingerFor_eq_ok_iff, fun addr => hp.fingerFor_fails_iff,
    fun m interrupted hm => ⟨fun i hi => ?_, fun i pc hi hlo hhi hret => ?_⟩⟩
  · rw [← UInt32.toNat_inj, hp.toNat_entry_ofNat (Nat.le_refl _), hp.toNat_guard]
  · have hlt := hslots i hi
    have hentry := hp.toNat_entry (Nat.le_of_lt hlt)
    have hroom := Layout.address_add_four_le words.toList (i := i.toNat) (by simpa using hlt)
    refine hp.step_ret hm interrupted hlt ?_ (by omega) (by omega)
    rw [hentry, hco]
    exact hgenerated.planted_placed_stub hslots hi
  · rw [UInt32.le_iff_toNat_le, hp.toNat_entry (Nat.le_of_lt hi)] at hlo
    rw [UInt32.lt_iff_toNat_lt, hp.toNat_entry_succ hi] at hhi
    obtain ⟨byte, hbyte, hop⟩ := Option.bind_eq_some_iff.mp hret
    rw [HostOp.eq_of_ofByte?_ret hop] at hbyte
    have hend := hfor.add_two_le_of_ret hgenerated hslots hi hhi (hco ▸ hbyte)
    have hsize := Layout.address_add_eight_le words.toList (i := i.toNat + 1)
      (by rw [Array.length_toList]; omega)
    have hnext : pc.toNat + 1 < co.code.size := by
      rw [hp.code_size]
      omega
    obtain ⟨reason, hplaced⟩ := HostInstr.exists_placed_ret hbyte hnext
    obtain ⟨left, hstep, -, hresume, hfinger⟩ := hp.step_ret hm interrupted hi hplaced hlo hend
    exact ⟨left, hstep, hresume, hfinger⟩

/-- A single platter, whose routine ends with its return. -/
def soleOutput : Array Platter := #[0xA0000000]

/-- The return at address 3 resumes at the guard, the stub over the first two bytes within the
routine; both lead back to the only slot. -/
theorem fingerFor_inverts_layout_sole :
    ∃ generated memory co, generate soleOutput .mapped = (.done generated, memory) ∧
      generated.code.size < Layout.limit ∧ co = generated.planted [0] ∧ co.guard = 5 ∧
      (∀ addr : UInt32, co.fingerFor addr = .ok 0 ↔ 0 < addr ∧ addr ≤ 5) ∧
      (∃ fault, co.fingerFor 0 = .error fault) ∧ (∃ fault, co.fingerFor 6 = .error fault) ∧
      ∃ m : Machine, m.running.code = some co ∧
        (∃ left, m.step false 0 = .exit m left ∧ left.reason = Reason.recompile.code ∧
          left.resume = 2 ∧ co.fingerFor left.resume = .ok 0) ∧
        ∃ left, m.step false 3 = .exit m left ∧ left.resume = 5 ∧
          co.fingerFor left.resume = .ok 0 := by
  obtain ⟨generated, memory, hgenerate⟩ :=
    generate_mapped (show soleOutput.size < Layout.limit by decide)
  have hfor := isFor_of_generate hgenerate
  have hshort : generated.code.size < Layout.limit := by
    rw [hfor.code_eq]
    decide
  obtain ⟨co, hco⟩ : ∃ co, co = generated.planted [0] := ⟨_, rfl⟩
  have hslots : ∀ i ∈ [(0 : UInt32)], i.toNat < soleOutput.size := by simp [soleOutput]
  obtain ⟨-, hok, hfails, hreturns⟩ := fingerFor_inverts_layout hgenerate hshort hslots hco
  have hguard : co.guard = 5 := by
    rw [hco]
    exact hfor.guard_eq
  have hentry : co.entry 0 = 0 := by
    rw [hco]
    exact congrArg (·.getD 0 generated.guard) hfor.table_eq
  have hnext : co.entry (0 + 1) = 5 := by
    rw [← hguard, hco]
    exact congrArg (·.getD 1 generated.guard) hfor.table_eq
  have hbyte : co.code[3]? = some 0x0B := by
    rw [hco]
    exact hfor.planted_placed_rest (hfor.patched (by decide)) hslots (i := 0) rfl 1 (by decide)
  obtain ⟨m, hm⟩ : ∃ m : Machine, m.running.code = some co :=
    ⟨⟨.replicate fileSize 0, ⟨soleOutput, .empty, true, some co⟩, true, #[]⟩, rfl⟩
  obtain ⟨hstubs, hrets⟩ := hreturns m false hm
  have hstub := hstubs 0 List.mem_cons_self
  have hret := hrets 0 3 (by decide) (by rw [hentry]; decide) (by rw [hnext]; decide)
    (by rw [UInt32.toNat_ofNat, hbyte]; rfl)
  rw [hentry] at hstub
  refine ⟨generated, memory, co, hgenerate, hshort, hco, hguard, fun addr => ?_,
    (hfails 0).mpr (Or.inl rfl), (hfails 6).mpr (Or.inr (by rw [hguard]; decide)), m, hm, hstub, hret⟩
  rw [hok, hentry, hnext]
  exact and_iff_right (by decide)

end CodeObject

end PlatterMachine
