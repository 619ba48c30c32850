import PlatterMachine.Proofs.HostCode.Layout

/-!
# Entries, stubs and fingers

Code that was generated and has had stubs planted in it is `Patched`: entries are where they were
when the code was generated, and each slot holds a stub or the routine of its present platter.
Planting a stub over an amended slot keeps code patched, and in patched code an address behind the
entry of a routine, up to the entry of the next one, is traced back to that routine.
-/

namespace PlatterMachine

def Layout.limit : Nat := 0x100000000

/-- Addresses below the limit add like numbers. -/
theorem Layout.toNat_add {addr k : UInt32} (h : addr.toNat + k.toNat < limit) :
    (addr + k).toNat = addr.toNat + k.toNat :=
  (UInt32.toNat_add addr k).trans (Nat.mod_eq_of_lt h)

/-- A program with short code is short. -/
theorem Layout.words_lt_limit {words : Array Platter}
    (h : Layout.size words.toList < Layout.limit) : words.size < Layout.limit := by
  have hle := Layout.length_le_address words.toList
  have hsum := Layout.size_eq words.toList
  rw [Array.length_toList] at hle hsum
  omega

def Routine.stubBytes : List UInt8 := (HostInstr.ret Reason.recompile.code).bytes

/-- No routine starts like a stub. -/
theorem Routine.exists_bytes_eq (p : Platter) :
    ∃ op arg rest, bytes p = op :: arg :: rest ∧ [op, arg] ≠ stubBytes := by
  unfold bytes instrs
  cases p.decode with
  | error _ => exact ⟨_, _, _, rfl, by decide⟩
  | ok i =>
    obtain ⟨op, a, b, c, value⟩ := i
    have hne {op arg : UInt8} (h : op ≠ 0x0B) : [op, arg] ≠ stubBytes := by
      rintro ⟨⟩
      exact h rfl
    cases op with
    | input => exact ⟨_, _, _, rfl, by decide⟩
    | _ => exact ⟨_, _, _, rfl, hne (by decide)⟩

theorem Routine.not_placed_stub {code : Array UInt8} {pos : Nat} {p : Platter}
    (h : Placed code pos (bytes p)) : ¬ Placed code pos stubBytes := by
  intro hstub
  obtain ⟨op, arg, rest, hbytes, hne⟩ := exists_bytes_eq p
  rw [hbytes] at h
  have hop := (h 0 (Nat.succ_pos _)).symm.trans (hstub 0 (by decide))
  have harg := (h 1 (Nat.succ_lt_succ (Nat.succ_pos _))).symm.trans (hstub 1 (by decide))
  cases hop
  cases harg
  exact hne rfl

/-- Bisection finds the point `j` where the test turns true. -/
theorem bisect_eq {f : Nat → Bool} {j : Nat} (hbelow : ∀ k, k < j → f k = false)
    {fuel lo hi : Nat} (hlo : lo ≤ j) (hhi : j ≤ hi) (hfuel : hi - lo ≤ fuel)
    (habove : ∀ k, j ≤ k → k < hi → f k = true) : bisect f fuel lo hi = j := by
  induction fuel generalizing lo hi with
  | zero =>
    rw [bisect]
    omega
  | succ fuel ih =>
    rw [bisect]
    by_cases h : lo < hi
    · rw [if_pos h]
      by_cases hmid : (lo + hi) / 2 < j
      · simp only [hbelow _ hmid]
        exact ih (by omega) hhi (by omega) habove
      · simp only [habove _ (by omega) (show (lo + hi) / 2 < hi by omega)]
        exact ih hlo (by omega) (by omega) (fun k hk hlt => habove k hk (by omega))
    · rw [if_neg h]
      omega

namespace CodeObject

def entryAt (co : CodeObject) (i : Nat) : UInt32 := co.table.getD i co.guard

theorem entry_eq_entryAt (co : CodeObject) (i : UInt32) : co.entry i = co.entryAt i.toNat := rfl

theorem entryAt_eq_of_table {co : CodeObject} {words : Array Platter}
    (htable : co.table = (Layout.table words.toList).toArray)
    (hguard : co.guard = UInt32.ofNat (Layout.address words.toList words.size)) (i : Nat) :
    co.entryAt i = UInt32.ofNat (Layout.address words.toList (min i words.size)) := by
  rw [entryAt, htable, hguard]
  by_cases hi : i < words.size
  · rw [Nat.min_eq_left (by omega)]
    simp [Layout.table, hi]
  · rw [Nat.min_eq_right (by omega)]
    simp [Layout.table, hi]

/-- The code was generated for `old`, which has become `words` by amendments of single slots; every
slot that differs has a stub over its routine. -/
structure Patched (co : CodeObject) (old words : Array Platter) : Prop where
  short : Layout.size old.toList < Layout.limit
  size_eq : words.size = old.size
  code_size : co.code.size = Layout.size old.toList
  table_eq : co.table = (Layout.table old.toList).toArray
  guard_eq : co.guard = UInt32.ofNat (Layout.address old.toList old.size)
  slot : ∀ i p, words[i]? = some p →
    Placed co.code (Layout.address old.toList i) Routine.stubBytes ∨
      (old[i]? = some p ∧ Placed co.code (Layout.address old.toList i) (Routine.bytes p))
  guard : Placed co.code (Layout.address old.toList old.size) Routine.guardBytes

variable {co : CodeObject} {old words : Array Platter}

theorem Patched.size_le (h : co.Patched old words) : co.code.size ≤ Layout.limit := by
  rw [h.code_size]
  exact Nat.le_of_lt h.short

theorem placed_address (ps : List Platter) {i : Nat} {p : Platter} (h : ps[i]? = some p) :
    Placed (Layout.code ps).toArray (Layout.address ps i) (Routine.bytes p) := by
  intro j hj
  have hsplit : Layout.code ps = (ps.take i).flatMap Routine.bytes ++
      (Routine.bytes p ++ ((ps.drop (i + 1)).flatMap Routine.bytes ++ Routine.guardBytes)) := by
    have hi : i < ps.length := (List.getElem?_eq_some_iff.mp h).1
    have hp : ps[i] = p := (List.getElem?_eq_some_iff.mp h).2
    have hps : ps.take i ++ p :: ps.drop (i + 1) = ps := by
      rw [← hp, List.getElem_cons_drop, List.take_append_drop]
    have hflat := congrArg (List.flatMap Routine.bytes) hps
    rw [List.flatMap_append, List.flatMap_cons] at hflat
    rw [Layout.code, ← hflat, List.append_assoc, List.append_assoc]
  rw [List.getElem?_toArray, hsplit, Layout.address, List.getElem?_append_right (by omega),
    Nat.add_sub_cancel_left, List.getElem?_append_left hj]

theorem placed_guard (ps : List Platter) :
    Placed (Layout.code ps).toArray (Layout.address ps ps.length) Routine.guardBytes := by
  intro j hj
  rw [List.getElem?_toArray, Layout.code, Layout.address_length,
    List.getElem?_append_right (by omega), Nat.add_sub_cancel_left]

/-- Code is patched when it has just been generated. -/
theorem IsFor.patched (h : co.IsFor words) (hshort : Layout.size words.toList < Layout.limit) :
    co.Patched words words where
  short := hshort
  size_eq := rfl
  code_size := by simp [h.code_eq, Layout.size]
  table_eq := h.table_eq
  guard_eq := h.guard_eq
  slot i p hp := by
    refine Or.inr ⟨hp, ?_⟩
    rw [h.code_eq]
    exact placed_address _ (by simpa using hp)
  guard := by
    rw [h.code_eq]
    exact placed_guard words.toList

namespace Patched

theorem entryAt_eq (h : co.Patched old words) (i : Nat) :
    co.entryAt i = UInt32.ofNat (Layout.address old.toList (min i old.size)) :=
  entryAt_eq_of_table h.table_eq h.guard_eq i

theorem toNat_entryAt (h : co.Patched old words) (i : Nat) :
    (co.entryAt i).toNat = Layout.address old.toList (min i old.size) := by
  have hlt := Layout.address_add_eight_le old.toList (i := min i old.size)
    (by rw [Array.length_toList]; omega)
  have hshort := h.short
  rw [h.entryAt_eq, UInt32.toNat_ofNat_of_lt']
  simp only [Layout.limit, UInt32.size] at hshort ⊢
  omega

/-- In code that has just been generated there are no stubs. -/
theorem not_stub_of_isFor (h : co.Patched old words) (hfor : co.IsFor words) {k : Nat}
    (hk : k < old.size) :
    ¬ Placed co.code (Layout.address old.toList k) Routine.stubBytes := by
  have hsize := h.code_size
  rw [hfor.code_eq, List.size_toArray, ← Layout.size] at hsize
  have hself := hfor.patched (hsize ▸ h.short)
  have haddress : Layout.address old.toList k = Layout.address words.toList k := by
    have hentry := (h.toNat_entryAt k).symm.trans (hself.toNat_entryAt k)
    rwa [h.size_eq, Nat.min_eq_left (Nat.le_of_lt hk)] at hentry
  have hk' : k < words.toList.length := by rwa [Array.length_toList, h.size_eq]
  rw [haddress, hfor.code_eq]
  exact Routine.not_placed_stub (placed_address _ (List.getElem?_eq_getElem hk'))

/-- No entry lies within a routine. -/
theorem clear_entries (h : co.Patched old words) {i : Nat} (hi : i < old.size) (j : Nat) :
    (co.entryAt j).toNat ≤ Layout.address old.toList i ∨
      Layout.address old.toList (i + 1) ≤ (co.entryAt j).toNat := by
  rw [h.toNat_entryAt]
  by_cases hj : j ≤ i
  · left
    have hmono := Layout.address_mono old.toList (i := min j old.size) (j := i) (by omega)
      (by rw [Array.length_toList]; omega)
    omega
  · right
    have hmono := Layout.address_mono old.toList (i := i + 1) (j := min j old.size) (by omega)
      (by rw [Array.length_toList]; omega)
    omega

theorem toNat_entry_ofNat (h : co.Patched old words) {i : Nat} (hi : i ≤ old.size) :
    (co.entry (UInt32.ofNat i)).toNat = Layout.address old.toList i := by
  have hlt := Layout.address_add_eight_le old.toList (i := old.size) (by simp)
  have hle := Layout.length_le_address old.toList
  rw [Array.length_toList] at hle
  have hshort := h.short
  simp only [Layout.limit] at hshort
  rw [entry_eq_entryAt, h.toNat_entryAt, UInt32.toNat_ofNat_of_lt' (by
    simp only [UInt32.size]; omega), Nat.min_eq_left hi]

theorem table_size (h : co.Patched old words) : co.table.size = old.size := by
  simp [h.table_eq, Layout.table]

/-- The search stops at `j` when the routines that begin in front of `addr` are those below `j`. -/
theorem fingerFor_of_boundary (h : co.Patched old words) {j : Nat} (hj : j ≤ old.size + 1)
    {addr : UInt32} (hbelow : ∀ k, k < j → Layout.address old.toList k < addr.toNat)
    (habove : ∀ k, j ≤ k → k ≤ old.size → addr.toNat ≤ Layout.address old.toList k) :
    co.fingerFor addr =
      if j = 0 then .error (.invalidIndex "resume address precedes the first routine" addr)
      else if old.size < j then .error (.invalidIndex "resume address past the bounds guard" addr)
      else .ok (UInt32.ofNat (j - 1)) := by
  have hbisect : bisect (fun k => decide (addr ≤ co.entry (UInt32.ofNat k))) (old.size + 1) 0
      (old.size + 1) = j := by
    refine bisect_eq (fun k hk => ?_) (Nat.zero_le j) hj (Nat.le_refl _) (fun k hk hlt => ?_)
    · rw [decide_eq_false_iff_not, UInt32.le_iff_toNat_le, h.toNat_entry_ofNat (by omega)]
      exact Nat.not_le_of_lt (hbelow k hk)
    · rw [decide_eq_true_iff, UInt32.le_iff_toNat_le, h.toNat_entry_ofNat (by omega)]
      exact habove k hk (Nat.le_of_lt_succ hlt)
  simp only [fingerFor, h.table_size, hbisect]

/-- The address behind a host instruction of routine `i` leads back to `i`. -/
theorem fingerFor_eq (h : co.Patched old words) {i : Nat} (hi : i < old.size) {addr : UInt32}
    (hlo : Layout.address old.toList i < addr.toNat)
    (hhi : addr.toNat ≤ Layout.address old.toList (i + 1)) :
    co.fingerFor addr = .ok (UInt32.ofNat i) := by
  rw [h.fingerFor_of_boundary (j := i + 1) (by omega) (fun k hk => ?_) (fun k hk hle => ?_),
    if_neg (by omega), if_neg (by omega), Nat.add_sub_cancel]
  · have hm := Layout.address_mono old.toList (i := k) (j := i) (by omega)
      (by rw [Array.length_toList]; omega)
    omega
  · have hm := Layout.address_mono old.toList (i := i + 1) (j := k) hk
      (by rw [Array.length_toList]; exact hle)
    omega

/-- The address behind a return within routine `i` leads back to `i`. -/
theorem fingerFor_add_two (h : co.Patched old words) {i : Nat} (hi : i < old.size) {pc : UInt32}
    (hlo : Layout.address old.toList i ≤ pc.toNat)
    (hhi : pc.toNat + 2 ≤ Layout.address old.toList (i + 1)) :
    co.fingerFor (pc + 2) = .ok (UInt32.ofNat i) := by
  have hsize := Layout.address_add_eight_le old.toList (i := i + 1)
    (by rw [Array.length_toList]; omega)
  have hshort := h.short
  have hresume : (pc + 2).toNat = pc.toNat + 2 :=
    Layout.toNat_add (show pc.toNat + 2 < Layout.limit by omega)
  exact h.fingerFor_eq hi (by omega) (by omega)

theorem plantStub_placed (h : co.Patched old words) {i j : Nat} (hi : i < old.size)
    {bytes : List UInt8} (hdisjoint : j + bytes.length ≤ Layout.address old.toList i ∨
      Layout.address old.toList i + 2 ≤ j) (hplaced : Placed co.code j bytes) :
    Placed (co.plantStub (co.entryAt i)).code j bytes := by
  intro k hk
  have hsize := Layout.address_add_eight_le old.toList (i := i) (by rw [Array.length_toList]; omega)
  have hcode := h.code_size
  have hentry := h.toNat_entryAt i
  rw [Nat.min_eq_left (by omega)] at hentry
  have hlen : (HostInstr.ret Reason.recompile.code).bytes.length = 2 := rfl
  rw [← hplaced k hk, plantStub, hentry, Assembler.getElem?_writeBytes _ _ _ _
    (by rw [hlen]; exact Nat.add_le_add_left (by decide) _) (by rw [hlen]; omega), if_neg]
  rw [hlen]
  omega

theorem plantStub_placed_stub (h : co.Patched old words) {i : Nat} (hi : i < old.size) :
    Placed (co.plantStub (co.entryAt i)).code (Layout.address old.toList i) Routine.stubBytes := by
  have hsize := Layout.address_add_eight_le old.toList (i := i) (by rw [Array.length_toList]; omega)
  have hcode := h.code_size
  have hentry := h.toNat_entryAt i
  rw [Nat.min_eq_left (Nat.le_of_lt hi)] at hentry
  have hlen : Routine.stubBytes.length = 2 := rfl
  rw [CodeObject.plantStub, hentry]
  refine Assembler.placed_writeBytes _ _ _ _ (Nat.le_refl _) ?_
  change _ + Routine.stubBytes.length ≤ _
  omega

/-- An amended slot gets a stub, and the code stays patched. -/
theorem plantStub (h : co.Patched old words) {i : Nat} (hi : i < words.size) (v : Platter) :
    (co.plantStub (co.entryAt i)).Patched old (words.setIfInBounds i v) where
  short := h.short
  size_eq := by simp [h.size_eq]
  code_size := by simp [CodeObject.plantStub, h.code_size]
  table_eq := h.table_eq
  guard_eq := h.guard_eq
  slot k p hp := by
    have hlt : i < old.size := h.size_eq ▸ hi
    by_cases hk : i = k
    · subst hk
      exact Or.inl (h.plantStub_placed_stub hlt)
    · rw [Array.getElem?_setIfInBounds_ne hk] at hp
      have hkw : k < words.size := (Array.getElem?_eq_some_iff.mp hp).1
      have hko : k < old.size := h.size_eq ▸ hkw
      have hdisjoint : Layout.address old.toList (k + 1) ≤ Layout.address old.toList i ∨
          Layout.address old.toList i + 2 ≤ Layout.address old.toList k := by
        by_cases hki : k < i
        · left
          have hm := Layout.address_mono old.toList (i := k + 1) (j := i) (by omega)
            (by rw [Array.length_toList]; omega)
          omega
        · right
          have hm := Layout.address_mono old.toList (i := i + 1) (j := k) (by omega)
            (by rw [Array.length_toList]; omega)
          have hstub := Layout.address_add_four_le old.toList (i := i) (by simpa using hlt)
          omega
      have hroom := Layout.address_add_four_le old.toList (i := k) (by simpa using hko)
      rcases h.slot k p hp with hs | ⟨ho, hr⟩
      · left
        have hlen : Routine.stubBytes.length = 2 := rfl
        exact h.plantStub_placed hlt (by omega) hs
      · refine Or.inr ⟨ho, h.plantStub_placed hlt ?_ hr⟩
        rw [← Layout.address_succ (by simpa using ho)]
        exact hdisjoint
  guard := by
    have hlt : i < old.size := h.size_eq ▸ hi
    have hstub := Layout.address_add_four_le old.toList (i := i) (by simpa using hlt)
    have hm := Layout.address_mono old.toList (i := i + 1) (j := old.size) (by omega)
      (by simp)
    exact h.plantStub_placed hlt (by omega) h.guard

/-- A stub over a routine fits when the code lies within its buffer. -/
theorem stubFits (h : co.Patched old words) (hroom : co.code.size ≤ co.codeBuffer.capacity)
    {i : Nat} (hi : i < old.size) : co.stubFits (co.entryAt i) = true := by
  have hentry := h.toNat_entryAt i
  rw [Nat.min_eq_left (Nat.le_of_lt hi)] at hentry
  have hle := Layout.address_add_eight_le old.toList (i := i) (by rw [Array.length_toList]; omega)
  have hsize := h.code_size
  have hshort := h.short
  have hadd : (co.entryAt i + UInt32.ofNat Routine.stubSize).toNat =
      Layout.address old.toList i + 2 := by
    rw [← hentry]
    exact Layout.toNat_add (show (co.entryAt i).toNat + 2 < Layout.limit by omega)
  rw [CodeObject.stubFits, Bool.and_eq_true, decide_eq_true_iff, decide_eq_true_iff,
    UInt32.le_iff_toNat_le, hadd, hentry]
  omega

/-- What stands at an entry, up to the next one. -/
theorem extract_entry (h : co.Patched old words) {i : Nat} {p : Platter}
    (hp : words[i]? = some p) :
    co.code.extract (co.entry (UInt32.ofNat i)).toNat
        ((co.entry (UInt32.ofNat i)).toNat + Routine.stubSize) = Routine.stubBytes.toArray ∨
      co.code.extract (co.entry (UInt32.ofNat i)).toNat (co.entry (UInt32.ofNat (i + 1))).toNat =
        (Routine.bytes p).toArray := by
  have hi : i < old.size := h.size_eq ▸ (Array.getElem?_eq_some_iff.mp hp).1
  rw [h.toNat_entry_ofNat (Nat.le_of_lt hi), h.toNat_entry_ofNat hi]
  rcases h.slot i p hp with hstub | ⟨hold, hroutine⟩
  · exact Or.inl hstub.extract_eq
  · right
    rw [Layout.address_succ (by simpa using hold)]
    exact hroutine.extract_eq

theorem toNat_guard (h : co.Patched old words) :
    co.guard.toNat = Layout.address old.toList old.size := by
  have hlt := Layout.address_add_eight_le old.toList (i := old.size) (by simp)
  have hshort := h.short
  rw [h.guard_eq, UInt32.toNat_ofNat_of_lt']
  simp only [Layout.limit, UInt32.size] at hshort ⊢
  omega

theorem extract_guard (h : co.Patched old words) :
    co.code.extract co.guard.toNat co.code.size = Routine.guardBytes.toArray := by
  rw [h.toNat_guard, h.code_size, Layout.size_eq, Array.length_toList]
  exact h.guard.extract_eq

end Patched
end CodeObject

end PlatterMachine
