import Mathlib.Algebra.Ring.Nat
import PlatterMachine.Proofs.Memory

/-!
# Addresses of routines

The pass that measures and the pass that writes agree on the size of every routine, and the writing
pass stays within it. So the code of a program is its routines and the guard, each at the sum of the
sizes before it. The jump table keeps these sums in 32 bits: its entries are the addresses of the
routines, and in order, exactly as long as the guard stands below 2^32.
-/

namespace PlatterMachine

open Assembler

namespace Routine

theorem size_eq (p : Platter) : size p = (bytes p).length := by
  rw [size, measuring, (emits_routine p).counts, Nat.zero_add]

/-- A routine is written over the first bytes of its window, and nothing else is. -/
theorem sizeOrEmit_window (p : Platter) {buffer : Array UInt8} {base limit : Nat}
    (hlimit : size p ≤ limit) (hbase : base + limit ≤ buffer.size) :
    ∃ written, sizeOrEmit p ⟨some buffer, base, limit, 0⟩ =
        (.done (size p), ⟨some written, base, limit, size p⟩) ∧
      written.size = buffer.size ∧
      written.extract base (base + size p) = assembled (emit p) ∧
      ∀ k, k < base ∨ base + size p ≤ k → written[k]? = buffer[k]? := by
  rw [size_eq] at hlimit ⊢
  refine ⟨_, sizeOrEmit_writes p buffer base hlimit, size_writeBytes _ _ _ _, ?_, ?_⟩
  · rw [(emits_routine p).assembled_eq]
    exact (placed_writeBytes _ _ _ _ (by omega) (by omega)).extract_eq
  · intro k hk
    rw [getElem?_writeBytes _ _ _ _ (by omega) (by omega), if_neg (by omega)]

end Routine

namespace Layout

theorem address_eq_sum (ps : List Platter) (i : Nat) :
    address ps i = ((ps.take i).map Routine.size).sum := by
  rw [address, List.length_flatMap]
  congr 1
  apply List.map_congr_left
  intro p _
  exact (Routine.size_eq p).symm

theorem address_length_eq_sum (ps : List Platter) :
    address ps ps.length = (ps.map Routine.size).sum := by
  rw [address_eq_sum, List.take_length]

theorem size_eq_sum (ps : List Platter) :
    size ps = (ps.map Routine.size).sum + Routine.guardSize := by
  rw [size_eq, address_length_eq_sum]
  rfl

theorem code_eq_assembled (ps : List Platter) :
    code ps = ps.flatMap (fun p => (assembled (Routine.emit p)).toList) ++
      (assembled Routine.emitGuard).toList := by
  have hroutine : (fun p => (assembled (Routine.emit p)).toList) = Routine.bytes := by
    funext p
    rw [(Routine.emits_routine p).assembled_eq]
  rw [hroutine, Routine.emits_guard.assembled_eq, code]

theorem address_replicate (p : Platter) {n i : Nat} (hi : i ≤ n) :
    address (List.replicate n p) i = i * (Routine.bytes p).length := by
  rw [address, List.take_replicate, Nat.min_eq_left hi, List.length_flatMap, List.map_replicate,
    List.sum_replicate_nat]

theorem address_min (ps : List Platter) (i : Nat) :
    address ps (min i ps.length) = address ps i := by
  rw [address, address, ← List.take_eq_take_min]

theorem address_le_address_length (ps : List Platter) (i : Nat) :
    address ps i ≤ address ps ps.length := by
  have hm := address_mono ps (Nat.min_le_right i ps.length) (Nat.le_refl _)
  rw [address_min] at hm
  omega

theorem address_succ_le {ps : List Platter} {i : Nat} (h : i < ps.length) :
    address ps (i + 1) ≤ address ps i + 14 := by
  have hlen := Routine.length_bytes_le ps[i]
  rw [address_succ (List.getElem?_eq_getElem h)]
  omega

/-- Between some two routines the addresses reach the bound. -/
theorem exists_crossing {ps : List Platter} {n bound : Nat} (hpos : 0 < bound)
    (h : bound ≤ address ps n) :
    ∃ j, j < n ∧ address ps j < bound ∧ bound ≤ address ps (j + 1) := by
  induction n with
  | zero =>
    rw [address_zero] at h
    exact absurd hpos (Nat.not_lt_of_le h)
  | succ n ih =>
    by_cases hprev : bound ≤ address ps n
    · obtain ⟨j, hj, hcrossing⟩ := ih hprev
      exact ⟨j, Nat.lt_succ_of_lt hj, hcrossing⟩
    · exact ⟨n, Nat.lt_succ_self n, Nat.lt_of_not_le hprev, h⟩

end Layout

namespace CodeObject

variable {co : CodeObject} {words : Array Platter}

/-- Generating code succeeds when both of its buffers are to be had. -/
theorem generate_of_alloc {memory : Memory} {codeBuffer tableBuffer : Buffer} {code : Arena UInt8}
    {slots : Arena UInt32}
    (hcode : Arena.alloc (Layout.size words.toList) false memory.code = (.done codeBuffer, code))
    (hslots : Arena.alloc words.size false memory.slots = (.done tableBuffer, slots)) :
    generate words memory =
      (.done ⟨(Layout.code words.toList).toArray, codeBuffer, (Layout.table words.toList).toArray,
        tableBuffer, UInt32.ofNat (Layout.address words.toList words.size)⟩,
        { memory with code, slots }) := by
  have hinCode : Memory.inCode (Arena.alloc (Layout.size words.toList) false) memory =
      (.done codeBuffer, { memory with code }) := by
    simp only [Memory.inCode, Action.within, hcode]
  have hinSlots : (Memory.inSlots (Arena.alloc words.size false)).cleaningUp
      (Memory.inCode (Arena.release codeBuffer)) { memory with code } =
      (.done tableBuffer, { memory with code, slots }) := by
    simp only [Action.cleaningUp, Memory.inSlots, Action.within, hslots]
  rw [generate_eq, Action.bind_done hinCode, Action.bind_done hinSlots]
  rfl

/-- Mapped memory has room for the code of every array that a word can count. -/
theorem exists_alloc_mapped (hwords : words.size < Layout.limit) :
    ∃ codeBuffer code tableBuffer slots,
      Arena.alloc (Layout.size words.toList) false Memory.mapped.code = (.done codeBuffer, code) ∧
      Arena.alloc words.size false Memory.mapped.slots = (.done tableBuffer, slots) := by
  have hsize := Layout.size_le words.toList
  rw [Array.length_toList] at hsize
  simp only [Layout.limit] at hwords
  have hcode : Layout.size words.toList * Element.bytes UInt8 < BlockSource.mappable := by
    change _ * 1 < 0x800000000000
    omega
  have hslots : words.size * Element.bytes UInt32 < BlockSource.mappable := by
    change _ * 4 < 0x800000000000
    omega
  obtain ⟨codeBuffer, code, hcode', -⟩ :=
    (Memory.lends_mapped.code.wp_alloc hcode false).exists_done
  obtain ⟨tableBuffer, slots, hslots', -⟩ :=
    (Memory.lends_mapped.slots.wp_alloc hslots false).exists_done
  exact ⟨codeBuffer, code, tableBuffer, slots, hcode', hslots'⟩

theorem generate_mapped (hwords : words.size < Layout.limit) :
    ∃ co memory, generate words .mapped = (.done co, memory) := by
  obtain ⟨codeBuffer, code, tableBuffer, slots, hcode, hslots⟩ := exists_alloc_mapped hwords
  exact ⟨_, _, generate_of_alloc hcode hslots⟩

namespace IsFor

theorem entryAt_eq (h : co.IsFor words) (i : Nat) :
    co.entryAt i = UInt32.ofNat (Layout.address words.toList i) := by
  rw [entryAt_eq_of_table h.table_eq h.guard_eq, ← Array.length_toList, Layout.address_min]

/-- An entry is the address of its routine in 32 bits. -/
theorem toNat_entryAt (h : co.IsFor words) (i : Nat) :
    (co.entryAt i).toNat = Layout.address words.toList i % Layout.limit := by
  rw [h.entryAt_eq]
  exact UInt32.toNat_ofNat'

theorem toNat_guard (h : co.IsFor words) :
    co.guard.toNat = Layout.address words.toList words.size % Layout.limit := by
  rw [h.guard_eq]
  exact UInt32.toNat_ofNat'

variable (hlt : Layout.address words.toList words.size < Layout.limit)

include hlt

theorem toNat_entryAt_of_lt (h : co.IsFor words) (i : Nat) :
    (co.entryAt i).toNat = Layout.address words.toList i := by
  have hle := Layout.address_le_address_length words.toList i
  rw [Array.length_toList] at hle
  rw [h.toNat_entryAt, Nat.mod_eq_of_lt (by omega)]

theorem toNat_guard_of_lt (h : co.IsFor words) :
    co.guard.toNat = Layout.address words.toList words.size := by
  rw [h.toNat_guard, Nat.mod_eq_of_lt hlt]

theorem entryAt_add_stubSize_le (h : co.IsFor words) {i j : Nat} (hij : i < j)
    (hj : j ≤ words.size) : (co.entryAt i).toNat + Routine.stubSize ≤ (co.entryAt j).toNat := by
  have hm := Layout.address_mono words.toList (Nat.le_of_lt hij)
    (by rw [Array.length_toList]; exact hj)
  rw [h.toNat_entryAt_of_lt hlt, h.toNat_entryAt_of_lt hlt]
  simp only [Routine.stubSize, HostInstr.retSize]
  omega

theorem entryAt_lt_entryAt (h : co.IsFor words) {i j : Nat} (hij : i < j)
    (hj : j ≤ words.size) : co.entryAt i < co.entryAt j := by
  have hle := h.entryAt_add_stubSize_le hlt hij hj
  rw [UInt32.lt_iff_toNat_lt]
  simp only [Routine.stubSize, HostInstr.retSize] at hle
  omega

theorem extract_entryAt (h : co.IsFor words) {i : Nat} {p : Platter} (hp : words[i]? = some p) :
    co.code.extract (co.entryAt i).toNat ((co.entryAt i).toNat + Routine.size p) =
      assembled (Routine.emit p) := by
  rw [h.toNat_entryAt_of_lt hlt, Routine.size_eq, (Routine.emits_routine p).assembled_eq, h.code_eq]
  exact (placed_address words.toList (by simpa using hp)).extract_eq

omit hlt in
/-- Where the addresses pass the limit, an entry is below the one before it. -/
theorem exists_entryAt_lt (h : co.IsFor words)
    (hle : Layout.limit ≤ Layout.address words.toList words.size) :
    ∃ i, i < words.size ∧ co.entryAt (i + 1) < co.entryAt i := by
  obtain ⟨j, hj, hbelow, habove⟩ := Layout.exists_crossing (by decide) hle
  refine ⟨j, hj, ?_⟩
  have hstep := Layout.address_succ_le (show j < words.toList.length by simpa using hj)
  rw [UInt32.lt_iff_toNat_lt, h.toNat_entryAt, h.toNat_entryAt]
  simp only [Layout.limit] at hbelow habove ⊢
  omega

end IsFor

/-- Given memory, the code of a program that can be addressed is its routines, one behind the other,
and the guard, whatever the buffer held. Every entry is the sum of the sizes before it. Of each
routine both passes find the same size, and writing it leaves the bytes around it alone. -/
theorem generate_lays_out_routines
    (hshort : (words.toList.map Routine.size).sum + Routine.guardSize < Layout.limit)
    {memory : Memory} {codeBuffer tableBuffer : Buffer} {code : Arena UInt8} {slots : Arena UInt32}
    (hcode : Arena.alloc ((words.toList.map Routine.size).sum + Routine.guardSize : Nat) false
      memory.code = (.done codeBuffer, code))
    (hslots : Arena.alloc words.size false memory.slots = (.done tableBuffer, slots)) :
    (∃ co, generate words memory = (.done co, { memory with code, slots }) ∧
      co.code.toList = words.toList.flatMap (fun p => (assembled (Routine.emit p)).toList) ++
        (assembled Routine.emitGuard).toList ∧
      (∀ old : Array UInt8, old.size = co.code.size →
        emitProgram words.toList old = .done ⟨co.code, co.table, co.guard.toNat⟩) ∧
      co.guard.toNat = (words.toList.map Routine.size).sum ∧
      (∀ i : UInt32, (co.entry i).toNat =
        if i.toNat < words.size then ((words.toList.take i.toNat).map Routine.size).sum
        else co.guard.toNat) ∧
      ∀ i j : UInt32, i < j → j.toNat ≤ words.size →
        co.entry i < co.entry j ∧ (co.entry i).toNat + Routine.stubSize ≤ (co.entry j).toNat) ∧
    ∀ p : Platter,
      (Routine.sizeOrEmit p .measuring).1 = .done (Routine.size p) ∧
      ∀ (buffer : Array UInt8) (base limit : Nat), Routine.size p ≤ limit →
        base + limit ≤ buffer.size →
        ∃ written, Routine.sizeOrEmit p ⟨some buffer, base, limit, 0⟩ =
            (.done (Routine.size p), ⟨some written, base, limit, Routine.size p⟩) ∧
          written.size = buffer.size ∧
          written.extract base (base + Routine.size p) = assembled (Routine.emit p) ∧
          ∀ k, k < base ∨ base + Routine.size p ≤ k → written[k]? = buffer[k]? := by
  rw [← Layout.size_eq_sum] at hshort hcode
  have hgenerate := generate_of_alloc hcode hslots
  have hfor := isFor_of_generate hgenerate
  have hguard : Layout.address words.toList words.size < Layout.limit := by
    have hsize := Layout.size_eq words.toList
    rw [Array.length_toList] at hsize
    omega
  refine ⟨⟨_, hgenerate, Layout.code_eq_assembled _, ?_, ?_, ?_, ?_⟩, ?_⟩
  · intro old hold
    rw [hfor.toNat_guard_of_lt hguard, Layout.emitProgram_eq _ _ (by simpa [Layout.size] using hold),
      Array.length_toList]
  · rw [hfor.toNat_guard_of_lt hguard, ← Array.length_toList, Layout.address_length_eq_sum]
  · intro i
    rw [entry_eq_entryAt, hfor.toNat_entryAt_of_lt hguard]
    split
    · exact Layout.address_eq_sum _ _
    · rename_i hi
      rw [hfor.toNat_guard_of_lt hguard, ← Array.length_toList]
      rw [← Layout.address_min, Nat.min_eq_right (by rw [Array.length_toList]; omega)]
  · intro i j hij hj
    rw [UInt32.lt_iff_toNat_lt] at hij
    exact ⟨hfor.entryAt_lt_entryAt hguard hij hj, hfor.entryAt_add_stubSize_le hguard hij hj⟩
  · intro p
    refine ⟨?_, fun buffer base limit hlimit hbase => Routine.sizeOrEmit_window p hlimit hbase⟩
    rw [Routine.sizeOrEmit_measuring, Routine.size_eq]

/-- The shortest routine between the longest two. -/
def mixedProgram : Array Platter := #[0xC0000000, 0x30000000, 0xE0000000]

theorem generate_lays_out_routines_mixed :
    (mixedProgram.toList.map Routine.size).sum + Routine.guardSize = 39 ∧
      ∃ co memory, generate mixedProgram .mapped = (.done co, memory) ∧ co.guard = 31 ∧
        (co.entry 1).toNat = 13 ∧ (co.entry 2).toNat = 17 ∧ (co.entry 7).toNat = 31 := by
  have hsum : (mixedProgram.toList.map Routine.size).sum + Routine.guardSize = 39 := by decide
  obtain ⟨codeBuffer, code, tableBuffer, slots, hcode, hslots⟩ :=
    exists_alloc_mapped (show mixedProgram.size < Layout.limit by decide)
  rw [Layout.size_eq_sum] at hcode
  obtain ⟨⟨co, hgenerate, -, -, hguard, hentry, -⟩, -⟩ :=
    generate_lays_out_routines (by rw [hsum]; decide) hcode hslots
  refine ⟨hsum, co, _, hgenerate, UInt32.toNat_inj.mp hguard, hentry 1, hentry 2, ?_⟩
  exact (hentry 7).trans hguard

/-- Entries and guard are the addresses of the routines and of the guard in 32 bits. They are the
addresses themselves, and entries are in order, if and only if the guard stands below 2^32; then what
stands at an entry is the routine of its platter. -/
theorem entries_exact_iff (hwords : words.size < Layout.limit) {memory memory' : Memory}
    (hgenerate : generate words memory = (.done co, memory')) :
    (∀ i : UInt32,
      (co.entry i).toNat = Layout.address words.toList i.toNat % Layout.limit) ∧
    co.guard.toNat = Layout.address words.toList words.size % Layout.limit ∧
    ((∀ i : UInt32, (co.entry i).toNat = Layout.address words.toList i.toNat) ∧
        co.guard.toNat = Layout.address words.toList words.size ↔
      Layout.address words.toList words.size < Layout.limit) ∧
    ((∀ i j : UInt32, i < j → j.toNat ≤ words.size → co.entry i < co.entry j) ↔
      Layout.address words.toList words.size < Layout.limit) ∧
    (Layout.address words.toList words.size < Layout.limit →
      ∀ (i : UInt32) (p : Platter), words[i.toNat]? = some p →
        co.code.extract (co.entry i).toNat ((co.entry i).toNat + Routine.size p) =
          assembled (Routine.emit p)) := by
  have hfor := isFor_of_generate hgenerate
  refine ⟨fun i => hfor.toNat_entryAt i.toNat, hfor.toNat_guard, ⟨?_, ?_⟩, ⟨?_, ?_⟩, ?_⟩
  · rintro ⟨-, hguard⟩
    rw [← hguard]
    exact co.guard.toNat_lt
  · intro hlt
    exact ⟨fun i => hfor.toNat_entryAt_of_lt hlt i.toNat, hfor.toNat_guard_of_lt hlt⟩
  · intro hordered
    apply Nat.lt_of_not_le
    intro hle
    obtain ⟨i, hi, hdescent⟩ := hfor.exists_entryAt_lt hle
    have hlt : i + 1 < UInt32.size := Nat.lt_of_le_of_lt hi hwords
    have hnext : (UInt32.ofNat (i + 1)).toNat = i + 1 := UInt32.toNat_ofNat_of_lt' hlt
    have hthis : (UInt32.ofNat i).toNat = i :=
      UInt32.toNat_ofNat_of_lt' (Nat.lt_of_succ_lt hlt)
    have hascent := hordered (.ofNat i) (.ofNat (i + 1))
      (by rw [UInt32.lt_iff_toNat_lt, hthis, hnext]; exact Nat.lt_succ_self i)
      (by rw [hnext]; exact hi)
    rw [entry_eq_entryAt, entry_eq_entryAt, hthis, hnext] at hascent
    exact UInt32.lt_asymm hascent hdescent
  · intro hlt i j hij hj
    exact hfor.entryAt_lt_entryAt hlt (UInt32.lt_iff_toNat_lt.mp hij) hj
  · intro hlt i p hp
    exact hfor.extract_entryAt hlt hp

theorem entries_exact_iff_mixed :
    mixedProgram.size < Layout.limit ∧
      ∃ co memory, generate mixedProgram .mapped = (.done co, memory) ∧
        (∀ i : UInt32, (co.entry i).toNat = Layout.address mixedProgram.toList i.toNat) ∧
        co.code.extract (co.entry 2).toNat ((co.entry 2).toNat + 14) =
          assembled (Routine.emit 0xE0000000) := by
  obtain ⟨co, memory, hgenerate⟩ := generate_mapped (show mixedProgram.size < Layout.limit by decide)
  obtain ⟨-, -, hexact, -, hroutine⟩ := entries_exact_iff (by decide) hgenerate
  have hlt : Layout.address mixedProgram.toList mixedProgram.size < Layout.limit := by decide
  exact ⟨by decide, co, memory, hgenerate, (hexact.mpr hlt).1, hroutine hlt 2 0xE0000000 rfl⟩

/-- With so many platters that load a program, each a routine of 13 bytes, the guard stands at
2^32 + 4: its address comes out as 4, below the entry of the last routine. -/
theorem entries_wrap :
    ∃ words memory memory' co, words.size < Layout.limit ∧
      generate words memory = (.done co, memory') ∧
      Layout.address words.toList words.size = 0x100000004 ∧ co.guard = 4 ∧
      (co.entry 330382099).toNat = 0xFFFFFFF7 ∧ co.entry 330382100 = 4 := by
  have hlength : (Routine.bytes 0xC0000000).length = 13 := rfl
  obtain ⟨n, hn⟩ : ∃ n, n = 330382100 := ⟨_, rfl⟩
  have haddress (i : Nat) (hi : i ≤ n) :
      Layout.address (Array.replicate n (0xC0000000 : Platter)).toList i = i * 13 := by
    rw [Array.toList_replicate, Layout.address_replicate _ hi, hlength]
  have hsize : (Array.replicate n (0xC0000000 : Platter)).size = n := Array.size_replicate
  have hwords : (Array.replicate n (0xC0000000 : Platter)).size < Layout.limit := by
    rw [hsize, hn]
    decide
  obtain ⟨co, memory, hgenerate⟩ := generate_mapped hwords
  have hfor := isFor_of_generate hgenerate
  have hguard := hfor.toNat_guard
  have hlast := hfor.toNat_entryAt 330382099
  have hpast := hfor.toNat_entryAt 330382100
  rw [hsize, haddress n (Nat.le_refl n), hn] at hguard
  rw [haddress _ (by omega)] at hlast hpast
  refine ⟨_, _, _, co, hwords, hgenerate, ?_, UInt32.toNat_inj.mp hguard, hlast,
    UInt32.toNat_inj.mp hpast⟩
  rw [hsize, haddress n (Nat.le_refl n), hn]

end CodeObject

end PlatterMachine
