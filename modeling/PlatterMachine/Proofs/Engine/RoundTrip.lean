import Mathlib.Data.List.Sort
import PlatterMachine.Proofs.Engine.HandleTable
import PlatterMachine.Proofs.Engine.Standstill

/-!
# States and the engines restored from them

A state is restored exactly when its finger is at an instruction of array 0 and its handles are
small. The engine then has that very state. The other way round, an engine and the one restored
from its state have the same arrays under the same handles, and so the same handle is free next.
-/

namespace PlatterMachine

namespace MachineState

def Acceptable (s : MachineState) : Prop :=
  ∃ program, s.array? 0 = some program ∧ s.finger.toNat < program.size ∧
    ∀ handle ∈ s.handles, handle.toNat < 0x1000000

/-- Why a state is refused; each time the fault names what is wrong. -/
inductive Refused (s : MachineState) : Fault → Prop
  | program (hnone : s.array? 0 = none) :
      Refused s (.invalidIndex "restored state has no array 0" 0)
  | finger {program : Array Platter} (hprogram : s.array? 0 = some program)
      (hle : program.size ≤ s.finger.toNat) :
      Refused s (.invalidIndex "restored finger beyond array 0" s.finger)
  | handle {handle : UInt32} (hmem : handle ∈ s.handles) (htop : ∀ k ∈ s.handles, k ≤ handle)
      (hle : 0x1000000 ≤ handle.toNat) :
      Refused s (.invalidIndex "restored handle beyond handle limit" handle)

/-- Array 0 comes first. -/
theorem exists_arrays_eq {s : MachineState} {program : Array Platter}
    (hprogram : s.array? 0 = some program) :
    ∃ rest, s.arrays = (0, program) :: rest ∧ ∀ x ∈ rest, x.1 ≠ 0 := by
  obtain ⟨before, rest, harrays, -⟩ := List.lookup_eq_some_iff.mp hprogram
  have h := s.ascending
  rw [harrays, List.pairwise_append] at h
  obtain ⟨-, hrest, hbefore⟩ := h
  have hnil : before = [] := by
    refine List.eq_nil_iff_forall_not_mem.mpr fun x hx => ?_
    have hlt := UInt32.lt_iff_toNat_lt.mp (hbefore x hx (0, program) List.mem_cons_self)
    exact Nat.not_lt_zero _ hlt
  subst hnil
  refine ⟨rest, harrays, fun x hx hx0 => ?_⟩
  have hlt := List.rel_of_pairwise_cons hrest hx
  rw [hx0] at hlt
  exact UInt32.lt_irrefl 0 hlt

end MachineState

namespace Engine

variable {e : Engine} {config : EngineConfig} {s : MachineState}

/-- With handles that differ, each entry is found where it was put. -/
theorem placed_eq_some_iff {arrays : List (UInt32 × Array Platter)}
    (hnodup : (arrays.map Prod.fst).Nodup) {others : Array (Option (Array Platter))} {k : Nat}
    (hk : k < others.size) (words : Array Platter) :
    (placed others arrays)[k]?.join = some words ↔
      (∃ x ∈ arrays, x.1.toNat = k + 1 ∧ x.2 = words) ∨
        (∀ x ∈ arrays, x.1.toNat ≠ k + 1) ∧ others[k]?.join = some words := by
  induction arrays generalizing others with
  | nil => simp [placed]
  | cons x rest ih =>
    obtain ⟨hnew, hnodup⟩ := List.nodup_cons.mp hnodup
    have hother (y : UInt32 × Array Platter) (hy : y ∈ rest) : y.1.toNat ≠ x.1.toNat :=
      fun heq => hnew (List.mem_map.mpr ⟨y, hy, UInt32.toNat_inj.mp heq⟩)
    rw [placed, List.foldl_cons, ← placed]
    simp only [List.mem_cons, exists_eq_or_imp, forall_eq_or_imp]
    by_cases hx : x.1.toNat = k + 1
    · -- nothing behind the entry has its handle
      have h0 : x.1 ≠ 0 := by
        intro h0
        rw [h0] at hx
        cases hx
      have hrest : ¬ ∃ y ∈ rest, y.1.toNat = k + 1 ∧ y.2 = words := by
        rintro ⟨y, hy, hyk, -⟩
        exact hother y hy (hyk.trans hx.symm)
      have hfree : ∀ y ∈ rest, y.1.toNat ≠ k + 1 := fun y hy => hx ▸ hother y hy
      have hput : (others.setIfInBounds (x.1.toNat - 1) (some x.2))[k]?.join = some x.2 := by
        simp [hx, hk]
      rw [if_neg h0, ih hnodup (by rwa [Array.size_setIfInBounds]), hput, or_iff_right hrest,
        and_iff_right hfree, Option.some.injEq]
      simp only [hx, true_and, hrest, or_false, ne_eq, not_true_eq_false, false_and]
    · have hsame : (if x.1 = 0 then others
          else others.setIfInBounds (x.1.toNat - 1) (some x.2))[k]? = others[k]? := by
        split
        · rfl
        · rename_i h0
          have hpos : x.1.toNat ≠ 0 := fun h => h0 (UInt32.toNat_inj.mp h)
          rw [Array.getElem?_setIfInBounds, if_neg (by omega)]
      have hsize : k < (if x.1 = 0 then others
          else others.setIfInBounds (x.1.toNat - 1) (some x.2)).size := by
        split
        · exact hk
        · rwa [Array.size_setIfInBounds]
      rw [ih hnodup hsize, hsame]
      simp [hx]

theorem placed_eq_some_iff_mem {arrays : List (UInt32 × Array Platter)}
    (hsorted : arrays.Pairwise fun x y => x.1 < y.1) {top : Nat}
    (hle : ∀ x ∈ arrays, x.1.toNat ≤ top) (i : Nat) (words : Array Platter) :
    (placed (Array.replicate top none) arrays)[i]?.join = some words ↔
      ∃ x ∈ arrays, x.1.toNat = i + 1 ∧ x.2 = words := by
  have hnodup : (arrays.map Prod.fst).Nodup :=
    List.pairwise_map.mpr (hsorted.imp fun hlt => UInt32.ne_of_lt hlt)
  by_cases hi : i < top
  · rw [placed_eq_some_iff hnodup (by rwa [Array.size_replicate])]
    simp [hi]
  · refine iff_of_false (fun h => ?_) ?_
    · have hlt := lt_size_of_join h
      rw [size_placed, Array.size_replicate] at hlt
      exact hi hlt
    · rintro ⟨x, hx, hxi, -⟩
      have := hle x hx
      omega

theorem succ_lt_of_placed {arrays : List (UInt32 × Array Platter)}
    (hsorted : arrays.Pairwise fun x y => x.1 < y.1) {top : Nat}
    (hle : ∀ x ∈ arrays, x.1.toNat ≤ top) {i : Nat} {words : Array Platter}
    (h : (placed (Array.replicate top none) arrays)[i]?.join = some words) :
    i + 1 < UInt32.size := by
  obtain ⟨x, -, hx, -⟩ := (placed_eq_some_iff_mem hsorted hle i words).mp h
  rw [← hx]
  exact x.1.toNat_lt

/-- Entries that are in order are listed again as they were. -/
theorem liveEntries_placed {arrays : List (UInt32 × Array Platter)}
    (hsorted : arrays.Pairwise fun x y => x.1 < y.1) (hne : ∀ x ∈ arrays, x.1 ≠ 0) {top : Nat}
    (hle : ∀ x ∈ arrays, x.1.toNat ≤ top) :
    liveEntries (placed (Array.replicate top none) arrays) top = arrays := by
  have hsize : (placed (Array.replicate top none) arrays).size = top := by
    rw [size_placed, Array.size_replicate]
  have hfound := placed_eq_some_iff_mem hsorted hle
  have hword := fun i words => @succ_lt_of_placed _ hsorted _ hle i words
  have : Std.Irrefl fun x y : UInt32 × Array Platter => x.1 < y.1 :=
    ⟨fun x => UInt32.lt_irrefl x.1⟩
  have : Std.Antisymm fun x y : UInt32 × Array Platter => x.1 < y.1 :=
    ⟨fun _ _ hxy hyx => absurd hyx (UInt32.lt_asymm hxy)⟩
  refine List.Pairwise.eq_of_mem_iff (pairwise_liveEntries hword top) hsorted fun x => ?_
  nth_rewrite 2 [← hsize]
  rw [mem_liveEntries]
  constructor
  · rintro ⟨i, hi, hhandle⟩
    obtain ⟨y, hy, hyi, hywords⟩ := (hfound i _).mp hi
    have hsame : y = x := by
      refine Prod.ext (UInt32.toNat_inj.mp ?_) hywords
      rw [hyi, hhandle, UInt32.toNat_ofNat_of_lt' (hword i _ hi)]
    rwa [← hsame]
  · intro hx
    have hpos : x.1.toNat ≠ 0 := fun h => hne x hx (UInt32.toNat_inj.mp h)
    obtain ⟨i, hi⟩ : ∃ i, x.1.toNat = i + 1 := Nat.exists_eq_succ_of_ne_zero hpos
    refine ⟨i, (hfound i x.2).mpr ⟨x, hx, hi, rfl⟩, ?_⟩
    rw [← hi, UInt32.ofNat_toNat]

theorem restore_of_acceptable (hmemory : (config.memory.getD .mapped).Covers 0 0)
    (hsize : ∀ x ∈ s.arrays, x.2.size < Layout.limit) (hs : s.Acceptable) :
    ∃ r, restore s config = (.done (), r) ∧ r.state = s := by
  obtain ⟨program, hprogram, hfinger, hhandles⟩ := hs
  obtain ⟨rest, harrays, hne⟩ := MachineState.exists_arrays_eq hprogram
  have hfit (x : UInt32 × Array Platter) (hx : x ∈ s.arrays) :
      x.1.toNat < handleLimit ∧ x.2.size < Layout.limit :=
    ⟨hhandles x.1 (List.mem_map_of_mem hx), hsize x hx⟩
  have hzero : (0, program) ∈ s.arrays := harrays ▸ List.mem_cons_self
  obtain ⟨r, top, hrestore, hbelow, -, -, hpicture⟩ := exists_restore hmemory hprogram hfinger
    (hsize _ hzero) hfit
  refine ⟨r, hrestore, ?_⟩
  have hrest : rest.Pairwise fun x y => x.1 < y.1 := by
    have hpairwise := s.ascending
    rw [harrays] at hpairwise
    exact (List.pairwise_cons.mp hpairwise).2
  have hothers : r.machine.otherWords = placed (Array.replicate top none) rest := by
    refine (congrArg Picture.others hpicture).trans ?_
    change placed (Array.replicate top none) s.arrays = _
    rw [harrays, placed, List.foldl_cons, if_pos rfl, ← placed]
  have hle (x : UInt32 × Array Platter) (hx : x ∈ rest) : x.1.toNat ≤ top :=
    hbelow x (harrays ▸ List.mem_cons_of_mem _ hx)
  have hword := fun i words => @succ_lt_of_placed _ hrest _ hle i words
  have hstate : r.state.arrays = s.arrays := by
    rw [state_arrays (congrArg Picture.closed hpicture) (hothers ▸ hword), hothers, size_placed,
      Array.size_replicate, liveEntries_placed hrest hne hle, harrays,
      show r.machine.running.words = program from congrArg Picture.program hpicture]
  have hregisters : r.state.registers = s.registers :=
    (congrArg Picture.registers hpicture).trans (registers_restored s program top config)
  have hfinger' : r.state.finger = s.finger := congrArg Picture.finger hpicture
  exact MachineState.ext hregisters hfinger' hstate

theorem restore_of_not_acceptable (config : EngineConfig) (hs : ¬ s.Acceptable) :
    ∃ fault, s.Refused fault ∧ restore s config = (.failed fault, blank config) := by
  unfold restore
  dsimp only
  cases hprogram : s.array? 0 with
  | none => exact ⟨_, .program hprogram, rfl⟩
  | some program =>
    dsimp only
    by_cases hfinger : program.size ≤ s.finger.toNat
    · rw [if_pos hfinger]
      exact ⟨_, .finger hprogram hfinger, rfl⟩
    rw [if_neg hfinger]
    have htop : handleLimit ≤ (s.handles.foldl max 0).toNat := by
      by_contra hlt
      rw [Nat.not_le, foldl_max_lt_iff] at hlt
      exact hs ⟨program, hprogram, Nat.lt_of_not_le hfinger, hlt.2⟩
    rw [if_pos htop]
    refine ⟨_, .handle ?_ (fun k hk => ?_) htop, rfl⟩
    · rcases foldl_max_mem s.handles 0 with heq | hmem
      · rw [heq] at htop
        cases htop
      · exact hmem
    · rw [UInt32.le_iff_toNat_le]
      exact Nat.le_of_lt_succ (((foldl_max_lt_iff s.handles 0 _).mp (Nat.lt_succ_self _)).2 k hk)

theorem restore_eq_done_iff (hmemory : (config.memory.getD .mapped).Covers 0 0)
    (hsize : ∀ x ∈ s.arrays, x.2.size < Layout.limit) :
    (restore s config).1 = .done () ↔ s.Acceptable := by
  constructor
  · intro hdone
    by_contra hs
    obtain ⟨fault, -, hrestore⟩ := restore_of_not_acceptable config hs
    rw [hrestore] at hdone
    cases hdone
  · intro hs
    obtain ⟨r, hrestore, -⟩ := restore_of_acceptable hmemory hsize hs
    rw [hrestore]

structure Mirrors (r e : Engine) : Prop where
  registers_eq : r.machine.registers = e.machine.registers
  finger_eq : r.host.finger = e.host.finger
  program_eq : r.machine.running.words = e.machine.running.words
  lookup_eq : ∀ handle, (r.machine.lookup handle).map PlatterArray.words =
    (e.machine.lookup handle).map PlatterArray.words
  allocate_eq : ∀ size handle e', allocate size e = (.done handle, e') →
    ∃ r', allocate size r = (.done handle, r')

/-- Where the same handles are live, the same one is free next. -/
theorem Handles.nextHandle_eq {r : Engine} (hr : r.Handles) (hh : e.Handles)
    (hlive : ∀ k, r.machine.array? (.other k) = none ↔ e.machine.array? (.other k) = none) :
    r.nextHandle = e.nextHandle := by
  obtain ⟨i, hi, -, hnone, hbelow⟩ := hr.exists_nextHandle
  obtain ⟨j, hj, -, hnone', hbelow'⟩ := hh.exists_nextHandle
  rcases Nat.lt_trichotomy i j with hlt | rfl | hlt
  · exact absurd ((hlive i).mp hnone) (hbelow' i hlt)
  · rw [hi, hj]
  · exact absurd ((hlive j).mpr hnone') (hbelow j hlt)

structure Restorable (e : Engine) : Prop where
  zeroLive : e.machine.zeroLive = true
  awaits : e.Awaits
  program : e.machine.running.words.size < Layout.limit
  small : ∀ k a, e.machine.array? (.other k) = some a →
    k + 1 < 0x1000000 ∧ a.words.size < Layout.limit

namespace Restorable

theorem live (he : e.Restorable) (i : Nat) (words : Array Platter)
    (h : e.machine.otherWords[i]?.join = some words) :
    i + 1 < 0x1000000 ∧ words.size < Layout.limit := by
  rw [Machine.join_getElem?_otherWords] at h
  obtain ⟨a, ha, rfl⟩ := Option.map_eq_some_iff.mp h
  exact he.small i a ha

theorem word (he : e.Restorable) (i : Nat) (words : Array Platter)
    (h : e.machine.otherWords[i]?.join = some words) : i + 1 < 0x100000000 :=
  Nat.lt_trans (he.live i words h).1 (by decide)

theorem fit (he : e.Restorable) (hopen : e.host.closed = false) (x : UInt32 × Array Platter)
    (hx : x ∈ e.state.arrays) : x.1.toNat < handleLimit ∧ x.2.size < Layout.limit := by
  rw [state_arrays hopen he.word, List.mem_cons] at hx
  rcases hx with rfl | hx
  · exact ⟨show (0 : UInt32).toNat < handleLimit by decide, he.program⟩
  · obtain ⟨i, hi, hhandle⟩ := mem_liveEntries.mp hx
    rw [hhandle, UInt32.toNat_ofNat_of_lt' (he.word i _ hi)]
    exact he.live i _ hi

theorem exists_mirror (he : e.Restorable) (hh : e.Handles) (hopen : e.host.closed = false)
    (hmemory : (config.memory.getD .mapped).Covers 0 0) :
    ∃ r, restore e.state config = (.done (), r) ∧ r.Mirrors e := by
  obtain ⟨r, top, hrestore, hbelow, hsupplied, hr, hpicture⟩ := exists_restore hmemory
    (state_array?_zero hopen) he.awaits he.program (he.fit hopen)
  have hothers (k : Nat) : (r.machine.array? (.other k)).map PlatterArray.words =
      (e.machine.array? (.other k)).map PlatterArray.words := by
    rw [← Machine.join_getElem?_otherWords, ← Machine.join_getElem?_otherWords,
      show r.machine.otherWords = placed (Array.replicate top none) e.state.arrays from
        congrArg Picture.others hpicture]
    exact join_getElem?_placed_state hopen hbelow he.word k
  have hprogram : r.machine.running.words = e.machine.running.words :=
    congrArg Picture.program hpicture
  have hregisters : r.machine.registers = e.machine.registers :=
    (congrArg Picture.registers hpicture).trans (registers_restored e.state
      e.machine.running.words top config)
  refine ⟨r, hrestore, hregisters, congrArg Picture.finger hpicture, hprogram, fun handle => ?_,
    fun size handle e' hallocate => ?_⟩
  · by_cases h0 : handle = 0
    · subst h0
      rw [Machine.lookup_zero, Machine.lookup_zero, he.zeroLive,
        show r.machine.zeroLive = true from congrArg Picture.zeroLive hpicture]
      exact congrArg some hprogram
    · rw [Machine.lookup_of_ne_zero h0, Machine.lookup_of_ne_zero h0]
      exact hothers _
  · obtain ⟨-, -, rfl, -⟩ := exists_alloc_of_allocate hopen hallocate
    have hnext : r.nextHandle = e.nextHandle := by
      refine hr.nextHandle_eq hh fun k => ?_
      rw [← Option.map_eq_none_iff (f := PlatterArray.words), hothers k, Option.map_eq_none_iff]
    obtain ⟨buffer, memory, halloc, -⟩ :=
      (hsupplied.lends.wp_alloc (n := size.toNat) size.toNat_lt true).exists_done
    rw [← hnext]
    exact ⟨_, allocate_of_alloc (congrArg Picture.closed hpicture) halloc⟩

end Restorable

/-- Restoring succeeds exactly on the states that an engine can continue from, gives back the state
itself, and says what is wrong with any other. An engine that can be run again is mirrored by the
one restored from its state. -/
theorem restore_inverts_state (hmemory : (config.memory.getD .mapped).Covers 0 0) :
    (∀ s : MachineState, (∀ x ∈ s.arrays, x.2.size < Layout.limit) →
      ((restore s config).1 = .done () ↔ s.Acceptable) ∧
      (s.Acceptable → (restore s config).2.state = s) ∧
      (¬ s.Acceptable → ∃ fault, s.Refused fault ∧
        restore s config = (.failed fault, blank config))) ∧
    ∀ m₀ l₀ e others, Worked m₀ l₀ e others → e.Restorable →
      ∃ r, restore e.state config = (.done (), r) ∧ r.Mirrors e := by
  refine ⟨fun s hsize => ⟨restore_eq_done_iff hmemory hsize, fun hs => ?_,
    restore_of_not_acceptable config⟩, fun m₀ l₀ e others hw he => ?_⟩
  · obtain ⟨r, hrestore, hstate⟩ := restore_of_acceptable hmemory hsize hs
    rw [hrestore]
    exact hstate
  · exact he.exists_mirror hw.handles hw.opened hmemory

theorem exists_new (hmemory : (config.memory.getD .mapped).Covers 0 0) {program : Array Platter}
    (hsize : program.size < Layout.limit) :
    ∃ e, new program config = (.done (), e) ∧ e.machine.others = #[] ∧
      e.picture = started program config := by
  obtain ⟨_, e, hnew, -, hothers, hpicture⟩ := (wp_start_supplied hmemory hsize).exists_done
  exact ⟨e, hnew, hothers, hpicture⟩

/-- A state with gaps between its handles, and with an empty array. -/
def sparse : MachineState :=
  ⟨Vector.replicate 8 7, 1, [(0, #[0x30000000, 0x70000000]), (2, #[]), (0xFFFFFF, #[3, 4])],
    by decide⟩

theorem restore_inverts_state_sparse :
    ((EngineConfig.memory {}).getD .mapped).Covers 0 0 ∧
    (restore sparse {}).1 = .done () ∧ (restore sparse {}).2.state = sparse ∧
    (∃ fault, restore { sparse with finger := 2 } {} = (.failed fault, blank {})) ∧
    ∃ e r, new #[0x70000000] {} = (.done (), e) ∧ restore e.state {} = (.done (), r) ∧
      r.Mirrors e := by
  have hmemory : ((EngineConfig.memory {}).getD .mapped).Covers 0 0 := Memory.covers_mapped
  obtain ⟨hstates, hengines⟩ := restore_inverts_state hmemory
  have hsparse : sparse.Acceptable := ⟨_, rfl, by decide, by simp [sparse, MachineState.handles]⟩
  have hsizes : ∀ x ∈ sparse.arrays, x.2.size < Layout.limit := by decide
  obtain ⟨hiff, hstate, -⟩ := hstates sparse hsizes
  refine ⟨hmemory, hiff.mpr hsparse, hstate hsparse, ?_, ?_⟩
  · obtain ⟨-, -, hrefused⟩ := hstates { sparse with finger := 2 } hsizes
    have hbeyond : ¬ MachineState.Acceptable { sparse with finger := 2 } := by
      rintro ⟨program, hprogram, hfinger, -⟩
      cases hprogram
      exact absurd hfinger (by decide)
    obtain ⟨fault, -, hrestore⟩ := hrefused hbeyond
    exact ⟨fault, hrestore⟩
  · have hsize : (#[0x70000000] : Array Platter).size < Layout.limit := by decide
    obtain ⟨e, hnew, hothers, hpicture⟩ := exists_new hmemory hsize
    have hprogram : e.machine.running.words = #[0x70000000] := congrArg Picture.program hpicture
    have hfinger : e.host.finger = 0 := congrArg Picture.finger hpicture
    have hrestorable : e.Restorable := by
      refine ⟨congrArg Picture.zeroLive hpicture, ?_, ?_, fun k a ha => ?_⟩
      · rw [Awaits, hprogram, hfinger]
        decide
      · rw [hprogram]
        decide
      · rw [Machine.array?_other, hothers] at ha
        cases ha
    have hworked : Worked .mapped 0 (new #[0x70000000] {}).2 0 :=
      .new rfl (by decide) (congrArg Prod.fst hnew)
    rw [hnew] at hworked
    obtain ⟨r, hrestore, hmirrors⟩ := hengines _ _ e _ hworked hrestorable
    exact ⟨e, r, hnew, hrestore, hmirrors⟩

end Engine

end PlatterMachine
