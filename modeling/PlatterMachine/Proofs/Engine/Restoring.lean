import PlatterMachine.Proofs.Engine.Refinement

/-!
# Restored engines

The state of an engine lists its live arrays. Restoring makes them again under their handles, so
that an engine restored from the state of a poised one is poised where that one was, with an input
and an output of its own.
-/

namespace PlatterMachine.Engine

variable {e : Engine} {config : EngineConfig} {input : List UInt8}

def liveEntries (others : Array (Option (Array Platter))) (n : Nat) :
    List (UInt32 × Array Platter) :=
  (List.range n).filterMap fun i => others[i]?.join.map (Prod.mk (UInt32.ofNat (i + 1)))

theorem liveEntries_succ (others : Array (Option (Array Platter))) (n : Nat) :
    liveEntries others (n + 1) = liveEntries others n ++
      (others[n]?.join.map (Prod.mk (UInt32.ofNat (n + 1)))).toList := by
  rw [liveEntries, List.range_succ, List.filterMap_append]
  refine congrArg (liveEntries others n ++ ·) ?_
  simp only [List.filterMap_cons, List.filterMap_nil]
  cases others[n]?.join <;> rfl

theorem mem_liveEntries {others : Array (Option (Array Platter))}
    {x : UInt32 × Array Platter} : x ∈ liveEntries others others.size ↔
      ∃ i, others[i]?.join = some x.2 ∧ x.1 = UInt32.ofNat (i + 1) := by
  simp only [liveEntries, List.mem_filterMap, Option.map_eq_some_iff, List.mem_range]
  constructor
  · rintro ⟨i, -, words, hwords, rfl⟩
    exact ⟨i, hwords, rfl⟩
  · rintro ⟨i, hwords, hhandle⟩
    refine ⟨i, ?_, x.2, hwords, Prod.ext hhandle.symm rfl⟩
    by_contra hge
    rw [Array.getElem?_eq_none (Nat.le_of_not_lt hge)] at hwords
    cases hwords

theorem pairwise_liveEntries {others : Array (Option (Array Platter))}
    (hword : ∀ i words, others[i]?.join = some words → i + 1 < UInt32.size) (n : Nat) :
    (liveEntries others n).Pairwise fun x y => x.1 < y.1 := by
  refine List.pairwise_filterMap.mpr (List.pairwise_lt_range.imp fun hlt x hx y hy => ?_)
  obtain ⟨words, hi, rfl⟩ := Option.map_eq_some_iff.mp hx
  obtain ⟨words', hj, rfl⟩ := Option.map_eq_some_iff.mp hy
  rw [UInt32.lt_iff_toNat_lt, UInt32.toNat_ofNat_of_lt' (hword _ _ hi),
    UInt32.toNat_ofNat_of_lt' (hword _ _ hj)]
  exact Nat.succ_lt_succ hlt

theorem stateEntries_eq (m : Machine) (n : Nat) (later : List (UInt32 × Array Platter)) :
    stateEntries m.others n later = liveEntries m.otherWords n ++ later := by
  induction n generalizing later with
  | zero => rfl
  | succ n ih =>
    rw [stateEntries, liveEntries_succ, Machine.join_getElem?_otherWords, Machine.array?_other,
      List.append_assoc]
    rcases m.others[n]? with _ | _ | a
    · exact ih later
    · exact ih later
    · exact ih _

/-- As long as words can name all live arrays, the state has each of them once. -/
theorem state_arrays (hopen : e.host.closed = false)
    (hword : ∀ i words, e.machine.otherWords[i]?.join = some words → i + 1 < UInt32.size) :
    e.state.arrays = (0, e.machine.running.words) ::
      liveEntries e.machine.otherWords e.machine.otherWords.size := by
  simp only [state, MachineState.ofEntries, hopen, Bool.false_eq_true, if_false, stateEntries_eq,
    ← Machine.size_otherWords]
  refine MachineState.collect_concat (pairwise_liveEntries hword _) fun x hx => ?_
  obtain ⟨i, hi, hhandle⟩ := mem_liveEntries.mp hx
  rw [hhandle, UInt32.lt_iff_toNat_lt, UInt32.toNat_ofNat_of_lt' (hword i _ hi)]
  exact Nat.succ_pos i

def placed (others : Array (Option (Array Platter))) (arrays : List (UInt32 × Array Platter)) :
    Array (Option (Array Platter)) :=
  arrays.foldl (fun others x =>
    if x.1 = 0 then others else others.setIfInBounds (x.1.toNat - 1) (some x.2)) others

theorem size_placed (others : Array (Option (Array Platter)))
    (arrays : List (UInt32 × Array Platter)) : (placed others arrays).size = others.size := by
  induction arrays generalizing others with
  | nil => rfl
  | cons x rest ih =>
    refine (ih _).trans ?_
    dsimp only
    split
    · rfl
    · exact Array.size_setIfInBounds

/-- Handles that fit a word keep their arrays apart. -/
theorem join_getElem?_placed {others : Array (Option (Array Platter))} {top : Nat}
    (hlive : ∀ i words, others[i]?.join = some words → i < top ∧ i + 1 < 0x100000000)
    (n k : Nat) :
    (placed (Array.replicate top none) (liveEntries others n))[k]?.join =
      if k < n then others[k]?.join else none := by
  induction n with
  | zero =>
    rw [if_neg (by omega)]
    change (Array.replicate top none)[k]?.join = none
    rw [Array.getElem?_replicate]
    split <;> rfl
  | succ n ih =>
    rw [liveEntries_succ, placed, List.foldl_append]
    change (List.foldl _ (placed (Array.replicate top none) (liveEntries others n)) _)[k]?.join = _
    cases hn : others[n]?.join with
    | none =>
      refine ih.trans ?_
      by_cases hk : k = n
      · simp [hk, hn]
      · simp only [show k < n + 1 ↔ k < n by omega]
    | some words =>
      obtain ⟨htop, hword⟩ := hlive n words hn
      have hhandle : (UInt32.ofNat (n + 1)).toNat = n + 1 := UInt32.toNat_ofNat_of_lt' hword
      have hne : UInt32.ofNat (n + 1) ≠ 0 := by
        intro h0
        rw [h0] at hhandle
        cases hhandle
      simp only [Option.map_some, Option.toList_some, List.foldl_cons, List.foldl_nil, if_neg hne,
        hhandle, Nat.add_sub_cancel, Array.getElem?_setIfInBounds, size_placed, Array.size_replicate]
      by_cases hk : n = k
      · subst hk
        simp [htop, hn]
      · rw [if_neg hk, ih]
        simp only [show k < n + 1 ↔ k < n by omega]

theorem Supplied.wp_restoreArrays (hs : e.Supplied) {arrays : List (UInt32 × Array Platter)}
    (hdistinct : (arrays.map Prod.fst).Nodup)
    (hfree : ∀ x ∈ arrays, x.1 ≠ 0 → x.1.toNat - 1 < e.picture.others.size ∧
      e.picture.others[x.1.toNat - 1]?.join = none ∧ x.2.size < Layout.limit) :
    (restoreArrays arrays).wp
      (fun _ e' => e'.Supplied ∧
        e'.picture = { e.picture with others := placed e.picture.others arrays })
      (fun _ => False) e := by
  induction arrays generalizing e with
  | nil => exact ⟨hs, rfl⟩
  | cons x rest ih =>
    obtain ⟨handle, words⟩ := x
    rw [List.map_cons, List.nodup_cons] at hdistinct
    obtain ⟨hnew, hdistinct⟩ := hdistinct
    rw [List.forall_mem_cons] at hfree
    obtain ⟨hfirst, hfree⟩ := hfree
    rw [restoreArrays]
    by_cases h0 : handle = 0
    · simp only [placed, List.foldl_cons, h0, ne_eq, not_true, if_false, if_true]
      exact ih hs hdistinct hfree
    · obtain ⟨hlt, hnone, hsize⟩ := hfirst h0
      obtain ⟨i, hi⟩ : ∃ i, handle.toNat = i + 1 :=
        Nat.exists_eq_succ_of_ne_zero fun h => h0 (UInt32.toNat_inj.mp h)
      simp only [hi, Nat.add_sub_cancel] at hlt hnone
      have hnone' : e.machine.array? (.other i) = none := by
        rwa [show e.picture.others[i]?.join = _ from Machine.join_getElem?_otherWords ..,
          Option.map_eq_none_iff] at hnone
      have hlt' : i < e.machine.others.size := by rwa [← Machine.size_otherWords]
      simp only [ne_eq, h0, not_false_iff, if_true, Action.wp_bind, Action.wp_during]
      apply Action.wp.cleaningUp
      rw [wp_inMemory]
      refine (hs.lends.wp_alloc hsize true).imp (fun buffer memory _ hlends => ?_)
        fun _ hf => hf.elim
      rw [wp_onMachine, hi]
      have hs' : Supplied ⟨e.machine.setOther (i + 1) (some ⟨words, buffer, false, none⟩),
          (e.withMemory memory).host⟩ := hs.setOther (Nat.le_of_lt hlt') hnone' words hlends
      have hpicture : picture ⟨e.machine.setOther (i + 1) (some ⟨words, buffer, false, none⟩),
          (e.withMemory memory).host⟩ =
            { e.picture with others := e.picture.others.setIfInBounds i (some words) } := by
        simp only [picture, Machine.setOther_file, Machine.setOther_running,
          Machine.setOther_zeroLive, Machine.otherWords_setOther, Machine.size_otherWords,
          if_pos hlt', Option.map_some]
        rfl
      refine (ih hs' hdistinct fun x hx hx0 => ?_).imp
        (fun _ e' _ h => ⟨h.1, h.2.trans ?_⟩) fun _ hf => hf
      · obtain ⟨hxlt, hxnone, hxsize⟩ := hfree x hx hx0
        have hne : i ≠ x.1.toNat - 1 := by
          intro heq
          refine hnew (List.mem_map.mpr ⟨x, hx, UInt32.toNat_inj.mp ?_⟩)
          have hpos : x.1.toNat ≠ 0 := fun h => hx0 (UInt32.toNat_inj.mp h)
          change x.1.toNat = handle.toNat
          omega
        rw [hpicture]
        dsimp only
        rw [Array.size_setIfInBounds, Array.getElem?_setIfInBounds, if_neg hne]
        exact ⟨hxlt, hxnone, hxsize⟩
      · rw [hpicture, placed, placed, List.foldl_cons, if_neg h0, hi]
        rfl

def restored (state : MachineState) (program : Array Platter) (top : Nat) (config : EngineConfig) :
    Picture :=
  { started program config with
    file := Vector.ofFn fun i => if h : i.val < 8 then state.registers.get ⟨i.val, h⟩ else 0
    others := placed (Array.replicate top none) state.arrays
    finger := state.finger }

theorem registers_restored (state : MachineState) (program : Array Platter) (top : Nat)
    (config : EngineConfig) : (restored state program top config).registers = state.registers := by
  apply Vector.ext
  intro i hi
  rw [Picture.registers, Vector.getElem_ofFn]
  exact (Vector.getElem_ofFn (Nat.lt_trans hi (by decide))).trans (dif_pos hi)

theorem wp_resume_supplied (hmemory : (config.memory.getD .mapped).Covers 0 0)
    {state : MachineState} {program : Array Platter} {top : Nat} (hsize : program.size < Layout.limit)
    (hfit : ∀ x ∈ state.arrays, x.1.toNat ≤ top ∧ x.2.size < Layout.limit) :
    (resume state program top).wp
      (fun _ e => e.Supplied ∧ e.Handles ∧
        e.picture = { restored state program top config with minFree := e.host.minFree })
      (fun _ => False) (blank config) := by
  rw [wp_resume_iff]
  refine (wp_start_supplied hmemory hsize).imp (fun _ e' _ hstart => ?_) fun _ hf => hf
  obtain ⟨hs, hempty, hpicture⟩ := hstart
  have hs' : (e'.readied state top).Supplied := by
    refine hs.of_arrays ?_ (fun place => ?_) rfl
    · simp [Machine.arrays, Machine.otherArrays, hempty]
    · cases place with
      | running => rfl
      | other i =>
        refine (array?_readied_other e' state top i).trans ?_
        rw [Machine.array?_other, hempty]
        rfl
  have hpicture' : (e'.readied state top).picture =
      { restored state program top config with others := Array.replicate top none } := by
    have hothers : (Array.replicate top none).map (Option.map PlatterArray.words) =
        Array.replicate top none := by simp
    rw [restored, ← hpicture, ← hothers]
    rfl
  refine (hs'.wp_restoreArrays state.nodup_handles fun x hx hx0 => ?_).imp
    (fun _ e'' _ hrestored => ?_) fun _ hf => hf
  · obtain ⟨hle, hlt⟩ := hfit x hx
    have hpos : x.1.toNat ≠ 0 := fun h => hx0 (UInt32.toNat_inj.mp h)
    rw [hpicture']
    dsimp only
    rw [Array.size_replicate, Array.getElem?_replicate, if_pos (by omega)]
    exact ⟨by omega, rfl, hlt⟩
  · obtain ⟨hs'', hp⟩ := hrestored
    obtain ⟨hge, hle, hlive⟩ := e''.minFree_searched
    refine ⟨hs''.of_arrays rfl (fun _ => rfl) rfl, ⟨hge, hle, hlive⟩, ?_⟩
    rw [hpicture'] at hp
    exact congrArg (fun p : Picture => { p with minFree := e''.searched.host.minFree }) hp

theorem exists_restore (hmemory : (config.memory.getD .mapped).Covers 0 0)
    {state : MachineState} {program : Array Platter} (hprogram : state.array? 0 = some program)
    (hfinger : state.finger.toNat < program.size) (hsize : program.size < Layout.limit)
    (hfit : ∀ x ∈ state.arrays, x.1.toNat < handleLimit ∧ x.2.size < Layout.limit) :
    ∃ r top, restore state config = (.done (), r) ∧ (∀ x ∈ state.arrays, x.1.toNat ≤ top) ∧
      r.Supplied ∧ r.Handles ∧
      r.picture = { restored state program top config with minFree := r.host.minFree } := by
  have htop : (state.handles.foldl max 0).toNat < handleLimit := by
    rw [foldl_max_lt_iff]
    refine ⟨by decide, fun handle hhandle => ?_⟩
    obtain ⟨x, hx, rfl⟩ := List.mem_map.mp hhandle
    exact (hfit x hx).1
  have hbelow (x : UInt32 × Array Platter) (hx : x ∈ state.arrays) :
      x.1.toNat ≤ (state.handles.foldl max 0).toNat :=
    Nat.le_of_lt_succ
      (((foldl_max_lt_iff ..).mp (Nat.lt_succ_self _)).2 x.1 (List.mem_map_of_mem hx))
  obtain ⟨_, r, hresume, hs, hh, hpicture⟩ := (wp_resume_supplied hmemory hsize
    fun x hx => ⟨hbelow x hx, (hfit x hx).2⟩).exists_done
  refine ⟨r, _, ?_, hbelow, hs, hh, hpicture⟩
  simp only [restore, hprogram, if_neg (Nat.not_le.mpr hfinger), if_neg (Nat.not_le.mpr htop)]
  exact hresume

theorem shows_restored (hconfig : config.Reliable input) {state : MachineState}
    {program : Array Platter} {top : Nat} {r : Engine} (hh : r.Handles)
    (hpicture : r.picture =
      { restored state program top config with minFree := r.host.minFree }) :
    r.picture.Shows ⟨state.registers, program, true,
      placed (Array.replicate top none) state.arrays, state.finger.toNat, input, #[],
      config.suspendOnEnd⟩ where
  registers_eq := (congrArg Picture.registers hpicture).trans
    (registers_restored state program top config)
  program_eq := congrArg Picture.program hpicture
  zeroLive_eq := congrArg Picture.zeroLive hpicture
  others_eq := congrArg Picture.others hpicture
  suspendOnEnd_eq := congrArg Picture.suspendOnEnd hpicture
  delivers := by
    rw [hpicture]
    exact hconfig.delivers
  emits := by
    rw [hpicture]
    exact hconfig.emits
  free_pos := hh.pos
  free_le := by
    change _ ≤ r.machine.otherWords.size + 1
    rw [Machine.size_otherWords]
    exact hh.le
  live k hk := by
    rw [show r.picture.others[k]?.join = _ from Machine.join_getElem?_otherWords .., ne_eq,
      Option.map_eq_none_iff]
    exact hh.live k hk
  opened := congrArg Picture.closed hpicture
  going := congrArg Picture.stopped hpicture

/-- The table that a state is put into has the live arrays of the engine. -/
theorem join_getElem?_placed_state (hopen : e.host.closed = false) {top : Nat}
    (hbelow : ∀ x ∈ e.state.arrays, x.1.toNat ≤ top)
    (hword : ∀ i words, e.machine.otherWords[i]?.join = some words → i + 1 < 0x100000000) (k : Nat) :
    (placed (Array.replicate top none) e.state.arrays)[k]?.join =
      e.machine.otherWords[k]?.join := by
  rw [state_arrays hopen hword] at hbelow ⊢
  rw [placed, List.foldl_cons, if_pos rfl]
  refine (join_getElem?_placed (fun i words h => ⟨?_, hword i words h⟩) _ k).trans ?_
  · have hle := hbelow (UInt32.ofNat (i + 1), words)
      (List.mem_cons_of_mem _ (mem_liveEntries.mpr ⟨i, h, rfl⟩))
    rw [UInt32.toNat_ofNat_of_lt' (hword i words h)] at hle
    exact hle
  · split
    · rfl
    · rename_i hge
      rw [Array.getElem?_eq_none (Nat.le_of_not_lt hge)]
      rfl

/-- Array 0 has to be live: a state does not tell that it was abandoned. -/
theorem Poised.restore {s : Interpreter} (hp : e.Poised s) (hconfig : config.Reliable input)
    (hzero : s.zeroLive = true) (hfinger : s.finger < s.program.size)
    (hsize : s.program.size < Layout.limit)
    (hlive : ∀ k words, s.others[k]?.join = some words →
      k + 1 < handleLimit ∧ words.size < Layout.limit) :
    ∃ r others, restore e.state config = (.done (), r) ∧
      r.Poised { s with others, input, output := #[], suspendOnEnd := config.suspendOnEnd } ∧
      ∀ k : Nat, others[k]?.join = s.others[k]?.join := by
  have hothers : e.machine.otherWords = s.others := hp.represents.shows.others_eq
  have hprogram : e.machine.running.words = s.program := hp.represents.shows.program_eq
  have hword (k : Nat) (words : Array Platter) (h : s.others[k]?.join = some words) :
      k + 1 < 0x100000000 := Nat.lt_trans (hlive k words h).1 (by decide)
  have harrays := state_arrays hp.represents.shows.opened (by rwa [hothers])
  rw [hothers, hprogram] at harrays
  have hfit (x : UInt32 × Array Platter) (hx : x ∈ e.state.arrays) :
      x.1.toNat < handleLimit ∧ x.2.size < Layout.limit := by
    rw [harrays, List.mem_cons] at hx
    rcases hx with rfl | hx
    · exact ⟨show (0 : UInt32).toNat < handleLimit by decide, hsize⟩
    · obtain ⟨i, hi, hhandle⟩ := mem_liveEntries.mp hx
      rw [hhandle, UInt32.toNat_ofNat_of_lt' (hword i _ hi)]
      exact hlive i _ hi
  have harray : e.state.array? 0 = some s.program := by
    rw [MachineState.array?, harrays, List.lookup_cons_self]
  obtain ⟨r, top, hrestore, hbelow, hs, hh, hpicture⟩ := exists_restore hconfig.memory harray
    (by rwa [show e.state.finger.toNat = s.finger from hp.finger_eq]) hsize hfit
  have hcoherent := restore_coherent (congrArg Prod.fst hrestore)
  rw [hrestore] at hcoherent
  refine ⟨r, placed (Array.replicate top none) e.state.arrays, hrestore,
    ⟨hcoherent, ⟨hs, ?_⟩, ?_⟩, fun k => ?_⟩
  · have hshows := shows_restored hconfig hh hpicture
    rw [show e.state.registers = s.registers from hp.represents.shows.registers_eq,
      show e.state.finger.toNat = s.finger from hp.finger_eq, ← hzero] at hshows
    exact hshows
  · exact (congrArg (fun p => UInt32.toNat (Picture.finger p)) hpicture).trans hp.finger_eq
  · rw [← hothers] at hword ⊢
    exact join_getElem?_placed_state hp.represents.shows.opened hbelow hword k

end PlatterMachine.Engine
