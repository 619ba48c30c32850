import PlatterMachine.Proofs.Engine.Standstill
import PlatterMachine.Proofs.Interpreter.Crowding
import PlatterMachine.Proofs.Snapshot.Saving

/-!
# Suspended machines come back

A machine that waits for input and has been saved is loaded as it was, and restored to an engine with
the same state. There are two limits. A record names no more than 131072 arrays, which is noticed only
when it is read, and handles from 2^24 on are not restored.
-/

namespace PlatterMachine.Engine

open Interpreter (crowded scattered)

/-- A program that waits for input brings its engine to a halt there. -/
theorem exists_waiting {program : Array Platter} {config : EngineConfig} {input : List UInt8}
    (hconfig : config.Reliable input)
    (hshort : (Interpreter.start program input config.suspendOnEnd).Addressable) {n : Nat}
    {s : Interpreter}
    (hplain : (Interpreter.start program input config.suspendOnEnd).run n =
      (some (.error .suspended), s)) :
    ∃ e ticks e', new program config = (.done (), e) ∧ Reachable e ∧
      e.run .none false ticks = (some (.failed .suspended), e') ∧ e'.Poised s := by
  obtain ⟨e, hnew, hp⟩ := new_poised hconfig hshort.size_lt
  obtain ⟨ticks, outcome, e', hrun, hleaves⟩ := hp.exists_run hshort hplain
  have hreachable := Reachable.new (congrArg Prod.fst hnew)
  rw [hnew] at hreachable
  cases hleaves.eq_suspended
  exact ⟨e, ticks, e', hnew, hreachable, hrun, hleaves.poised rfl⟩

theorem Poised.state_arrays {e : Engine} {s : Interpreter} (hp : e.Poised s)
    (hword : ∀ i words, s.others[i]?.join = some words → i + 1 < UInt32.size) :
    e.state.arrays = (0, s.program) :: liveEntries s.others s.others.size := by
  rw [← hp.represents.agrees.others_eq] at hword
  rw [Engine.state_arrays hp.represents.shows.opened hword, ← hp.represents.agrees.program_eq,
    ← hp.represents.agrees.others_eq]

theorem succ_lt_of_size {others : Array (Option (Array Platter))} (hsize : others.size < UInt32.size)
    (i : Nat) (words : Array Platter) (h : others[i]?.join = some words) : i + 1 < UInt32.size :=
  Nat.lt_of_le_of_lt (lt_size_of_join h) hsize

theorem Poised.tableSize_eq {e : Engine} {s : Interpreter} (hp : e.Poised s) :
    e.tableSize = s.others.size + 1 := by
  have hopen : e.host.closed = false := hp.represents.shows.opened
  rw [tableSize, hopen, ← hp.represents.agrees.others_eq, Machine.size_otherWords]
  rfl

theorem Poised.exists_save {e : Engine} {s : Interpreter} (hp : e.Poised s) (db : Database)
    {name : List UInt8} (hname : Snapshot.ValidName name) (hash : Vector UInt8 32) (created : Int64) :
    ∃ db', Store.save db name hash created e.state = .ok db' := by
  refine ⟨_, Store.save_of_valid hname ?_⟩
  rw [state_array?_zero hp.represents.shows.opened]
  rintro ⟨⟩

/-- Whatever an engine has gone through when it is suspended: once its state has been saved, with no
more arrays than a record can name, the same state is loaded. With memory for its arrays it is
restored if and only if its handles are below the limit, and then nothing is lost. -/
theorem suspended_machine_recovered {e e' : Engine} (h : Reachable e) {signals : Signals}
    {cancelled : Bool} {fuel : Nat}
    (hrun : e.run signals cancelled fuel = (some (.failed .suspended), e'))
    (htable : e'.tableSize ≤ UInt32.size) (hcount : e'.state.arrays.length ≤ Cbor.maxElements)
    {db db' : Database} {name : List UInt8} {hash : Vector UInt8 32} {created : Int64}
    (hsave : Store.save db name hash created e'.state = .ok db') :
    Store.load db' name = .ok ⟨name, hash, created, e'.state⟩ ∧
    (∀ config : EngineConfig, (config.memory.getD .mapped).Covers 0 0 →
      (∀ x ∈ e'.state.arrays, x.2.size < Layout.limit) →
      (∀ handle ∈ e'.state.handles, handle.toNat < handleLimit) →
        ∃ r, restore e'.state config = (.done (), r) ∧ r.state = e'.state) ∧
    ∀ (config : EngineConfig), ∀ handle ∈ e'.state.handles, handleLimit ≤ handle.toNat →
      ∃ top ∈ e'.state.handles, handleLimit ≤ top.toNat ∧ restore e'.state config =
        (.failed (.invalidIndex "restored handle beyond handle limit" top), blank config) := by
  have hawaits := h.coherent.awaits_of_run hrun
  have hopen : e'.host.closed = false := by
    obtain ⟨-, hprogram, -⟩ := Store.save_eq_ok hsave
    cases hclosed : e'.host.closed with
    | true =>
      rw [MachineState.array?, state, hclosed] at hprogram
      cases hprogram
    | false => rfl
  refine ⟨Store.load_of_save hsave hcount, fun config hmemory hsize hsmall => ?_,
    fun config handle hmem hlarge => hawaits.restore_refused hopen hmem hlarge config⟩
  exact hawaits.exists_restore hopen htable hmemory fun x hx =>
    ⟨hsmall x.1 (List.mem_map_of_mem hx), hsize x hx⟩

theorem suspended_machine_recovered_patientEcho :
    ∃ e ticks e' db, new patientEcho (patient [104]) = (.done (), e) ∧
      e.run .none false ticks = (some (.failed .suspended), e') ∧
      Store.save ∅ [109] (Vector.replicate 32 7) 3 e'.state = .ok db ∧
      Store.load db [109] = .ok ⟨[109], Vector.replicate 32 7, 3, e'.state⟩ ∧
      ∃ r, restore e'.state {} = (.done (), r) ∧ r.state = e'.state := by
  have hplain : (Interpreter.start patientEcho [104] true).run 4 = (some (.error .suspended),
      ((Interpreter.start patientEcho [104] true).run 4).2) := rfl
  have hm : Snapshot.ValidName [109] := by decide
  obtain ⟨e, ticks, e', hnew, hreachable, hrun, hp⟩ := exists_waiting (patient_reliable 104 [])
    (Interpreter.addressable_of_run hplain (by decide +kernel)) hplain
  obtain ⟨db, hsave⟩ := hp.exists_save ∅ hm (Vector.replicate 32 7) 3
  have harrays : e'.state.arrays = [(0, patientEcho), (1, Array.replicate 104 0)] :=
    (hp.state_arrays (succ_lt_of_size (by decide +kernel))).trans (by decide +kernel)
  have htable : e'.tableSize ≤ UInt32.size := by
    rw [hp.tableSize_eq]
    decide +kernel
  obtain ⟨hload, hrestore, -⟩ := suspended_machine_recovered hreachable hrun htable
    (by rw [harrays]; decide) hsave
  refine ⟨e, ticks, e', db, hnew, hrun, hsave, hload,
    hrestore {} Memory.covers_mapped ?_ ?_⟩
  · rw [harrays]
    simp [patientEcho, Layout.limit]
  · intro handle hmem
    simp only [MachineState.handles, harrays, List.map_cons, List.map_nil, List.mem_cons,
      List.not_mem_nil, or_false] at hmem
    rcases hmem with rfl | rfl <;> decide

theorem length_liveEntries_replicate {n k : Nat} (words : Array Platter) (hk : k ≤ n) :
    (liveEntries (Array.replicate n (some words)) k).length = k := by
  induction k with
  | zero => rfl
  | succ k ih =>
    rw [liveEntries_succ, List.length_append, ih (Nat.le_of_succ_le hk), Array.getElem?_replicate,
      if_pos (Nat.lt_of_succ_le hk)]
    rfl

theorem liveEntries_of_last {others : Array (Option (Array Platter))} {last : Nat}
    {words : Array Platter} (hsize : others.size = last + 1)
    (h : ∀ k : Nat, others[k]?.join = if k = last then some words else none) :
    liveEntries others others.size = [(UInt32.ofNat (last + 1), words)] := by
  have hnone : liveEntries others last = [] := by
    refine List.filterMap_eq_nil_iff.mpr fun k hk => ?_
    rw [h, if_neg (Nat.ne_of_lt (List.mem_range.mp hk))]
    rfl
  rw [hsize, liveEntries_succ, hnone, h, if_pos rfl]
  rfl

/-- Each of two machines is suspended and saved without complaint. The first has one array more than
a record can name and cannot be loaded. The second is loaded, but has a handle that is not restored. -/
theorem suspended_machines_lost :
    (∃ e ticks e' db, new crowded (patient []) = (.done (), e) ∧
      e.run .none false ticks = (some (.failed .suspended), e') ∧
      Store.save ∅ [109] (Vector.replicate 32 7) 3 e'.state = .ok db ∧
      Store.load db [109] = .error (.badRecord [109] .tooManyElements)) ∧
    ∃ e ticks e' db, new scattered (patient []) = (.done (), e) ∧
      e.run .none false ticks = (some (.failed .suspended), e') ∧
      Store.save ∅ [109] (Vector.replicate 32 7) 3 e'.state = .ok db ∧
      Store.load db [109] = .ok ⟨[109], Vector.replicate 32 7, 3, e'.state⟩ ∧
      ∀ config, (restore e'.state config).1 =
        .failed (.invalidIndex "restored handle beyond handle limit" 0x1000000) := by
  have hm : Snapshot.ValidName [109] := by decide
  constructor
  · obtain ⟨n, handle, hplain⟩ := Interpreter.crowded_run
    obtain ⟨e, ticks, e', hnew, -, hrun, hp⟩ :=
      exists_waiting patient_nil_reliable Interpreter.crowded_addressable hplain
    obtain ⟨db, hsave⟩ := hp.exists_save ∅ hm (Vector.replicate 32 7) 3
    have hsize : (Array.replicate 131072 (some (#[] : Array Platter))).size < UInt32.size := by
      rw [Array.size_replicate]
      decide
    have hlength : e'.state.arrays.length = 131073 := by
      rw [hp.state_arrays (succ_lt_of_size hsize), List.length_cons]
      change (liveEntries (Array.replicate 131072 (some #[]))
        (Array.replicate 131072 (some #[])).size).length + 1 = _
      rw [Array.size_replicate, length_liveEntries_replicate _ (Nat.le_refl _)]
    refine ⟨e, ticks, e', db, hnew, hrun, hsave, Store.load_of_save_of_lt hsave ?_ ?_⟩
    · rw [hlength]
      decide
    · rw [hlength]
      decide
  · obtain ⟨n, handle, others, hplain, hsize, hlive⟩ := Interpreter.scattered_run
    obtain ⟨e, ticks, e', hnew, hreachable, hrun, hp⟩ :=
      exists_waiting patient_nil_reliable Interpreter.scattered_addressable hplain
    obtain ⟨db, hsave⟩ := hp.exists_save ∅ hm (Vector.replicate 32 7) 3
    have harrays : e'.state.arrays = [(0, scattered), (0x1000000, #[])] := by
      rw [hp.state_arrays (succ_lt_of_size (show others.size < _ by rw [hsize]; decide))]
      exact congrArg (List.cons _) (liveEntries_of_last hsize hlive)
    have hawaits := hreachable.coherent.awaits_of_run hrun
    refine ⟨e, ticks, e', db, hnew, hrun, hsave,
      Store.load_of_save hsave (by rw [harrays]; decide), fun config => ?_⟩
    have hhandles : e'.state.handles = [0, 0x1000000] := by rw [MachineState.handles, harrays]; rfl
    obtain ⟨top, htop, hlarge, hrefused⟩ := hawaits.restore_refused hp.represents.shows.opened
      (show (0x1000000 : UInt32) ∈ _ by rw [hhandles]; decide) (by decide) config
    rw [hhandles] at htop
    rw [hrefused]
    rcases List.mem_cons.mp htop with rfl | htop
    · exact absurd hlarge (by decide)
    · rw [List.mem_singleton.mp htop]

end PlatterMachine.Engine
