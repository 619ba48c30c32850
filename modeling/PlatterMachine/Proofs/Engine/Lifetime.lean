import PlatterMachine.Proofs.Engine.Ownership

/-!
# From making an engine to closing it

An engine that shares memory with others starts with one borrowed buffer, or with one for each array
that is restored, and holds the buffers of its arrays at every tick of every run. When it is closed,
or cannot be made, it has given back all that it had borrowed.
-/

namespace PlatterMachine

def Memory.inUse (m : Memory) : (Int × Int) × (Int × Int) × (Int × Int) :=
  (m.platters.inUse, m.code.inUse, m.slots.inUse)

theorem Arena.Account.inUse_eq {α : Type} [Element α] [WordElement α] {a₀ a : Arena α}
    {live : Multiset Buffer} (h : a₀.Account live a live) : a.inUse = a₀.inUse := by
  rw [inUse, inUse, h.tiled.stats, (h.traffic.tiled h.tiled).1.stats]

/-- The counters depend on what is lent only. -/
theorem Memory.Account.inUse_eq {m₀ m : Memory} {l : Loans} (h : m₀.Account l m l) :
    m.inUse = m₀.inUse := by
  rw [inUse, inUse, h.platters.inUse_eq, h.code.inUse_eq, h.slots.inUse_eq]

structure Loans.Apart (l : Loans) : Prop where
  platters : l.platters.Pairwise Buffer.Apart
  code : l.code.Pairwise Buffer.Apart
  slots : l.slots.Pairwise Buffer.Apart

namespace Arena

variable {α : Type} [Element α] {a : Arena α} {live : Multiset Buffer}

theorem Tiled.pairwise_apart_lent (h : a.Tiled live) : live.Pairwise Buffer.Apart := by
  refine ⟨live.toList, (Multiset.coe_toList _).symm, Arena.pairwise_apart fun r i => ?_⟩
  have hone := h.once r i
  rw [Multiset.countP_add] at hone
  rw [← Multiset.coe_countP, Multiset.coe_toList]
  split at hone <;> omega

end Arena

theorem Memory.Account.apart {m₀ m : Memory} {l₀ l : Loans} (h : m₀.Account l₀ m l) : l.Apart where
  platters := (h.platters.traffic.tiled h.platters.tiled).1.pairwise_apart_lent
  code := (h.code.traffic.tiled h.code.tiled).1.pairwise_apart_lent
  slots := (h.slots.traffic.tiled h.slots.tiled).1.pairwise_apart_lent

theorem Loans.sum_eq (arrays : List PlatterArray) :
    (arrays.map PlatterArray.loans).sum = ⟨arrays.map PlatterArray.buffer,
      (arrays.filterMap PlatterArray.code).map CodeObject.codeBuffer,
      (arrays.filterMap PlatterArray.code).map CodeObject.tableBuffer⟩ := by
  induction arrays with
  | nil => rfl
  | cons a arrays ih =>
    rw [List.map_cons, List.sum_cons, ih, List.filterMap_cons, PlatterArray.loans, add_assoc,
      List.map_cons, ← Multiset.cons_coe]
    cases hco : a.code with
    | none => rw [PlatterArray.codeLoans_of_none hco, zero_add, Loans.words_add]
    | some co =>
      rw [PlatterArray.codeLoans_of_some hco, CodeObject.loans_add, Loans.words_add, List.map_cons,
        List.map_cons, ← Multiset.cons_coe, ← Multiset.cons_coe]

namespace Engine

variable {m₀ : Memory} {l₀ others : Loans} {e : Engine}

def holdings (e : Engine) : Loans := (e.arrays.map PlatterArray.loans).sum

theorem holdings_of_closed (h : e.host.closed = true) : e.holdings = 0 := by
  rw [holdings, arrays, if_pos h]
  rfl

theorem holdings_of_open (h : e.host.closed = false) : e.holdings = e.machine.loans := by
  have hothers : (e.machine.otherArrays.map PlatterArray.loans).sum =
      ((e.machine.others.filterMap id).toList.map PlatterArray.loans).sum := by
    rw [Machine.otherArrays, Array.toList_filterMap, Multiset.map_coe, Multiset.sum_coe]
  rw [Machine.loans_eq, hothers, holdings, arrays, if_neg (by simp [h])]
  split
  · rw [List.map_cons, List.sum_cons]
  · rw [List.map_append, List.sum_append, List.map_cons, List.map_nil, List.sum_singleton, add_comm]

structure Released (m₀ : Memory) (l₀ others : Loans) (e : Engine) : Prop where
  isClosed : e.host.closed = true
  stopped : e.host.stopped = true
  donor : e.host.donor = none
  account : e.host.ownsMemory = false → m₀.Account l₀ e.host.memory others

/-- Whatever the arrays held is given back. -/
theorem ends_close (haccount : m₀.Account l₀ e.host.memory (e.holdings + others)) :
    close.ends (fun _ e' => e'.Released m₀ l₀ others ∧ e'.host.ownsMemory = e.host.ownsMemory)
      (fun _ e' => e'.Released m₀ l₀ others ∧ e'.host.ownsMemory = e.host.ownsMemory)
      (fun _ _ => False) e := by
  obtain ⟨_, memory, hmemory, haccount'⟩ := (haccount.ends_releaseAll.wp
    (fun _ _ _ h => h) (fun _ _ hf => hf)).exists_done
  have hclose := close_eq hmemory
  cases howns : e.host.ownsMemory with
  | false =>
    rw [howns, if_neg Bool.false_ne_true] at hclose
    exact (Action.ends_of_done hclose).mpr ⟨⟨rfl, rfl, rfl, fun _ => haccount'⟩, howns⟩
  | true =>
    have hreleased : (e.emptied memory.close.2).Released m₀ l₀ others := by
      refine ⟨rfl, rfl, rfl, fun hshared => ?_⟩
      cases howns.symm.trans hshared
    rw [howns, if_pos rfl] at hclose
    unfold Action.ends
    rw [hclose]
    cases memory.close.1 <;> exact ⟨hreleased, howns⟩

theorem Owned.account_holdings (ho : e.Owned m₀ l₀ others) :
    m₀.Account l₀ e.host.memory (e.holdings + others) := by
  rw [holdings_of_open ho.isOpen]
  exact ho.account

structure Unmade (m₀ : Memory) (l₀ : Loans) (owns : Bool) (e : Engine) : Prop where
  ownsMemory_eq : e.host.ownsMemory = owns
  account : owns = false → m₀.Account l₀ e.host.memory l₀

theorem Released.unmade {owns : Bool} (howns : e.host.ownsMemory = owns) {e' : Engine}
    (hr : e'.Released m₀ l₀ l₀ ∧ e'.host.ownsMemory = e.host.ownsMemory) :
    e'.Unmade m₀ l₀ owns :=
  ⟨hr.2.trans howns, fun hshared => hr.1.account ((hr.2.trans howns).trans hshared)⟩

theorem ends_onMachine_bind {α : Type} (f : Machine → Machine) (x : Unit → Action Engine α)
    {post : α → Engine → Prop} {failed : Fault → Engine → Prop}
    {crashed : Crash → Engine → Prop} : (onMachine f >>= x).ends post failed crashed e ↔
      (x ()).ends post failed crashed { e with machine := f e.machine } := Iff.rfl

theorem ends_onHost_bind {α : Type} (f : Host → Host) (x : Unit → Action Engine α)
    {post : α → Engine → Prop} {failed : Fault → Engine → Prop}
    {crashed : Crash → Engine → Prop} : (onHost f >>= x).ends post failed crashed e ↔
      (x ()).ends post failed crashed { e with host := f e.host } := Iff.rfl

theorem ends_start {config : EngineConfig} (hmemory : config.memory.getD .mapped = m₀)
    (haccount : m₀.Account l₀ m₀ l₀) {program : Array Platter}
    (hsmall : program.size ≤ Memory.arrayLimit) :
    (start program).ends
      (fun _ e => e.Owned m₀ l₀ l₀ ∧ e.machine.others = #[] ∧
        e.host.ownsMemory = config.memory.isNone)
      (fun _ => Unmade m₀ l₀ config.memory.isNone) (fun _ _ => False) (blank config) := by
  have hblank : (blank config).host.memory = m₀ := hmemory
  unfold start
  rw [Action.ends_bind, Action.ends_during]
  apply Action.ends.cleaningUp
  rw [inMemory, Action.ends_within, hblank]
  refine (haccount.ends_alloc hsmall false).imp (fun buffer memory _ hlends => ?_)
    (fun _ memory hkept => ?_) fun _ _ hf => hf
  · obtain ⟨hlent, hlength⟩ := hlends
    refine ⟨⟨rfl, ?_, fun place a ha => ?_⟩, rfl, rfl⟩
    · have hloans : Machine.loans ⟨(blank config).machine.file, ⟨program, buffer, false, none⟩, true,
          #[]⟩ = .words buffer := by
        rw [Machine.loans_eq]
        exact (add_zero _).trans (add_zero _)
      change m₀.Account l₀ memory (Machine.loans ⟨_, ⟨program, buffer, false, none⟩, true, #[]⟩ + l₀)
      rw [hloans]
      exact hlent
    · cases place with
      | running =>
        cases ha
        exact ⟨hsmall, hlength, by rintro co ⟨⟩⟩
      | other i => cases ha
  · -- there is nothing to release yet
    have hkept' : m₀.Account l₀ ((blank config).withMemory memory).host.memory
        (((blank config).withMemory memory).holdings + l₀) := by
      rw [holdings_of_closed rfl, zero_add]
      exact hkept
    exact (ends_close hkept').imp (fun _ _ _ hr => Released.unmade rfl hr)
      (fun _ _ hr => Released.unmade rfl hr) fun _ _ hf => hf

structure Places (e : Engine) (arrays : List (UInt32 × Array Platter)) : Prop where
  nodup : (arrays.map Prod.fst).Nodup
  small : ∀ entry ∈ arrays, entry.2.size ≤ Memory.arrayLimit
  within : ∀ entry ∈ arrays, entry.1.toNat ≤ e.machine.others.size
  free : ∀ entry ∈ arrays, entry.1 ≠ 0 → e.machine.array? (.other (entry.1.toNat - 1)) = none

theorem Owned.ends_restoreArrays {arrays : List (UInt32 × Array Platter)} {owns : Bool}
    (ho : e.Owned m₀ l₀ l₀) (howns : e.host.ownsMemory = owns) (hp : e.Places arrays) :
    (restoreArrays arrays).ends (fun _ => Owned m₀ l₀ l₀) (fun _ => Unmade m₀ l₀ owns)
      (fun _ _ => False) e := by
  induction arrays generalizing e with
  | nil => exact ho
  | cons entry rest ih =>
    obtain ⟨handle, words⟩ := entry
    obtain ⟨hnew, hnodup⟩ := List.nodup_cons.mp hp.nodup
    have hrest {e' : Engine} (hsize : e'.machine.others.size = e.machine.others.size)
        (harray : ∀ i, i ≠ handle.toNat - 1 ∨ handle = 0 →
          e'.machine.array? (.other i) = e.machine.array? (.other i)) : e'.Places rest := by
      refine ⟨hnodup, fun x hx => hp.small x (List.mem_cons_of_mem _ hx), fun x hx => ?_,
        fun x hx h0 => ?_⟩
      · rw [hsize]
        exact hp.within x (List.mem_cons_of_mem _ hx)
      · rw [harray, hp.free x (List.mem_cons_of_mem _ hx) h0]
        by_cases hzero : handle = 0
        · exact Or.inr hzero
        · left
          intro hsame
          apply hnew
          have hx0 : x.1.toNat ≠ 0 := fun h => h0 (UInt32.toNat_inj.mp h)
          have hh0 : handle.toNat ≠ 0 := fun h => hzero (UInt32.toNat_inj.mp h)
          have hhandle : x.1 = handle := UInt32.toNat_inj.mp (by omega)
          exact List.mem_map.mpr ⟨x, hx, hhandle⟩
    rw [restoreArrays]
    by_cases h0 : handle = 0
    · simp only [h0, ne_eq, not_true_eq_false, if_false]
      exact ih ho howns (hrest rfl fun _ _ => rfl)
    · have hpos : handle.toNat ≠ 0 := fun h => h0 (UInt32.toNat_inj.mp h)
      have hwithin := hp.within _ List.mem_cons_self
      have hnone := hp.free _ List.mem_cons_self h0
      have hsmall := hp.small _ List.mem_cons_self
      obtain ⟨i, hi⟩ : ∃ i, handle.toNat = i + 1 := ⟨handle.toNat - 1, by omega⟩
      simp only [hi, Nat.add_sub_cancel] at hwithin hnone hrest
      simp only [h0, ne_eq, not_false_eq_true, if_true, hi]
      rw [Action.ends_bind, Action.ends_during]
      apply Action.ends.cleaningUp
      rw [inMemory, Action.ends_within]
      refine (ho.account.ends_alloc hsmall true).imp (fun buffer memory _ hlends => ?_)
        (fun _ memory hkept => ?_) fun _ _ hf => hf
      · obtain ⟨hlent, hlength⟩ := hlends
        refine ih (ho.setOther (by omega) hnone hsmall hlength rfl hlent) howns
          (hrest ?_ fun j hj => ?_)
        · have hsize := e.machine.setOther_size_others (i := i) (by omega)
            (some ⟨words, buffer, false, none⟩)
          refine hsize.trans ?_
          omega
        · refine (e.machine.array?_setOther (i := i) (by omega) _ _).trans (if_neg ?_)
          rintro ⟨⟩
          rcases hj with hj | hj
          · exact hj rfl
          · exact h0 hj
      · -- the arrays made so far are released again
        exact (ends_close (ho.withMemory hkept).account_holdings).imp
          (fun _ _ _ hr => Released.unmade howns hr) (fun _ _ hr => Released.unmade howns hr)
          fun _ _ hf => hf

theorem ends_resume {config : EngineConfig} (hmemory : config.memory.getD .mapped = m₀)
    (haccount : m₀.Account l₀ m₀ l₀) {s : MachineState}
    (hsmall : ∀ entry ∈ s.arrays, entry.2.size ≤ Memory.arrayLimit) {program : Array Platter}
    (hprogram : program.size ≤ Memory.arrayLimit) {top : Nat}
    (htop : ∀ handle ∈ s.handles, handle.toNat ≤ top) :
    (resume s program top).ends (fun _ => Owned m₀ l₀ l₀)
      (fun _ => Unmade m₀ l₀ config.memory.isNone) (fun _ _ => False) (blank config) := by
  unfold resume
  rw [Action.ends_bind]
  refine (ends_start hmemory haccount hprogram).imp (fun _ e' _ hstarted => ?_)
    (fun _ _ h => h) fun _ _ h => h
  obtain ⟨ho, hothers, howns⟩ := hstarted
  -- a table without arrays holds no buffers
  have hempty : (e'.readied s top).machine.otherArrays = e'.machine.otherArrays := by
    simp [readied, Machine.otherArrays, hothers]
  have hopened : (e'.readied s top).Owned m₀ l₀ l₀ := by
    refine ⟨ho.isOpen, ?_, fun place a ha => ?_⟩
    · have haccount' := ho.account
      rw [Machine.loans_eq, ← hempty] at haccount'
      exact haccount'
    · cases place with
      | running => exact ho.fitting .running a ha
      | other i =>
        rw [array?_readied_other] at ha
        cases ha
  rw [ends_onMachine_bind, ends_onHost_bind, Action.ends_bind]
  refine (hopened.ends_restoreArrays howns
    ⟨s.nodup_handles, hsmall, fun entry hentry => ?_, fun _ _ _ => ?_⟩).imp
    (fun _ e'' _ ho'' => ?_) (fun _ _ h => h) fun _ _ h => h
  · rw [size_others_readied]
    exact htop _ (List.mem_map.mpr ⟨entry, hentry, rfl⟩)
  · exact array?_readied_other ..
  · exact ho''.of_host rfl rfl

theorem new_owned {config : EngineConfig} (hmemory : config.memory.getD .mapped = m₀)
    (haccount : m₀.Account l₀ m₀ l₀) {program : Array Platter}
    (hsmall : program.size ≤ Memory.arrayLimit) :
    ((new program config).1 = .done () ∧ (new program config).2.Owned m₀ l₀ l₀) ∨
      ∃ fault, (new program config).1 = .failed fault ∧
        (new program config).2.Unmade m₀ l₀ config.memory.isNone := by
  rcases (ends_start hmemory haccount hsmall).done_or_failed with ⟨_, hdone, ho⟩ | hfailed
  · exact Or.inl ⟨hdone, ho.1⟩
  · exact Or.inr hfailed

theorem restore_owned {config : EngineConfig} (hmemory : config.memory.getD .mapped = m₀)
    (haccount : m₀.Account l₀ m₀ l₀) {s : MachineState}
    (hsmall : ∀ entry ∈ s.arrays, entry.2.size ≤ Memory.arrayLimit) :
    ((restore s config).1 = .done () ∧ (restore s config).2.Owned m₀ l₀ l₀) ∨
      ∃ fault, (restore s config).1 = .failed fault ∧
        (restore s config).2.Unmade m₀ l₀ config.memory.isNone := by
  have hblank : (blank config).Unmade m₀ l₀ config.memory.isNone := by
    refine ⟨rfl, fun _ => ?_⟩
    change m₀.Account l₀ (config.memory.getD .mapped) l₀
    rw [hmemory]
    exact haccount
  unfold restore
  dsimp only
  cases hprogram : s.array? 0 with
  | none => exact Or.inr ⟨_, rfl, hblank⟩
  | some program =>
    dsimp only
    split
    · exact Or.inr ⟨_, rfl, hblank⟩
    · split
      · exact Or.inr ⟨_, rfl, hblank⟩
      · have hsize : program.size ≤ Memory.arrayLimit := by
          obtain ⟨before, rest, harrays, -⟩ := List.lookup_eq_some_iff.mp hprogram
          refine hsmall (0, program) ?_
          rw [harrays]
          exact List.mem_append_right _ List.mem_cons_self
        have htop (handle : UInt32) (hhandle : handle ∈ s.handles) :
            handle.toNat ≤ (s.handles.foldl max 0).toNat :=
          Nat.le_of_lt_succ (((foldl_max_lt_iff s.handles 0 _).mp (Nat.lt_succ_self _)).2 handle
            hhandle)
        rcases (ends_resume hmemory haccount hsmall hsize htop).done_or_failed with
          ⟨_, hdone, ho⟩ | hfailed
        · exact Or.inl ⟨hdone, ho⟩
        · exact Or.inr hfailed

/-- `Operates m₀ l₀ e others`: the engine was made when the memory was `m₀` and had lent `l₀`, and
has been run, supplied and closed since, at any tick of its runs; others have used the memory in
between and hold `others` by now. -/
inductive Operates (m₀ : Memory) (l₀ : Loans) : Engine → Loans → Prop
  | new {program : Array Platter} {config : EngineConfig} (hmemory : config.memory.getD .mapped = m₀)
      (hsmall : program.size ≤ Memory.arrayLimit) (hdone : (new program config).1 = .done ()) :
      Operates m₀ l₀ (new program config).2 l₀
  | restore {s : MachineState} {config : EngineConfig} (hmemory : config.memory.getD .mapped = m₀)
      (hsmall : ∀ entry ∈ s.arrays, entry.2.size ≤ Memory.arrayLimit)
      (hdone : (restore s config).1 = .done ()) : Operates m₀ l₀ (restore s config).2 l₀
  | run {e : Engine} {others : Loans} (signals : Signals) (cancelled : Bool) (fuel : Nat)
      (h : Operates m₀ l₀ e others) : Operates m₀ l₀ (e.run signals cancelled fuel).2 others
  | supply {e : Engine} {others : Loans} (input : Reader) (h : Operates m₀ l₀ e others) :
      Operates m₀ l₀ { e with host := { e.host with input } } others
  | share {e : Engine} {others others' : Loans} {memory : Memory} (h : Operates m₀ l₀ e others)
      (ht : e.host.memory.Traffic others memory others') :
      Operates m₀ l₀ (e.withMemory memory) others'
  | close {e : Engine} {others : Loans} (h : Operates m₀ l₀ e others) :
      Operates m₀ l₀ (close e).2 others

/-- There is nothing more to release. -/
theorem Released.close (hr : e.Released m₀ l₀ others) : (close e).2.Released m₀ l₀ others := by
  have hnothing : (e.arrays.forM PlatterArray.release) e.host.memory = (.done (), e.host.memory) := by
    rw [arrays, if_pos hr.isClosed]
    rfl
  rw [close_eq hnothing]
  split
  · rename_i howns
    refine ⟨rfl, rfl, rfl, fun hshared => ?_⟩
    cases howns.symm.trans hshared
  · exact ⟨rfl, rfl, rfl, hr.account⟩

theorem Operates.reachable (h : Operates m₀ l₀ e others) : Reachable e := by
  induction h with
  | new _ _ hdone => exact .new hdone
  | restore _ _ hdone => exact .restore hdone
  | run signals cancelled fuel _ ih => exact ih.run signals cancelled fuel
  | supply input _ ih => exact ih.supply input
  | share _ _ ih => exact ih.share _
  | close _ ih => exact ih.close

theorem Operates.owned_or_released (haccount : m₀.Account l₀ m₀ l₀) (h : Operates m₀ l₀ e others) :
    e.Owned m₀ l₀ others ∨ e.Released m₀ l₀ others := by
  induction h with
  | new hmemory hsmall hdone =>
    rcases new_owned hmemory haccount hsmall with ⟨-, ho⟩ | ⟨fault, hfault, -⟩
    · exact Or.inl ho
    · rw [hdone] at hfault
      cases hfault
  | restore hmemory hsmall hdone =>
    rcases restore_owned hmemory haccount hsmall with ⟨-, ho⟩ | ⟨fault, hfault, -⟩
    · exact Or.inl ho
    · rw [hdone] at hfault
      cases hfault
  | run signals cancelled fuel h ih =>
    rcases ih with ho | hr
    · exact Or.inl (ho.run h.reachable.coherent signals cancelled fuel)
    · right
      simp only [Engine.run, hr.stopped, if_true]
      exact hr
  | supply input _ ih =>
    rcases ih with ho | hr
    · exact Or.inl (ho.of_host rfl rfl)
    · exact Or.inr ⟨hr.isClosed, hr.stopped, hr.donor, hr.account⟩
  | share _ ht ih =>
    rcases ih with ho | hr
    · exact Or.inl ⟨ho.isOpen, ho.account.shared ht, ho.fitting⟩
    · refine Or.inr ⟨hr.isClosed, hr.stopped, hr.donor, fun hshared => ?_⟩
      have haccount' := Memory.Account.shared (l := 0)
        (by rw [zero_add]; exact hr.account hshared) ht
      rwa [zero_add] at haccount'
  | close _ ih =>
    rcases ih with ho | hr
    · exact Or.inr ((ends_close ho.account_holdings).wp (fun _ _ _ h => h) fun _ _ h => h).snd.1
    · exact Or.inr hr.close

theorem exists_array?_of_mem_arrays {a : PlatterArray} (h : a ∈ e.arrays) :
    ∃ place, e.machine.array? place = some a := by
  have hothers (hmem : a ∈ (e.machine.others.filterMap id).toList) :
      ∃ place, e.machine.array? place = some a := by
    rw [Array.toList_filterMap, List.mem_filterMap] at hmem
    obtain ⟨_, hmem, rfl⟩ := hmem
    obtain ⟨i, hi, hget⟩ := List.getElem_of_mem hmem
    refine ⟨.other i, ?_⟩
    rw [Machine.array?_other, ← Array.getElem?_toList, List.getElem?_eq_getElem hi, hget]
    rfl
  rw [arrays] at h
  split at h
  · cases h
  · split at h
    · rcases List.mem_cons.mp h with rfl | hmem
      · exact ⟨.running, rfl⟩
      · exact hothers hmem
    · rcases List.mem_append.mp h with hmem | hmem
      · exact hothers hmem
      · exact ⟨.running, by rw [List.mem_singleton.mp hmem]; rfl⟩

end Engine

end PlatterMachine
