import PlatterMachine.Proofs.Engine.Failing
import PlatterMachine.Proofs.Engine.Lifetime
import PlatterMachine.Proofs.Engine.Quiet
import PlatterMachine.Proofs.Engine.Supply

/-!
# Handles

The search for a free handle starts at `minFree`. In every engine that can be got to, all handles
below that one are live, and it lies in the table or right behind its end. So an allocation takes
the least handle that is free, and an array is never put, or taken away, under a handle other than
the one that was asked for.

A crash ends everything: only what has returned leads on.
-/

namespace PlatterMachine

def Outcome.Returned {α : Type} : Outcome α → Prop
  | .crashed _ => False
  | _ => True

instance {α : Type} : (o : Outcome α) → Decidable o.Returned
  | .done _ => .isTrue trivial
  | .failed _ => .isTrue trivial
  | .crashed _ => .isFalse id

theorem Action.eq_of_fst {σ α : Type} {x : Action σ α} {s : σ} {o : Outcome α} (h : (x s).1 = o) :
    x s = (o, (x s).2) := Prod.ext h rfl

namespace Machine

/-- A handle that is in the table, or right behind its end, gets an array or loses it. -/
theorem lookup_setOther (m : Machine) {handle : UInt32} (h0 : handle ≠ 0)
    (hle : handle.toNat ≤ m.others.size + 1) (a : Option PlatterArray) (k : UInt32) :
    (m.setOther handle.toNat a).lookup k = if k = handle then a else m.lookup k := by
  obtain ⟨i, hi⟩ : ∃ i, handle.toNat = i + 1 :=
    Nat.exists_eq_succ_of_ne_zero fun h => h0 (UInt32.toNat_inj.mp h)
  rw [hi] at hle ⊢
  by_cases hk0 : k = 0
  · subst hk0
    rw [if_neg (Ne.symm h0), lookup_zero, lookup_zero, setOther_zeroLive, array?_running,
      array?_running, setOther_running]
  · have hk : k.toNat ≠ 0 := fun h => hk0 (UInt32.toNat_inj.mp h)
    have hsame : Place.other (k.toNat - 1) = .other i ↔ k = handle := by
      rw [Place.other.injEq, ← UInt32.toNat_inj]
      omega
    rw [lookup_of_ne_zero hk0, lookup_of_ne_zero hk0, array?_setOther _ (by omega)]
    simp only [hsame]

end Machine

namespace Engine

variable {m₀ : Memory} {l₀ others : Loans} {e : Engine} {m : Machine} {h : Host}

theorem Handles.of_table {m' : Machine} {h' : Host} (hh : Handles ⟨m, h⟩)
    (hfree : h'.minFree = h.minFree) (hsize : m'.others.size = m.others.size)
    (hlive : ∀ i, m.array? (.other i) ≠ none → m'.array? (.other i) ≠ none) :
    Handles ⟨m', h'⟩ where
  pos := hfree ▸ hh.pos
  le := by
    rw [hfree, hsize]
    exact hh.le
  live k hk := by
    rw [hfree] at hk
    exact hlive k (hh.live k hk)

theorem Handles.of_host {h' : Host} (hh : Handles ⟨m, h⟩) (hfree : h'.minFree = h.minFree) :
    Handles ⟨m, h'⟩ :=
  hh.of_table hfree rfl fun _ hlive => hlive

theorem Handles.withMemory (hh : e.Handles) (memory : Memory) : (e.withMemory memory).Handles :=
  hh.of_host rfl

theorem Handles.modifyArray (hh : Handles ⟨m, h⟩) (place : Place)
    (f : PlatterArray → PlatterArray) : Handles ⟨m.modifyArray place f, h⟩ := by
  refine hh.of_table rfl (Machine.modifyArray_size_others ..) fun i hlive => ?_
  rw [Machine.array?_modifyArray]
  split
  · simpa using hlive
  · exact hlive

theorem Handles.step (hh : Handles ⟨m, h⟩) (interrupted : Bool) (pc : UInt32) :
    Handles ⟨(m.step interrupted pc).machine, h⟩ := by
  rcases Machine.step_cases m interrupted pc with
    ⟨file, hfile⟩ | ⟨handle, offset, v, p, pc', -, hread, heq⟩
  · rw [hfile]
    exact hh.of_table rfl rfl fun _ hlive => hlive
  · obtain ⟨place, a, hplace, -, -⟩ := Machine.readWord?_eq_some hread
    rw [heq, Machine.store, Machine.writeWord_eq hplace]
    have hwritten := hh.modifyArray place fun a =>
      { a with words := a.words.setIfInBounds offset.toNat v, dirty := true }
    split
    · -- the stub goes into the running array, which has no handle from 1 on
      rcases Machine.plantStub_cases (m.modifyArray place fun a =>
        { a with words := a.words.setIfInBounds offset.toNat v, dirty := true }) offset pc' with
        ⟨co, -, hstub⟩ | hstub
      · rw [hstub]
        exact hwritten.of_table rfl rfl fun _ hlive => hlive
      · rw [hstub]
        exact hwritten
    · exact hwritten

theorem Handles.wp_regenerate (hh : e.Handles) (place : Place) :
    (regenerate place).wp (fun _ => Handles) Handles e := by
  cases ha : e.machine.array? place with
  | none =>
    simp only [regenerate, Action.wp_bind, Action.wp_read, ha, Action.wp_crash]
    exact hh
  | some a =>
    rw [Engine.wp_regenerate ha]
    refine Action.wp_of_forall (fun _ memory _ => ?_) hh.withMemory
    refine Action.wp_of_forall (fun co memory' _ => ?_) fun memory' => ?_
    · exact (hh.modifyArray place fun a => { a with code := some co, dirty := false }).of_host rfl
    · exact (hh.modifyArray place fun a => { a with code := none }).of_host rfl

theorem Handles.codeReturned (hh : e.Handles) : e.codeReturned.Handles := by
  unfold Engine.codeReturned
  split
  · exact hh
  · exact ((hh.modifyArray .running _).modifyArray _ _).of_host rfl

theorem Handles.wp_loadProgram (hh : e.Handles) (source finger : UInt32) :
    (loadProgram source finger).wp (fun _ => Handles) Handles e := by
  rcases loadProgram_cases source finger e with hload | ⟨found, code, h0, hfound, hlt, hsrc⟩
  · exact hload _ _ hh
  · rw [Engine.wp_loadProgram h0 hfound hlt hsrc]
    have hcompiled : (if ({ found with code } : PlatterArray).code.isNone ||
        ({ found with code } : PlatterArray).dirty then regenerate (.other (source.toNat - 1))
        else pure ()).wp (fun _ => Handles) Handles e.codeReturned := by
      split
      · exact hh.codeReturned.wp_regenerate _
      · exact hh.codeReturned
    refine hcompiled.imp (fun _ e' _ hh' => ?_) fun _ h => h
    refine Action.wp_of_forall (fun buffer memory _ => ?_) hh'.withMemory
    refine Action.wp_of_forall (fun _ memory' _ => ?_) hh'.withMemory
    have hloaded (code : Option CodeObject) : ((e'.loaded source finger found.words buffer
        code).withMemory memory').Handles :=
      (hh'.modifyArray (.other (source.toNat - 1)) _).of_table rfl rfl fun _ hlive => hlive
    dsimp only
    split
    · exact hloaded _
    · exact hloaded _

/-- The least free handle is where the search ends. -/
theorem Handles.exists_nextHandle (hh : e.Handles) :
    ∃ i, e.nextHandle = i + 1 ∧ i ≤ e.machine.others.size ∧ e.machine.array? (.other i) = none ∧
      ∀ k, k < i → e.machine.array? (.other k) ≠ none := by
  obtain ⟨i, hi, hle, hnone, hlive⟩ := nextHandle_spec hh.pos hh.le
  refine ⟨i, hi, hle, hnone, fun k hk => ?_⟩
  by_cases hfree : e.host.minFree ≤ k + 1
  · exact hlive k hfree hk
  · exact hh.live k (Nat.lt_of_not_le hfree)

theorem Handles.allocated (hh : e.Handles) (size : UInt32) (buffer : Buffer) :
    (e.allocated size buffer).Handles := by
  obtain ⟨i, hi, hle, -, hlive⟩ := hh.exists_nextHandle
  refine ⟨Nat.succ_pos _, ?_, fun k hk => ?_⟩
  · simp only [Engine.allocated, hi, Machine.setOther_size_others _ hle]
    omega
  · simp only [Engine.allocated, hi] at hk ⊢
    rw [Machine.array?_setOther _ hle]
    split
    · exact Option.some_ne_none _
    · rename_i hki
      have hne : k ≠ i := fun h => hki (congrArg Place.other h)
      exact hlive k (by omega)

theorem Handles.wp_allocate (hh : e.Handles) (size : UInt32) :
    (allocate size).wp (fun _ => Handles) Handles e := by
  rw [Engine.wp_allocate]
  refine Action.wp_of_forall (fun buffer memory _ => ?_) hh.withMemory
  split
  · exact hh.withMemory memory
  · exact (hh.allocated size buffer).withMemory memory

theorem Handles.abandoned (hh : e.Handles) {i : Nat} {a : PlatterArray}
    (ha : e.machine.array? (.other i) = some a) : (e.abandoned i).Handles := by
  have hlt := Machine.lt_size_of_array?_other ha
  have hpos := hh.pos
  have hle := hh.le
  refine ⟨?_, ?_, fun k hk => ?_⟩
  · simp only [Engine.abandoned]
    omega
  · simp only [Engine.abandoned, Engine.detached,
      Machine.setOther_size_others _ (Nat.le_of_lt hlt)]
    omega
  · simp only [Engine.abandoned, Engine.detached] at hk ⊢
    rw [Machine.array?_setOther _ (Nat.le_of_lt hlt), if_neg]
    · exact hh.live k (by omega)
    · rintro ⟨⟩
      omega

theorem abandon_of_running {handle : UInt32} (hp : e.machine.place? handle = some .running) :
    abandon handle e = (.done (), e.abandonedRunning) := by
  have hwp : (abandon handle).wp (fun _ e' => e' = e.abandonedRunning) (fun _ => False) e :=
    (wp_abandon_running hp).mpr rfl
  obtain ⟨_, _, habandon, rfl⟩ := hwp.exists_done
  exact habandon

theorem abandon_of_other {handle : UInt32} {i : Nat} {a : PlatterArray}
    (hp : e.machine.place? handle = some (.other i)) (ha : e.machine.array? (.other i) = some a) :
    (∃ memory, a.release e.host.memory = (.done (), memory) ∧
      abandon handle e = (.done (), (e.abandoned i).withMemory memory)) ∨
    ∃ crash memory, a.release e.host.memory = (.crashed crash, memory) ∧
      (abandon handle e).1 = .crashed crash := by
  have hrelease (o : Outcome Unit) (memory : Memory) (h : a.release e.host.memory = (o, memory)) :
      inMemory a.release (e.detached i) = (o, (e.detached i).withMemory memory) := by
    change ((a.release e.host.memory).1, (e.detached i).withMemory (a.release e.host.memory).2) = _
    rw [h]
  have habandon : abandon handle e =
      (inMemory a.release >>= fun _ =>
        onHost (fun h => { h with minFree := min h.minFree (i + 1) }) >>= fun _ =>
          count fun s => { s with abandonments := s.abandonments + 1 }) (e.detached i) := by
    simp only [abandon, Action.read_bind_apply, hp, ha, Option.getD_some]
    rfl
  rcases hr : a.release e.host.memory with ⟨_ | fault | crash, memory⟩
  · refine Or.inl ⟨memory, rfl, ?_⟩
    rw [habandon, Action.bind_done (hrelease _ _ hr)]
    rfl
  · exact absurd (congrArg Prod.fst hr) (a.unfailing_release _ fault)
  · refine Or.inr ⟨crash, memory, rfl, ?_⟩
    rw [habandon, Action.bind_crashed (hrelease _ _ hr)]

inductive Abandoning (e : Engine) (handle : UInt32) : Outcome Unit × Engine → Prop
  | refused (hnone : e.machine.lookup handle = none) : Abandoning e handle
      (.failed (.invalidIndex "abandonment of unallocated array" handle), e)
  | running (hzero : handle = 0) : Abandoning e handle (.done (), e.abandonedRunning)
  | other {i : Nat} {a : PlatterArray} {memory : Memory} (hhandle : handle.toNat = i + 1)
      (ha : e.machine.array? (.other i) = some a)
      (hrelease : a.release e.host.memory = (.done (), memory)) :
      Abandoning e handle (.done (), (e.abandoned i).withMemory memory)
  | crashed {i : Nat} {a : PlatterArray} {crash : Crash} {memory : Memory} {e' : Engine}
      (ha : e.machine.array? (.other i) = some a)
      (hrelease : a.release e.host.memory = (.crashed crash, memory)) :
      Abandoning e handle (.crashed crash, e')

theorem abandoning (e : Engine) (handle : UInt32) : e.Abandoning handle (abandon handle e) := by
  cases hp : e.machine.place? handle with
  | none =>
    rw [abandon_of_none hp]
    exact .refused (by rw [Machine.lookup_eq_bind, hp]; rfl)
  | some place =>
    have hzero := Machine.place?_eq_running_iff hp
    cases place with
    | running =>
      rw [abandon_of_running hp]
      exact .running (hzero.mp rfl)
    | other i =>
      obtain ⟨a, ha⟩ := Machine.exists_array?_of_place? hp
      rcases abandon_of_other hp ha with ⟨memory, hrelease, hdone⟩ | ⟨_, _, hrelease, hcrash⟩
      · have h0 : handle ≠ 0 := fun h => nomatch hzero.mpr h
        rw [Machine.place?_of_ne_zero h0] at hp
        obtain ⟨_, -, ⟨⟩⟩ := Option.map_eq_some_iff.mp hp
        rw [hdone]
        exact .other (Nat.succ_pred fun h => h0 (UInt32.toNat_inj.mp h)).symm ha hrelease
      · rw [Action.eq_of_fst hcrash]
        exact .crashed ha hrelease

theorem Handles.ends_abandon (hh : e.Handles) (handle : UInt32) :
    (abandon handle).ends (fun _ => Handles) (fun _ => Handles) (fun _ _ => True) e := by
  have hcases := e.abandoning handle
  rw [Action.ends]
  generalize abandon handle e = r at hcases ⊢
  cases hcases with
  | refused _ => exact hh
  | running _ => exact hh.of_table rfl rfl fun _ hlive => hlive
  | other _ ha _ => exact (hh.abandoned ha).withMemory _
  | crashed _ _ => trivial

theorem Handles.wp_flush (hh : e.Handles) : flush.wp (fun _ => Handles) Handles e :=
  wp_onWriter_of_forall (fun _ => hh.of_host rfl) fun _ => hh.of_host rfl

theorem Handles.wp_serveInput (hh : e.Handles) (left : Exit) :
    (serveInput left).wp (fun _ => Handles) Handles e := by
  refine wp_serveInput_of_forall (hh.wp_flush.imp (fun _ e' _ hh' => ⟨?_, ?_, ?_⟩) fun _ h => h)
  · exact fun input v => hh'.of_table rfl rfl fun _ hlive => hlive
  · exact fun input => hh'.of_host rfl
  · exact fun input finger events => hh'.of_host rfl

theorem Handles.wp_serveRecompile (hh : e.Handles) (left : Exit) :
    (serveRecompile left).wp (fun _ => Handles) Handles e := by
  refine wp_serveRecompile_of_forall hh
    ((hh.wp_regenerate .running).imp (fun _ e' _ hh' stats events => ?_) fun _ h => h)
  have hnoted : Handles ⟨e'.machine, { e'.host with stats, events }⟩ := hh'.of_host rfl
  exact ⟨hnoted, fun _ _ _ => hnoted⟩

theorem Handles.ends_serveReason (hh : e.Handles) (reason : Reason) (left : Exit) :
    (serveReason reason left).ends (fun _ => Handles) (fun _ => Handles) (fun _ _ => True) e := by
  have houtput (output : Writer) : Handles { e with host := { e.host with output } } :=
    hh.of_host rfl
  cases reason with
  | halt =>
    apply Action.wp.ends
    exact wp_serveHalt_of_forall hh houtput
  | allocation =>
    apply Action.wp.ends
    rw [serveReason, Action.wp_bind]
    exact (hh.wp_allocate _).imp
      (fun _ e' _ hh' => hh'.of_table rfl rfl fun _ hlive => hlive) fun _ h => h
  | abandonment =>
    rw [serveReason, Action.ends_bind]
    exact (hh.ends_abandon _).imp (fun _ _ _ h => h) (fun _ _ h => h) fun _ _ h => h
  | output =>
    apply Action.wp.ends
    exact wp_serveOutput_of_forall houtput houtput
  | input => exact (hh.wp_serveInput left).ends
  | loadProgram =>
    apply Action.wp.ends
    rw [serveReason, Action.wp_bind]
    exact (hh.wp_loadProgram _ _).imp (fun _ _ _ h => h) fun _ h => h
  | recompile => exact (hh.wp_serveRecompile left).ends
  | fault =>
    apply Action.wp.ends
    exact wp_serveFault_of_broken hh
  | interrupt =>
    apply Action.wp.ends
    exact hh

def RunResult.Returned (result : RunResult) : Prop :=
  ∀ outcome, result.1 = some outcome → outcome.Returned

def RunResult.Handled (result : RunResult) : Prop := result.Returned → result.2.Handles

theorem Handles.conclude (hh : e.Handles) (outcome : Outcome Unit) :
    RunResult.Handled (conclude outcome e) := by
  intro _
  rcases snd_conclude outcome e with hsnd | hsnd
  · rw [hsnd]
    exact hh
  · rw [hsnd]
    exact hh.of_host rfl

theorem handled_crashed (crash : Crash) (e : Engine) :
    RunResult.Handled (conclude (.crashed crash) e) :=
  fun hreturned => (hreturned _ (fst_conclude _ e)).elim

theorem Handles.tick {interrupted : Bool} {g : Moment} {r : Moment ⊕ RunResult}
    (hh : g.engine.Handles) (ht : g.Tick interrupted r) :
    Sum.elim (fun g => g.engine.Handles) RunResult.Handled r := by
  cases ht with
  | canceled _ => exact hh.conclude _
  | looked _ _ => exact hh
  | stepped _ _ hstep =>
    have hh' := hh.step interrupted g.pc
    rw [hstep] at hh'
    exact hh'
  | crashed _ _ => exact handled_crashed _ _
  | unknown _ _ hstep _ =>
    have hh' := hh.step interrupted g.pc
    rw [hstep] at hh'
    exact hh'.conclude _
  | @returned m left reason cancelled _ hstep _ =>
    have hh' := hh.step interrupted g.pc
    rw [hstep] at hh'
    have hserve := hh'.ends_serveReason reason left
    unfold Action.ends at hserve
    rcases hr : serveReason reason left ⟨m, g.host⟩ with ⟨(_ | pc) | fault | crash, e'⟩ <;>
      simp only [Step.machine, hr] at hserve
    · exact Handles.conclude hserve _
    · exact hserve
    · exact Handles.conclude hserve _
    · exact handled_crashed crash e'

theorem Handles.wp_prepare (hh : e.Handles) : prepare.wp (fun _ => Handles) Handles e :=
  wp_prepare_of_forall (fun _ => hh.wp_regenerate .running) fun _ _ _ => hh

theorem Handles.course (hh : e.Handles) (signals : Signals) (cancelled : Bool) (n : Nat) :
    Sum.elim (fun g => g.engine.Handles) RunResult.Handled (e.course signals cancelled n) := by
  have hrenewed : Handles { e with host := e.host.renew } := hh.of_host rfl
  have hprepare := hrenewed.wp_prepare.snd
  unfold Engine.course
  rcases opening_cases cancelled e with
    ⟨m, h, co, hp, -, hopening⟩ | ⟨e', hp, -, hopening⟩ | ⟨outcome, e', -, hp, hopening⟩ <;>
    rw [hp] at hprepare <;> rw [hopening]
  · have hopened : Handles (Moment.engine ⟨0, cancelled, true, m, h, co.entry h.finger⟩) := hprepare
    exact Moment.after_kept (fun _ g r hg ht => Handles.tick hg ht) hopened signals n
  · exact hprepare.conclude _
  · exact hprepare.conclude outcome

theorem RunResult.Handled.finish {outcome : Outcome Unit}
    (hhandled : RunResult.Handled (some outcome, e)) :
    RunResult.Handled (Engine.finish (some outcome, e)) := by
  intro hreturned
  have hflush : (Engine.finish (some outcome, e)).2 = (flush e).2 := by
    obtain ⟨o, hfinish⟩ := exists_finish outcome e
    rw [hfinish]
  rw [hflush]
  refine (hhandled fun o ho => ?_).wp_flush.snd
  cases ho
  cases outcome with
  | done _ => trivial
  | failed fault => trivial
  | crashed crash =>
    have hne : Outcome.crashed crash ≠ .done () := nofun
    exact hreturned _ (congrArg Prod.fst (finish_of_ne_done hne e))

theorem Handles.run (hh : e.Handles) (signals : Signals) (cancelled : Bool) (fuel : Nat) :
    RunResult.Handled (e.run signals cancelled fuel) := by
  cases hstopped : e.host.stopped with
  | true =>
    rw [Engine.run, if_pos hstopped]
    exact fun _ => hh
  | false =>
    have hcourse := hh.course signals cancelled fuel
    rw [run_eq_finish_course hstopped]
    rcases hg : e.course signals cancelled fuel with g | ⟨_ | outcome, e'⟩ <;> rw [hg] at hcourse
    · exact fun _ => hcourse
    · exact hcourse
    · exact RunResult.Handled.finish hcourse

/-- The table of a new engine is empty, and that of a restored one is searched from its start. -/
theorem wp_start_handles (program : Array Platter) (config : EngineConfig) :
    (start program).wp (fun _ => Handles) (fun _ => True) (blank config) :=
  (wp_start program config).imp
    (fun _ e' _ ⟨_, hfree⟩ => ⟨by omega, by omega, fun k hk => by omega⟩) fun _ h => h

theorem wp_resume_handles (s : MachineState) (program : Array Platter) (top : Nat) :
    (resume s program top).wp (fun _ => Handles) (fun _ => True) e := by
  refine wp_resume_of_forall (P := fun _ => True) (fun _ _ => trivial)
    (fun _ _ _ _ _ _ => trivial) fun e _ => ?_
  obtain ⟨hge, hle, hlive⟩ := e.minFree_searched
  exact ⟨hge, hle, hlive⟩

/-- `Worked m₀ l₀ e others`: the engine was made when the memory was `m₀` and had lent `l₀`. Since
then its arrays have been allocated, abandoned and loaded and it has been run and supplied, in any
order and whether that succeeded or failed; others have used the memory in between and hold `others`
by now. -/
inductive Worked (m₀ : Memory) (l₀ : Loans) : Engine → Loans → Prop
  | new {program : Array Platter} {config : EngineConfig} (hmemory : config.memory.getD .mapped = m₀)
      (hsmall : program.size ≤ Memory.arrayLimit) (hdone : (new program config).1 = .done ()) :
      Worked m₀ l₀ (new program config).2 l₀
  | restore {s : MachineState} {config : EngineConfig} (hmemory : config.memory.getD .mapped = m₀)
      (hsmall : ∀ entry ∈ s.arrays, entry.2.size ≤ Memory.arrayLimit)
      (hdone : (restore s config).1 = .done ()) : Worked m₀ l₀ (restore s config).2 l₀
  | allocate {e : Engine} {others : Loans} (size : UInt32) (h : Worked m₀ l₀ e others)
      (hreturned : (allocate size e).1.Returned) : Worked m₀ l₀ (allocate size e).2 others
  | abandon {e : Engine} {others : Loans} (handle : UInt32) (h : Worked m₀ l₀ e others)
      (hreturned : (abandon handle e).1.Returned) : Worked m₀ l₀ (abandon handle e).2 others
  | loadProgram {e : Engine} {others : Loans} (source finger : UInt32) (h : Worked m₀ l₀ e others)
      (hreturned : (loadProgram source finger e).1.Returned) :
      Worked m₀ l₀ (loadProgram source finger e).2 others
  | run {e : Engine} {others : Loans} (signals : Signals) (cancelled : Bool) (fuel : Nat)
      (h : Worked m₀ l₀ e others)
      (hreturned : RunResult.Returned (e.run signals cancelled fuel)) :
      Worked m₀ l₀ (e.run signals cancelled fuel).2 others
  | supply {e : Engine} {others : Loans} (input : Reader) (h : Worked m₀ l₀ e others) :
      Worked m₀ l₀ { e with host := { e.host with input } } others
  | share {e : Engine} {others others' : Loans} {memory : Memory} (h : Worked m₀ l₀ e others)
      (ht : e.host.memory.Traffic others memory others') :
      Worked m₀ l₀ (e.withMemory memory) others'

theorem Worked.handles (hw : Worked m₀ l₀ e others) : e.Handles := by
  induction hw with
  | new _ _ hdone => exact (wp_start_handles _ _).of_done hdone
  | restore _ _ hdone =>
    obtain ⟨program, top, heq⟩ := restore_eq_resume hdone
    rw [heq] at hdone ⊢
    exact (wp_resume_handles _ program top).of_done hdone
  | allocate size _ _ ih => exact (ih.wp_allocate size).snd
  | @abandon e _ handle _ hreturned ih =>
    have hends := ih.ends_abandon handle
    unfold Action.ends at hends
    rcases ha : Engine.abandon handle e with ⟨_ | _ | _, e'⟩ <;> rw [ha] at hends hreturned
    · exact hends
    · exact hends
    · exact hreturned.elim
  | loadProgram source finger _ _ ih => exact (ih.wp_loadProgram source finger).snd
  | run signals cancelled fuel _ hreturned ih => exact ih.run signals cancelled fuel hreturned
  | supply input _ ih => exact ih.of_host rfl
  | share _ _ ih => exact ih.withMemory _

theorem Worked.coherent (hw : Worked m₀ l₀ e others) : e.Coherent := by
  induction hw with
  | new _ _ hdone => exact new_coherent hdone
  | restore _ _ hdone => exact restore_coherent hdone
  | allocate size _ _ ih => exact ((ih.wp_allocate size).imp (fun _ _ _ h => h.1) fun _ h => h).snd
  | abandon handle _ _ ih => exact ((ih.wp_abandon handle).imp (fun _ _ _ h => h.1) fun _ h => h).snd
  | loadProgram source finger _ _ ih =>
    exact ((ih.wp_loadProgram source finger).imp (fun _ _ _ h => h.1) fun _ h => h).snd
  | run signals cancelled fuel _ _ ih => exact (ih.run signals cancelled fuel).1
  | supply input _ ih => exact ih.of_host rfl rfl rfl
  | share _ _ ih => exact ih.withMemory _

theorem Worked.opened (hw : Worked m₀ l₀ e others) : e.host.closed = false := by
  induction hw with
  | new _ _ hdone => exact (wp_start_opened _).of_done hdone
  | restore _ _ hdone =>
    obtain ⟨program, top, heq⟩ := restore_eq_resume hdone
    rw [heq] at hdone ⊢
    exact (wp_resume_opened _ program top).of_done hdone
  | @allocate e _ size _ _ ih => exact (lasting_of_composed (composed_allocate size) e).trans ih
  | @abandon e _ handle _ _ ih => exact (lasting_of_composed (composed_abandon handle) e).trans ih
  | @loadProgram e _ source finger _ _ ih =>
    exact (lasting_of_composed (composed_loadProgram source finger) e).trans ih
  | run signals cancelled fuel _ _ ih => rwa [closed_run]
  | supply input _ ih => exact ih
  | share _ _ ih => exact ih

theorem Worked.owned (haccount : m₀.Account l₀ m₀ l₀) (hw : Worked m₀ l₀ e others) :
    e.Owned m₀ l₀ others := by
  induction hw with
  | new hmemory hsmall hdone =>
    rcases new_owned hmemory haccount hsmall with ⟨-, ho⟩ | ⟨fault, hfault, -⟩
    · exact ho
    · cases hdone.symm.trans hfault
  | restore hmemory hsmall hdone =>
    rcases restore_owned hmemory haccount hsmall with ⟨-, ho⟩ | ⟨fault, hfault, -⟩
    · exact ho
    · cases hdone.symm.trans hfault
  | allocate size hw _ ih => exact (ih.wp_allocate hw.coherent size).snd
  | abandon handle _ _ ih => exact (ih.wp_abandon handle).snd
  | loadProgram source finger _ _ ih => exact (ih.wp_loadProgram source finger).snd
  | run signals cancelled fuel hw _ ih => exact ih.run hw.coherent signals cancelled fuel
  | supply input _ ih => exact ih.of_host rfl rfl
  | share _ ht ih => exact ⟨ih.isOpen, ih.account.shared ht, ih.fitting⟩

/-- `handle` was the least that is free. It now names `size` zeros, and nothing else has changed. -/
structure Installs (e : Engine) (size handle : UInt32) (e' : Engine) : Prop where
  ne_zero : handle ≠ 0
  unused : e.machine.lookup handle = none
  least : ∀ k : UInt32, k ≠ 0 → k < handle → e.machine.lookup k ≠ none
  zeros : ∃ a, e'.machine.lookup handle = some a ∧ a.words = Array.replicate size.toNat 0 ∧
    a.dirty = false ∧ a.code = none
  others_eq : ∀ k, k ≠ handle → e'.machine.lookup k = e.machine.lookup k
  running_eq : e'.machine.running = e.machine.running
  file_eq : e'.machine.file = e.machine.file

structure Frees (e : Engine) (handle : UInt32) (e' : Engine) : Prop where
  gone : e'.machine.lookup handle = none
  others_eq : ∀ k, k ≠ handle → e'.machine.lookup k = e.machine.lookup k
  running_eq : e'.machine.running = e.machine.running
  file_eq : e'.machine.file = e.machine.file

theorem allocate_of_alloc (hopen : e.host.closed = false) {size : UInt32} {buffer : Buffer}
    {memory : Memory} (halloc : Memory.inPlatters (Arena.alloc size.toNat true) e.host.memory =
      (.done buffer, memory)) :
    allocate size e =
      (.done (UInt32.ofNat e.nextHandle), (e.allocated size buffer).withMemory memory) := by
  have hwp : (allocate size).wp (fun handle e' => handle = UInt32.ofNat e.nextHandle ∧
      e' = (e.allocated size buffer).withMemory memory) (fun _ => False) e := by
    rw [wp_allocate, Action.wp, halloc, hopen]
    exact ⟨rfl, rfl⟩
  obtain ⟨_, _, hallocate, rfl, rfl⟩ := hwp.exists_done
  exact hallocate

theorem exists_alloc_of_allocate (hopen : e.host.closed = false) {size handle : UInt32}
    {e' : Engine} (hallocate : allocate size e = (.done handle, e')) :
    ∃ buffer memory, handle = UInt32.ofNat e.nextHandle ∧
      e' = (e.allocated size buffer).withMemory memory := by
  have hwp : (allocate size).wp (fun handle e' => ∃ buffer memory,
      handle = UInt32.ofNat e.nextHandle ∧ e' = (e.allocated size buffer).withMemory memory)
      (fun _ => True) e := by
    rw [wp_allocate]
    refine Action.wp_of_forall (fun buffer memory _ => ?_) fun _ => trivial
    rw [hopen, if_neg Bool.false_ne_true]
    exact ⟨buffer, memory, rfl, rfl⟩
  have hdone := hwp.of_done (congrArg Prod.fst hallocate)
  rwa [hallocate] at hdone

theorem Handles.installs (hh : e.Handles) (hopen : e.host.closed = false)
    (htable : e.tableSize < 0xFFFFFFFF) {size handle : UInt32} {e' : Engine}
    (hallocate : allocate size e = (.done handle, e')) : e.Installs size handle e' := by
  obtain ⟨i, hi, hle, hnone, hlive⟩ := hh.exists_nextHandle
  obtain ⟨buffer, memory, hhandle, rfl⟩ := exists_alloc_of_allocate hopen hallocate
  rw [tableSize, hopen, if_neg Bool.false_ne_true] at htable
  have hnat : handle.toNat = i + 1 := by
    rw [hhandle, hi]
    exact UInt32.toNat_ofNat_of_lt' (show i + 1 < 0x100000000 by omega)
  have h0 : handle ≠ 0 := by
    rintro rfl
    cases hnat
  have hlookup := e.machine.lookup_setOther h0 (by omega)
    (some ⟨Array.replicate size.toNat 0, buffer, false, none⟩)
  have hmachine : ((e.allocated size buffer).withMemory memory).machine =
      e.machine.setOther handle.toNat
        (some ⟨Array.replicate size.toNat 0, buffer, false, none⟩) := by
    rw [withMemory_machine, Engine.allocated, hi, hnat]
  refine ⟨h0, ?_, fun k hk0 hk => ?_, ?_, fun k hk => ?_, ?_, ?_⟩
  · rwa [Machine.lookup_of_ne_zero h0, hnat, Nat.add_sub_cancel]
  · rw [Machine.lookup_of_ne_zero hk0]
    have hpos : k.toNat ≠ 0 := fun h => hk0 (UInt32.toNat_inj.mp h)
    have hlt := UInt32.lt_iff_toNat_lt.mp hk
    exact hlive _ (by omega)
  · rw [hmachine, hlookup, if_pos rfl]
    exact ⟨_, rfl, rfl, rfl, rfl⟩
  · rw [hmachine, hlookup, if_neg hk]
  · rw [hmachine, Machine.setOther_running]
  · rw [hmachine, Machine.setOther_file]

theorem frees_of_abandon {handle : UInt32} {e' : Engine}
    (habandon : abandon handle e = (.done (), e')) : e.Frees handle e' := by
  have hcases := e.abandoning handle
  rw [habandon] at hcases
  cases hcases with
  | running hzero =>
    subst hzero
    refine ⟨rfl, fun k hk => ?_, rfl, rfl⟩
    rw [Machine.lookup_of_ne_zero hk, Machine.lookup_of_ne_zero hk]
    rfl
  | @other i _ memory hhandle ha _ =>
    have h0 : handle ≠ 0 := by
      rintro rfl
      cases hhandle
    have hlt := Machine.lt_size_of_array?_other ha
    have hmachine : ((e.abandoned i).withMemory memory).machine =
        e.machine.setOther handle.toNat none := by
      rw [withMemory_machine, Engine.abandoned, Engine.detached, hhandle]
    have hlookup := e.machine.lookup_setOther h0 (by omega) none
    refine ⟨?_, fun k hk => ?_, ?_, ?_⟩
    · rw [hmachine, hlookup, if_pos rfl]
    · rw [hmachine, hlookup, if_neg hk]
    · rw [hmachine, Machine.setOther_running]
    · rw [hmachine, Machine.setOther_file]

theorem place?_eq_none_iff {handle : UInt32} :
    e.machine.place? handle = none ↔ e.machine.lookup handle = none := by
  rw [Machine.lookup_eq_bind]
  cases hp : e.machine.place? handle with
  | none => simp
  | some place =>
    obtain ⟨a, ha⟩ := Machine.exists_array?_of_place? hp
    simp [ha]

theorem abandon_ne_failed {handle : UInt32} (hlive : e.machine.lookup handle ≠ none)
    (fault : Fault) : (abandon handle e).1 ≠ .failed fault := by
  have hcases := e.abandoning handle
  generalize abandon handle e = r at hcases ⊢
  cases hcases with
  | refused hnone => exact absurd hnone hlive
  | running _ => nofun
  | other _ _ _ => nofun
  | crashed _ _ => nofun

/-- An engine that owns its buffers can give them back. -/
theorem Owned.abandon_returned (ho : e.Owned m₀ l₀ others) (handle : UInt32) :
    (abandon handle e).1.Returned := by
  have hcases := e.abandoning handle
  generalize abandon handle e = r at hcases ⊢
  cases hcases with
  | refused _ => trivial
  | running _ => trivial
  | other _ _ _ => trivial
  | crashed ha hrelease =>
    have haccount := ho.account
    rw [Machine.loans_setOther_none ha, add_assoc] at haccount
    exact ((Action.ends_of_crashed hrelease).mp haccount.ends_release).elim

theorem Owned.abandon_done (ho : e.Owned m₀ l₀ others) {handle : UInt32}
    (hlive : e.machine.lookup handle ≠ none) : (abandon handle e).1 = .done () := by
  have hreturned := ho.abandon_returned handle
  have hne := abandon_ne_failed hlive
  cases ho : (abandon handle e).1 with
  | done _ => rfl
  | failed fault => exact absurd ho (hne fault)
  | crashed crash =>
    rw [ho] at hreturned
    exact hreturned.elim

/-- At any time all handles below `minFree` are live, and counting them in words would come to the
same. An allocation succeeds when there is memory, and takes the least free handle, which is never 0;
an abandonment succeeds when the handle is live. Both leave everything under another handle alone. -/
theorem least_free_handle_taken (hw : Worked m₀ l₀ e others) (htable : e.tableSize < 0xFFFFFFFF) :
    (∀ handle : UInt32, handle ≠ 0 → handle.toNat < e.host.minFree →
      e.machine.lookup handle ≠ none) ∧
    e.host.minFree ≤ e.tableSize ∧ e.CountsInWords ∧
    (∀ size handle e', allocate size e = (.done handle, e') → e.Installs size handle e') ∧
    (∀ size buffer memory, Memory.inPlatters (Arena.alloc size.toNat true) e.host.memory =
      (.done buffer, memory) → ∃ handle e', allocate size e = (.done handle, e')) ∧
    (∀ handle, e.machine.lookup handle = none →
      abandon handle e = (.failed (.invalidIndex "abandonment of unallocated array" handle), e)) ∧
    (∀ handle, e.machine.lookup handle ≠ none →
      (∀ fault, (abandon handle e).1 ≠ .failed fault) ∧
      (∀ e', abandon handle e = (.done (), e') → e.Frees handle e') ∧
      ∀ platters code slots : BlockSource, platters.Settled → code.Settled → slots.Settled →
        (Memory.ofSources platters code slots).Traffic 0 m₀ l₀ →
        (abandon handle e).1 = .done ()) := by
  have hh := hw.handles
  have hopen := hw.opened
  refine ⟨fun handle h0 hlt => ?_, ?_, ?_, fun size handle e' => hh.installs hopen htable,
    fun size buffer memory halloc => ⟨_, _, allocate_of_alloc hopen halloc⟩,
    fun handle hnone => abandon_of_none (place?_eq_none_iff.mpr hnone),
    fun handle hlive => ⟨abandon_ne_failed hlive, fun e' => frees_of_abandon, ?_⟩⟩
  · rw [Machine.lookup_of_ne_zero h0]
    have hpos : handle.toNat ≠ 0 := fun h => h0 (UInt32.toNat_inj.mp h)
    exact hh.live _ (by omega)
  · rw [tableSize, hopen, if_neg Bool.false_ne_true]
    exact hh.le
  · rw [tableSize, hopen, if_neg Bool.false_ne_true] at htable
    exact countsInWords hh.pos hh.le htable
  · intro platters code slots hplatters hcode hslots htraffic
    have haccount := Memory.account_of_traffic hplatters hcode hslots htraffic
    exact (hw.owned haccount).abandon_done hlive

/-- Of three arrays the first two have been abandoned, and array 0 with them. -/
def gapped : Engine :=
  let filled := (allocate 200000 (allocate 0 (allocate 150000 (new #[] {}).2).2).2).2
  (abandon 0 (abandon 1 (abandon 2 filled).2).2).2

theorem worked_gapped : Worked .mapped 0 gapped 0 := by
  have hmade : Worked .mapped 0 (new #[] {}).2 0 := .new rfl (by decide) (by decide +kernel)
  have hfilled :=
    ((hmade.allocate 150000 (by decide +kernel)).allocate 0 (by decide +kernel)).allocate 200000
    (by decide +kernel)
  exact ((hfilled.abandon 2 (by decide +kernel)).abandon 1 (by decide +kernel)).abandon 0
    (by decide +kernel)

/-- The least of the two free handles is taken again, and the third array cannot be lost. -/
theorem least_free_handle_taken_gapped :
    gapped.tableSize < 0xFFFFFFFF ∧
    gapped.Installs 180000 1 (allocate 180000 gapped).2 ∧
    gapped.Frees 3 (abandon 3 gapped).2 ∧
    abandon 0 gapped =
      (.failed (.invalidIndex "abandonment of unallocated array" 0), gapped) := by
  have htable : gapped.tableSize < 0xFFFFFFFF := by decide +kernel
  obtain ⟨-, -, -, hinstalls, -, hrefused, hfrees⟩ := least_free_handle_taken worked_gapped htable
  refine ⟨htable, hinstalls 180000 1 _ (Action.eq_of_fst (by decide +kernel)), ?_,
    hrefused 0 (by decide +kernel)⟩
  exact (hfrees 3 (by decide +kernel)).2.1 _ (Action.eq_of_fst (by decide +kernel))

end Engine

end PlatterMachine
