import PlatterMachine.Proofs.Engine.LastEntry

/-!
# Code is used again

Once an array was loaded, its code is kept. The running copy has it and gives it back when another
program is loaded; from then on the array has it. Only amending or abandoning the array, or amending
the copy while it runs, can lose it. So the next load of the array compiles nothing, whatever else
the program has done to other arrays in the meantime.
-/

namespace PlatterMachine

inductive Act where
  | amends (handle : UInt32)
  | abandons (handle : UInt32)
  | loads (handle : UInt32)
  | recompiles
  deriving DecidableEq

def Exit.act? (left : Exit) : Option Act :=
  match Reason.ofCode? left.reason with
  | some .abandonment => some (.abandons left.value1)
  | some .loadProgram => some (.loads left.value1)
  | some .recompile => some .recompiles
  | _ => none

theorem Exit.act?_eq_loads {left : Exit} {handle : UInt32}
    (h : left.act? = some (.loads handle)) :
    Reason.ofCode? left.reason = some .loadProgram ∧ left.value1 = handle := by
  unfold act? at h
  split at h <;> cases h
  rename_i hreason
  exact ⟨hreason, rfl⟩

theorem Exit.act?_eq_recompiles {left : Exit} (h : left.act? = some .recompiles) :
    Reason.ofCode? left.reason = some .recompile := by
  unfold act? at h
  split at h <;> cases h
  assumption

namespace Engine

variable {e e' : Engine} {i : Nat} {words : Array Platter} {copy : Bool} {source : UInt32}

namespace Moment

variable {g : Moment} {interrupted : Bool}

def act? (interrupted : Bool) (g : Moment) : Option Act :=
  match g.exit? interrupted with
  | some (_, left) => left.act?
  | none => if g.looking then none else (g.machine.written? g.pc).map .amends

theorem act?_of_exit {m : Machine} {left : Exit} (hl : g.looking = false)
    (hstep : g.machine.step interrupted g.pc = .exit m left) :
    g.act? interrupted = left.act? := by
  rw [act?, exit?_eq_some_iff.mpr ⟨hl, hstep⟩]

theorem act?_of_not_exit (hl : g.looking = false)
    (hstep : ∀ m left, g.machine.step interrupted g.pc ≠ .exit m left) :
    g.act? interrupted = (g.machine.written? g.pc).map .amends := by
  have hnone : g.exit? interrupted = none := by
    rw [Option.eq_none_iff_forall_ne_some]
    rintro ⟨m, left⟩ h
    exact hstep m left (exit?_eq_some_iff.mp h).2
  rw [act?, hnone, hl]
  rfl

theorem act?_of_looking (hl : g.looking = true) : g.act? interrupted = none := by
  rw [act?, exit?, if_pos hl, hl]
  rfl

/-- Whatever is more than writing a word is done by the host. -/
theorem exit_of_act? {act : Act} (h : g.act? interrupted = some act)
    (hact : ∀ handle, act ≠ .amends handle) :
    ∃ m left, g.looking = false ∧ g.machine.step interrupted g.pc = .exit m left ∧
      left.act? = some act := by
  unfold act? at h
  split at h
  · rename_i m left hexit
    obtain ⟨hl, hstep⟩ := exit?_eq_some_iff.mp hexit
    exact ⟨m, left, hl, hstep, h⟩
  · split at h
    · cases h
    · obtain ⟨handle, -, rfl⟩ := Option.map_eq_some_iff.mp h
      exact absurd rfl (hact handle)

/-- The tick neither amends nor abandons nor loads the source, nor does it amend the program while
that is a copy of the source. A copy too long to be addressed is not to be compiled again either. -/
structure Respects (source : UInt32) (copy interrupted : Bool) (g : Moment) : Prop where
  not_amended : g.act? interrupted ≠ some (.amends source)
  not_abandoned : g.act? interrupted ≠ some (.abandons source)
  not_loaded : g.act? interrupted ≠ some (.loads source)
  copy_not_amended : copy = true → g.act? interrupted ≠ some (.amends 0)
  addressable : copy = true → g.act? interrupted = some .recompiles →
    ∀ co, g.machine.running.code = some co → co.code.size < Layout.limit

end Moment

def stillCopy (copy : Bool) : Option Act → Bool
  | some (.loads _) => false
  | _ => copy

def resupplied (e : Engine) (input : Reader) (memory : Memory) : Engine :=
  withMemory { e with host := { e.host with input } } memory

/-- At tick `n` of the run of `e`, the source has been loaded, and ever since it has been neither
amended nor abandoned nor loaded again, nor has its copy been amended while it was running, as it
still is if `copy`. A run that is over may have been followed by another one. -/
inductive SinceLoad (source : UInt32) :
    (copy : Bool) → Engine → Signals → (cancelled : Bool) → (n : Nat) → Prop
  | loaded {e : Engine} {signals : Signals} {cancelled : Bool} {n : Nat} {g g' : Moment}
      (he : Reachable e) (hgoing : e.host.stopped = false)
      (hg : e.course signals cancelled n = .inl g)
      (hload : g.act? (g.interrupted signals) = some (.loads source))
      (hnext : g.next signals = .inl g') : SinceLoad source true e signals cancelled (n + 1)
  | tick {copy : Bool} {e : Engine} {signals : Signals} {cancelled : Bool} {n : Nat}
      {g g' : Moment} (h : SinceLoad source copy e signals cancelled n)
      (hg : e.course signals cancelled n = .inl g)
      (hrespects : g.Respects source copy (g.interrupted signals))
      (hnext : g.next signals = .inl g') :
      SinceLoad source (stillCopy copy (g.act? (g.interrupted signals))) e signals cancelled (n + 1)
  | again {copy : Bool} {e : Engine} {signals signals' : Signals} {cancelled cancelled' : Bool}
      {n : Nat} {g g' : Moment} {result : RunResult}
      (h : SinceLoad source copy e signals cancelled n)
      (hg : e.course signals cancelled n = .inl g)
      (hrespects : g.Respects source copy (g.interrupted signals))
      (hnext : g.next signals = .inr result) (hgoing : (finish result).2.host.stopped = false)
      (input : Reader) (memory : Memory)
      (hopening : (resupplied (finish result).2 input memory).opening cancelled' = .inl g') :
      SinceLoad source copy (resupplied (finish result).2 input memory) signals' cancelled' 0

theorem Compiled.of_array {place : Place} (h : e.Compiled place words)
    (heq : e'.machine.array? place = e.machine.array? place) : e'.Compiled place words := by
  obtain ⟨a, co, ha, hrest⟩ := h
  exact ⟨a, co, heq.trans ha, hrest⟩

structure Lends (e : Engine) (i : Nat) (words : Array Platter) : Prop where
  clean : ∃ a, e.machine.array? (.other i) = some a ∧ a.words = words ∧ a.dirty = false
  donor_eq : e.host.donor = some i
  running : e.Compiled .running words

/-- Array `i` is clean, and its code is kept: by the array itself or, where the copy is running, by
the copy. -/
inductive Held (e : Engine) (i : Nat) (words : Array Platter) : (copy : Bool) → Prop
  | own {copy : Bool} (h : e.Compiled (.other i) words) : Held e i words copy
  | lent (h : e.Lends i words) : Held e i words true

theorem Held.of_eq (h : e.Held i words copy)
    (harray : e'.machine.array? (.other i) = e.machine.array? (.other i))
    (hdonor : e'.host.donor = e.host.donor) (hrunning : e'.machine.running = e.machine.running) :
    e'.Held i words copy := by
  cases h with
  | own h => exact .own (h.of_array harray)
  | lent h =>
    obtain ⟨⟨a, ha, hrest⟩, hdonor', hcompiled⟩ := h
    refine .lent ⟨⟨a, harray.trans ha, hrest⟩, hdonor.trans hdonor', hcompiled.of_array ?_⟩
    rw [Machine.array?_running, Machine.array?_running, hrunning]

theorem Held.exists_array (h : e.Held i words copy) :
    ∃ a, e.machine.array? (.other i) = some a ∧ a.words = words ∧ a.dirty = false := by
  cases h with
  | own h =>
    obtain ⟨a, co, ha, hwords, hclean, -⟩ := h
    exact ⟨a, ha, hwords, hclean⟩
  | lent h => exact h.clean

theorem Held.of_stillCopy {act : Option Act} (h : e.Held i words (stillCopy copy act)) :
    e.Held i words copy := by
  cases act with
  | none => exact h
  | some act =>
    cases act with
    | loads handle =>
      cases h with
      | own h => exact .own h
    | amends handle => exact h
    | abandons handle => exact h
    | recompiles => exact h

/-- The running program may be written to unless it is the copy. -/
theorem Held.step {m : Machine} {host : Host} (h : Held ⟨m, host⟩ i words copy)
    {interrupted : Bool} {pc : UInt32}
    (hother : ∀ handle, m.written? pc = some handle → m.place? handle ≠ some (.other i))
    (hzero : copy = true → m.written? pc ≠ some 0) :
    Held ⟨(m.step interrupted pc).machine, host⟩ i words copy := by
  rcases Machine.step_cases m interrupted pc with ⟨file, hfile⟩ |
    ⟨handle, offset, v, p, pc', hwritten, hread, heq⟩
  · rw [hfile]
    exact h.of_eq rfl rfl rfl
  obtain ⟨place, a, hplace, -, -⟩ := Machine.readWord?_eq_some hread
  have hne : place ≠ .other i := by
    rintro rfl
    exact hother handle hwritten hplace
  rw [heq, Machine.store, Machine.writeWord_eq hplace]
  by_cases h0 : handle = 0
  · subst h0
    obtain rfl := (Machine.place?_eq_running_iff hplace).mpr rfl
    cases h with
    | lent _ => exact absurd hwritten (hzero rfl)
    | own h =>
      rw [if_pos rfl]
      rcases Machine.plantStub_cases (m.modifyArray .running fun a =>
        { a with words := a.words.setIfInBounds offset.toNat v, dirty := true }) offset pc' with
        ⟨co, -, hplant⟩ | hplant
      · rw [hplant]
        exact .own (h.of_array rfl)
      · rw [hplant]
        exact .own (h.of_array rfl)
  · rw [if_neg h0, Step.machine]
    refine h.of_eq ?_ rfl ?_
    · rw [Machine.array?_modifyArray, if_neg hne]
    · cases place with
      | running => exact absurd ((Machine.place?_eq_running_iff hplace).mp rfl) h0
      | other j => rfl

theorem Held.wp_allocate (h : e.Held i words copy) (hc : e.Coherent) (size : UInt32) :
    (allocate size).wp (fun _ e' => e'.Held i words copy) (fun e' => e'.Held i words copy) e := by
  rw [Engine.wp_allocate]
  refine Action.wp_of_forall (fun buffer memory _ => ?_) fun memory => h.of_eq rfl rfl rfl
  cases hopen : e.host.closed with
  | true => exact h.of_eq rfl rfl rfl
  | false =>
    -- the handle is free, so that it is not the one of the array
    obtain ⟨h1, hle⟩ := hc.room hopen
    obtain ⟨j, hj, hle', hnone, -⟩ := nextHandle_spec h1 hle
    obtain ⟨a, ha, -⟩ := h.exists_array
    have hne : Place.other i ≠ .other j := by
      rintro ⟨⟩
      rw [hnone] at ha
      cases ha
    refine h.of_eq ?_ rfl (Machine.setOther_running _ _ _)
    change (e.machine.setOther e.nextHandle _).array? (.other i) = _
    rw [hj, Machine.array?_setOther _ hle', if_neg hne]

theorem Held.detached (h : e.Held i words copy) {j : Nat} {a : PlatterArray} (hji : j ≠ i)
    (ha : e.machine.array? (.other j) = some a) : (e.detached j).Held i words copy := by
  have harray : (e.detached j).machine.array? (.other i) = e.machine.array? (.other i) := by
    have hlt := Machine.lt_size_of_array?_other ha
    rw [Engine.detached, Machine.array?_setOther _ (Nat.le_of_lt hlt), if_neg]
    rintro ⟨⟩
    exact hji rfl
  cases h with
  | own h => exact .own (h.of_array harray)
  | lent h =>
    refine Held.of_eq (.lent h) harray ?_ (Machine.setOther_running _ _ _)
    rw [Engine.detached, if_neg]
    rw [h.donor_eq]
    rintro ⟨⟩
    exact hji rfl

theorem Held.wp_abandon (h : e.Held i words copy) {handle : UInt32}
    (hne : e.machine.place? handle ≠ some (.other i)) :
    (abandon handle).wp (fun _ e' => e'.Held i words copy) (fun e' => e'.Held i words copy) e := by
  refine wp_abandon_of_forall h (h.of_eq rfl rfl rfl) fun j a hp ha => ?_
  have hji : j ≠ i := by
    rintro rfl
    exact hne hp
  have hd := h.detached hji ha
  exact Action.wp_of_forall (fun _ memory _ => hd.of_eq rfl rfl rfl)
    fun memory => hd.of_eq rfl rfl rfl

/-- Compiling another array. -/
theorem Compiled.wp_regenerate (h : e.Compiled (.other i) words) {place : Place}
    {a : PlatterArray} (ha : e.machine.array? place = some a) (hne : place ≠ .other i) :
    (regenerate place).wp (fun _ e' => e'.Compiled (.other i) words)
      (fun e' => e'.Compiled (.other i) words) e := by
  have hmodify (f : PlatterArray → PlatterArray) :
      (e.machine.modifyArray place f).array? (.other i) = e.machine.array? (.other i) := by
    rw [Machine.array?_modifyArray, if_neg hne]
  rw [Engine.wp_regenerate ha]
  refine Action.wp_of_forall (fun _ memory _ => ?_) fun memory => h.of_array rfl
  exact Action.wp_of_forall (fun co memory' _ => h.of_array (hmodify _))
    fun memory' => h.of_array (hmodify _)

/-- An array that has its code is not given any. -/
theorem Compiled.codeReturned (h : e.Compiled (.other i) words) :
    e.codeReturned.Compiled (.other i) words := by
  obtain ⟨a, co, ha, hwords, hclean, hco⟩ := h
  unfold Engine.codeReturned
  split
  · exact ⟨a, co, ha, hwords, hclean, hco⟩
  · rename_i j hj
    obtain ⟨-, d, -, hd, hnone, -⟩ := returnTarget?_eq_some hj
    have hne : j ≠ i := by
      rintro rfl
      rw [ha] at hd
      cases hd
      rw [hco] at hnone
      cases hnone
    refine ⟨a, co, ?_, hwords, hclean, hco⟩
    simp [Machine.array?_modifyArray, hne, ha]

/-- Before anything else is loaded, the array has its code. -/
theorem Held.codeReturned (h : e.Held i words copy) : e.codeReturned.Compiled (.other i) words := by
  cases h with
  | own h => exact h.codeReturned
  | lent h =>
    obtain ⟨⟨a, ha, hwords, hclean⟩, hdonor, r, co, hr, -, hrclean, hco⟩ := h
    cases hr
    cases hcode : a.code with
    | some co' => exact Compiled.codeReturned ⟨a, co', ha, hwords, hclean, hcode⟩
    | none =>
      have htarget : e.returnTarget? = some i := by
        simp [returnTarget?, hdonor, ha, hcode, hclean, hrclean, hco]
      unfold Engine.codeReturned
      rw [htarget]
      refine ⟨{ a with code := some co }, co, ?_, hwords, hclean, rfl⟩
      simp [Machine.array?_modifyArray, ha, hco]

theorem Held.wp_loadProgram_other (h : e.Held i words copy) (hc : e.Coherent)
    {handle finger : UInt32} (hne : handle ≠ 0 → handle.toNat - 1 ≠ i) :
    (loadProgram handle finger).wp (fun _ e' => e'.Held i words false)
      (fun e' => e'.Held i words copy) e := by
  refine wp_loadProgram_of_forall h fun h0 src hsrc => ?_
  have hplace : Place.other (handle.toNat - 1) ≠ .other i := by
    rintro ⟨⟩
    exact hne h0 rfl
  have hrefresh : (if src.code.isNone || src.dirty then regenerate (.other (handle.toNat - 1))
      else pure ()).wp (fun _ e' => e'.Compiled (.other i) words)
        (fun e' => e'.Compiled (.other i) words) e.codeReturned := by
    split
    · exact h.codeReturned.wp_regenerate hsrc hplace
    · exact h.codeReturned
  refine ((hc.codeReturned.wp_refresh hsrc).and hrefresh).imp (fun _ e' _ hboth => ?_)
    fun _ hboth => .own hboth.2
  obtain ⟨⟨-, a, co, ha, -, -, hco⟩, hown⟩ := hboth
  refine ⟨a, co, ha, hco, fun memory => .own (hown.of_array rfl), fun buffer memory => ?_⟩
  refine .own (hown.of_array ?_)
  change (e'.machine.modifyArray (.other (handle.toNat - 1)) _).array? (.other i) = _
  rw [Machine.array?_modifyArray, if_neg hplace]

/-- A program that has been loaded has the code of its source. -/
theorem Compiled.lends_loaded (h : e.Compiled (.other (source.toNat - 1)) words) (finger : UInt32)
    (buffer : Buffer) (co : CodeObject) (memory : Memory) :
    ((e.loaded source finger words buffer (some co)).withMemory memory).Lends
      (source.toNat - 1) words := by
  obtain ⟨a, co', ha, hwords, hclean, -⟩ := h
  refine ⟨⟨{ a with code := none }, ?_, hwords, hclean⟩, rfl, ⟨_, co, rfl, rfl, rfl, rfl⟩⟩
  change (e.stripped (.other (source.toNat - 1))).machine.array? (.other (source.toNat - 1)) = _
  rw [Engine.stripped, Machine.array?_modifyArray, if_pos rfl, ha]
  rfl

theorem Coherent.wp_loadProgram_lends (hc : e.Coherent) (source finger : UInt32) :
    (loadProgram source finger).wp
      (fun _ e' => source ≠ 0 ∧ ∃ words, e'.Lends (source.toNat - 1) words) (fun _ => True) e := by
  refine wp_loadProgram_of_forall trivial fun h0 src hsrc => ?_
  refine (hc.codeReturned.wp_refresh hsrc).imp (fun _ e' _ h => ?_) fun _ _ => trivial
  obtain ⟨a, co, ha, -, -, hco⟩ := h.2
  exact ⟨a, co, ha, hco, fun _ => trivial, fun buffer memory =>
    ⟨h0, src.words, h.2.lends_loaded finger buffer co memory⟩⟩

/-- An array whose code is kept is loaded without being compiled. -/
theorem Held.wp_loadProgram_source (h : e.Held (source.toNat - 1) words copy) (finger : UInt32) :
    (loadProgram source finger).wp
      (fun pc e' => e'.host.stats.regenerations = e.host.stats.regenerations ∧
        e'.Lends (source.toNat - 1) words ∧
        ∃ co, e'.machine.running.code = some co ∧ pc = co.entry finger)
      (fun e' => e'.host.stats.regenerations = e.host.stats.regenerations) e := by
  have hstats : e.codeReturned.host.stats.regenerations = e.host.stats.regenerations := by
    unfold Engine.codeReturned
    split <;> rfl
  have hown := h.codeReturned
  refine wp_loadProgram_of_forall rfl fun _ src hsrc => ?_
  obtain ⟨a, co, ha, rfl, hclean, hco⟩ := h.codeReturned
  cases hsrc.symm.trans ha
  rw [if_neg (by simp [hco, hclean])]
  exact ⟨src, co, hsrc, hco, fun _ => hstats, fun buffer memory =>
    ⟨hstats, hown.lends_loaded finger buffer co memory, co, rfl, rfl⟩⟩

theorem Held.wp_serveReason (h : e.Held i words copy) (hc : e.Coherent) {reason : Reason}
    {left : Exit} (hload : reason ≠ .loadProgram)
    (habandon : reason = .abandonment → e.machine.place? left.value1 ≠ some (.other i))
    (hrecompile : reason = .recompile → e.Compiled (.other i) words) :
    (serveReason reason left).wp (fun _ e' => e'.Held i words copy)
      (fun e' => e'.Held i words copy) e := by
  have hwriter (output : Writer) : Held { e with host := { e.host with output } } i words copy :=
    h.of_eq rfl rfl rfl
  cases reason with
  | halt => exact wp_serveHalt_of_forall h hwriter
  | allocation =>
    rw [serveReason, Action.wp_bind]
    exact (h.wp_allocate hc _).imp (fun _ e' _ h' => h'.of_eq rfl rfl rfl) fun _ h' => h'
  | abandonment =>
    rw [serveReason, Action.wp_bind]
    exact (h.wp_abandon (habandon rfl)).imp (fun _ e' _ h' => h') fun _ h' => h'
  | output => exact wp_serveOutput_of_forall hwriter hwriter
  | input =>
    apply wp_serveInput_of_forall
    refine wp_onWriter_of_forall (fun output => ⟨?_, ?_, ?_⟩) hwriter
    · exact fun input v => h.of_eq rfl rfl rfl
    · exact fun input => h.of_eq rfl rfl rfl
    · exact fun input finger events => h.of_eq rfl rfl rfl
  | loadProgram => exact absurd rfl hload
  | recompile =>
    have hregenerate := (hrecompile rfl).wp_regenerate e.machine.array?_running (by rintro ⟨⟩)
    refine wp_serveRecompile_of_forall h (hregenerate.imp (fun _ e' _ h' stats events => ?_)
      fun _ h' => .own h')
    exact ⟨.own (h'.of_array rfl), fun _ _ _ => .own (h'.of_array rfl)⟩
  | fault => exact wp_serveFault_of_broken h
  | interrupt => exact h

theorem index_ne {handle : UInt32} (h0 : handle ≠ 0) (hsource : source ≠ 0)
    (hne : handle ≠ source) : handle.toNat - 1 ≠ source.toNat - 1 := by
  intro heq
  apply hne
  apply UInt32.toNat_inj.mp
  have hpos : 0 < handle.toNat := Nat.pos_of_ne_zero fun h => h0 (UInt32.toNat_inj.mp h)
  have hpos' : 0 < source.toNat := Nat.pos_of_ne_zero fun h => hsource (UInt32.toNat_inj.mp h)
  omega

theorem place?_ne_other {m : Machine} {handle : UInt32} (hsource : source ≠ 0)
    (hne : handle ≠ source) : m.place? handle ≠ some (.other (source.toNat - 1)) := by
  by_cases h0 : handle = 0
  · subst h0
    rw [Machine.place?_zero]
    split <;> nofun
  · rw [Machine.place?_of_ne_zero h0]
    intro h
    obtain ⟨a, -, heq⟩ := Option.map_eq_some_iff.mp h
    exact index_ne h0 hsource hne (Place.other.inj heq)

theorem Held.conclude (h : e.Held i words copy) (outcome : Outcome Unit) :
    (conclude outcome e).2.Held i words copy := by
  rcases snd_conclude outcome e with hsnd | hsnd
  · rw [hsnd]
    exact h
  · rw [hsnd]
    exact h.of_eq rfl rfl rfl

theorem Held.finish {result : RunResult} (h : result.2.Held i words copy) :
    (finish result).2.Held i words copy := by
  obtain ⟨_ | outcome, e⟩ := result
  · exact h
  · obtain ⟨o, hfinish⟩ := exists_finish outcome e
    rw [hfinish]
    exact h.of_eq rfl rfl rfl

theorem Held.opening (h : e.Held i words copy) (cancelled : Bool) :
    Sum.elim (fun g => g.engine.Held i words copy) (fun _ => True) (e.opening cancelled) := by
  have hrenewed : Held { e with host := e.host.renew } i words copy := h.of_eq rfl rfl rfl
  have hprepare : prepare.wp (fun _ e' => e'.Held i words copy) (fun _ => True)
      { e with host := e.host.renew } := by
    refine wp_prepare_of_forall (fun hstale => ?_) fun _ _ _ => hrenewed
    cases hrenewed with
    | own hown =>
      have hregenerate := hown.wp_regenerate e.machine.array?_running (by rintro ⟨⟩)
      exact hregenerate.imp (fun _ _ _ h' => .own h') fun _ _ => trivial
    | lent hlent =>
      -- the copy has clean code
      obtain ⟨r, co, hr, -, hclean, hco⟩ := hlent.running
      cases hr
      rw [hclean, hco] at hstale
      rcases hstale with h | h <;> cases h
  rcases opening_cases cancelled e with
    ⟨m, h, co, hp, -, ho⟩ | ⟨e', -, -, ho⟩ | ⟨outcome, e', -, -, ho⟩ <;> rw [ho]
  · rw [Action.wp, hp] at hprepare
    exact hprepare
  · trivial
  · trivial

/-- A copy that was not amended has no stubs, so that the program that is compiled again is none. -/
theorem Held.compiled_of_recompiles {g : Moment} {interrupted : Bool} {signals : Signals}
    {cancelled : Bool} {n : Nat} (h : g.engine.Held i words copy) (hs : g.engine.Sound)
    (hsituated : e.Situated signals cancelled n g)
    (hact : g.act? interrupted = some .recompiles)
    (hshort : copy = true → ∀ co, g.machine.running.code = some co →
      co.code.size < Layout.limit) : g.engine.Compiled (.other i) words := by
  cases h with
  | own h => exact h
  | lent h =>
    exfalso
    obtain ⟨co, hco, hstands⟩ := hsituated
    obtain ⟨_, g₀, old, -, hp, hstanding⟩ := hstands (hshort rfl co hco)
    obtain ⟨m, left, -, hstep, hleft⟩ := Moment.exit_of_act? hact nofun
    have hcommits := hstanding.commits_step hco hp interrupted
    rw [hstep] at hcommits
    obtain ⟨-, reason, hreason, hstub, -⟩ := hcommits
    cases hreason.symm.trans (Exit.act?_eq_recompiles hleft)
    obtain ⟨k, hk, hplaced⟩ := hstub rfl
    obtain ⟨r, -, hr, -, hclean, -⟩ := h.running
    cases hr
    exact hp.not_stub_of_isFor (CodeObject.isFor_of_clean hs.toCoherent hco hclean) hk hplaced

theorem Held.written {g : Moment} {interrupted : Bool}
    (h : g.engine.Held (source.toNat - 1) words copy) (hsource : source ≠ 0)
    (hrespects : g.Respects source copy interrupted)
    (hact : g.act? interrupted = (g.machine.written? g.pc).map .amends) :
    Held ⟨(g.machine.step interrupted g.pc).machine, g.host⟩ (source.toNat - 1) words copy := by
  refine Held.step h (fun handle hwritten => place?_ne_other hsource ?_) fun hcopy hwritten => ?_
  · rintro rfl
    apply hrespects.not_amended
    rw [hact, hwritten]
    rfl
  · apply hrespects.copy_not_amended hcopy
    rw [hact, hwritten]
    rfl

/-- What the host does at the request of a program leaves the code with whoever has it, or brings it
back to the array. -/
theorem Held.returned {g : Moment} {interrupted : Bool} {m : Machine} {left : Exit}
    {reason : Reason} (h : g.engine.Held (source.toNat - 1) words copy) (hsource : source ≠ 0)
    (hs : g.engine.Sound) (hrespects : g.Respects source copy interrupted)
    (hrecompile : g.act? interrupted = some .recompiles →
      g.engine.Compiled (.other (source.toNat - 1)) words)
    (hl : g.looking = false) (hstep : g.machine.step interrupted g.pc = .exit m left)
    (hreason : Reason.ofCode? left.reason = some reason) :
    (serveReason reason left).wp
      (fun _ e' => e'.Held (source.toNat - 1) words (stillCopy copy (g.act? interrupted)))
      (fun e' => e'.Held (source.toNat - 1) words copy) ⟨m, g.host⟩ := by
  have hact := Moment.act?_of_exit hl hstep
  have hc := hs.toCoherent.step interrupted g.pc
  rw [hstep] at hc
  obtain ⟨file, rfl⟩ := Machine.exists_file_of_step_exit hstep
  have hheld : Held ⟨{ g.machine with file }, g.host⟩ (source.toNat - 1) words copy :=
    h.of_eq rfl rfl rfl
  rw [Exit.act?, hreason] at hact
  by_cases hload : reason = .loadProgram
  · subst hload
    rw [hact, serveReason, Action.wp_bind]
    refine hheld.wp_loadProgram_other hc fun h0 => index_ne h0 hsource ?_
    rintro heq
    rw [heq] at hact
    exact hrespects.not_loaded hact
  · have hcopy : stillCopy copy (g.act? interrupted) = copy := by
      rw [hact]
      cases reason <;> first | rfl | exact absurd rfl hload
    rw [hcopy]
    refine hheld.wp_serveReason hc hload ?_ ?_
    · rintro rfl
      refine place?_ne_other hsource ?_
      rintro heq
      rw [heq] at hact
      exact hrespects.not_abandoned hact
    · rintro rfl
      exact (hrecompile hact).of_array rfl

/-- In a tick that respects the source its code is not lost. -/
theorem Held.tick {g : Moment} {interrupted : Bool} {r : Moment ⊕ RunResult}
    (h : g.engine.Held (source.toNat - 1) words copy) (hsource : source ≠ 0)
    (hs : g.engine.Sound) (hrespects : g.Respects source copy interrupted)
    (hrecompile : g.act? interrupted = some .recompiles →
      g.engine.Compiled (.other (source.toNat - 1)) words)
    (ht : g.Tick interrupted r) :
    Sum.elim
      (fun g' => g'.engine.Held (source.toNat - 1) words (stillCopy copy (g.act? interrupted)))
      (fun result => result.2.Held (source.toNat - 1) words copy) r := by
  cases ht with
  | canceled _ => exact h.conclude _
  | looked _ hl =>
    rw [Moment.act?_of_looking hl]
    exact h.of_eq rfl rfl rfl
  | stepped _ hl hstep =>
    have hact := Moment.act?_of_not_exit hl fun m left => by rw [hstep]; nofun
    have hwritten := h.written hsource hrespects hact
    rw [hstep] at hwritten
    rw [hact]
    cases g.machine.written? g.pc <;> exact hwritten
  | crashed hl hstep =>
    have hact := Moment.act?_of_not_exit hl fun m left => by rw [hstep]; nofun
    have hwritten := h.written hsource hrespects hact
    rw [hstep] at hwritten
    exact hwritten.conclude _
  | unknown _ _ hstep _ =>
    obtain ⟨file, rfl⟩ := Machine.exists_file_of_step_exit hstep
    have hheld : Held ⟨{ g.machine with file }, g.host⟩ (source.toNat - 1) words copy :=
      h.of_eq rfl rfl rfl
    exact hheld.conclude _
  | @returned m left reason cancelled hl hstep hreason =>
    have hserved := h.returned hsource hs hrespects hrecompile hl hstep hreason
    rcases hserve : serveReason reason left ⟨m, g.host⟩ with ⟨(_ | pc) | fault | crash, e'⟩ <;>
      rw [Action.wp, hserve] at hserved
    · exact hserved.of_stillCopy.conclude _
    · exact hserved
    · exact Held.conclude hserved _
    · exact Held.conclude hserved _

theorem Held.next {g : Moment} {signals : Signals} {cancelled : Bool} {n : Nat}
    (h : g.engine.Held (source.toNat - 1) words copy) (hc : e.Coherent)
    (hg : e.course signals cancelled n = .inl g) (hsource : source ≠ 0)
    (hrespects : g.Respects source copy (g.interrupted signals)) :
    Sum.elim
      (fun g' => g'.engine.Held (source.toNat - 1) words
        (stillCopy copy (g.act? (g.interrupted signals))))
      (fun result => result.2.Held (source.toNat - 1) words copy) (g.next signals) := by
  have hs := hc.sound_course hg
  refine h.tick hsource hs hrespects (fun hact => ?_) (Moment.tick_next signals g)
  exact h.compiled_of_recompiles hs (hc.situated hg) hact fun hcopy =>
    hrespects.addressable hcopy hact

/-- The tick in which the source is loaded makes its copy run, with its code. -/
theorem lends_of_loads {g g' : Moment} {signals : Signals} (hs : g.engine.Sound)
    (hload : g.act? (g.interrupted signals) = some (.loads source))
    (hnext : g.next signals = .inl g') :
    source ≠ 0 ∧ ∃ words, g'.engine.Lends (source.toNat - 1) words := by
  obtain ⟨m, left, hl, hstep, hleft⟩ := Moment.exit_of_act? hload nofun
  obtain ⟨hreason, rfl⟩ := Exit.act?_eq_loads hleft
  have hc := hs.toCoherent.step (g.interrupted signals) g.pc
  rw [hstep] at hc
  obtain ⟨cancelled, hserved⟩ := (Moment.tick_next signals g).eq_served hl hstep hreason
  have hwp : (serveReason .loadProgram left).wp
      (fun _ e' => left.value1 ≠ 0 ∧ ∃ words, e'.Lends (left.value1.toNat - 1) words)
      (fun _ => True) ⟨m, g.host⟩ := by
    rw [serveReason, Action.wp_bind]
    exact (hc.wp_loadProgram_lends left.value1 left.value2).imp (fun _ e' _ h => h) fun _ h => h
  rw [hnext] at hserved
  rcases hserve : serveReason .loadProgram left ⟨m, g.host⟩ with ⟨(_ | pc) | fault | crash, e'⟩ <;>
    rw [hserve] at hserved <;> cases hserved
  rw [Action.wp, hserve] at hwp
  exact hwp

theorem Reachable.resupplied (h : Reachable e) (input : Reader) (memory : Memory) :
    Reachable (e.resupplied input memory) :=
  .share memory (.supply input h)

/-- Since the source was loaded, its code has been kept. -/
theorem SinceLoad.held {signals : Signals} {cancelled : Bool} {n : Nat}
    (h : SinceLoad source copy e signals cancelled n) :
    Reachable e ∧ e.host.stopped = false ∧ source ≠ 0 ∧
      ∃ g words, e.course signals cancelled n = .inl g ∧
        g.engine.Held (source.toNat - 1) words copy := by
  induction h with
  | @loaded e signals cancelled n g g' he hgoing hg hload hnext =>
    obtain ⟨hsource, words, hlends⟩ :=
      lends_of_loads (he.coherent.sound_course hg) hload hnext
    exact ⟨he, hgoing, hsource, g', words, (course_succ_of_inl hg).trans hnext, .lent hlends⟩
  | @tick copy e signals cancelled n g g' _ hg hrespects hnext ih =>
    obtain ⟨he, hgoing, hsource, g₀, words, hg₀, hheld⟩ := ih
    cases hg.symm.trans hg₀
    have htick := hheld.next he.coherent hg hsource hrespects
    rw [hnext] at htick
    exact ⟨he, hgoing, hsource, g', words, (course_succ_of_inl hg).trans hnext, htick⟩
  | @again copy e signals signals' cancelled cancelled' n g g' result _ hg hrespects hnext hgoing'
      input memory hopening ih =>
    obtain ⟨he, hgoing, hsource, g₀, words, hg₀, hheld⟩ := ih
    cases hg.symm.trans hg₀
    have htick := hheld.next he.coherent hg hsource hrespects
    rw [hnext] at htick
    have hrun : e.run signals cancelled (n + 1) = finish result := by
      rw [run_eq_finish_course hgoing, course_succ_of_inl hg, hnext, Moment.report]
    have he' := he.run signals cancelled (n + 1)
    rw [hrun] at he'
    have hfinish : (finish result).2.Held (source.toNat - 1) words copy := Held.finish htick
    have hresupplied : ((finish result).2.resupplied input memory).Held (source.toNat - 1) words
        copy := hfinish.of_eq rfl rfl rfl
    have hopened := hresupplied.opening cancelled'
    rw [hopening] at hopened
    exact ⟨he'.resupplied input memory, hgoing', hsource, g', words,
      course_of_opening hopening signals' 0, hopened⟩

theorem stats_report_conclude (outcome : Outcome Unit) (e : Engine) :
    (Moment.report (.inr (conclude outcome e))).2.host.stats = e.host.stats := by
  rw [Moment.report]
  rcases snd_conclude outcome e with h | h
  · rw [h]
  · rw [h]
    rfl

/-- The next load of the source compiles nothing. If it succeeds, what runs is the code generated from
the platters of the source. -/
theorem reload_reuses_code {signals : Signals} {cancelled : Bool} {n : Nat} {g : Moment}
    (h : SinceLoad source copy e signals cancelled n)
    (hg : e.course signals cancelled n = .inl g)
    (hload : g.act? (g.interrupted signals) = some (.loads source)) :
    (Moment.report (g.next signals)).2.host.stats.regenerations = g.host.stats.regenerations ∧
      ∀ g', g.next signals = .inl g' → ∃ a co finger memory memory',
        g.machine.lookup source = some a ∧ g'.machine.running.words = a.words ∧
          g'.machine.running.code = some co ∧ g'.pc = co.entry finger ∧
          CodeObject.generate a.words memory = (.done co, memory') := by
  obtain ⟨he, -, hsource, g₀, words, hg₀, hheld⟩ := h.held
  cases hg.symm.trans hg₀
  obtain ⟨m, left, hl, hstep, hleft⟩ := Moment.exit_of_act? hload nofun
  obtain ⟨hreason, rfl⟩ := Exit.act?_eq_loads hleft
  obtain ⟨a, ha, hwords, -⟩ := hheld.exists_array
  obtain ⟨file, rfl⟩ := Machine.exists_file_of_step_exit hstep
  have hleft : Held ⟨{ g.machine with file }, g.host⟩ (left.value1.toNat - 1) words copy :=
    hheld.of_eq rfl rfl rfl
  obtain ⟨cancelled', hserved⟩ := (Moment.tick_next signals g).eq_served hl hstep hreason
  have hwp : (serveReason .loadProgram left).wp
      (fun resume e' => e'.host.stats.regenerations = g.host.stats.regenerations ∧
        e'.Compiled .running words ∧
        ∃ co, e'.machine.running.code = some co ∧ resume = some (co.entry left.value2))
      (fun e' => e'.host.stats.regenerations = g.host.stats.regenerations)
      ⟨{ g.machine with file }, g.host⟩ := by
    rw [serveReason, Action.wp_bind]
    refine (hleft.wp_loadProgram_source left.value2).imp (fun pc e' _ h' => ?_) fun _ h' => h'
    obtain ⟨hstats, hlends, co, hco, rfl⟩ := h'
    exact ⟨hstats, hlends.running, co, hco, rfl⟩
  have hnext (r : Moment ⊕ RunResult) (hr : g.next signals = r) :
      e.course signals cancelled (n + 1) = r := (course_succ_of_inl hg).trans hr
  rcases hserve : serveReason .loadProgram left ⟨{ g.machine with file }, g.host⟩ with
    ⟨(_ | pc) | fault | crash, e'⟩ <;>
    rw [Action.wp, hserve] at hwp <;> rw [hserve] at hserved <;> rw [hserved]
  · obtain ⟨-, -, co, -, hresume⟩ := hwp
    cases hresume
  · refine ⟨hwp.1, ?_⟩
    rintro g' ⟨⟩
    obtain ⟨-, ⟨r, co', hr, hrwords, hclean, hco'⟩, co, hco, ⟨⟩⟩ := hwp
    cases hr
    have hc' := (he.coherent.sound_course (hnext _ hserved)).toCoherent
    obtain ⟨memory, memory', hgenerate⟩ := hc'.fresh .running _ rfl hclean co hco
    refine ⟨a, co, left.value2, memory, memory', (Machine.lookup_of_ne_zero hsource).trans ha,
      hrwords.trans hwords.symm, hco, rfl, ?_⟩
    rw [hwords, ← hrwords]
    exact hgenerate
  · refine ⟨?_, fun g' hg' => absurd hg' Sum.inr_ne_inl⟩
    rw [Moment.served, stats_report_conclude]
    exact hwp
  · refine ⟨?_, fun g' hg' => absurd hg' Sum.inr_ne_inl⟩
    rw [Moment.served, stats_report_conclude]
    exact hwp

def respectful (source : UInt32) : (copy : Bool) → List (Option Act) → Bool
  | _, [] => true
  | copy, act :: later =>
    act != some (.amends source) && act != some (.abandons source) && act != some (.loads source) &&
      (!copy || act != some (.amends 0) && act != some .recompiles) &&
      respectful source (stillCopy copy act) later

/-- A stretch of ticks of which it is known what they do to arrays. -/
theorem SinceLoad.add {signals : Signals} {cancelled : Bool} {n : Nat}
    (h : SinceLoad source copy e signals cancelled n) (acts : List (Option Act))
    (hacts : ∀ j act, acts[j]? = some act → ∃ g, e.course signals cancelled (n + j) = .inl g ∧
      g.act? (g.interrupted signals) = act)
    (hrespectful : respectful source copy acts = true) {g : Moment}
    (hg : e.course signals cancelled (n + acts.length) = .inl g) :
    SinceLoad source (acts.foldl stillCopy copy) e signals cancelled (n + acts.length) := by
  induction acts generalizing n copy with
  | nil => exact h
  | cons act later ih =>
    rw [respectful] at hrespectful
    simp only [Bool.and_eq_true, Bool.or_eq_true, bne_iff_ne, Bool.not_eq_true'] at hrespectful
    obtain ⟨⟨⟨⟨hamends, habandons⟩, hloads⟩, hcopy⟩, hlater⟩ := hrespectful
    obtain ⟨g₀, hg₀, hact⟩ := hacts 0 act rfl
    have hrespects : g₀.Respects source copy (g₀.interrupted signals) := by
      rw [← hact] at hamends habandons hloads hcopy
      refine ⟨hamends, habandons, hloads, ?_, ?_⟩
      · rintro rfl
        exact (hcopy.resolve_left nofun).1
      · rintro rfl hrecompiles
        exact absurd hrecompiles (hcopy.resolve_left nofun).2
    have hlength : n + (act :: later).length = n + 1 + later.length := by
      rw [List.length_cons]
      omega
    rw [hlength] at hg ⊢
    cases hg₁ : e.course signals cancelled (n + 1) with
    | inr result => cases (course_inr_add hg₁ later.length).symm.trans hg
    | inl g₁ =>
      have htick := h.tick hg₀ hrespects ((course_succ_of_inl hg₀).symm.trans hg₁)
      rw [hact] at htick
      refine ih htick (fun j act' hj => ?_) hlater hg
      rw [Nat.add_assoc, Nat.add_comm 1 j]
      exact hacts (j + 1) act' hj

/-- The program loads array 1, that loads array 2, and that overwrites its copy and loads array 1. -/
def circular : MachineState :=
  ⟨#v[0, 1, 2, 0, 0, 0, 0, 0], 0,
    [(0, #[0xC0000008]), (1, #[0xC0000010]), (2, #[0x20000000, 0xC0000008])],
    by decide⟩

def circularActs : List (Option Act) :=
  [none, none, none, none, some (.loads 2), none, some (.amends 0), none, none, none]

theorem reload_reuses_code_circular :
    ∃ g g', SinceLoad 1 false (restore circular {}).2 .none false 15 ∧
      (restore circular {}).2.course .none false 15 = .inl g ∧
      g.act? (g.interrupted .none) = some (.loads 1) ∧ g.next .none = .inl g' ∧
      g'.host.stats.regenerations = g.host.stats.regenerations ∧
      g'.machine.running.words = #[0xC0000010] := by
  have hloads : ∀ n ∈ [4, 15], ((restore circular {}).2.course .none false n).getLeft?.map
      (fun g => g.act? (g.interrupted .none)) = some (some (.loads 1)) := by decide +kernel
  have hacts : ∀ j, j < 10 → ((restore circular {}).2.course .none false (5 + j)).getLeft?.map
      (fun g => g.act? (g.interrupted .none)) = circularActs[j]? := by decide +kernel
  have hend : ((restore circular {}).2.course .none false 16).getLeft?.any
      (fun g => g.machine.running.words = #[0xC0000010]) = true := by decide +kernel
  have hact {n : Nat} {act : Option Act}
      (h : ((restore circular {}).2.course .none false n).getLeft?.map
        (fun g => g.act? (g.interrupted .none)) = some act) :
      ∃ g, (restore circular {}).2.course .none false n = .inl g ∧
        g.act? (g.interrupted .none) = act := by
    obtain ⟨g, hg, hact⟩ := Option.map_eq_some_iff.mp h
    exact ⟨g, Sum.getLeft?_eq_some_iff.mp hg, hact⟩
  obtain ⟨g₀, hg₀, hload⟩ := hact (hloads 4 (by decide))
  obtain ⟨g₁, hg₁, -⟩ := hact (hacts 0 (by decide))
  obtain ⟨g, hg, hreload⟩ := hact (hloads 15 (by decide))
  obtain ⟨g', hg', hwords⟩ := (Option.any_eq_true _ _).mp hend
  rw [Sum.getLeft?_eq_some_iff] at hg'
  have hnext := (course_succ_of_inl hg).symm.trans hg'
  have hloaded : SinceLoad 1 true (restore circular {}).2 .none false 5 :=
    .loaded (.restore (by decide +kernel)) (by decide +kernel) hg₀ hload
      ((course_succ_of_inl hg₀).symm.trans hg₁)
  have hsince := hloaded.add circularActs (fun j act hj => hact ((hacts j ?_).trans hj))
    (by decide) hg
  · have hreuses := (reload_reuses_code hsince hg hreload).1
    rw [hnext] at hreuses
    exact ⟨g, g', hsince, hg, hreload, hnext, hreuses, of_decide_eq_true hwords⟩
  · exact (List.getElem?_eq_some_iff.mp hj).1

end Engine

end PlatterMachine
