import PlatterMachine.Engine.State
import PlatterMachine.Proofs.Action
import PlatterMachine.Proofs.Engine.Table

/-!
# What the operations of an engine do

For each operation on code and arrays, its weakest precondition in terms of what it asks of the
memory and of the engine it leaves behind. Whatever holds of an operation is derived from these,
whether the memory is known to suffice or not.
-/

namespace PlatterMachine

def Host.logged (h : Host) (event : EngineEvent) : Array EngineEvent :=
  if h.logs then h.events.push event else h.events

namespace Engine

variable {α : Type} {e : Engine} {post : α → Engine → Prop} {unitPost : Unit → Engine → Prop}
variable {broken : Engine → Prop}

def withMemory (e : Engine) (memory : Memory) : Engine :=
  { e with host := { e.host with memory } }

@[simp] theorem withMemory_machine (e : Engine) (memory : Memory) :
    (e.withMemory memory).machine = e.machine := rfl

@[simp] theorem wp_inMemory (x : Action Memory α) :
    (inMemory x).wp post broken e ↔
      x.wp (fun a memory => post a (e.withMemory memory))
        (fun memory => broken (e.withMemory memory)) e.host.memory :=
  Action.wp_within _ _

@[simp] theorem wp_onMachine (f : Machine → Machine) :
    (onMachine f).wp unitPost broken e ↔ unitPost () { e with machine := f e.machine } := Iff.rfl

@[simp] theorem wp_onHost (f : Host → Host) :
    (onHost f).wp unitPost broken e ↔ unitPost () { e with host := f e.host } := Iff.rfl

@[simp] theorem wp_count (f : EngineStats → EngineStats) :
    (count f).wp unitPost broken e ↔
      unitPost () { e with host := { e.host with stats := f e.host.stats } } := Iff.rfl

theorem note_apply (event : EngineEvent) (e : Engine) :
    note event e = (.done (), { e with host := { e.host with events := e.host.logged event } }) := by
  rw [note, onHost, Action.modify_apply, Host.logged]
  split <;> rfl

@[simp] theorem wp_note (event : EngineEvent) :
    (note event).wp unitPost broken e ↔
      unitPost () { e with host := { e.host with events := e.host.logged event } } := by
  rw [Action.wp, note_apply]

def stripped (e : Engine) (place : Place) : Engine :=
  { e with machine := e.machine.modifyArray place fun a => { a with code := none } }

def regenerated (e : Engine) (place : Place) (size : Nat) (co : CodeObject) : Engine where
  machine := e.machine.modifyArray place fun a => { a with code := some co, dirty := false }
  host :=
    { e.host with
      donor := if place = .running then none else e.host.donor
      stats := { e.host.stats with regenerations := e.host.stats.regenerations + 1 }
      events := e.host.logged (.regenerated size co.code.size) }

theorem wp_regenerate {place : Place} {a : PlatterArray} (ha : e.machine.array? place = some a) :
    (regenerate place).wp unitPost broken e ↔
      a.releaseCode.wp
        (fun _ memory => (CodeObject.generate a.words).wp
          (fun co memory => unitPost () ((e.regenerated place a.words.size co).withMemory memory))
          (fun memory => broken ((e.stripped place).withMemory memory)) memory)
        (fun memory => broken (e.withMemory memory)) e.host.memory := by
  have hset (co : CodeObject) :
      (e.machine.modifyArray place fun a => { a with code := none }).modifyArray place
        (fun a => { a with code := some co, dirty := false }) =
          e.machine.modifyArray place fun a => { a with code := some co, dirty := false } :=
    Machine.modifyArray_modifyArray ..
  unfold regenerate
  cases place with
  | running =>
    simp only [Action.wp_bind, Action.wp_read, ha, wp_inMemory, wp_onMachine, Action.wp_during,
      wp_count, wp_note, if_true, wp_onHost]
    rfl
  | other i =>
    simp only [Action.wp_bind, Action.wp_read, ha, wp_inMemory, wp_onMachine, Action.wp_during,
      wp_count, wp_note, reduceCtorEq, if_false, withMemory_machine, hset]
    rfl

/-- Handle `h` names an array, for `h` at least 1. -/
def Live (others : Array (Option PlatterArray)) (h : Nat) : Prop := others[h - 1]?.join ≠ none

/-- The search ends at a handle that is not live and that is in the table or right behind it; all
handles that it has passed are live. -/
theorem freeHandle_spec (others : Array (Option PlatterArray)) (fuel : Nat) {h : Nat} (h1 : 1 ≤ h)
    (hle : h ≤ others.size + 1) (hfuel : others.size + 1 ≤ h + fuel) :
    h ≤ freeHandle others fuel h ∧ freeHandle others fuel h ≤ others.size + 1 ∧
      ¬ Live others (freeHandle others fuel h) ∧
      ∀ k, h ≤ k → k < freeHandle others fuel h → Live others k := by
  induction fuel generalizing h with
  | zero =>
    have hnone : others[h - 1]? = none := Array.getElem?_eq_none (by omega)
    refine ⟨Nat.le_refl _, hle, by simp [freeHandle, Live, hnone], fun k hk hlt => ?_⟩
    rw [freeHandle] at hlt
    omega
  | succ fuel ih =>
    rw [freeHandle]
    split
    · rename_i a ha
      have hlt : h - 1 < others.size := (Array.getElem?_eq_some_iff.mp ha).1
      obtain ⟨hge, hend, hfree, hlive⟩ := ih (h := h + 1) (by omega) (by omega) (by omega)
      refine ⟨by omega, hend, hfree, fun k hk hlt => ?_⟩
      by_cases hkh : k = h
      · subst hkh
        simp [Live, ha]
      · exact hlive k (by omega) hlt
    · rename_i hfree
      refine ⟨Nat.le_refl _, hle, ?_, fun k hk hlt => by omega⟩
      rcases ha : others[h - 1]? with _ | _ | a
      · simp [Live, ha]
      · simp [Live, ha]
      · exact absurd ha (hfree a)

def nextHandle (e : Engine) : Nat :=
  freeHandle e.machine.others e.machine.others.size e.host.minFree

theorem nextHandle_spec (h1 : 1 ≤ e.host.minFree)
    (hle : e.host.minFree ≤ e.machine.others.size + 1) :
    ∃ i, e.nextHandle = i + 1 ∧ i ≤ e.machine.others.size ∧ e.machine.array? (.other i) = none ∧
      ∀ k, e.host.minFree ≤ k + 1 → k < i → e.machine.array? (.other k) ≠ none := by
  obtain ⟨hge, hend, hfree, hlive⟩ :=
    freeHandle_spec e.machine.others e.machine.others.size h1 hle (by omega)
  refine ⟨e.nextHandle - 1, ?_, ?_, ?_, fun k hk hlt => ?_⟩
  · rw [nextHandle]
    omega
  · rw [nextHandle]
    omega
  · exact Classical.not_not.mp hfree
  · rw [nextHandle] at hlt
    exact hlive (k + 1) hk (by omega)

/-- The search for a free handle that counts in words, and so starts again behind the last one. -/
def freeWord (others : Array (Option PlatterArray)) : (fuel : Nat) → (h : UInt32) → UInt32
  | 0, h => h
  | fuel + 1, h =>
    match others[h.toNat - 1]? with
    | some (some _) => freeWord others fuel (h + 1)
    | _ => h

theorem freeWord_eq (others : Array (Option PlatterArray)) (fuel : Nat) {h : UInt32}
    (h1 : 1 ≤ h.toNat) (hsize : others.size + 1 < 0xFFFFFFFF) :
    (freeWord others fuel h).toNat = freeHandle others fuel h.toNat := by
  induction fuel generalizing h with
  | zero => rfl
  | succ fuel ih =>
    rw [freeWord, freeHandle]
    rcases ha : others[h.toNat - 1]? with _ | _ | a
    · rfl
    · rfl
    · have hlt : h.toNat - 1 < others.size := (Array.getElem?_eq_some_iff.mp ha).1
      have hsucc : (h + 1).toNat = h.toNat + 1 := by
        rw [UInt32.toNat_add]
        exact Nat.mod_eq_of_lt (show h.toNat + 1 < 0x100000000 by omega)
      dsimp only
      rw [ih (by omega), hsucc]

structure CountsInWords (e : Engine) : Prop where
  minFree_eq : (UInt32.ofNat e.host.minFree).toNat = e.host.minFree
  next_eq : (freeWord e.machine.others e.machine.others.size
    (UInt32.ofNat e.host.minFree)).toNat = e.nextHandle
  succ_eq : (freeWord e.machine.others e.machine.others.size
    (UInt32.ofNat e.host.minFree) + 1).toNat = e.nextHandle + 1

theorem countsInWords (h1 : 1 ≤ e.host.minFree) (hle : e.host.minFree ≤ e.machine.others.size + 1)
    (hsize : e.machine.others.size + 1 < 0xFFFFFFFF) : e.CountsInWords := by
  have hfree : (UInt32.ofNat e.host.minFree).toNat = e.host.minFree :=
    UInt32.toNat_ofNat_of_lt' (show e.host.minFree < 0x100000000 by omega)
  have hnext : (freeWord e.machine.others e.machine.others.size
      (UInt32.ofNat e.host.minFree)).toNat = e.nextHandle := by
    rw [freeWord_eq _ _ (by omega) hsize, hfree, nextHandle]
  obtain ⟨i, hi, hend, -⟩ := nextHandle_spec h1 hle
  refine ⟨hfree, hnext, ?_⟩
  rw [UInt32.toNat_add, hnext]
  exact Nat.mod_eq_of_lt (show e.nextHandle + 1 < 0x100000000 by omega)

def allocated (e : Engine) (size : UInt32) (buffer : Buffer) : Engine where
  machine := e.machine.setOther e.nextHandle
    (some ⟨Array.replicate size.toNat 0, buffer, false, none⟩)
  host :=
    { e.host with
      minFree := e.nextHandle + 1
      stats := { e.host.stats with allocations := e.host.stats.allocations + 1 } }

theorem wp_allocate (size : UInt32) {post : UInt32 → Engine → Prop} :
    (allocate size).wp post broken e ↔
      (Memory.inPlatters (Arena.alloc size.toNat true)).wp
        (fun buffer memory =>
          if e.host.closed then broken (e.withMemory memory)
          else post (UInt32.ofNat e.nextHandle) ((e.allocated size buffer).withMemory memory))
        (fun memory => broken (e.withMemory memory)) e.host.memory := by
  unfold allocate
  simp only [Action.wp_bind, Action.wp_during, wp_inMemory, Action.wp_read]
  cases h : e.host.closed with
  | true =>
    have hclosed (memory : Memory) : (e.withMemory memory).host.closed = true := h
    simp only [hclosed, if_true, Action.wp_bind, Action.wp_crash]
  | false =>
    have hclosed (memory : Memory) : (e.withMemory memory).host.closed = false := h
    simp only [hclosed, Bool.false_eq_true, if_false, Action.wp_bind, Action.wp_read,
      Action.wp_pure, wp_onMachine, wp_onHost, wp_count]
    simp only [withMemory, allocated, h]
    rfl

def detached (e : Engine) (i : Nat) : Engine where
  machine := e.machine.setOther (i + 1) none
  host := { e.host with donor := if e.host.donor = some i then none else e.host.donor }

def abandoned (e : Engine) (i : Nat) : Engine where
  machine := (e.detached i).machine
  host :=
    { (e.detached i).host with
      minFree := min e.host.minFree (i + 1)
      stats := { e.host.stats with abandonments := e.host.stats.abandonments + 1 } }

def abandonedRunning (e : Engine) : Engine where
  machine := { e.machine with zeroLive := false }
  host :=
    { e.host with
      stats := { e.host.stats with abandonments := e.host.stats.abandonments + 1 }
      events := e.host.logged .abandonedRunning }

theorem abandon_of_none {handle : UInt32} (h : e.machine.place? handle = none) :
    abandon handle e =
      (.failed (.invalidIndex "abandonment of unallocated array" handle), e) := by
  simp only [abandon, Action.read_bind_apply, h, Action.fail_bind_apply]

theorem wp_abandon_running {handle : UInt32} (h : e.machine.place? handle = some .running) :
    (abandon handle).wp unitPost broken e ↔ unitPost () e.abandonedRunning := by
  simp only [abandon, Action.wp_bind, Action.wp_read, h, wp_onMachine, wp_note, wp_count]
  rfl

theorem wp_abandon_other {handle : UInt32} {i : Nat} {a : PlatterArray}
    (h : e.machine.place? handle = some (.other i)) (ha : e.machine.array? (.other i) = some a) :
    (abandon handle).wp unitPost broken e ↔
      a.release.wp (fun _ memory => unitPost () ((e.abandoned i).withMemory memory))
        (fun memory => broken ((e.detached i).withMemory memory)) e.host.memory := by
  simp only [abandon, Action.wp_bind, Action.wp_read, h, ha, wp_onMachine, wp_onHost, wp_inMemory,
    wp_count, Option.getD_some]
  rfl

/-- Abandoning is refused, or it takes a handle from the running program or from another array. -/
theorem wp_abandon_of_forall {handle : UInt32} (hrefused : broken e)
    (hrunning : unitPost () e.abandonedRunning)
    (hother : ∀ i a, e.machine.place? handle = some (.other i) →
      e.machine.array? (.other i) = some a →
      a.release.wp (fun _ memory => unitPost () ((e.abandoned i).withMemory memory))
        (fun memory => broken ((e.detached i).withMemory memory)) e.host.memory) :
    (abandon handle).wp unitPost broken e := by
  cases hp : e.machine.place? handle with
  | none =>
    rw [Action.wp, abandon_of_none hp]
    exact hrefused
  | some place =>
    cases place with
    | running => exact (wp_abandon_running hp).mpr hrunning
    | other i =>
      obtain ⟨a, ha⟩ := Machine.exists_array?_of_place? hp
      exact (wp_abandon_other hp ha).mpr (hother i a hp ha)

theorem returnTarget?_eq_some {i : Nat} (h : e.returnTarget? = some i) :
    e.host.donor = some i ∧ ∃ d co, e.machine.array? (.other i) = some d ∧ d.code = none ∧
      d.dirty = false ∧ e.machine.running.dirty = false ∧ e.machine.running.code = some co := by
  simp only [returnTarget?, Option.bind_eq_bind, Option.bind_eq_some_iff] at h
  obtain ⟨j, hj, d, hd, h⟩ := h
  split at h
  · rename_i hall
    cases h
    simp only [Bool.and_eq_true, Bool.not_eq_true', Option.isNone_iff_eq_none,
      Option.isSome_iff_exists] at hall
    obtain ⟨⟨⟨hcode, hdirty⟩, hrunning⟩, co, hco⟩ := hall
    exact ⟨hj, d, co, hd, hcode, hdirty, hrunning, hco⟩
  · cases h

/-- The running code has gone back to the donor, if it still fits there. -/
def codeReturned (e : Engine) : Engine :=
  match e.returnTarget? with
  | none => e
  | some i =>
    let m := (e.machine.modifyArray .running fun a => { a with code := none }).modifyArray (.other i)
      fun a => { a with code := e.machine.running.code }
    ⟨m, { e.host with
      stats := { e.host.stats with transfers := e.host.stats.transfers + 1 }
      events := e.host.logged (.returnedCode ((m.array? (.other i)).getD .empty).words.size) }⟩

/-- Each array after the running code has gone to array `i`. -/
theorem array?_eq_some_of_returned {i : Nat} {d a : PlatterArray} {place : Place}
    (hd : e.machine.array? (.other i) = some d)
    (ha : ((e.machine.modifyArray .running fun a => { a with code := none }).modifyArray (.other i)
      fun a => { a with code := e.machine.running.code }).array? place = some a) :
    (place = .other i ∧ a = { d with code := e.machine.running.code }) ∨
      (place = .running ∧ a = { e.machine.running with code := none }) ∨
      e.machine.array? place = some a := by
  simp only [Machine.array?_modifyArray] at ha
  split at ha
  · rename_i hplace
    subst hplace
    simp only [reduceCtorEq, if_false, hd, Option.map_some, Option.some.injEq] at ha
    exact Or.inl ⟨rfl, ha.symm⟩
  · split at ha
    · rename_i hplace
      subst hplace
      cases ha
      exact Or.inr (Or.inl ⟨rfl, rfl⟩)
    · exact Or.inr (Or.inr ha)

theorem array?_codeReturned {place : Place} {a : PlatterArray}
    (ha : e.machine.array? place = some a) :
    ∃ code, e.codeReturned.machine.array? place = some { a with code } := by
  unfold codeReturned
  split
  · exact ⟨a.code, ha⟩
  · rename_i i _
    simp only [Machine.array?_modifyArray, ha]
    by_cases h : Place.other i = place
    · subst h
      exact ⟨e.machine.running.code, by simp⟩
    · by_cases hr : Place.running = place
      · exact ⟨none, by simp [h, hr]⟩
      · exact ⟨a.code, by simp [h, hr]⟩

@[simp] theorem wp_returnCode :
    returnCode.wp unitPost broken e ↔ unitPost () e.codeReturned := by
  unfold returnCode codeReturned
  cases h : e.returnTarget? with
  | none => simp only [Action.wp_bind, Action.wp_read, h, Action.wp_pure]
  | some i =>
    simp only [Action.wp_bind, Action.wp_read, h, wp_onMachine, wp_count, wp_note]
    rfl

def loaded (e : Engine) (source finger : UInt32) (words : Array Platter) (buffer : Buffer)
    (code : Option CodeObject) : Engine where
  machine :=
    { e.machine.modifyArray (.other (source.toNat - 1)) fun a => { a with code := none } with
      running := ⟨words, buffer, false, code⟩
      zeroLive := true }
  host :=
    { e.host with
      donor := some (source.toNat - 1)
      stats := { e.host.stats with loads := e.host.stats.loads + 1 }
      events := e.host.logged (.loaded source finger words.size) }

theorem loadProgram_of_none {source finger : UInt32} (h0 : source ≠ 0)
    (h : e.machine.lookup source = none) :
    loadProgram source finger e =
      (.failed (.invalidIndex "load-program from unallocated array" source), e) := by
  simp only [loadProgram, if_neg h0, Action.read_bind_apply, h, Action.fail_apply]

theorem loadProgram_of_le {source finger : UInt32} {src : PlatterArray} (h0 : source ≠ 0)
    (h : e.machine.lookup source = some src) (hle : src.words.size ≤ finger.toNat) :
    loadProgram source finger e =
      (.failed (.invalidIndex "program finger beyond loaded array" finger), e) := by
  simp only [loadProgram, if_neg h0, Action.read_bind_apply, h, if_pos hle,
    Action.fail_bind_apply]

/-- A load is refused at once, or there is a source to load. -/
theorem loadProgram_cases (source finger : UInt32) (e : Engine) :
    (∀ (post : UInt32 → Engine → Prop) (broken : Engine → Prop), broken e →
      (loadProgram source finger).wp post broken e) ∨
    ∃ found code, source ≠ 0 ∧ e.machine.lookup source = some found ∧
      finger.toNat < found.words.size ∧
      e.codeReturned.machine.array? (.other (source.toNat - 1)) = some { found with code } := by
  by_cases h0 : source = 0
  · subst h0
    exact Or.inl fun _ _ hrefused => hrefused
  cases hfound : e.machine.lookup source with
  | none =>
    refine Or.inl fun _ _ hrefused => ?_
    rw [Action.wp, loadProgram_of_none h0 hfound]
    exact hrefused
  | some found =>
    by_cases hle : found.words.size ≤ finger.toNat
    · refine Or.inl fun _ _ hrefused => ?_
      rw [Action.wp, loadProgram_of_le h0 hfound hle]
      exact hrefused
    · obtain ⟨code, hsrc⟩ :=
        array?_codeReturned ((Machine.lookup_of_ne_zero h0).symm.trans hfound)
      exact Or.inr ⟨found, code, h0, rfl, Nat.lt_of_not_le hle, hsrc⟩

/-- The source array is looked at once more after the running code may have gone back to it. -/
theorem wp_loadProgram {source finger : UInt32} {found src : PlatterArray}
    {post : UInt32 → Engine → Prop} (h0 : source ≠ 0) (h : e.machine.lookup source = some found)
    (hlt : finger.toNat < found.words.size)
    (hsrc : e.codeReturned.machine.array? (.other (source.toNat - 1)) = some src) :
    (loadProgram source finger).wp post broken e ↔
      (if src.code.isNone || src.dirty then regenerate (.other (source.toNat - 1))
        else pure ()).wp
        (fun _ e => (Memory.inPlatters (Arena.alloc src.words.size false)).wp
          (fun buffer memory => e.machine.running.release.wp
            (fun _ memory =>
              let code := ((e.machine.array? (.other (source.toNat - 1))).getD src).code
              (match code with
                | some co => pure (co.entry finger)
                | none => Action.crash .outOfRange : Action Engine UInt32).wp post broken
                ((e.loaded source finger src.words buffer code).withMemory memory))
            (fun memory => broken (e.withMemory memory)) memory)
          (fun memory => broken (e.withMemory memory)) e.host.memory)
        broken e.codeReturned := by
  unfold loadProgram
  simp only [if_neg h0, Action.wp_bind, Action.wp_read, h, if_neg (Nat.not_le.mpr hlt),
    wp_returnCode, hsrc, Option.getD_some]
  split
  · simp only [Action.wp_bind, Action.wp_during, wp_inMemory, Action.wp_read, wp_onMachine, wp_onHost,
      wp_count, wp_note]
    rfl
  · simp only [Action.wp_bind, Action.wp_pure, Action.wp_during, wp_inMemory, Action.wp_read,
      wp_onMachine, wp_onHost, wp_count, wp_note]
    rfl

def emptied (e : Engine) (memory : Memory) : Engine where
  machine := { e.machine with running := .empty, zeroLive := false, others := #[] }
  host := { e.host with memory, donor := none, stopped := true, closed := true }

/-- Memory of the engine's own is closed when the arrays have been released. -/
theorem close_eq {memory : Memory}
    (h : (e.arrays.forM PlatterArray.release) e.host.memory = (.done (), memory)) :
    close e =
      if e.host.ownsMemory then
        (match memory.close.1 with
          | some fault => .failed fault
          | none => .done (), e.emptied memory.close.2)
      else (.done (), e.emptied memory) := by
  have hreleased : inMemory (e.arrays.forM PlatterArray.release) e =
      (.done (), e.withMemory memory) := by
    simp only [inMemory, Action.within, h]
    rfl
  simp only [close, Action.read_bind_apply, Action.bind_done hreleased, onMachine, onHost,
    Action.modify_bind_apply, Engine.withMemory]
  split
  · refine (Action.bind_done rfl).trans ?_
    dsimp only
    cases memory.close.1 <;> rfl
  · rfl

/-- Where an array cannot be released the engine stays as it was, and otherwise no array is left. -/
theorem snd_close (e : Engine) :
    ∃ memory, (close e).2 = e.withMemory memory ∨ (close e).2 = e.emptied memory := by
  rcases hreleased : (e.arrays.forM PlatterArray.release) e.host.memory with
    ⟨_ | fault | crash, memory⟩
  · rw [close_eq hreleased]
    split
    · exact ⟨_, Or.inr rfl⟩
    · exact ⟨_, Or.inr rfl⟩
  · have hfailed : inMemory (e.arrays.forM PlatterArray.release) e =
        (.failed fault, e.withMemory memory) := by
      simp only [inMemory, Action.within, hreleased]
      rfl
    refine ⟨memory, Or.inl ?_⟩
    rw [close, Action.read_bind_apply, Action.bind_failed hfailed]
  · have hcrashed : inMemory (e.arrays.forM PlatterArray.release) e =
        (.crashed crash, e.withMemory memory) := by
      simp only [inMemory, Action.within, hreleased]
      rfl
    refine ⟨memory, Or.inl ?_⟩
    rw [close, Action.read_bind_apply, Action.bind_crashed hcrashed]

def programmed (e : Engine) (program : Array Platter) (buffer : Buffer) (memory : Memory) :
    Engine where
  machine :=
    { e.machine with
      running := ⟨program, buffer, false, none⟩
      zeroLive := true
      others := #[] }
  host := { e.host with memory, closed := false }

theorem wp_start_of_forall {program : Array Platter} {P : Engine → Prop}
    (h : ∀ buffer memory, P (e.programmed program buffer memory)) :
    (start program).wp (fun _ => P) (fun _ => True) e := by
  unfold start
  simp only [Action.wp_bind, Action.wp_during, wp_onMachine, wp_onHost]
  apply Action.wp.cleaningUp
  rw [wp_inMemory]
  exact Action.wp_of_forall (fun buffer memory _ => h buffer memory) fun _ =>
    ⟨trivial, Action.wp_of_forall (fun _ _ _ => trivial) fun _ => trivial⟩

/-- What a new array keeps, wherever it is put, the restored arrays keep. -/
theorem wp_restoreArrays_of_forall {P : Engine → Prop}
    (hput : ∀ (e : Engine) handle words buffer memory, P e →
      P ⟨e.machine.setOther handle (some ⟨words, buffer, false, none⟩), { e.host with memory }⟩)
    (h : P e) (arrays : List (UInt32 × Array Platter)) :
    (restoreArrays arrays).wp (fun _ => P) (fun _ => True) e := by
  induction arrays generalizing e with
  | nil => exact h
  | cons entry rest ih =>
    obtain ⟨handle, words⟩ := entry
    rw [restoreArrays]
    by_cases h0 : handle = 0
    · simp only [h0, ne_eq, not_true_eq_false, if_false]
      exact ih h
    · simp only [h0, ne_eq, not_false_eq_true, if_true, Action.wp_bind, Action.wp_during,
        wp_onMachine]
      apply Action.wp.cleaningUp
      rw [wp_inMemory]
      exact Action.wp_of_forall (fun buffer memory _ => ih (hput e handle.toNat words buffer memory h))
        fun _ => ⟨trivial, Action.wp_of_forall (fun _ _ _ => trivial) fun _ => trivial⟩

/-- The engine has the registers and the finger of `s`, and `top` handles that name no array yet. -/
def readied (e : Engine) (s : MachineState) (top : Nat) : Engine where
  machine :=
    { e.machine with
      file := Vector.ofFn fun i => if h : i.val < 8 then s.registers.get ⟨i.val, h⟩ else 0
      others := Array.replicate top none }
  host := { e.host with finger := s.finger }

theorem size_others_readied (e : Engine) (s : MachineState) (top : Nat) :
    (e.readied s top).machine.others.size = top := Array.size_replicate

theorem array?_readied_other (e : Engine) (s : MachineState) (top i : Nat) :
    (e.readied s top).machine.array? (.other i) = none := by
  rw [Machine.array?_other]
  refine (congrArg Option.join Array.getElem?_replicate).trans ?_
  split <;> rfl

def searched (e : Engine) : Engine :=
  { e with host :=
    { e.host with minFree := freeHandle e.machine.others e.machine.others.size 1 } }

theorem minFree_searched (e : Engine) :
    1 ≤ e.searched.host.minFree ∧ e.searched.host.minFree ≤ e.machine.others.size + 1 ∧
      ∀ k, k + 1 < e.searched.host.minFree → e.machine.array? (.other k) ≠ none := by
  obtain ⟨hge, hle, -, hlive⟩ := freeHandle_spec e.machine.others e.machine.others.size
    (Nat.le_refl 1) (by omega) (by omega)
  exact ⟨hge, hle, fun k hk => hlive (k + 1) (by omega) hk⟩

theorem wp_resume_iff {s : MachineState} {program : Array Platter} {top : Nat} :
    (resume s program top).wp unitPost broken e ↔
      (start program).wp
        (fun _ e => (restoreArrays s.arrays).wp (fun _ e => unitPost () e.searched) broken
          (e.readied s top)) broken e := by
  unfold resume
  simp only [Action.wp_bind, wp_onMachine, wp_onHost, Action.wp_read]
  rfl

theorem wp_resume_of_forall {s : MachineState} {program : Array Platter} {top : Nat}
    {P Q : Engine → Prop}
    (hready : ∀ buffer memory, P ((e.programmed program buffer memory).readied s top))
    (hput : ∀ (e : Engine) handle words buffer memory, P e →
      P ⟨e.machine.setOther handle (some ⟨words, buffer, false, none⟩), { e.host with memory }⟩)
    (hsearched : ∀ e, P e → Q e.searched) :
    (resume s program top).wp (fun _ => Q) (fun _ => True) e := by
  rw [wp_resume_iff]
  refine wp_start_of_forall fun buffer memory => ?_
  exact (wp_restoreArrays_of_forall hput (hready buffer memory) s.arrays).imp
    (fun _ e' _ h => hsearched e' h) fun _ _ => trivial

/-- A state that is restored has passed the checks. -/
theorem restore_eq_resume {s : MachineState} {config : EngineConfig}
    (h : (restore s config).1 = .done ()) :
    ∃ program top, restore s config = resume s program top (blank config) := by
  unfold restore at h ⊢
  dsimp only at h ⊢
  cases hprogram : s.array? 0 with
  | none =>
    rw [hprogram] at h
    cases h
  | some program =>
    simp only [hprogram] at h ⊢
    by_cases hfinger : program.size ≤ s.finger.toNat
    · rw [if_pos hfinger] at h
      cases h
    · rw [if_neg hfinger] at h ⊢
      by_cases htop : handleLimit ≤ (s.handles.foldl max 0).toNat
      · rw [if_pos htop] at h
        cases h
      · rw [if_neg htop]
        exact ⟨program, _, rfl⟩

end Engine

end PlatterMachine
