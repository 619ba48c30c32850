import PlatterMachine.Engine.State
import PlatterMachine.Proofs.Engine.Operations
import PlatterMachine.Proofs.HostCode.Patching

/-!
# Coherence of code with the words it was generated from

An engine is coherent when every clean array that has code has the code generated for its present
words, and when a donor that could get the running code back has the words that are running. Every
operation of an engine keeps it coherent, however the operation ends.
-/

namespace PlatterMachine

/-- Clean code is what was generated for the present words. -/
def PlatterArray.Fresh (a : PlatterArray) : Prop :=
  a.dirty = false → ∀ co, a.code = some co →
    ∃ memory memory', CodeObject.generate a.words memory = (.done co, memory')

theorem PlatterArray.fresh_of_code_eq_none {a : PlatterArray} (h : a.code = none) : a.Fresh := by
  intro _ co hco
  rw [h] at hco
  cases hco

theorem PlatterArray.fresh_of_dirty {a : PlatterArray} (h : a.dirty = true) : a.Fresh := by
  intro hclean
  rw [h] at hclean
  cases hclean

namespace Engine

structure Coherent (e : Engine) : Prop where
  fresh : ∀ place a, e.machine.array? place = some a → a.Fresh
  lent : ∀ i, e.host.donor = some i → ∃ d, e.machine.array? (.other i) = some d ∧
    (d.code = none → d.dirty = false → e.machine.running.dirty = false →
      d.words = e.machine.running.words)
  room : e.host.closed = false →
    1 ≤ e.host.minFree ∧ e.host.minFree ≤ e.machine.others.size + 1

variable {e : Engine}

/-- What the host keeps besides donor and handles does not matter. -/
theorem Coherent.of_host {m : Machine} {h h' : Host} (hc : Coherent ⟨m, h⟩)
    (hdonor : h'.donor = h.donor) (hclosed : h'.closed = h.closed)
    (hfree : h'.minFree = h.minFree) : Coherent ⟨m, h'⟩ where
  fresh := hc.fresh
  lent := by
    rw [hdonor]
    exact hc.lent
  room := by
    rw [hclosed, hfree]
    exact hc.room

theorem Coherent.withMemory (hc : e.Coherent) (memory : Memory) :
    (e.withMemory memory).Coherent :=
  hc.of_host rfl rfl rfl

theorem Coherent.withFile (hc : e.Coherent) (file : Vector UInt32 fileSize) :
    Coherent ⟨{ e.machine with file }, e.host⟩ :=
  ⟨hc.fresh, hc.lent, hc.room⟩

theorem Coherent.regenerated (hc : e.Coherent) {place : Place} {a : PlatterArray}
    (ha : e.machine.array? place = some a) {co : CodeObject} {memory memory' : Memory}
    (hco : CodeObject.generate a.words memory = (.done co, memory')) (size : Nat) :
    (e.regenerated place size co).Coherent where
  fresh q b hb := by
    simp only [Engine.regenerated, Machine.array?_modifyArray] at hb
    split at hb
    · rename_i hq
      rw [← hq, ha] at hb
      cases hb
      intro _ co' hco'
      cases hco'
      exact ⟨memory, memory', hco⟩
    · exact hc.fresh q b hb
  lent i hi := by
    cases place with
    | running => cases hi
    | other j =>
      obtain ⟨d, hd, hwords⟩ := hc.lent i hi
      simp only [Engine.regenerated, Machine.array?_modifyArray, Place.other.injEq]
      by_cases hji : j = i
      · refine ⟨{ d with code := some co, dirty := false }, by simp [hji, hd], ?_⟩
        intro hcode
        cases hcode
      · exact ⟨d, by rw [if_neg hji, hd], hwords⟩
  room := by
    simpa only [Engine.regenerated, Machine.modifyArray_size_others] using hc.room

/-- Taking away stale code, or the running code, breaks no loan. -/
theorem Coherent.stripped (hc : e.Coherent) {place : Place} {a : PlatterArray}
    (ha : e.machine.array? place = some a)
    (hstale : place = .running ∨ a.code = none ∨ a.dirty = true) :
    (e.stripped place).Coherent where
  fresh q b hb := by
    simp only [Engine.stripped, Machine.array?_modifyArray] at hb
    split at hb
    · obtain ⟨b', -, rfl⟩ := Option.map_eq_some_iff.mp hb
      exact PlatterArray.fresh_of_code_eq_none rfl
    · exact hc.fresh q b hb
  lent i hi := by
    obtain ⟨d, hd, hwords⟩ := hc.lent i hi
    cases place with
    | running => exact ⟨d, hd, hwords⟩
    | other j =>
      simp only [Engine.stripped, Machine.array?_modifyArray, Place.other.injEq]
      by_cases hji : j = i
      · subst hji
        rw [hd] at ha
        cases ha
        refine ⟨{ a with code := none }, by simp [hd], fun _ hclean hrunning => ?_⟩
        rcases hstale with h | h | h
        · cases h
        · exact hwords h hclean hrunning
        · rw [h] at hclean
          cases hclean
      · exact ⟨d, by rw [if_neg hji, hd], hwords⟩
  room := by
    simpa only [Engine.stripped, Machine.modifyArray_size_others] using hc.room

def Compiled (e : Engine) (place : Place) (words : Array Platter) : Prop :=
  ∃ a co, e.machine.array? place = some a ∧ a.words = words ∧ a.dirty = false ∧ a.code = some co

theorem Coherent.wp_regenerate (hc : e.Coherent) {place : Place} {a : PlatterArray}
    (ha : e.machine.array? place = some a)
    (hstale : place = .running ∨ a.code = none ∨ a.dirty = true) :
    (regenerate place).wp (fun _ e => e.Coherent ∧ e.Compiled place a.words) Coherent e := by
  rw [Engine.wp_regenerate ha]
  refine Action.wp_of_forall (fun _ memory _ => ?_) hc.withMemory
  refine Action.wp_of_forall (fun co memory' hco => ?_) (hc.stripped ha hstale).withMemory
  refine ⟨(hc.regenerated ha hco a.words.size).withMemory memory', ?_⟩
  refine ⟨{ a with code := some co, dirty := false }, co, ?_, rfl, rfl, rfl⟩
  simp [Engine.regenerated, Machine.array?_modifyArray, ha]

theorem Coherent.allocated (hc : e.Coherent) (hopen : e.host.closed = false) (size : UInt32)
    (buffer : Buffer) : (e.allocated size buffer).Coherent := by
  obtain ⟨h1, hle⟩ := hc.room hopen
  obtain ⟨i, hi, hle', hnone, -⟩ := nextHandle_spec h1 hle
  have harray (q : Place) : (e.allocated size buffer).machine.array? q =
      if q = .other i then some ⟨Array.replicate size.toNat 0, buffer, false, none⟩
      else e.machine.array? q := by
    rw [Engine.allocated, hi, Machine.array?_setOther _ hle']
  refine ⟨fun q a ha => ?_, fun j hj => ?_, fun _ => ?_⟩
  · rw [harray] at ha
    split at ha
    · cases ha
      exact PlatterArray.fresh_of_code_eq_none rfl
    · exact hc.fresh q a ha
  · obtain ⟨d, hd, hwords⟩ := hc.lent j hj
    refine ⟨d, ?_, ?_⟩
    · rw [harray, if_neg, hd]
      rintro hji
      rw [hji, hnone] at hd
      cases hd
    · simpa only [Engine.allocated, Machine.setOther_running] using hwords
  · simp only [Engine.allocated, hi, Machine.setOther_size_others _ hle']
    omega

theorem Coherent.detached (hc : e.Coherent) {i : Nat} {a : PlatterArray}
    (ha : e.machine.array? (.other i) = some a) : (e.detached i).Coherent := by
  have hlt := Machine.lt_size_of_array?_other ha
  have harray (q : Place) : (e.detached i).machine.array? q =
      if q = .other i then none else e.machine.array? q := by
    rw [Engine.detached, Machine.array?_setOther _ (by omega)]
  refine ⟨fun q b hb => ?_, fun j hj => ?_, fun hopen => ?_⟩
  · rw [harray] at hb
    split at hb
    · cases hb
    · exact hc.fresh q b hb
  · simp only [Engine.detached] at hj
    split at hj
    · cases hj
    · rename_i hne
      obtain ⟨d, hd, hwords⟩ := hc.lent j hj
      refine ⟨d, ?_, ?_⟩
      · rw [harray, if_neg, hd]
        rintro hji
        cases hji
        exact hne hj
      · simpa only [Engine.detached, Machine.setOther_running] using hwords
  · have hroom := hc.room hopen
    simp only [Engine.detached, Machine.setOther_size_others _ (Nat.le_of_lt hlt)]
    omega

theorem Coherent.wp_allocate (hc : e.Coherent) (size : UInt32) :
    (allocate size).wp
      (fun _ e' => e'.Coherent ∧ e'.machine.running = e.machine.running) Coherent e := by
  rw [Engine.wp_allocate]
  refine Action.wp_of_forall (fun buffer memory _ => ?_) hc.withMemory
  cases hopen : e.host.closed with
  | true => exact hc.withMemory memory
  | false =>
    refine ⟨(hc.allocated hopen size buffer).withMemory memory, ?_⟩
    simp [Engine.allocated]

theorem Coherent.wp_abandon (hc : e.Coherent) (handle : UInt32) :
    (abandon handle).wp
      (fun _ e' => e'.Coherent ∧ e'.machine.running = e.machine.running) Coherent e := by
  refine wp_abandon_of_forall hc ⟨⟨hc.fresh, hc.lent, hc.room⟩, rfl⟩ fun i a _ ha => ?_
  have hd := hc.detached ha
  refine Action.wp_of_forall (fun _ memory _ => ⟨⟨hd.fresh, hd.lent, fun hopen => ?_⟩, ?_⟩)
    hd.withMemory
  · have hroom := hd.room hopen
    have hmin : ((e.abandoned i).withMemory memory).host.minFree =
        min (e.detached i).host.minFree (i + 1) := rfl
    have hmachine : ((e.abandoned i).withMemory memory).machine = (e.detached i).machine := rfl
    rw [hmin, hmachine]
    omega
  · simp [Engine.abandoned, Engine.detached]

theorem Coherent.codeReturned (hc : e.Coherent) : e.codeReturned.Coherent := by
  unfold Engine.codeReturned
  split
  · exact hc
  · rename_i i hi
    obtain ⟨hdonor, d, co, hd, hcode, hclean, hrunning, hco⟩ := returnTarget?_eq_some hi
    have hwords : d.words = e.machine.running.words := by
      obtain ⟨d', hd', hlent⟩ := hc.lent i hdonor
      rw [hd] at hd'
      cases hd'
      exact hlent hcode hclean hrunning
    refine ⟨fun q a ha => ?_, fun j hj => ?_, ?_⟩
    · rcases array?_eq_some_of_returned hd ha with ⟨-, rfl⟩ | ⟨-, rfl⟩ | ha
      · intro _ co' hco'
        simp only [hwords]
        exact hc.fresh .running _ rfl hrunning co' hco'
      · exact PlatterArray.fresh_of_code_eq_none rfl
      · exact hc.fresh q a ha
    · have hji : j = i := by
        rw [hdonor] at hj
        exact (Option.some.inj hj).symm
      subst hji
      refine ⟨{ d with code := some co }, ?_, fun hnone => ?_⟩
      · simp [Machine.array?_modifyArray, hd, hco]
      · cases hnone
    · simpa only [Machine.modifyArray_size_others] using hc.room

theorem Coherent.loaded (hc : e.Coherent) {source finger : UInt32} {words : Array Platter}
    {src : PlatterArray} {co : CodeObject}
    (hsrc : e.machine.array? (.other (source.toNat - 1)) = some src) (hwords : src.words = words)
    (hclean : src.dirty = false) (hco : src.code = some co) (buffer : Buffer) :
    (e.loaded source finger words buffer (some co)).Coherent := by
  have harray (j : Nat) : (e.loaded source finger words buffer (some co)).machine.array? (.other j) =
      (e.stripped (.other (source.toNat - 1))).machine.array? (.other j) := rfl
  refine ⟨fun q a ha => ?_, fun j hj => ?_, ?_⟩
  · cases q with
    | running =>
      cases ha
      intro _ co' hco'
      cases hco'
      obtain ⟨memory, memory', h⟩ := hc.fresh _ _ hsrc hclean co hco
      exact ⟨memory, memory', hwords ▸ h⟩
    | other j =>
      rw [harray, Engine.stripped, Machine.array?_modifyArray] at ha
      split at ha
      · obtain ⟨b, -, rfl⟩ := Option.map_eq_some_iff.mp ha
        exact PlatterArray.fresh_of_code_eq_none rfl
      · exact hc.fresh _ a ha
  · cases hj
    refine ⟨{ src with code := none }, ?_, fun _ _ _ => hwords⟩
    rw [harray, Engine.stripped, Machine.array?_modifyArray, if_pos rfl, hsrc]
    rfl
  · have hsize : (e.loaded source finger words buffer (some co)).machine.others.size =
        e.machine.others.size := by
      simp [Engine.loaded]
    rw [hsize]
    exact hc.room

/-- What is asked of the source before it is loaded: to have clean code. -/
theorem Coherent.wp_refresh (hc : e.Coherent) {place : Place} {a : PlatterArray}
    (ha : e.machine.array? place = some a) :
    (if a.code.isNone || a.dirty then regenerate place else pure ()).wp
      (fun _ e => e.Coherent ∧ e.Compiled place a.words) Coherent e := by
  split
  · rename_i hstale
    refine hc.wp_regenerate ha (Or.inr ?_)
    simpa only [Bool.or_eq_true, Option.isNone_iff_eq_none] using hstale
  · rename_i hfresh
    simp only [Bool.or_eq_true, Option.isNone_iff_eq_none, not_or, Bool.not_eq_true,
      Option.ne_none_iff_exists'] at hfresh
    obtain ⟨⟨co, hco⟩, hclean⟩ := hfresh
    exact ⟨hc, a, co, ha, rfl, hclean, hco⟩

/-- A load is refused, or it goes on once its source has code. -/
theorem wp_loadProgram_of_forall {source finger : UInt32} {post : UInt32 → Engine → Prop}
    {broken : Engine → Prop} (hrefused : broken e)
    (hrefresh : source ≠ 0 → ∀ src,
      e.codeReturned.machine.array? (.other (source.toNat - 1)) = some src →
      (if src.code.isNone || src.dirty then regenerate (.other (source.toNat - 1))
        else pure ()).wp
        (fun _ e' => ∃ a co, e'.machine.array? (.other (source.toNat - 1)) = some a ∧
          a.code = some co ∧ (∀ memory, broken (e'.withMemory memory)) ∧
          ∀ buffer memory, post (co.entry finger)
            ((e'.loaded source finger src.words buffer (some co)).withMemory memory))
        broken e.codeReturned) :
    (loadProgram source finger).wp post broken e := by
  rcases loadProgram_cases source finger e with hload | ⟨found, code, h0, hfound, hlt, hsrc⟩
  · exact hload post broken hrefused
  · rw [Engine.wp_loadProgram h0 hfound hlt hsrc]
    refine (hrefresh h0 _ hsrc).imp (fun _ e' _ h => ?_) fun _ h => h
    obtain ⟨a, co, ha, hco, hbroken, hpost⟩ := h
    refine Action.wp_of_forall (fun buffer memory _ => ?_) hbroken
    refine Action.wp_of_forall (fun _ memory' _ => ?_) hbroken
    simp only [ha, Option.getD_some, hco]
    exact hpost buffer memory'

theorem Coherent.wp_loadProgram (hc : e.Coherent) (source finger : UInt32) :
    (loadProgram source finger).wp
      (fun pc e => e.Coherent ∧ (∃ words, e.Compiled .running words) ∧
        ∃ co, e.machine.running.code = some co ∧ pc = co.entry finger) Coherent e := by
  refine wp_loadProgram_of_forall hc fun _ src hsrc => ?_
  refine (hc.codeReturned.wp_refresh hsrc).imp (fun _ e' _ h => ?_) fun _ h => h
  obtain ⟨hc', a, co, ha, hwords, hclean, hco⟩ := h
  refine ⟨a, co, ha, hco, hc'.withMemory, fun buffer memory => ?_⟩
  exact ⟨(hc'.loaded ha hwords hclean hco buffer).withMemory memory,
    ⟨src.words, _, co, rfl, rfl, rfl, rfl⟩, co, rfl, rfl⟩

end Engine

end PlatterMachine
