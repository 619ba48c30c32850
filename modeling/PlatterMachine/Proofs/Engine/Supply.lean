import PlatterMachine.Proofs.Engine.Arrays
import PlatterMachine.Proofs.Engine.Picture
import PlatterMachine.Proofs.Memory

/-!
# Engines with memory to spare

An engine is supplied when its memory has lent the buffers of its arrays and their code. The
operations of a supplied engine then get the memory that they ask for, give back what they own, and
leave a supplied engine.
-/

namespace PlatterMachine.Engine

variable {e : Engine}

structure Supplied (e : Engine) : Prop where
  lends : e.host.memory.Covers (e.machine.arrays.map PlatterArray.buffer)
    (e.machine.arrays.bind PlatterArray.codes)
  fits : ∀ place a co, e.machine.array? place = some a → a.code = some co →
    co.code.size ≤ co.codeBuffer.capacity

/-- Nothing but the arrays and the memory matters. -/
theorem Supplied.of_arrays {m m' : Machine} {h h' : Host} (hs : Supplied ⟨m, h⟩)
    (harrays : m'.arrays = m.arrays) (harray : ∀ place, m'.array? place = m.array? place)
    (hmemory : h'.memory = h.memory) : Supplied ⟨m', h'⟩ where
  lends := by
    rw [hmemory, harrays]
    exact hs.lends
  fits place a co ha hco := hs.fits place a co ((harray place).symm.trans ha) hco

/-- An array may change as long as it keeps its buffers. -/
theorem Supplied.amended (hs : e.Supplied) {place : Place} {a : PlatterArray}
    (ha : e.machine.array? place = some a) {f : PlatterArray → PlatterArray}
    (hbuffer : (f a).buffer = a.buffer) (hcodes : (f a).codes = a.codes)
    (hfits : ∀ co, (f a).code = some co → co.code.size ≤ co.codeBuffer.capacity) :
    Supplied ⟨e.machine.modifyArray place f, e.host⟩ where
  lends := by
    obtain ⟨rest, hrest, hmodify⟩ := Machine.arrays_modifyArray ha
    have hlends := hs.lends
    rw [hrest, Multiset.map_cons, Multiset.cons_bind] at hlends
    rw [hmodify, Multiset.map_cons, Multiset.cons_bind, hbuffer, hcodes]
    exact hlends
  fits q b co hb hco := by
    rw [Machine.array?_modifyArray] at hb
    split at hb
    · rename_i hq
      rw [← hq, ha] at hb
      cases hb
      exact hfits co hco
    · exact hs.fits q b co hb hco

theorem Supplied.wp_regenerate (hs : e.Supplied) {place : Place} {a : PlatterArray}
    (ha : e.machine.array? place = some a)
    (hsize : Layout.size a.words.toList < Layout.limit) :
    (regenerate place).wp
      (fun _ e' => e'.Supplied ∧ e'.picture = e.picture ∧
        ∃ co, e'.machine.array? place = some { a with code := some co, dirty := false })
      (fun _ => False) e := by
  obtain ⟨rest, hrest, hmodify⟩ := Machine.arrays_modifyArray ha
  have hlends := hs.lends
  rw [hrest, Multiset.map_cons, Multiset.cons_bind] at hlends
  rw [Engine.wp_regenerate ha]
  refine hlends.wp_releaseCode.imp (fun _ memory _ hlends' => ?_) fun _ hf => hf
  refine (hlends'.wp_generate hsize).imp (fun co memory' _ ⟨hlends'', hcap⟩ => ?_) fun _ hf => hf
  refine ⟨⟨?_, fun q b co' hb hco' => ?_⟩, picture_regenerated e place a.words.size co, co, ?_⟩
  · change memory'.Covers ((e.machine.modifyArray place _).arrays.map _)
      ((e.machine.modifyArray place _).arrays.bind _)
    rw [hmodify, Multiset.map_cons, Multiset.cons_bind, PlatterArray.codes_of_some rfl,
      Multiset.singleton_add]
    exact hlends''
  · simp only [withMemory_machine, regenerated, Machine.array?_modifyArray] at hb
    split at hb
    · obtain ⟨b', -, rfl⟩ := Option.map_eq_some_iff.mp hb
      cases hco'
      exact hcap
    · exact hs.fits q b co' hb hco'
  · simp [Engine.regenerated, Machine.array?_modifyArray, ha]

/-- What of the handles an engine without a free handle below `minFree` can rely on. -/
structure Handles (e : Engine) : Prop where
  pos : 1 ≤ e.host.minFree
  le : e.host.minFree ≤ e.machine.others.size + 1
  live : ∀ k, k + 1 < e.host.minFree → e.machine.array? (.other k) ≠ none

/-- An array without code takes a free handle. -/
theorem Supplied.setOther (hs : e.Supplied) {i : Nat} (hle : i ≤ e.machine.others.size)
    (hnone : e.machine.array? (.other i) = none) (words : Array Platter) {buffer : Buffer}
    {host : Host} (hlends : host.memory.Covers
      (buffer ::ₘ e.machine.arrays.map PlatterArray.buffer)
      (e.machine.arrays.bind PlatterArray.codes)) :
    Supplied ⟨e.machine.setOther (i + 1) (some ⟨words, buffer, false, none⟩), host⟩ where
  lends := by
    rw [Machine.arrays_setOther_some hle hnone, Multiset.map_cons, Multiset.cons_bind,
      PlatterArray.codes_of_none rfl, zero_add]
    exact hlends
  fits q a co ha hco := by
    rcases e.machine.array?_setOther_or (i + 1) (some ⟨words, buffer, false, none⟩) q
      with hset | hset
    · exact hs.fits q a co (hset.symm.trans ha) hco
    · cases hset.symm.trans ha
      cases hco

theorem Supplied.wp_allocate (hs : e.Supplied) (hh : e.Handles) (hopen : e.host.closed = false)
    (size : UInt32) :
    (allocate size).wp
      (fun handle e' => e'.Supplied ∧ e'.machine.running = e.machine.running ∧
        ∃ i, handle = UInt32.ofNat (i + 1) ∧
        i ≤ e.machine.others.size ∧ e.machine.array? (.other i) = none ∧
        (∀ k, k < i → e.machine.array? (.other k) ≠ none) ∧
        e'.picture = { e.picture with
          others :=
            if i < e.picture.others.size then
              e.picture.others.setIfInBounds i (some (Array.replicate size.toNat 0))
            else e.picture.others.push (some (Array.replicate size.toNat 0))
          minFree := i + 2 })
      (fun _ => False) e := by
  obtain ⟨i, hi, hle, hnone, hlive⟩ := nextHandle_spec hh.pos hh.le
  have hlt : size.toNat < Layout.limit := size.toNat_lt
  rw [Engine.wp_allocate]
  refine (hs.lends.wp_alloc hlt true).imp (fun buffer memory _ hlends => ?_) fun _ hf => hf
  rw [hopen, if_neg Bool.false_ne_true]
  refine ⟨?_, Machine.setOther_running .., i, by rw [hi], hle, hnone, fun k hk => ?_, ?_⟩
  · rw [withMemory, allocated, hi]
    exact hs.setOther hle hnone _ hlends
  · by_cases hfree : e.host.minFree ≤ k + 1
    · exact hlive k hfree hk
    · exact hh.live k (by omega)
  · rw [picture_withMemory, picture_allocated hi]

theorem Supplied.wp_abandon_other (hs : e.Supplied) {handle : UInt32} {i : Nat} {a : PlatterArray}
    (hp : e.machine.place? handle = some (.other i)) (ha : e.machine.array? (.other i) = some a) :
    (abandon handle).wp
      (fun _ e' => e'.Supplied ∧ e'.machine.running = e.machine.running ∧
        e'.picture = { e.picture with
          others := e.picture.others.setIfInBounds i none
          minFree := min e.picture.minFree (i + 1) })
      (fun _ => False) e := by
  have hlends := hs.lends
  rw [Machine.arrays_setOther_none ha, Multiset.map_cons, Multiset.cons_bind] at hlends
  rw [Engine.wp_abandon_other hp ha]
  refine hlends.wp_release.imp (fun _ memory _ hlends' => ?_) fun _ hf => hf
  refine ⟨⟨hlends', fun q b co hb hco => ?_⟩, Machine.setOther_running .., picture_abandoned ha⟩
  rcases e.machine.array?_setOther_or (i + 1) none q with hset | hset
  · exact hs.fits q b co (hset.symm.trans hb) hco
  · cases hset.symm.trans hb

/-- Code that goes back to its donor keeps its buffers. -/
theorem Supplied.codeReturned (hs : e.Supplied) : e.codeReturned.Supplied := by
  unfold Engine.codeReturned
  split
  · exact hs
  · rename_i i hi
    obtain ⟨-, d, co, hd, hcode, -, -, hco⟩ := returnTarget?_eq_some hi
    have hd' : (e.machine.modifyArray .running fun a => { a with code := none }).array? (.other i) =
        some d := hd
    obtain ⟨rest, hrest, hmodify⟩ := Machine.arrays_modifyArray hd'
    refine ⟨?_, fun q a co' ha hco' => ?_⟩
    · have hbuffers := congrArg (Multiset.map PlatterArray.buffer) hrest
      have hcodes := congrArg (Multiset.bind · PlatterArray.codes) hrest
      simp only [Machine.arrays, Machine.modifyArray_running_running, Multiset.map_cons,
        Multiset.cons_bind, PlatterArray.codes_of_none hcode, zero_add] at hbuffers hcodes
      rw [PlatterArray.codes_of_none rfl, zero_add] at hcodes
      simp only [hmodify, Multiset.map_cons, Multiset.cons_bind]
      have hlends := hs.lends
      simp only [Machine.arrays, Multiset.map_cons, Multiset.cons_bind,
        PlatterArray.codes_of_some hco] at hlends
      rw [PlatterArray.codes_of_some (a := { d with code := e.machine.running.code }) hco,
        ← hbuffers, ← hcodes]
      exact hlends
    · rcases array?_eq_some_of_returned hd ha with ⟨-, rfl⟩ | ⟨-, rfl⟩ | ha
      · exact hs.fits .running _ co' rfl hco'
      · cases hco'
      · exact hs.fits q a co' ha hco'

theorem Supplied.loaded (hs : e.Supplied) {source finger : UInt32} {src : PlatterArray}
    {co : CodeObject} (hsrc : e.machine.array? (.other (source.toNat - 1)) = some src)
    (hco : src.code = some co) {words : Array Platter} {buffer : Buffer} {memory : Memory}
    (hlends : memory.Covers (buffer ::ₘ e.machine.otherArrays.map PlatterArray.buffer)
      (e.machine.otherArrays.bind PlatterArray.codes)) :
    ((e.loaded source finger words buffer (some co)).withMemory memory).Supplied := by
  obtain ⟨rest, hrest, hmodify⟩ := Machine.otherArrays_modifyArray hsrc
  have harrays : (e.loaded source finger words buffer (some co)).machine.arrays =
      ⟨words, buffer, false, some co⟩ ::ₘ { src with code := none } ::ₘ rest := by
    rw [← hmodify fun a => { a with code := none }]
    rfl
  refine ⟨?_, fun q a co' ha hco' => ?_⟩
  · rw [hrest, Multiset.map_cons, Multiset.cons_bind, PlatterArray.codes_of_some hco] at hlends
    rw [withMemory_machine, harrays, Multiset.map_cons, Multiset.map_cons, Multiset.cons_bind,
      Multiset.cons_bind, PlatterArray.codes_of_some rfl, PlatterArray.codes_of_none rfl, zero_add]
    exact hlends
  · cases q with
    | running =>
      cases ha
      cases hco'
      exact hs.fits _ src co hsrc hco
    | other j =>
      change (e.machine.modifyArray (.other (source.toNat - 1)) _).array? (.other j) = some a at ha
      rw [Machine.array?_modifyArray] at ha
      split at ha
      · obtain ⟨b, -, rfl⟩ := Option.map_eq_some_iff.mp ha
        cases hco'
      · exact hs.fits _ a co' ha hco'

theorem Supplied.wp_loadProgram (hs : e.Supplied) {source finger : UInt32} {src : PlatterArray}
    (h0 : source ≠ 0) (hsrc : e.machine.array? (.other (source.toNat - 1)) = some src)
    (hlt : finger.toNat < src.words.size) (hsize : Layout.size src.words.toList < Layout.limit) :
    (loadProgram source finger).wp
      (fun pc e' => e'.Supplied ∧
        e'.picture = { e.picture with program := src.words, zeroLive := true } ∧
        ∃ co, e'.machine.running.code = some co ∧ e'.machine.running.dirty = false ∧
          pc = co.entry finger)
      (fun _ => False) e := by
  obtain ⟨code, hreturned⟩ := array?_codeReturned hsrc
  have hlookup : e.machine.lookup source = some src := (Machine.lookup_of_ne_zero h0).trans hsrc
  have hlen := Layout.words_lt_limit hsize
  rw [Engine.wp_loadProgram h0 hlookup hlt hreturned]
  have hcompiled : (if ({ src with code } : PlatterArray).code.isNone ||
      ({ src with code } : PlatterArray).dirty then regenerate (.other (source.toNat - 1))
      else pure ()).wp
        (fun _ e' => e'.Supplied ∧ e'.picture = e.picture ∧
          ∃ a co, e'.machine.array? (.other (source.toNat - 1)) = some a ∧ a.code = some co)
        (fun _ => False) e.codeReturned := by
    split
    · refine (hs.codeReturned.wp_regenerate hreturned hsize).imp
        (fun _ e' _ ⟨hs', hpicture, co, ha⟩ => ?_) fun _ hf => hf
      exact ⟨hs', hpicture.trans (picture_codeReturned e), _, co, ha, rfl⟩
    · rename_i hfresh
      simp only [Bool.or_eq_true, Option.isNone_iff_eq_none, not_or,
        Option.ne_none_iff_exists'] at hfresh
      obtain ⟨co, hco⟩ := hfresh.1
      exact ⟨hs.codeReturned, picture_codeReturned e, _, co, hreturned, hco⟩
  refine hcompiled.imp (fun _ e' _ ⟨hs', hpicture, a, co, ha, hco⟩ => ?_) fun _ hf => hf
  refine (hs'.lends.wp_alloc hlen false).imp (fun buffer memory _ hlends => ?_) fun _ hf => hf
  rw [Machine.arrays, Multiset.map_cons, Multiset.cons_bind, Multiset.cons_swap] at hlends
  refine hlends.wp_release.imp (fun _ memory' _ hlends' => ?_) fun _ hf => hf
  simp only [ha, Option.getD_some, hco, Action.wp_pure]
  refine ⟨hs'.loaded ha hco hlends', ?_, co, rfl, rfl, rfl⟩
  rw [picture_withMemory, picture_loaded, hpicture]

end PlatterMachine.Engine
