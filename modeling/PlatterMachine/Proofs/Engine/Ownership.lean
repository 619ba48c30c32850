import PlatterMachine.Proofs.Accounts
import PlatterMachine.Proofs.Engine.Arrays
import PlatterMachine.Proofs.Engine.CodeCache

/-!
# Ownership of buffers

The buffers of its arrays and of their code are what an engine has borrowed from its memory. Every
operation keeps it so, also when it fails for want of memory, and a closed engine has given all of
it back.
-/

namespace PlatterMachine

structure PlatterArray.Fitting (a : PlatterArray) : Prop where
  small : a.words.size ≤ Memory.arrayLimit
  length_eq : a.buffer.length = a.words.size
  code : ∀ co, a.code = some co → co.Fitting

theorem PlatterArray.Fitting.of_code_eq_none {a : PlatterArray}
    (hsmall : a.words.size ≤ Memory.arrayLimit) (hlength : a.buffer.length = a.words.size)
    (h : a.code = none) : a.Fitting := by
  refine ⟨hsmall, hlength, fun co hco => ?_⟩
  rw [h] at hco
  cases hco

theorem PlatterArray.codeLoans_of_none {a : PlatterArray} (h : a.code = none) :
    a.codeLoans = 0 := by
  rw [codeLoans, h]
  rfl

theorem PlatterArray.codeLoans_of_some {a : PlatterArray} {co : CodeObject}
    (h : a.code = some co) : a.codeLoans = co.loans := by
  rw [codeLoans, h]
  rfl

namespace Machine

variable {m : Machine}

def loans (m : Machine) : Loans := (m.arrays.map PlatterArray.loans).sum

theorem loans_eq (m : Machine) : m.loans =
    m.running.loans + (m.otherArrays.map PlatterArray.loans).sum := by
  rw [loans, arrays, Multiset.map_cons, Multiset.sum_cons]

theorem loans_modifyArray {place : Place} {a : PlatterArray} (h : m.array? place = some a) :
    ∃ rest, m.loans = a.loans + rest ∧ ∀ f, (m.modifyArray place f).loans = (f a).loans + rest := by
  obtain ⟨rest, hrest, hmodify⟩ := arrays_modifyArray h
  refine ⟨(rest.map PlatterArray.loans).sum, ?_, fun f => ?_⟩
  · rw [loans, hrest, Multiset.map_cons, Multiset.sum_cons]
  · rw [loans, hmodify, Multiset.map_cons, Multiset.sum_cons]

theorem loans_setOther_none {i : Nat} {a : PlatterArray} (h : m.array? (.other i) = some a) :
    m.loans = a.loans + (m.setOther (i + 1) none).loans := by
  rw [loans, arrays_setOther_none h, Multiset.map_cons, Multiset.sum_cons, loans]

theorem loans_setOther_some {i : Nat} (hi : i ≤ m.others.size) (h : m.array? (.other i) = none)
    (a : PlatterArray) : (m.setOther (i + 1) (some a)).loans = a.loans + m.loans := by
  rw [loans, arrays_setOther_some hi h, Multiset.map_cons, Multiset.sum_cons, loans]

end Machine

namespace Engine

variable {m₀ : Memory} {l₀ others : Loans} {e : Engine}

/-- Since the memory was `m₀` and had lent `l₀`, the engine has borrowed the buffers of its arrays,
and others have come to hold `others`. -/
structure Owned (m₀ : Memory) (l₀ others : Loans) (e : Engine) : Prop where
  isOpen : e.host.closed = false
  account : m₀.Account l₀ e.host.memory (e.machine.loans + others)
  fitting : ∀ place a, e.machine.array? place = some a → a.Fitting

theorem Owned.of_host {m : Machine} {h h' : Host} (ho : Owned m₀ l₀ others ⟨m, h⟩)
    (hclosed : h'.closed = h.closed) (hmemory : h'.memory = h.memory) :
    Owned m₀ l₀ others ⟨m, h'⟩ where
  isOpen := hclosed.trans ho.isOpen
  account := by
    rw [hmemory]
    exact ho.account
  fitting := ho.fitting

theorem Owned.withFile (ho : e.Owned m₀ l₀ others) (file : Vector UInt32 fileSize) :
    Owned m₀ l₀ others ⟨{ e.machine with file }, e.host⟩ :=
  ⟨ho.isOpen, ho.account, ho.fitting⟩

/-- The memory has been used to no effect. -/
theorem Owned.withMemory (ho : e.Owned m₀ l₀ others) {memory : Memory}
    (haccount : m₀.Account l₀ memory (e.machine.loans + others)) :
    (e.withMemory memory).Owned m₀ l₀ others :=
  ⟨ho.isOpen, haccount, ho.fitting⟩

/-- One array is exchanged for another. -/
theorem Owned.modifyArray (ho : e.Owned m₀ l₀ others) {place : Place} {a : PlatterArray}
    (ha : e.machine.array? place = some a) (f : PlatterArray → PlatterArray) (hf : (f a).Fitting)
    {host : Host} (hclosed : host.closed = e.host.closed)
    (haccount : m₀.Account l₀ host.memory ((e.machine.modifyArray place f).loans + others)) :
    Owned m₀ l₀ others ⟨e.machine.modifyArray place f, host⟩ where
  isOpen := hclosed.trans ho.isOpen
  account := haccount
  fitting q b hb := by
    rw [Machine.array?_modifyArray] at hb
    split at hb
    · rename_i hq
      rw [← hq, ha] at hb
      cases hb
      exact hf
    · exact ho.fitting q b hb

theorem Owned.wp_regenerate (ho : e.Owned m₀ l₀ others) {place : Place} {a : PlatterArray}
    (ha : e.machine.array? place = some a) :
    (regenerate place).wp
      (fun _ e' => e'.Owned m₀ l₀ others ∧
        ∃ co, e'.machine.array? place = some { a with code := some co, dirty := false })
      (Owned m₀ l₀ others) e := by
  have ⟨hsmall, hlength, _⟩ := ho.fitting place a ha
  obtain ⟨rest, hrest, hmodify⟩ := Machine.loans_modifyArray ha
  have haccount := ho.account
  rw [hrest, PlatterArray.loans, add_comm (Loans.words _), add_assoc, add_assoc] at haccount
  rw [Engine.wp_regenerate ha]
  refine haccount.ends_releaseCode.wp (fun _ memory _ hreleased => ?_) fun _ _ hf => hf.elim
  refine (hreleased.ends_generate hsmall).wp (fun co memory' _ hdone => ⟨?_, ?_⟩)
    fun _ memory' hfailed => ?_
  · obtain ⟨hgenerated, hfitting⟩ := hdone
    refine ho.modifyArray ha (fun a => { a with code := some co, dirty := false })
      ⟨hsmall, hlength, ?_⟩ rfl ?_
    · rintro _ ⟨⟩
      exact hfitting
    · rw [hmodify, PlatterArray.loans, PlatterArray.codeLoans_of_some rfl]
      have hsum : Loans.words a.buffer + co.loans + rest + others =
          co.loans + (Loans.words a.buffer + (rest + others)) := by ac_rfl
      rw [hsum]
      exact hgenerated
  · simp [Engine.regenerated, Machine.array?_modifyArray, ha]
  · refine ho.modifyArray ha (fun a => { a with code := none })
      (PlatterArray.Fitting.of_code_eq_none hsmall hlength rfl) rfl ?_
    rw [hmodify, PlatterArray.loans, PlatterArray.codeLoans_of_none rfl, add_zero, add_assoc]
    exact hfailed

/-- An array without code takes a free handle. -/
theorem Owned.setOther (ho : e.Owned m₀ l₀ others) {i : Nat} (hle : i ≤ e.machine.others.size)
    (hnone : e.machine.array? (.other i) = none) {words : Array Platter}
    (hsmall : words.size ≤ Memory.arrayLimit) {buffer : Buffer}
    (hlength : buffer.length = words.size) {host : Host} (hclosed : host.closed = e.host.closed)
    (haccount : m₀.Account l₀ host.memory (.words buffer + (e.machine.loans + others))) :
    Owned m₀ l₀ others
      ⟨e.machine.setOther (i + 1) (some ⟨words, buffer, false, none⟩), host⟩ where
  isOpen := hclosed.trans ho.isOpen
  account := by
    rw [Machine.loans_setOther_some hle hnone, PlatterArray.loans,
      PlatterArray.codeLoans_of_none rfl, add_zero, add_assoc]
    exact haccount
  fitting q a ha := by
    rcases e.machine.array?_setOther_or (i + 1) (some ⟨words, buffer, false, none⟩) q
      with hset | hset
    · exact ho.fitting q a (hset.symm.trans ha)
    · cases hset.symm.trans ha
      exact .of_code_eq_none hsmall hlength rfl

theorem Owned.wp_allocate (ho : e.Owned m₀ l₀ others) (hc : e.Coherent) (size : UInt32) :
    (allocate size).wp (fun _ => Owned m₀ l₀ others) (Owned m₀ l₀ others) e := by
  obtain ⟨hpos, hle⟩ := hc.room ho.isOpen
  obtain ⟨i, hi, hle', hnone, -⟩ := nextHandle_spec hpos hle
  have hsmall : size.toNat ≤ Memory.arrayLimit :=
    Nat.le_trans (Nat.le_of_lt size.toNat_lt) (by decide)
  rw [Engine.wp_allocate]
  refine (ho.account.ends_alloc hsmall true).wp (fun buffer memory _ ⟨haccount, hlength⟩ => ?_)
    fun _ memory haccount => ho.withMemory haccount
  rw [ho.isOpen, if_neg Bool.false_ne_true, Engine.withMemory, allocated, hi]
  exact ho.setOther hle' hnone (by simpa using hsmall) (by simpa using hlength) rfl haccount

/-- An array has lost its handle and its buffers. -/
theorem Owned.detached (ho : e.Owned m₀ l₀ others) {i : Nat} {host : Host}
    (hclosed : host.closed = e.host.closed)
    (haccount : m₀.Account l₀ host.memory ((e.machine.setOther (i + 1) none).loans + others)) :
    Owned m₀ l₀ others ⟨e.machine.setOther (i + 1) none, host⟩ where
  isOpen := hclosed.trans ho.isOpen
  account := haccount
  fitting q b hb := by
    rcases e.machine.array?_setOther_or (i + 1) none q with hset | hset
    · exact ho.fitting q b (hset.symm.trans hb)
    · cases hset.symm.trans hb

theorem Owned.wp_abandon (ho : e.Owned m₀ l₀ others) (handle : UInt32) :
    (abandon handle).wp (fun _ => Owned m₀ l₀ others) (Owned m₀ l₀ others) e := by
  refine wp_abandon_of_forall ho ⟨ho.isOpen, ho.account, ho.fitting⟩ fun i a _ ha => ?_
  have haccount := ho.account
  rw [Machine.loans_setOther_none ha, add_assoc] at haccount
  exact haccount.ends_release.wp (fun _ memory _ hreleased => ho.detached rfl hreleased)
    fun _ _ hf => hf.elim

/-- Code that goes back to its donor keeps its buffers. -/
theorem Owned.codeReturned (ho : e.Owned m₀ l₀ others) : e.codeReturned.Owned m₀ l₀ others := by
  unfold Engine.codeReturned
  split
  · exact ho
  · rename_i i hi
    obtain ⟨-, d, co, hd, hcode, -, -, hco⟩ := returnTarget?_eq_some hi
    have hd' : (e.machine.modifyArray .running fun a => { a with code := none }).array? (.other i) =
        some d := hd
    have hrunning := ho.fitting .running _ rfl
    have hdonor := ho.fitting _ d hd
    -- the running array without its code, and then the donor with it
    obtain ⟨rest, hrest, hmodify⟩ := Machine.loans_modifyArray hd'
    rw [PlatterArray.loans, PlatterArray.codeLoans_of_none hcode, add_zero, Machine.loans_eq]
      at hrest
    refine ⟨ho.isOpen, ?_, fun q a ha => ?_⟩
    · have haccount := ho.account
      rw [Machine.loans_eq, PlatterArray.loans, PlatterArray.codeLoans_of_some hco] at haccount
      rw [hmodify, PlatterArray.loans,
        PlatterArray.codeLoans_of_some (a := { d with code := e.machine.running.code }) hco]
      have hsum : Loans.words d.buffer + co.loans + rest + others =
          Loans.words e.machine.running.buffer + co.loans +
            (e.machine.otherArrays.map PlatterArray.loans).sum + others := by
        have hstripped : Loans.words e.machine.running.buffer +
            (e.machine.otherArrays.map PlatterArray.loans).sum =
              Loans.words d.buffer + rest := hrest
        calc Loans.words d.buffer + co.loans + rest + others
            = (Loans.words d.buffer + rest) + co.loans + others := by ac_rfl
          _ = (Loans.words e.machine.running.buffer +
                (e.machine.otherArrays.map PlatterArray.loans).sum) + co.loans + others := by
              rw [hstripped]
          _ = _ := by ac_rfl
      rw [hsum]
      exact haccount
    · rcases array?_eq_some_of_returned hd ha with ⟨-, rfl⟩ | ⟨-, rfl⟩ | ha
      · exact ⟨hdonor.small, hdonor.length_eq, hrunning.code⟩
      · exact .of_code_eq_none hrunning.small hrunning.length_eq rfl
      · exact ho.fitting q a ha

theorem Owned.loaded (ho : e.Owned m₀ l₀ others) {source finger : UInt32} {src : PlatterArray}
    {co : CodeObject} (hsrc : e.machine.array? (.other (source.toNat - 1)) = some src)
    (hco : src.code = some co) {words : Array Platter} (hsmall : words.size ≤ Memory.arrayLimit)
    {buffer : Buffer} (hlength : buffer.length = words.size) {memory : Memory}
    (haccount : m₀.Account l₀ memory
      (.words buffer + ((e.machine.otherArrays.map PlatterArray.loans).sum + others))) :
    ((e.loaded source finger words buffer (some co)).withMemory memory).Owned m₀ l₀ others := by
  have hfitting := ho.fitting _ src hsrc
  obtain ⟨rest, hrest, hmodify⟩ := Machine.otherArrays_modifyArray hsrc
  refine ⟨ho.isOpen, ?_, fun q a ha => ?_⟩
  · rw [hrest, Multiset.map_cons, Multiset.sum_cons, PlatterArray.loans,
      PlatterArray.codeLoans_of_some hco] at haccount
    have hloans : (e.loaded source finger words buffer (some co)).machine.loans =
        .words buffer + co.loans + (.words src.buffer + (rest.map PlatterArray.loans).sum) := by
      rw [Machine.loans_eq]
      change PlatterArray.loans ⟨words, buffer, false, some co⟩ + ((e.machine.modifyArray
        (.other (source.toNat - 1)) fun a => { a with code := none }).otherArrays.map _).sum = _
      rw [hmodify, Multiset.map_cons, Multiset.sum_cons, PlatterArray.loans, PlatterArray.loans,
        PlatterArray.codeLoans_of_some rfl, PlatterArray.codeLoans_of_none rfl, add_zero]
    rw [withMemory_machine, hloans]
    have hsum : Loans.words buffer + co.loans +
        (Loans.words src.buffer + (rest.map PlatterArray.loans).sum) + others =
          Loans.words buffer + (Loans.words src.buffer + co.loans +
            (rest.map PlatterArray.loans).sum + others) := by ac_rfl
    rw [hsum]
    exact haccount
  · cases q with
    | running =>
      cases ha
      refine ⟨hsmall, hlength, ?_⟩
      rintro _ ⟨⟩
      exact hfitting.code co hco
    | other j =>
      change (e.machine.modifyArray (.other (source.toNat - 1)) _).array? (.other j) = some a at ha
      rw [Machine.array?_modifyArray] at ha
      split at ha
      · rename_i hq
        rw [← hq, hsrc] at ha
        cases ha
        exact .of_code_eq_none hfitting.small hfitting.length_eq rfl
      · exact ho.fitting _ a ha

theorem Owned.wp_loadProgram (ho : e.Owned m₀ l₀ others) (source finger : UInt32) :
    (loadProgram source finger).wp (fun _ => Owned m₀ l₀ others) (Owned m₀ l₀ others) e := by
  rcases loadProgram_cases source finger e with hload | ⟨found, code, h0, hfound, hlt, hsrc⟩
  · exact hload _ _ ho
  · have hsmall := (ho.codeReturned.fitting _ _ hsrc).small
    rw [Engine.wp_loadProgram h0 hfound hlt hsrc]
    have hcompiled : (if ({ found with code } : PlatterArray).code.isNone ||
        ({ found with code } : PlatterArray).dirty then regenerate (.other (source.toNat - 1))
        else pure ()).wp
          (fun _ e' => e'.Owned m₀ l₀ others ∧
            ∃ a co, e'.machine.array? (.other (source.toNat - 1)) = some a ∧ a.code = some co)
          (Owned m₀ l₀ others) e.codeReturned := by
      split
      · refine (ho.codeReturned.wp_regenerate hsrc).imp (fun _ e' _ h => ?_) fun _ h => h
        obtain ⟨ho', co, ha⟩ := h
        exact ⟨ho', _, co, ha, rfl⟩
      · rename_i hfresh
        simp only [Bool.or_eq_true, Option.isNone_iff_eq_none, not_or,
          Option.ne_none_iff_exists'] at hfresh
        obtain ⟨co, hco⟩ := hfresh.1
        exact ⟨ho.codeReturned, _, co, hsrc, hco⟩
    refine hcompiled.imp (fun _ e' _ h => ?_) fun _ h => h
    obtain ⟨ho', a, co, ha, hco⟩ := h
    refine (ho'.account.ends_alloc hsmall false).wp (fun buffer memory _ ⟨haccount, hlength⟩ => ?_)
      fun _ memory haccount => ho'.withMemory haccount
    rw [Machine.loans_eq, add_assoc, add_left_comm] at haccount
    refine haccount.ends_release.wp (fun _ memory' _ hreleased => ?_) fun _ _ hf => hf.elim
    simp only [ha, Option.getD_some, hco]
    exact ho'.loaded ha hco hsmall hlength hreleased

/-- A write changes neither the buffers of an array nor the size of what they hold. -/
theorem Owned.written {m : Machine} {h : Host} (ho : Owned m₀ l₀ others ⟨m, h⟩) {place : Place}
    {a : PlatterArray} (ha : m.array? place = some a) (f : PlatterArray → PlatterArray)
    (hloans : (f a).loans = a.loans) (hf : (f a).Fitting) :
    Owned m₀ l₀ others ⟨m.modifyArray place f, h⟩ := by
  refine ho.modifyArray ha f hf rfl ?_
  obtain ⟨rest, hrest, hmodify⟩ := Machine.loans_modifyArray ha
  rw [hmodify, hloans, ← hrest]
  exact ho.account

theorem Owned.step {m : Machine} {h : Host} (ho : Owned m₀ l₀ others ⟨m, h⟩)
    (interrupted : Bool) (pc : UInt32) :
    Owned m₀ l₀ others ⟨(m.step interrupted pc).machine, h⟩ := by
  rcases Machine.step_cases m interrupted pc with
    ⟨file, hfile⟩ | ⟨handle, offset, v, p, pc', -, hread, heq⟩
  · rw [hfile]
    exact ho.withFile file
  obtain ⟨place, a, hplace, ha, -⟩ := Machine.readWord?_eq_some hread
  have hfitting := ho.fitting place a ha
  have hwritten : PlatterArray.Fitting
      { a with words := a.words.setIfInBounds offset.toNat v, dirty := true } :=
    ⟨by simpa using hfitting.small, by simpa using hfitting.length_eq, hfitting.code⟩
  rw [heq, Machine.store, Machine.writeWord_eq hplace]
  by_cases h0 : handle = 0
  · obtain rfl := (Machine.place?_eq_running_iff hplace).mpr h0
    have hrunning : m.array? .running = some m.running := rfl
    cases ha
    simp only [h0, if_true]
    rcases Machine.plantStub_cases (m.modifyArray .running fun a =>
      { a with words := a.words.setIfInBounds offset.toNat v, dirty := true }) offset pc' with
      ⟨co, hco, heq⟩ | heq
    · replace hco : m.running.code = some co := hco
      rw [heq]
      refine ho.written hrunning (fun a => { a with
        words := a.words.setIfInBounds offset.toNat v, dirty := true
        code := some (co.plantStub (co.entry offset)) }) ?_ ⟨hwritten.small, hwritten.length_eq, ?_⟩
      · rw [PlatterArray.loans, PlatterArray.loans, PlatterArray.codeLoans_of_some hco,
          PlatterArray.codeLoans_of_some rfl]
        rfl
      · rintro _ ⟨⟩
        have hsize : (co.plantStub (co.entry offset)).code.size = co.code.size :=
          Assembler.size_writeBytes ..
        obtain ⟨hpos, hcode, hroom, htable⟩ := hfitting.code co hco
        exact ⟨hsize ▸ hpos, hcode.trans hsize.symm, hsize ▸ hroom, htable⟩
    · rw [heq]
      dsimp only [Step.machine]
      exact ho.written hrunning _ rfl hwritten
  · simp only [h0, if_false, Step.machine]
    exact ho.written ha _ rfl hwritten

theorem Owned.wp_flush (ho : e.Owned m₀ l₀ others) :
    flush.wp (fun _ => Owned m₀ l₀ others) (Owned m₀ l₀ others) e :=
  wp_onWriter_of_forall (fun _ => ho.of_host rfl rfl) fun _ => ho.of_host rfl rfl

theorem Owned.wp_serveInput (ho : e.Owned m₀ l₀ others) (exit : Exit) :
    (serveInput exit).wp (fun _ => Owned m₀ l₀ others) (Owned m₀ l₀ others) e := by
  refine wp_serveInput_of_forall (ho.wp_flush.imp (fun _ e' _ ho' => ⟨?_, ?_, ?_⟩) fun _ h => h)
  · intro input v
    have hread : Owned m₀ l₀ others { e' with host := { e'.host with input } } :=
      ho'.of_host rfl rfl
    exact hread.withFile _
  · exact fun input => ho'.of_host rfl rfl
  · exact fun input finger events => ho'.of_host rfl rfl

theorem Owned.wp_serveRecompile (ho : e.Owned m₀ l₀ others) (exit : Exit) :
    (serveRecompile exit).wp (fun _ => Owned m₀ l₀ others) (Owned m₀ l₀ others) e := by
  have hrunning : e.machine.array? .running = some e.machine.running := rfl
  refine wp_serveRecompile_of_forall ho
    ((ho.wp_regenerate hrunning).imp (fun _ e' _ ⟨ho', _⟩ stats events => ?_) fun _ h => h)
  have ho'' : Owned m₀ l₀ others ⟨e'.machine, { e'.host with stats, events }⟩ :=
    ho'.of_host rfl rfl
  exact ⟨ho'', fun _ _ _ => ho''⟩

theorem Owned.wp_serveReason (ho : e.Owned m₀ l₀ others) (hc : e.Coherent) (reason : Reason)
    (exit : Exit) :
    (serveReason reason exit).wp (fun _ => Owned m₀ l₀ others) (Owned m₀ l₀ others) e := by
  have houtput (output : Writer) :
      Owned m₀ l₀ others { e with host := { e.host with output } } := ho.of_host rfl rfl
  cases reason with
  | halt => exact wp_serveHalt_of_forall ho houtput
  | allocation =>
    rw [serveReason, Action.wp_bind]
    exact (ho.wp_allocate hc _).imp (fun _ e' _ ho' => ho'.withFile _) fun _ h => h
  | abandonment =>
    rw [serveReason, Action.wp_bind]
    exact (ho.wp_abandon _).imp (fun _ e' _ ho' => ho') fun _ h => h
  | output => exact wp_serveOutput_of_forall houtput houtput
  | input => exact ho.wp_serveInput exit
  | loadProgram =>
    rw [serveReason, Action.wp_bind]
    exact (ho.wp_loadProgram _ _).imp (fun _ e' _ ho' => ho') fun _ h => h
  | recompile => exact ho.wp_serveRecompile exit
  | fault => exact wp_serveFault_of_broken ho
  | interrupt => exact ho

theorem Owned.conclude (ho : e.Owned m₀ l₀ others) (outcome : Outcome Unit) :
    (conclude outcome e).2.Owned m₀ l₀ others := by
  rcases snd_conclude outcome e with h | h
  · rw [h]
    exact ho
  · rw [h]
    exact ho.of_host rfl rfl

theorem Owned.tick {interrupted : Bool} {g : Moment} {r : Moment ⊕ RunResult}
    (hg : g.engine.Sound ∧ g.engine.Owned m₀ l₀ others) (ht : g.Tick interrupted r) :
    Sum.elim (fun g => g.engine.Owned m₀ l₀ others) (fun r => r.2.Owned m₀ l₀ others) r := by
  obtain ⟨hs, ho⟩ := hg
  cases ht with
  | canceled _ => exact ho.conclude _
  | looked cancelled _ => exact ho
  | @stepped m pc cancelled _ hstep =>
    have ho' := ho.step interrupted g.pc
    rw [hstep] at ho'
    exact ho'
  | @crashed m crash _ hstep =>
    have ho' := ho.step interrupted g.pc
    rw [hstep] at ho'
    exact ho'.conclude _
  | @unknown m exit message _ hstep _ =>
    have ho' := ho.step interrupted g.pc
    rw [hstep] at ho'
    exact ho'.conclude _
  | @returned m exit reason cancelled _ hstep _ =>
    have ho' := ho.step interrupted g.pc
    have hc' := hs.toCoherent.step interrupted g.pc
    rw [hstep] at ho' hc'
    have hserve := ho'.wp_serveReason hc' reason exit
    unfold Action.wp at hserve
    rcases hr : serveReason reason exit ⟨m, g.host⟩ with ⟨(_ | pc) | fault | crash, e'⟩ <;>
      simp only [Step.machine, hr] at hserve
    · exact Owned.conclude hserve _
    · exact hserve
    · exact Owned.conclude hserve _
    · exact Owned.conclude hserve _

theorem Owned.after {g : Moment} (hs : g.engine.Sound) (ho : g.engine.Owned m₀ l₀ others)
    (signals : Signals) (n : Nat) :
    Sum.elim (fun g => g.engine.Sound ∧ g.engine.Owned m₀ l₀ others)
      (fun r => r.2.Owned m₀ l₀ others) (g.after signals n) := by
  refine Moment.after_kept (fun _ g r hg ht => ?_) ⟨hs, ho⟩ signals n
  have hkept := Moment.kept_tick hg.1 ht
  have howned := Owned.tick hg ht
  cases r with
  | inl g' => exact ⟨hkept, howned⟩
  | inr result => exact howned

theorem Owned.wp_prepare (ho : e.Owned m₀ l₀ others) :
    prepare.wp (fun _ => Owned m₀ l₀ others) (Owned m₀ l₀ others) e := by
  have hrunning : e.machine.array? .running = some e.machine.running := rfl
  exact wp_prepare_of_forall
    (fun _ => (ho.wp_regenerate hrunning).imp (fun _ _ _ h => h.1) fun _ h => h) fun _ _ _ => ho

/-- At every tick of a run the engine owns its buffers. -/
theorem Owned.course (ho : e.Owned m₀ l₀ others) (hc : e.Coherent) (signals : Signals)
    (cancelled : Bool) (n : Nat) :
    Sum.elim (fun g => g.engine.Sound ∧ g.engine.Owned m₀ l₀ others)
      (fun r => r.2.Owned m₀ l₀ others) (e.course signals cancelled n) := by
  have ho' : Owned m₀ l₀ others { e with host := e.host.renew } := ho.of_host rfl rfl
  have hsound := hc.opening cancelled
  have hprepare := ho'.wp_prepare.snd
  unfold Engine.course
  rcases opening_cases cancelled e with
    ⟨m, h, co, hp, -, hopening⟩ | ⟨e', hp, -, hopening⟩ | ⟨outcome, e', -, hp, hopening⟩ <;>
    rw [hp] at hprepare <;> rw [hopening] at hsound ⊢
  · exact Owned.after hsound hprepare signals n
  · exact hprepare.conclude _
  · exact hprepare.conclude outcome

theorem Owned.finish (ho : e.Owned m₀ l₀ others) (outcome : Outcome Unit) :
    (finish (some outcome, e)).2.Owned m₀ l₀ others := by
  obtain ⟨o, hfinish⟩ := exists_finish outcome e
  rw [hfinish]
  exact ho.wp_flush.snd

theorem Owned.run (ho : e.Owned m₀ l₀ others) (hc : e.Coherent) (signals : Signals)
    (cancelled : Bool) (fuel : Nat) : (e.run signals cancelled fuel).2.Owned m₀ l₀ others := by
  cases hstopped : e.host.stopped with
  | true =>
    simp only [Engine.run, hstopped, if_true]
    exact ho
  | false =>
    have hcourse := ho.course hc signals cancelled fuel
    rw [run_eq_finish_course hstopped]
    rcases hg : e.course signals cancelled fuel with g | ⟨_ | outcome, e'⟩ <;> rw [hg] at hcourse
    · exact hcourse.2
    · exact hcourse
    · exact Owned.finish hcourse outcome

end Engine

end PlatterMachine
