import PlatterMachine.Engine.Serve
import PlatterMachine.Proofs.Engine.Showing
import PlatterMachine.Proofs.Engine.Supply

/-!
# What serving does to the plain machine shown

An engine represents a plain machine when it shows it and has memory to spare. Serving a return to
the host then succeeds or fails as the instruction of the plain machine does, and the engine goes on
to represent what the plain machine has become.
-/

namespace PlatterMachine.Engine

variable {e : Engine} {s : Interpreter}

structure Represents (e : Engine) (s : Interpreter) : Prop where
  supplied : e.Supplied
  shows : e.picture.Shows s

theorem serveHalt_normal (exit : Exit) (h : exit.value1 = Halt.normal) (e : Engine) :
    serveHalt exit e = (.done none, e) := by
  rw [serveHalt, if_pos h]
  rfl

namespace Represents

theorem handles (hr : e.Represents s) : e.Handles where
  pos := hr.shows.free_pos
  le := by
    have hle := hr.shows.free_le
    change e.host.minFree ≤ e.machine.otherWords.size + 1 at hle
    rwa [Machine.size_otherWords] at hle
  live k hk hnone := by
    refine hr.shows.live k hk ?_
    change e.machine.otherWords[k]?.join = none
    rw [Machine.join_getElem?_otherWords, hnone]
    rfl

theorem setSlot (hr : e.Represents s) (r : Register) (v : UInt32) :
    Represents ⟨e.machine.setSlot (Routine.slotOf r) v, e.host⟩ (s.set r v) :=
  ⟨hr.supplied.of_arrays rfl (fun _ => rfl) rfl, shows_setSlot hr.shows r v⟩

theorem setSlot_scratch (hr : e.Represents s) {i : UInt8} (hi : 8 ≤ i.toNat) (v : UInt32) :
    Represents ⟨e.machine.setSlot i v, e.host⟩ s :=
  ⟨hr.supplied.of_arrays rfl (fun _ => rfl) rfl, shows_setSlot_scratch hr.shows hi v⟩

theorem withOutput (hr : e.Represents s) {output : Writer} {bytes : Array UInt8}
    (h : output.Emits bytes) :
    Represents { e with host := { e.host with output } } { s with output := bytes } :=
  ⟨hr.supplied.of_arrays rfl (fun _ => rfl) rfl, { hr.shows with emits := h }⟩

theorem withInput (hr : e.Represents s) {input : Reader} {bytes : List UInt8}
    (h : input.Delivers bytes) :
    Represents { e with host := { e.host with input } } { s with input := bytes } :=
  ⟨hr.supplied.of_arrays rfl (fun _ => rfl) rfl, { hr.shows with delivers := h }⟩

theorem wp_onWriter (hr : e.Represents s) {activity : String} {f : Writer → Option Fault × Writer}
    {bytes : Array UInt8} (hf : (f e.host.output).1 = none ∧ (f e.host.output).2.Emits bytes) :
    (onWriter activity f).wp
      (fun _ e' => e'.machine = e.machine ∧ e'.Represents { s with output := bytes })
      (fun _ => False) e := by
  obtain ⟨hnone, hemits⟩ := hf
  rcases hw : f e.host.output with ⟨fault, output⟩
  rw [hw] at hnone hemits
  cases hnone
  simp only [Action.wp, onWriter, hw]
  exact ⟨trivial, hr.withOutput hemits⟩

theorem wp_flush (hr : e.Represents s) :
    flush.wp (fun _ e' => e'.machine = e.machine ∧ e'.Represents s) (fun _ => False) e :=
  hr.wp_onWriter ⟨hr.shows.emits.flush.1, hr.shows.emits.flush.2.1⟩

theorem serveOutput (hr : e.Represents s) (exit : Exit) :
    ∃ e', serveOutput exit e = (.done (some exit.resume), e') ∧ e'.machine = e.machine ∧
      e'.Represents { s with output := s.output.push exit.value1.toUInt8 } := by
  obtain ⟨_, e₁, hwrite, hmachine, hr₁⟩ :=
    (hr.wp_onWriter (f := (·.writeByte exit.value1.toUInt8))
      (hr.shows.emits.writeByte exit.value1.toUInt8)).exists_done
  rw [Engine.serveOutput, Action.bind_done hwrite]
  split
  · obtain ⟨_, e₂, hflush, hmachine', hr₂⟩ := hr₁.wp_flush.exists_done
    rw [Action.bind_done hflush]
    exact ⟨e₂, rfl, hmachine'.trans hmachine, hr₂⟩
  · exact ⟨e₁, rfl, hmachine, hr₁⟩

/-- Input is read after the output has been flushed. -/
theorem readInput (hr : e.Represents s) {result : Except Fault UInt8} {bytes : List UInt8}
    (hread : ∃ r', e.host.input.readByte = (result, r') ∧ r'.Delivers bytes) :
    ∃ e₁ e₂, flush e = (.done (), e₁) ∧ onReader Reader.readByte e₁ = (.done result, e₂) ∧
      e₂.machine = e.machine ∧ e₂.Represents { s with input := bytes } := by
  obtain ⟨_, e₁, hflush, hmachine, hr₁⟩ := hr.wp_flush.exists_done
  have hinput : e₁.host.input = e.host.input :=
    (congrArg (fun r => r.2.host.input) hflush).symm
  obtain ⟨r', hr', hdelivers⟩ := hread
  rw [← hinput] at hr'
  refine ⟨e₁, { e₁ with host := { e₁.host with input := r' } }, hflush, ?_, hmachine,
    hr₁.withInput hdelivers⟩
  simp only [onReader, hr']

theorem serveInput_byte (hr : e.Represents s) (exit : Exit) {b : UInt8} {rest : List UInt8}
    (hinput : s.input = b :: rest) :
    ∃ e', serveInput exit e = (.done (some exit.resume), e') ∧
      e'.machine = e.machine.setSlot slotAcc b.toUInt32 ∧
      e'.Represents { s with input := rest } := by
  have hdelivers := hr.shows.delivers
  rw [hinput] at hdelivers
  obtain ⟨e₁, e₂, hflush, hread, hmachine, hr₂⟩ := hr.readInput hdelivers.readByte_cons
  refine ⟨⟨e₂.machine.setSlot slotAcc b.toUInt32, e₂.host⟩, ?_, by rw [hmachine],
    hr₂.setSlot_scratch (by decide) _⟩
  rw [serveInput, Action.bind_done hflush, Action.bind_done hread]
  rfl

theorem serveInput_end (hr : e.Represents s) (exit : Exit) (hinput : s.input = [])
    (hsuspend : s.suspendOnEnd = false) :
    ∃ e', serveInput exit e = (.done (some exit.resume), e') ∧
      e'.machine = e.machine.setSlot slotAcc 0xFFFFFFFF ∧ e'.Represents s := by
  have hdelivers := hr.shows.delivers
  rw [hinput] at hdelivers
  obtain ⟨e₁, e₂, hflush, hread, hmachine, hr₂⟩ := hr.readInput hdelivers.readByte_nil
  rw [← hinput] at hr₂
  have hend : e₂.host.suspendOnEnd = false := hr₂.shows.suspendOnEnd_eq.trans hsuspend
  refine ⟨⟨e₂.machine.setSlot slotAcc 0xFFFFFFFF, e₂.host⟩, ?_, by rw [hmachine],
    hr₂.setSlot_scratch (by decide) _⟩
  rw [serveInput, Action.bind_done hflush, Action.bind_done hread]
  change (Action.read (·.host.suspendOnEnd) >>= fun b => if b = true then _ else _) e₂ = _
  rw [Action.read_bind_apply, hend]
  rfl

/-- A suspended engine is to start at the input instruction again. -/
theorem serveInput_suspend (hr : e.Represents s) (exit : Exit) (hinput : s.input = [])
    (hsuspend : s.suspendOnEnd = true) {co : CodeObject} {finger : UInt32}
    (hco : e.machine.running.code = some co) (hfinger : co.fingerFor exit.resume = .ok finger) :
    ∃ e', serveInput exit e = (.failed .suspended, e') ∧ e'.machine = e.machine ∧
      e'.host.finger = finger ∧ e'.Represents s := by
  have hdelivers := hr.shows.delivers
  rw [hinput] at hdelivers
  obtain ⟨e₁, e₂, hflush, hread, hmachine, hr₂⟩ := hr.readInput hdelivers.readByte_nil
  rw [← hinput] at hr₂
  have hend : e₂.host.suspendOnEnd = true := hr₂.shows.suspendOnEnd_eq.trans hsuspend
  rw [← hmachine] at hco
  refine ⟨⟨e₂.machine, { e₂.host with
    finger, events := { e₂.host with finger }.logged (.suspended finger) }⟩, ?_, hmachine, rfl,
    hr₂.supplied.of_arrays rfl (fun _ => rfl) rfl, hr₂.shows.withFinger finger⟩
  rw [serveInput, Action.bind_done hflush, Action.bind_done hread]
  change (Action.read (·.host.suspendOnEnd) >>= fun b => if b = true then _ else _) e₂ = _
  rw [Action.read_bind_apply, hend, if_pos rfl, suspend, Action.read_bind_apply, hco]
  dsimp only
  rw [hfinger]
  change (note (.suspended finger) >>= fun _ => Action.fail .suspended)
    ⟨e₂.machine, { e₂.host with finger }⟩ = _
  rw [Action.bind_done (note_apply _ _)]
  rfl

theorem allocate (hr : e.Represents s) (size : UInt32) :
    ∃ e', Engine.allocate size e = (.done (s.allocate size).1, e') ∧
      e'.machine.running = e.machine.running ∧ e'.Represents (s.allocate size).2 := by
  obtain ⟨_, e', heq, hs', hrunning, i, rfl, hle, hnone, hlive, hpicture⟩ :=
    (hr.supplied.wp_allocate hr.handles hr.shows.opened size).exists_done
  have hother (k : Nat) :
      e.picture.others[k]?.join = none ↔ e.machine.array? (.other k) = none := by
    change e.machine.otherWords[k]?.join = none ↔ _
    rw [Machine.join_getElem?_otherWords, Option.map_eq_none_iff]
  obtain ⟨hhandle, hshows⟩ := hr.shows.allocated
    (Nat.le_trans hle (Nat.le_of_eq e.machine.size_otherWords.symm)) ((hother i).mpr hnone)
    (fun k hk hk' => hlive k hk ((hother k).mp hk')) size
  rw [hhandle] at heq
  rw [← hpicture] at hshows
  exact ⟨e', heq, hrunning, hs', hshows⟩

theorem abandon (hr : e.Represents s) {handle : UInt32} {words : Array Platter}
    (hlookup : s.lookup handle = some words) :
    ∃ e', Engine.abandon handle e = (.done (), e') ∧
      e'.machine.running = e.machine.running ∧ e'.Represents (s.abandon handle) := by
  rw [← map_lookup_of_shows hr.shows, Option.map_eq_some_iff] at hlookup
  obtain ⟨a, ha, -⟩ := hlookup
  by_cases h0 : handle = 0
  · subst h0
    have hplace : e.machine.place? 0 = some .running := by
      rw [Machine.lookup_zero] at ha
      rw [Machine.place?_zero]
      split at ha
      · rw [if_pos ‹_›]
      · cases ha
    have habandon : (Engine.abandon 0).wp (fun _ e' => e' = e.abandonedRunning)
        (fun _ => False) e := (wp_abandon_running hplace).mpr rfl
    obtain ⟨_, e', heq, rfl⟩ := habandon.exists_done
    refine ⟨_, heq, rfl, ⟨hr.supplied.lends, fun place b co hb hco => ?_⟩,
      { hr.shows with zeroLive_eq := rfl }⟩
    refine hr.supplied.fits place b co ?_ hco
    cases place <;> exact hb
  · rw [Machine.lookup_of_ne_zero h0] at ha
    have hplace : e.machine.place? handle = some (.other (handle.toNat - 1)) := by
      rw [Machine.place?_of_ne_zero h0, ha]
      rfl
    obtain ⟨_, e', heq, hs', hrunning, hpicture⟩ :=
      (hr.supplied.wp_abandon_other hplace ha).exists_done
    have hlt : handle.toNat - 1 < e.picture.others.size := by
      change _ < e.machine.otherWords.size
      rw [Machine.size_otherWords]
      exact Machine.lt_size_of_array?_other ha
    refine ⟨e', heq, hrunning, hs', ?_⟩
    rw [hpicture, Interpreter.abandon, if_neg h0]
    exact hr.shows.abandoned hlt

theorem abandon_of_none (hr : e.Represents s) {handle : UInt32} (hlookup : s.lookup handle = none) :
    Engine.abandon handle e =
      (.failed (.invalidIndex "abandonment of unallocated array" handle), e) := by
  rw [← map_lookup_of_shows hr.shows, Option.map_eq_none_iff, Machine.lookup_eq_bind] at hlookup
  apply Engine.abandon_of_none
  cases hplace : e.machine.place? handle with
  | none => rfl
  | some place =>
    obtain ⟨a, ha⟩ := Machine.exists_array?_of_place? hplace
    rw [hplace, Option.bind_some, ha] at hlookup
    cases hlookup

theorem store (hr : e.Represents s) {co : CodeObject} {old : Array Platter}
    (hco : e.machine.running.code = some co) (hpatched : co.Patched old s.program)
    {handle offset : UInt32} {p : Platter} (hword : s.word? handle offset = some p) (v : Platter)
    (pc : UInt32) :
    ∃ m co', e.machine.store handle offset v pc = .next m pc ∧ m.running.code = some co' ∧
      co'.code.size = co.code.size ∧ (∀ i, co'.entryAt i = co.entryAt i) ∧
      Represents ⟨m, e.host⟩ (s.write handle offset v) := by
  have hshows := shows_writeWord hr.shows handle offset v
  rw [← readWord?_of_shows hr.shows] at hword
  obtain ⟨place, a, hplace, ha, hp⟩ := Machine.readWord?_eq_some hword
  have hwrite := Machine.writeWord_eq hplace offset v
  by_cases h0 : handle = 0
  · obtain rfl := (Machine.place?_eq_running_iff hplace).mpr h0
    cases ha
    have hlt : offset.toNat < old.size := by
      have hsize : e.machine.running.words.size = old.size :=
        (congrArg Array.size hr.shows.program_eq).trans hpatched.size_eq
      rw [← hsize]
      exact (Array.getElem?_eq_some_iff.mp hp).1
    have hfits : co.stubFits (co.entry offset) = true :=
      hpatched.stubFits (hr.supplied.fits .running _ co rfl hco) hlt
    refine ⟨e.machine.modifyArray .running fun a => { a with
      words := a.words.setIfInBounds offset.toNat v, dirty := true
      code := some (co.plantStub (co.entry offset)) }, co.plantStub (co.entry offset), ?_, rfl, ?_,
      fun _ => rfl, ?_, ?_⟩
    · rw [Machine.store, hwrite, if_pos h0]
      exact Machine.plantStub_eq (by exact hco) hfits pc
    · simp [CodeObject.plantStub]
    · refine hr.supplied.amended rfl rfl ?_ fun co' hco' => ?_
      · rw [PlatterArray.codes_of_some hco, PlatterArray.codes_of_some rfl]
        rfl
      · cases hco'
        simpa [CodeObject.plantStub] using hr.supplied.fits .running _ co rfl hco
    · rw [hwrite] at hshows
      exact hshows
  · refine ⟨e.machine.writeWord handle offset v, co, ?_, ?_, rfl, fun _ => rfl, ?_, hshows⟩
    · rw [Machine.store, if_neg h0]
    · rw [hwrite]
      cases place with
      | running => exact absurd ((Machine.place?_eq_running_iff hplace).mp rfl) h0
      | other i => exact hco
    · rw [hwrite]
      exact hr.supplied.amended ha rfl rfl fun co' hco' => hr.supplied.fits place a co' ha hco'

theorem loadProgram (hr : e.Represents s) {handle finger : UInt32} {words : Array Platter}
    (h0 : handle ≠ 0) (hlookup : s.lookup handle = some words) (hlt : finger.toNat < words.size)
    (hsize : Layout.size words.toList < Layout.limit) :
    ∃ e' co, Engine.loadProgram handle finger e = (.done (co.entry finger), e') ∧
      e'.machine.running.code = some co ∧ e'.machine.running.dirty = false ∧
      e'.Represents { s with program := words, zeroLive := true, finger := finger.toNat } := by
  rw [← map_lookup_of_shows hr.shows, Option.map_eq_some_iff] at hlookup
  obtain ⟨a, ha, rfl⟩ := hlookup
  rw [Machine.lookup_of_ne_zero h0] at ha
  obtain ⟨_, e', heq, hs', hpicture, co, hco, hclean, rfl⟩ :=
    (hr.supplied.wp_loadProgram h0 ha hlt hsize).exists_done
  refine ⟨e', co, heq, hco, hclean, hs', ?_⟩
  rw [hpicture]
  exact { hr.shows with program_eq := rfl, zeroLive_eq := rfl }

theorem serveRecompile (hr : e.Represents s) (exit : Exit) {co : CodeObject} {finger : UInt32}
    (hco : e.machine.running.code = some co) (hfinger : co.fingerFor exit.resume = .ok finger)
    (hsize : Layout.size s.program.toList < Layout.limit) :
    ∃ e' co', Engine.serveRecompile exit e = (.done (some (co'.entry finger)), e') ∧
      e'.machine.running.code = some co' ∧ e'.machine.running.dirty = false ∧
      e'.Represents s := by
  have hserve : (Engine.serveRecompile exit).wp
      (fun resume e' => ∃ co', resume = some (co'.entry finger) ∧
        e'.machine.running.code = some co' ∧ e'.machine.running.dirty = false ∧ e'.Represents s)
      (fun _ => False) e := by
    rw [← hr.shows.program_eq] at hsize
    rw [Engine.serveRecompile, Action.wp_bind, Action.wp_read, hco]
    dsimp only
    rw [hfinger, Action.wp_bind, Action.wp_ofExcept_ok, Action.wp_bind]
    refine (hr.supplied.wp_regenerate e.machine.array?_running hsize).imp
      (fun _ e' _ ⟨hs', hpicture, co', ha⟩ => ?_) fun _ h => h
    rw [Machine.array?_running, Option.some.injEq] at ha
    have hco' : e'.machine.running.code = some co' := by rw [ha]
    have hshows := hr.shows
    rw [← hpicture] at hshows
    simp only [Action.wp_bind, wp_count, wp_note, Action.wp_read, hco', Action.wp_pure]
    exact ⟨co', rfl, rfl, by rw [ha], hs'.of_arrays rfl (fun _ => rfl) rfl, hshows⟩
  obtain ⟨_, e', heq, co', rfl, hco', hclean, hr'⟩ := hserve.exists_done
  exact ⟨e', co', heq, hco', hclean, hr'⟩

theorem serveHalt (hr : e.Represents s) (exit : Exit) (hne : exit.value1 ≠ Halt.normal) :
    ∃ e', Engine.serveHalt exit e = (.failed (.halt exit.value1 exit.value2), e') ∧
      e'.Represents { s with
        output := s.output ++
          ("\n" ++ Halt.message exit.value1 exit.value2 ++ "\n").toUTF8.toList } := by
  obtain ⟨_, e', hwrite, -, hr'⟩ := (hr.wp_onWriter
    (f := Writer.write ("\n" ++ Halt.message exit.value1 exit.value2 ++ "\n").toUTF8.toList)
    (hr.shows.emits.write _)).exists_done
  refine ⟨e', ?_, hr'⟩
  rw [Engine.serveHalt, if_neg hne]
  exact Action.bind_done hwrite

theorem serveFault (hr : e.Represents s) (exit : Exit) :
    ∃ fault, s.badAccess exit.value1 exit.value2 = .stop (.error fault) s ∧
      Engine.serveFault exit e = (.failed fault, e) := by
  have hlookup := map_lookup_of_shows hr.shows exit.value1
  rw [Interpreter.badAccess, ← hlookup, Engine.serveFault, Action.read_bind_apply]
  cases e.machine.lookup exit.value1 with
  | none => exact ⟨_, rfl, rfl⟩
  | some a => exact ⟨_, rfl, rfl⟩

end Represents

end PlatterMachine.Engine
