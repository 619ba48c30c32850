import PlatterMachine.Proofs.Engine.Poised

/-!
# Engines run programs as the plain machine does

A new engine represents the plain machine at the start of its program. Whenever its run is between
two instructions, registers, arrays and output are those of the plain machine at that instruction,
and it ends if and only if the plain machine stops, in the same way.
-/

namespace PlatterMachine

/-- Memory is to be had, the input arrives, whatever the reads that it comes in, and the output is
accepted. -/
structure EngineConfig.Reliable (config : EngineConfig) (input : List UInt8) : Prop where
  memory : (config.memory.getD .mapped).Covers 0 0
  delivers : config.input.Delivers input
  emits : Writer.Emits ⟨config.output, #[], none⟩ #[]

namespace Engine

variable {program : Array Platter} {config : EngineConfig} {input : List UInt8}

def started (program : Array Platter) (config : EngineConfig) : Picture where
  file := Vector.replicate fileSize 0
  program := program
  zeroLive := true
  others := #[]
  minFree := 1
  finger := 0
  input := config.input
  output := ⟨config.output, #[], none⟩
  suspendOnEnd := config.suspendOnEnd
  stopped := false
  closed := false

theorem wp_start_supplied (hmemory : (config.memory.getD .mapped).Covers 0 0)
    (hsize : program.size < Layout.limit) :
    (start program).wp
      (fun _ e => e.Supplied ∧ e.machine.others = #[] ∧ e.picture = started program config)
      (fun _ => False) (blank config) := by
  unfold start
  simp only [Action.wp_bind, Action.wp_during, wp_onMachine, wp_onHost]
  apply Action.wp.cleaningUp
  rw [wp_inMemory]
  refine (hmemory.wp_alloc hsize false).imp (fun buffer memory _ hcovers => ?_)
    fun _ hf => hf.elim
  refine ⟨⟨?_, fun place a co ha hco => ?_⟩, trivial, ?_⟩
  · exact hcovers
  · cases place with
    | running =>
      cases ha
      cases hco
    | other i => cases ha
  · simp only [picture, Machine.otherWords, Array.map_empty]
    rfl

theorem shows_started (hconfig : config.Reliable input) :
    (started program config).Shows (Interpreter.start program input config.suspendOnEnd) where
  registers_eq := by
    apply Vector.ext
    intro i hi
    simp [Picture.registers, started, Interpreter.start, Vector.get]
  program_eq := rfl
  zeroLive_eq := rfl
  others_eq := rfl
  suspendOnEnd_eq := rfl
  delivers := hconfig.delivers
  emits := hconfig.emits
  free_pos := Nat.le_refl 1
  free_le := Nat.le_refl 1
  live k hk := by
    change k + 1 < 1 at hk
    omega
  opened := rfl
  going := rfl

theorem new_poised (hconfig : config.Reliable input)
    (hsize : Layout.size program.toList < Layout.limit) :
    ∃ e, new program config = (.done (), e) ∧
      e.Poised (Interpreter.start program input config.suspendOnEnd) := by
  obtain ⟨_, e, hnew, hsupplied, -, hpicture⟩ :=
    (wp_start_supplied hconfig.memory (Layout.words_lt_limit hsize)).exists_done
  have hnew' : new program config = (.done (), e) := hnew
  have hcoherent := new_coherent (congrArg Prod.fst hnew')
  rw [hnew'] at hcoherent
  refine ⟨e, hnew', hcoherent, ⟨hsupplied, ?_⟩, ?_⟩
  · rw [hpicture]
    exact shows_started hconfig
  · change e.picture.finger.toNat = 0
    rw [hpicture]
    rfl

def Moment.Meets (g : Moment) (s : Interpreter) : Prop :=
  g.engine.Agrees s ∧ ∃ co, g.machine.running.code = some co ∧ g.pc = co.entryAt s.finger

theorem Moment.At.meets {g : Moment} {s : Interpreter} (hat : g.At s) : g.Meets s := by
  obtain ⟨co, hx, hpc⟩ := hat
  exact ⟨hx.represents.agrees, co, hx.code_eq, hpc⟩

/-- A new engine goes through the states of the plain machine, is between two instructions only in
such states, and ends exactly when the plain machine stops, in the same way and in the same state,
with all output flushed. As long as there are fewer than 2^32 - 1 handles, its handles may as well be
counted in words. -/
theorem run_refines_interpreter (hconfig : config.Reliable input)
    (hshort : (Interpreter.start program input config.suspendOnEnd).Addressable) :
    ∃ e, new program config = (.done (), e) ∧
      (∀ ticks, e.run .none false ticks =
        finish (Moment.report (e.course .none false ticks))) ∧
      (∀ n s, (Interpreter.start program input config.suspendOnEnd).run n = (none, s) →
        ∃ ticks g, n ≤ ticks ∧ e.course .none false ticks = .inl g ∧ g.Meets s) ∧
      (∀ ticks g, e.course .none false ticks = .inl g → g.AtEntry →
        (∃ n s, n ≤ ticks ∧
          (Interpreter.start program input config.suspendOnEnd).run n = (none, s) ∧ g.Meets s) ∧
        (g.machine.others.size + 1 < 0xFFFFFFFF → g.engine.CountsInWords)) ∧
      (∀ n result s,
        (Interpreter.start program input config.suspendOnEnd).run n = (some result, s) →
          ∃ ticks outcome e', e.run .none false ticks = (some outcome, e') ∧
            Alike outcome result ∧ e'.Agrees s ∧ e'.host.output.buffer = #[]) ∧
      ∀ ticks outcome e', e.run .none false ticks = (some outcome, e') →
        ∃ n result s,
          (Interpreter.start program input config.suspendOnEnd).run n = (some result, s) ∧
            Alike outcome result ∧ e'.Agrees s := by
  obtain ⟨e, hnew, hp⟩ := new_poised hconfig hshort.size_lt
  obtain ⟨g, hat, hcourse⟩ := hp.course_eq hshort
  refine ⟨e, hnew, hp.run_eq, fun n s hrun => ?_, fun ticks g' hg' hentry => ?_,
    fun n result s hrun => ?_, fun ticks outcome e' hrun => ?_⟩
  · obtain ⟨ticks, g', hle, hafter, hat'⟩ := hat.exists_after hshort hrun
    exact ⟨ticks, g', hle, (hcourse ticks).trans hafter, hat'.meets⟩
  · rw [hcourse] at hg'
    obtain ⟨n, s, hle, hrun, hat'⟩ := hat.of_atEntry hshort hg' hentry
    have hmeets := hat'.meets
    obtain ⟨_, hx, _⟩ := hat'
    have hh := hx.represents.handles
    exact ⟨⟨n, s, hle, hrun, hmeets⟩, countsInWords hh.pos hh.le⟩
  · obtain ⟨ticks, outcome, e', hrun', hleaves⟩ := hp.exists_run hshort hrun
    exact ⟨ticks, outcome, e', hrun', hleaves.alike, hleaves.agrees, hleaves.flushed⟩
  · obtain ⟨n, result, s, hrun', hleaves⟩ := hp.of_run hshort hrun
    exact ⟨n, result, s, hrun', hleaves.alike, hleaves.agrees⟩

/-- Reads a byte, overwrites the platter that would halt the machine, and writes the byte. -/
def amendingEcho : Array Platter :=
  #[0xD2000003, 0xB0000002, 0x20000008, 0x70000000, 0xA0000002, 0x70000000]

def lateByte : EngineConfig :=
  { input := ⟨⟨[.idle 3, .data [], .data [104]], false⟩, []⟩, output := {} }

theorem run_refines_interpreter_amending :
    lateByte.Reliable [104] ∧ (Interpreter.start amendingEcho [104] false).Addressable ∧
      ∃ e ticks e', new amendingEcho lateByte = (.done (), e) ∧
        e.run .none false ticks = (some (.done ()), e') ∧ e'.host.output.emitted = [104] := by
  have hreliable : lateByte.Reliable [104] :=
    ⟨Memory.covers_mapped, ⟨rfl, by simp [lateByte, Source.Steady, maxIdleReads], rfl⟩,
      ⟨rfl, rfl, rfl, rfl, rfl⟩, rfl, rfl⟩
  have hrun : (Interpreter.start amendingEcho [104] false).run 6 =
      (some (.ok ()), ((Interpreter.start amendingEcho [104] false).run 6).2) := rfl
  have hshort : (Interpreter.start amendingEcho [104] false).Addressable :=
    Interpreter.addressable_of_run hrun (by decide +kernel)
  obtain ⟨e, hnew, -, -, -, hends, -⟩ := run_refines_interpreter hreliable hshort
  obtain ⟨ticks, outcome, e', hrun', halike, hagrees, -⟩ := hends 6 _ _ hrun
  cases outcome with
  | done _ => exact ⟨hreliable, hshort, e, ticks, e', hnew, hrun', hagrees.emitted_eq⟩
  | failed _ => cases halike
  | crashed _ => cases halike

end Engine

end PlatterMachine
