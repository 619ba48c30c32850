import PlatterMachine.Proofs.Engine.Amendment
import PlatterMachine.Proofs.Engine.Coherence

/-!
# Serving keeps code coherent

Host instructions keep an engine coherent, and so does serving a return to the host. Whenever
execution is then resumed the engine is sound: the code that it resumes can be executed.
-/

namespace PlatterMachine.Engine

variable {e : Engine} {m : Machine} {h : Host}

theorem Coherent.written (hc : Coherent ⟨m, h⟩) (place : Place)
    (f : PlatterArray → PlatterArray) (hf : ∀ a, (f a).dirty = true) :
    Coherent ⟨m.modifyArray place f, h⟩ := by
  refine ⟨fun q a ha => ?_, fun i hi => ?_, ?_⟩
  · rw [Machine.array?_modifyArray] at ha
    split at ha
    · obtain ⟨b, -, rfl⟩ := Option.map_eq_some_iff.mp ha
      exact PlatterArray.fresh_of_dirty (hf b)
    · exact hc.fresh q a ha
  · obtain ⟨d, hd, hwords⟩ := hc.lent i hi
    simp only [Machine.array?_modifyArray]
    cases place with
    | running =>
      refine ⟨d, by simpa using hd, fun _ _ hclean => ?_⟩
      rw [Machine.modifyArray_running_running, hf] at hclean
      cases hclean
    | other j =>
      by_cases hji : Place.other j = .other i
      · refine ⟨f d, by rw [if_pos hji, hd]; rfl, fun _ hclean => ?_⟩
        rw [hf] at hclean
        cases hclean
      · exact ⟨d, by rw [if_neg hji, hd], hwords⟩
  · simpa only [Machine.modifyArray_size_others] using hc.room

theorem Coherent.step (hc : Coherent ⟨m, h⟩) (interrupted : Bool) (pc : UInt32) :
    Coherent ⟨(m.step interrupted pc).machine, h⟩ := by
  rcases Machine.step_cases m interrupted pc with
    ⟨file, hfile⟩ | ⟨handle, offset, v, p, pc', -, hread, heq⟩
  · rw [hfile]
    exact hc.withFile file
  · obtain ⟨place, a, hplace, ha, -⟩ := Machine.readWord?_eq_some hread
    rw [heq, Machine.store, Machine.writeWord_eq hplace]
    by_cases h0 : handle = 0
    · obtain rfl := (Machine.place?_eq_running_iff hplace).mpr h0
      simp only [h0, if_true]
      rcases Machine.plantStub_cases (m.modifyArray .running fun a =>
        { a with words := a.words.setIfInBounds offset.toNat v, dirty := true }) offset pc' with
        ⟨co, -, heq⟩ | heq
      · rw [heq]
        exact hc.written .running (fun a => { a with
          words := a.words.setIfInBounds offset.toNat v, dirty := true
          code := some (co.plantStub (co.entry offset)) }) fun _ => rfl
      · rw [heq]
        dsimp only [Step.machine]
        exact hc.written .running _ fun _ => rfl
    · simp only [h0, if_false, Step.machine]
      exact hc.written place _ fun _ => rfl

structure Sound (e : Engine) : Prop extends Coherent e where
  executable : e.machine.Executable

theorem Sound.of_host {h' : Host} (hs : Sound ⟨m, h⟩) (hdonor : h'.donor = h.donor)
    (hclosed : h'.closed = h.closed) (hfree : h'.minFree = h.minFree) : Sound ⟨m, h'⟩ :=
  ⟨hs.toCoherent.of_host hdonor hclosed hfree, hs.executable⟩

theorem Sound.withFile (hs : e.Sound) (file : Vector UInt32 fileSize) :
    Sound ⟨{ e.machine with file }, e.host⟩ :=
  ⟨hs.toCoherent.withFile file, hs.executable.of_running rfl⟩

/-- Clean code can be executed. -/
theorem Coherent.sound (hc : e.Coherent) {words : Array Platter}
    (hcompiled : e.Compiled .running words) : e.Sound := by
  obtain ⟨a, co, ha, -, hclean, hco⟩ := hcompiled
  cases ha
  refine ⟨hc, co, hco, fun hsize => ?_⟩
  obtain ⟨memory, memory', hgenerate⟩ := hc.fresh .running _ rfl hclean co hco
  have hfor := CodeObject.isFor_of_generate hgenerate
  refine ⟨_, hfor.patched ?_⟩
  rw [hfor.code_eq] at hsize
  simpa [Layout.size] using hsize

theorem Coherent.wp_regenerate_running (hc : e.Coherent) :
    (regenerate .running).wp (fun _ => Sound) Coherent e :=
  (hc.wp_regenerate rfl (Or.inl rfl)).imp
    (fun _ _ _ ⟨hc', hcompiled⟩ => hc'.sound hcompiled) fun _ h => h

theorem wp_onWriter_of_forall {activity : String} {f : Writer → Option Fault × Writer}
    {post : Unit → Engine → Prop} {broken : Engine → Prop}
    (hpost : ∀ output, post () { e with host := { e.host with output } })
    (hbroken : ∀ output, broken { e with host := { e.host with output } }) :
    (onWriter activity f).wp post broken e := by
  rcases hf : f e.host.output with ⟨_ | fault, output⟩ <;> simp only [Action.wp, onWriter, hf]
  · exact hpost output
  · exact hbroken output

section Services

variable {exit : Exit} {post : Option UInt32 → Engine → Prop} {broken : Engine → Prop}

theorem wp_serveHalt_of_forall (hpost : post none e)
    (hbroken : ∀ output, broken { e with host := { e.host with output } }) :
    (serveHalt exit).wp post broken e := by
  unfold serveHalt
  split
  · exact hpost
  · rw [Action.wp_bind]
    exact wp_onWriter_of_forall hbroken hbroken

theorem wp_serveOutput_of_forall
    (hpost : ∀ output, post (some exit.resume) { e with host := { e.host with output } })
    (hbroken : ∀ output, broken { e with host := { e.host with output } }) :
    (serveOutput exit).wp post broken e := by
  unfold serveOutput
  rw [Action.wp_bind]
  refine wp_onWriter_of_forall (fun output => ?_) hbroken
  split
  · rw [Action.wp_bind]
    exact wp_onWriter_of_forall hpost hbroken
  · exact hpost output

theorem wp_serveFault_of_broken (hbroken : broken e) : (serveFault exit).wp post broken e := by
  rw [serveFault, Action.wp_bind, Action.wp_read]
  split <;> exact hbroken

/-- Input is read once the output is flushed. Serving it then goes on behind the instruction, or it
ends with the state that has been read into, or with that state suspended. -/
theorem wp_serveInput_of_forall
    (hflush : flush.wp (fun _ e' =>
      (∀ input v, post (some exit.resume)
        ⟨e'.machine.setSlot slotAcc v, { e'.host with input }⟩) ∧
      (∀ input, broken { e' with host := { e'.host with input } }) ∧
      ∀ input finger events, broken { e' with host := { e'.host with input, finger, events } })
      broken e) :
    (serveInput exit).wp post broken e := by
  unfold serveInput
  rw [Action.wp_bind]
  refine hflush.imp (fun _ e' _ ⟨hpost, hbroken, hsuspended⟩ => ?_) fun _ h => h
  rw [Action.wp_bind]
  change Action.wp _ _ _ { e' with host := { e'.host with input := e'.host.input.readByte.2 } }
  split
  · exact hpost _ _
  · split
    · rw [Action.wp_bind, Action.wp_read]
      split
      · unfold suspend
        rw [Action.wp_bind, Action.wp_read]
        split
        · exact hbroken _
        · rename_i co _
          rw [Action.wp_bind]
          cases co.fingerFor exit.resume with
          | error fault => exact hbroken _
          | ok finger =>
            simp only [Action.wp_ofExcept_ok, Action.wp_bind, wp_onHost, wp_note, Action.wp_fail]
            exact hsuspended _ _ _
      · exact hpost _ _
    · exact hbroken _

/-- Recompilation goes on at an entry of the code that it makes. -/
theorem wp_serveRecompile_of_forall (hbroken : broken e)
    (hregenerate : (regenerate .running).wp (fun _ e' => ∀ stats events,
      broken ⟨e'.machine, { e'.host with stats, events }⟩ ∧
      ∀ co finger, e'.machine.running.code = some co →
        post (some (co.entry finger)) ⟨e'.machine, { e'.host with stats, events }⟩) broken e) :
    (serveRecompile exit).wp post broken e := by
  unfold serveRecompile
  rw [Action.wp_bind, Action.wp_read]
  split
  · exact hbroken
  · rename_i co _
    rw [Action.wp_bind]
    cases co.fingerFor exit.resume with
    | error fault => exact hbroken
    | ok finger =>
      rw [Action.wp_ofExcept_ok, Action.wp_bind]
      refine hregenerate.imp (fun _ e' _ hregenerated => ?_) fun _ h => h
      simp only [Action.wp_bind, wp_count, wp_note, Action.wp_read]
      split
      · exact (hregenerated _ _).1
      · rename_i co' hco'
        exact (hregenerated _ _).2 co' finger hco'

end Services

def Resumable (resume : Option UInt32) (e : Engine) : Prop :=
  e.Coherent ∧ (resume ≠ none → e.Sound)

theorem Sound.resumable (hs : e.Sound) (resume : Option UInt32) : e.Resumable resume :=
  ⟨hs.toCoherent, fun _ => hs⟩

theorem Sound.wp_flush (hs : e.Sound) : flush.wp (fun _ => Sound) Coherent e :=
  wp_onWriter_of_forall (fun _ => hs.of_host rfl rfl rfl)
    fun _ => hs.toCoherent.of_host rfl rfl rfl

theorem Sound.wp_serveInput (hs : e.Sound) (exit : Exit) :
    (serveInput exit).wp Resumable Coherent e := by
  refine wp_serveInput_of_forall (hs.wp_flush.imp (fun _ e' _ hs' => ⟨?_, ?_, ?_⟩) fun _ h => h)
  · intro input v
    have hread : Sound { e' with host := { e'.host with input } } := hs'.of_host rfl rfl rfl
    exact (hread.withFile _).resumable _
  · exact fun input => hs'.toCoherent.of_host rfl rfl rfl
  · exact fun input finger events => hs'.toCoherent.of_host rfl rfl rfl

theorem Sound.wp_serveRecompile (hs : e.Sound) (exit : Exit) :
    (serveRecompile exit).wp Resumable Coherent e := by
  refine wp_serveRecompile_of_forall hs.toCoherent
    (hs.toCoherent.wp_regenerate_running.imp (fun _ e' _ hs' stats events => ?_) fun _ h => h)
  have hs'' : Sound ⟨e'.machine, { e'.host with stats, events }⟩ := hs'.of_host rfl rfl rfl
  exact ⟨hs''.toCoherent, fun co finger _ => hs''.resumable _⟩

theorem Sound.wp_serveReason (hs : e.Sound) (reason : Reason) (exit : Exit) :
    (serveReason reason exit).wp Resumable Coherent e := by
  have houtput (output : Writer) : Sound { e with host := { e.host with output } } :=
    hs.of_host rfl rfl rfl
  cases reason with
  | halt => exact wp_serveHalt_of_forall (hs.resumable none) fun output => (houtput output).toCoherent
  | allocation =>
    rw [serveReason, Action.wp_bind]
    refine (hs.toCoherent.wp_allocate _).imp (fun handle e' _ ⟨hc, hrunning⟩ => ?_) fun _ h => h
    have hs' : e'.Sound := ⟨hc, hs.executable.of_running hrunning⟩
    exact (hs'.withFile _).resumable _
  | abandonment =>
    rw [serveReason, Action.wp_bind]
    refine (hs.toCoherent.wp_abandon _).imp (fun _ e' _ ⟨hc, hrunning⟩ => ?_) fun _ h => h
    have hs' : e'.Sound := ⟨hc, hs.executable.of_running hrunning⟩
    exact hs'.resumable _
  | output =>
    exact wp_serveOutput_of_forall (fun output => (houtput output).resumable _)
      fun output => (houtput output).toCoherent
  | input => exact hs.wp_serveInput exit
  | loadProgram =>
    rw [serveReason, Action.wp_bind]
    refine (hs.toCoherent.wp_loadProgram _ _).imp (fun pc e' _ ⟨hc, ⟨_, hcompiled⟩, _⟩ => ?_)
      fun _ h => h
    exact (hc.sound hcompiled).resumable _
  | recompile => exact hs.wp_serveRecompile exit
  | fault => exact wp_serveFault_of_broken hs.toCoherent
  | interrupt => exact hs.resumable _

end PlatterMachine.Engine
