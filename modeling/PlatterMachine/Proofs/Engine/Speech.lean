import PlatterMachine.Proofs.Engine.Quiet
import PlatterMachine.Proofs.Engine.Serving
import PlatterMachine.Proofs.Engine.Ticks
import PlatterMachine.Proofs.Stream.Faltering

/-!
# What a machine says and what arrives of it

What a machine says in a run are the bytes of its output instructions in order, and the diagnostic of
an abnormal halt behind them. Whatever the sink does, the bytes that have arrived are at all times
the start of what was said over all runs. They are all of it behind a newline, when input is asked
for, and when a run ends normally or is suspended.
-/

namespace PlatterMachine

def Exit.speech (left : Exit) : List UInt8 :=
  match Reason.ofCode? left.reason with
  | some .output => [left.value1.toUInt8]
  | some .halt =>
    if left.value1 = Halt.normal then []
    else ("\n" ++ (Fault.halt left.value1 left.value2).message ++ "\n").toUTF8.toList
  | _ => []

namespace Engine

variable {e : Engine} {g : Moment} {interrupted : Bool}

namespace Moment

def speech (interrupted : Bool) (g : Moment) : List UInt8 :=
  match g.exit? interrupted with
  | some (_, left) => left.speech
  | none => []

def spoken (signals : Signals) : (n : Nat) → Moment → List UInt8
  | 0, _ => []
  | n + 1, g => g.speech (g.interrupted signals) ++
    match g.next signals with
    | .inl g' => spoken signals n g'
    | .inr _ => []

end Moment

def said (signals : Signals) (cancelled : Bool) (n : Nat) (e : Engine) : List UInt8 :=
  if e.host.stopped then []
  else
    match e.opening cancelled with
    | .inl g => g.spoken signals n
    | .inr _ => []

/-- The writer has been given `text`. It holds nothing back if the machine waits for input, or goes
on behind a newline. -/
structure Voiced {α : Type} (text : List UInt8) (e : Engine) (r : Outcome α × Engine) : Prop where
  given : Writer.Given text e.host.output r.2.host.output
  suspended : r.1 = .failed .suspended → r.2.host.output.Flushed
  newline : ∀ a, r.1 = .done a → text = [10] → r.2.host.output.Flushed

theorem Composed.voiced {α : Type} {manner : Manner} {x : Action Engine α}
    (hx : Composed False False manner x) (e : Engine) : Voiced [] e (x e) := by
  have habstains := hx.abstains e
  refine ⟨?_, fun h => absurd h (habstains.not_suspended id), nofun⟩
  rw [habstains.output_eq id]
  exact Writer.Given.refl _

def withOutput (e : Engine) (output : Writer) : Engine :=
  { e with host := { e.host with output } }

theorem onWriter_of_none {activity : String} {f : Writer → Option Fault × Writer} {w : Writer}
    (h : f e.host.output = (none, w)) : onWriter activity f e = (.done (), e.withOutput w) := by
  simp only [onWriter, h, withOutput]

theorem onWriter_of_some {activity : String} {f : Writer → Option Fault × Writer} {w : Writer}
    {fault : Fault} (h : f e.host.output = (some fault, w)) :
    onWriter activity f e = (.failed (fault.during activity), e.withOutput w) := by
  simp only [onWriter, h, withOutput]

theorem flush_of_none {w : Writer} (h : e.host.output.flush = (none, w)) :
    flush e = (.done (), e.withOutput w) := onWriter_of_none h

theorem flush_of_some {w : Writer} {fault : Fault} (h : e.host.output.flush = (some fault, w)) :
    flush e = (.failed (fault.during "flushing output"), e.withOutput w) := onWriter_of_some h

theorem voiced_serveHalt {left : Exit} (h : Reason.ofCode? left.reason = some .halt) :
    Voiced left.speech e (serveHalt left e) := by
  unfold serveHalt
  split
  · rename_i hnormal
    have hsilent : left.speech = [] := by simp only [Exit.speech, h, if_pos hnormal]
    rw [hsilent]
    exact ⟨Writer.Given.refl _, nofun, nofun⟩
  · rename_i habnormal
    have hspeech : left.speech =
        ("\n" ++ (Fault.halt left.value1 left.value2).message ++ "\n").toUTF8.toList := by
      simp only [Exit.speech, h, if_neg habnormal]
    dsimp only
    rw [← hspeech]
    have hgiven := Writer.given_write left.speech e.host.output
    rcases hw : Writer.write left.speech e.host.output with ⟨_ | fault, w⟩ <;> rw [hw] at hgiven
    · rw [Action.bind_done (onWriter_of_none hw)]
      exact ⟨hgiven, nofun, nofun⟩
    · rw [Action.bind_failed (onWriter_of_some hw)]
      exact ⟨hgiven, nofun, nofun⟩

theorem voiced_serveOutput {left : Exit} (h : Reason.ofCode? left.reason = some .output) :
    Voiced left.speech e (serveOutput left e) := by
  have hspeech : left.speech = [left.value1.toUInt8] := by simp only [Exit.speech, h]
  rw [hspeech]
  unfold serveOutput
  dsimp only
  have hgiven := e.host.output.given_writeByte left.value1.toUInt8
  rcases hw : e.host.output.writeByte left.value1.toUInt8 with ⟨_ | fault, w⟩ <;> rw [hw] at hgiven
  · rw [Action.bind_done (onWriter_of_none hw)]
    by_cases hnewline : left.value1.toUInt8 = 10
    · rw [if_pos hnewline]
      have hflush := hgiven.trans w.given_flush
      have hflushed := w.flushed_flush
      rcases hf : w.flush with ⟨_ | fault, w'⟩ <;> rw [hf] at hflush hflushed
      · rw [Action.bind_done (flush_of_none hf)]
        exact ⟨hflush, nofun, fun _ _ _ => hflushed rfl⟩
      · rw [Action.bind_failed (flush_of_some hf)]
        exact ⟨hflush, nofun, nofun⟩
    · rw [if_neg hnewline]
      exact ⟨hgiven, nofun, fun _ _ htext => absurd (List.head_eq_of_cons_eq htext) hnewline⟩
  · rw [Action.bind_failed (onWriter_of_some hw)]
    exact ⟨hgiven, nofun, nofun⟩

/-- What is read makes no difference to the output. -/
theorem output_serveInput (left : Exit) (e : Engine) :
    (serveInput left e).2.host.output = e.host.output.flush.2 := by
  have hserve : (serveInput left).wp (fun _ e' => e'.host.output = e.host.output.flush.2)
      (fun e' => e'.host.output = e.host.output.flush.2) e := by
    apply wp_serveInput_of_forall
    rcases hf : e.host.output.flush with ⟨_ | fault, w⟩
    · rw [Action.wp, flush_of_none hf]
      exact ⟨fun _ _ => rfl, fun _ => rfl, fun _ _ _ => rfl⟩
    · rw [Action.wp, flush_of_some hf]
      rfl
  exact hserve.snd

theorem voiced_serveInput {left : Exit} (h : Reason.ofCode? left.reason = some .input) :
    Voiced left.speech e (serveInput left e) := by
  have hspeech : left.speech = [] := by simp only [Exit.speech, h]
  rw [hspeech]
  refine ⟨?_, fun hsuspended => ?_, nofun⟩
  · rw [output_serveInput]
    exact e.host.output.given_flush
  · rw [output_serveInput]
    apply Writer.flushed_flush
    -- when the flush fails, it is that fault that ends the run
    rcases hf : e.host.output.flush with ⟨_ | fault, w⟩
    · rfl
    · rw [serveInput, Action.bind_failed (flush_of_some hf)] at hsuspended
      cases hsuspended

theorem voiced_serveReason {left : Exit} {reason : Reason}
    (h : Reason.ofCode? left.reason = some reason) (e : Engine) :
    Voiced left.speech e (serveReason reason left e) := by
  have hsilent (hstreams : ¬ (reason = .halt ∨ reason = .output ∨ reason = .input))
      (hspeech : left.speech = []) : Voiced left.speech e (serveReason reason left e) := by
    rw [hspeech]
    exact (composed_serveReason (fun hinput => hstreams (.inr (.inr hinput))) hstreams left).voiced e
  cases reason with
  | halt => exact voiced_serveHalt h
  | output => exact voiced_serveOutput h
  | input => exact voiced_serveInput h
  | allocation => exact hsilent (by decide) (by simp only [Exit.speech, h])
  | abandonment => exact hsilent (by decide) (by simp only [Exit.speech, h])
  | loadProgram => exact hsilent (by decide) (by simp only [Exit.speech, h])
  | recompile => exact hsilent (by decide) (by simp only [Exit.speech, h])
  | fault => exact hsilent (by decide) (by simp only [Exit.speech, h])
  | interrupt => exact hsilent (by decide) (by simp only [Exit.speech, h])

variable {text text' : List UInt8} {w w' : Writer} {r : Moment ⊕ RunResult}

def Told (text : List UInt8) (w : Writer) : Moment ⊕ RunResult → Prop
  | .inl g => Writer.Given text w g.host.output
  | .inr (outcome, e) => Writer.Given text w e.host.output ∧
      (outcome = some (.failed .suspended) → e.host.output.Flushed)

theorem Told.trans (h : Writer.Given text w w') (h' : Told text' w' r) :
    Told (text ++ text') w r := by
  rcases r with g | ⟨outcome, e⟩
  · exact h.trans h'
  · exact ⟨h.trans h'.1, h'.2⟩

theorem told_conclude {outcome : Outcome Unit} (h : Writer.Given text w e.host.output)
    (hflushed : outcome = .failed .suspended → e.host.output.Flushed) :
    Told text w (.inr (conclude outcome e)) := by
  have hkeeps : (conclude outcome e).2.host.output = e.host.output := by
    rcases snd_conclude outcome e with hsnd | hsnd
    · rw [hsnd]
    · rw [hsnd]
      rfl
  change Writer.Given _ _ (conclude outcome e).2.host.output ∧
    ((conclude outcome e).1 = _ → (conclude outcome e).2.host.output.Flushed)
  rw [hkeeps, fst_conclude]
  exact ⟨h, fun heq => hflushed (Option.some.inj heq)⟩

namespace Moment

theorem speech_of_looking (h : g.looking = true) : g.speech interrupted = [] := by
  simp [speech, exit?, h]

theorem speech_of_exit {m : Machine} {left : Exit} (hl : g.looking = false)
    (hstep : g.machine.step interrupted g.pc = .exit m left) :
    g.speech interrupted = left.speech := by
  rw [speech, exit?_eq_some_iff.mpr ⟨hl, hstep⟩]

theorem told_tick (ht : g.Tick interrupted r) : Told (g.speech interrupted) g.host.output r := by
  cases ht with
  | canceled hl =>
    rw [speech_of_looking hl]
    exact told_conclude (Writer.Given.refl _) nofun
  | looked cancelled hl =>
    rw [speech_of_looking hl]
    exact Writer.Given.refl _
  | stepped cancelled hl hstep =>
    have hsilent : g.speech interrupted = [] := by simp [speech, exit?, hl, hstep]
    rw [hsilent]
    exact Writer.Given.refl _
  | crashed hl hstep =>
    have hsilent : g.speech interrupted = [] := by simp [speech, exit?, hl, hstep]
    rw [hsilent]
    exact told_conclude (Writer.Given.refl _) nofun
  | unknown message hl hstep hreason =>
    have hsilent : g.speech interrupted = [] := by
      rw [speech_of_exit hl hstep, Exit.speech, hreason]
    rw [hsilent]
    exact told_conclude (Writer.Given.refl _) nofun
  | @returned m left reason cancelled hl hstep hreason =>
    rw [speech_of_exit hl hstep]
    have hvoiced := voiced_serveReason hreason ⟨m, g.host⟩
    rcases hserve : serveReason reason left ⟨m, g.host⟩ with ⟨(_ | pc) | fault | crash, e'⟩ <;>
      rw [hserve] at hvoiced
    · exact told_conclude hvoiced.given nofun
    · exact hvoiced.given
    · refine told_conclude hvoiced.given fun heq => hvoiced.suspended ?_
      cases heq
      rfl
    · exact told_conclude hvoiced.given nofun

/-- All through a run the writer is given what the machine says. -/
theorem told_after (signals : Signals) (n : Nat) (g : Moment) :
    Told (g.spoken signals n) g.host.output (g.after signals n) := by
  induction n generalizing g with
  | zero => exact Writer.Given.refl _
  | succ n ih =>
    have htick := told_tick (tick_next signals g)
    rw [spoken, after]
    cases hnext : g.next signals with
    | inl g' =>
      rw [hnext] at htick
      exact Told.trans htick (ih g')
    | inr result =>
      rw [hnext] at htick
      dsimp only
      rwa [List.append_nil]

end Moment

/-- A new run takes no notice of an old cancellation. -/
theorem given_renew (h : Host) : Writer.Given [] h.output h.renew.output := by
  refine ⟨fun before hw => ?_, fun _ => ⟨rfl, rfl⟩⟩
  rw [List.append_nil]
  exact ⟨hw.keeps, hw.start, hw.emitted_eq, hw.fault_iff⟩

theorem told_course (h : e.host.stopped = false) (signals : Signals) (cancelled : Bool) (n : Nat) :
    Told (e.said signals cancelled n) e.host.output (e.course signals cancelled n) := by
  have hopening : Told [] e.host.output (e.opening cancelled) := by
    have hprepare : Abstains False False { e with host := e.host.renew } _ :=
      composed_prepare.abstains _
    have hfault := hprepare.not_suspended id
    have hgiven : Writer.Given [] e.host.output
        (prepare { e with host := e.host.renew }).2.host.output := by
      rw [hprepare.output_eq id]
      exact given_renew e.host
    rcases opening_cases cancelled e with
      ⟨m, host, co, hp, -, ho⟩ | ⟨e', hp, -, ho⟩ | ⟨outcome, e', -, hp, ho⟩ <;>
      rw [hp] at hgiven hfault <;> rw [ho]
    · exact hgiven
    · exact told_conclude hgiven (by rintro ⟨⟩)
    · exact told_conclude hgiven fun hsuspended => absurd hsuspended hfault
  simp only [said, h, Bool.false_eq_true, if_false, course]
  cases ho : e.opening cancelled with
  | inl g =>
    rw [ho] at hopening
    exact Told.trans hopening (Moment.told_after signals n g)
  | inr result =>
    rw [ho] at hopening
    exact hopening

/-- The last flush of a run. -/
theorem Told.finish {outcome : Option (Outcome Unit)} (h : Told text w (.inr (outcome, e))) :
    Writer.Given text w (finish (outcome, e)).2.host.output ∧
      ((finish (outcome, e)).1 = some (.done ()) ∨
        (finish (outcome, e)).1 = some (.failed .suspended) →
        (finish (outcome, e)).2.host.output.Flushed) := by
  obtain ⟨hgiven, hflushed⟩ := h
  cases outcome with
  | none => exact ⟨hgiven, nofun⟩
  | some outcome =>
    have hgiven' := hgiven.trans e.host.output.given_flush
    rw [List.append_nil] at hgiven'
    have hempty := e.host.output.flushed_flush
    unfold Engine.finish
    dsimp only
    rcases hf : e.host.output.flush with ⟨_ | fault, w'⟩ <;> rw [hf] at hgiven' hempty
    · rw [flush_of_none hf]
      cases outcome <;> exact ⟨hgiven', fun _ => hempty rfl⟩
    · rw [flush_of_some hf]
      cases outcome with
      | done _ => exact ⟨hgiven', nofun⟩
      | crashed crash => exact ⟨hgiven', nofun⟩
      | failed reason =>
        refine ⟨hgiven', fun hend => ?_⟩
        -- a suspended run has nothing left to flush
        have hsuspended : some (Outcome.failed reason : Outcome Unit) = some (.failed .suspended) :=
          hend.resolve_left nofun
        rw [(hflushed hsuspended).flush_eq] at hf
        cases hf

theorem given_run (e : Engine) (signals : Signals) (cancelled : Bool) (fuel : Nat) :
    Writer.Given (e.said signals cancelled fuel) e.host.output
        (e.run signals cancelled fuel).2.host.output ∧
      ((e.run signals cancelled fuel).1 = some (.done ()) ∨
        (e.run signals cancelled fuel).1 = some (.failed .suspended) →
        (e.run signals cancelled fuel).2.host.output.Flushed) := by
  cases hstopped : e.host.stopped with
  | true =>
    simp only [said, run, hstopped, if_true]
    refine ⟨Writer.Given.refl _, fun hend => ?_⟩
    rcases hend with hend | hend <;> cases hend
  | false =>
    have hcourse := told_course hstopped signals cancelled fuel
    rw [run_eq_finish_course hstopped]
    rcases hr : e.course signals cancelled fuel with g | ⟨outcome, e'⟩ <;> rw [hr] at hcourse
    · refine ⟨hcourse, fun hend => ?_⟩
      rcases hend with hend | hend <;> cases hend
    · exact hcourse.finish

namespace Moment

end Moment

theorem new_output {program : Array Platter} {config : EngineConfig}
    (h : (new program config).1 = .done ()) :
    (new program config).2.host.output = ⟨config.output, #[], none⟩ :=
  ((wp_start_quiet program).of_done h).output_eq

theorem restore_output {s : MachineState} {config : EngineConfig}
    (h : (restore s config).1 = .done ()) :
    (restore s config).2.host.output = ⟨config.output, #[], none⟩ := by
  obtain ⟨program, top, heq⟩ := restore_eq_resume h
  rw [heq] at h ⊢
  exact ((wp_resume_quiet s program top).of_done h).output_eq

/-- The engine was made with `sink` as its output, and `text` is what its machine has said over all
its runs. A run is taken at any of its ticks, and memory that is shared changes as others use it. -/
inductive Speaks (sink : Sink) : Engine → List UInt8 → Prop
  | new {program : Array Platter} {config : EngineConfig} (hsink : config.output = sink)
      (hdone : (new program config).1 = .done ()) : Speaks sink (new program config).2 []
  | restore {s : MachineState} {config : EngineConfig} (hsink : config.output = sink)
      (hdone : (restore s config).1 = .done ()) : Speaks sink (restore s config).2 []
  | run {e : Engine} {text : List UInt8} (signals : Signals) (cancelled : Bool) (fuel : Nat)
      (h : Speaks sink e text) :
      Speaks sink (e.run signals cancelled fuel).2 (text ++ e.said signals cancelled fuel)
  | supply {e : Engine} {text : List UInt8} (input : Reader) (h : Speaks sink e text) :
      Speaks sink { e with host := { e.host with input } } text
  | share {e : Engine} {text : List UInt8} (memory : Memory) (h : Speaks sink e text) :
      Speaks sink (e.withMemory memory) text
  | close {e : Engine} {text : List UInt8} (h : Speaks sink e text) : Speaks sink (close e).2 text

theorem Speaks.delivers {sink : Sink} (hsink : sink.Fresh) (h : Speaks sink e text) :
    e.host.output.Delivers text := by
  induction h with
  | new hout hdone =>
    rw [new_output hdone, hout]
    exact Writer.delivers_of_fresh hsink
  | restore hout hdone =>
    rw [restore_output hdone, hout]
    exact Writer.delivers_of_fresh hsink
  | run signals cancelled fuel _ ih => exact (given_run _ signals cancelled fuel).1.delivers _ ih
  | supply input _ ih => exact ih
  | share memory _ ih => exact ih
  | close _ ih =>
    rw [(quiet_close _).output_eq]
    exact ih

end Engine

end PlatterMachine
