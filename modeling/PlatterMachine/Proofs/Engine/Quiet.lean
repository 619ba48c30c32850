import PlatterMachine.Proofs.Engine.Composition
import PlatterMachine.Proofs.Engine.Operations

/-!
# Operations that leave the streams alone

What an engine does with memory, code and arrays touches neither its input nor its output, however it
ends, and it is never the reason why a machine waits for input.
-/

namespace PlatterMachine

namespace Engine

variable {e : Engine} {α β : Type}

structure Quiet (e e' : Engine) : Prop where
  input_eq : e'.host.input = e.host.input
  output_eq : e'.host.output = e.host.output

/-- What has come of an action at `e` that reads only if `reads` and writes only if `writes`. -/
structure Abstains (reads writes : Prop) (e : Engine) (r : Outcome α × Engine) : Prop where
  input_eq : ¬ reads → r.2.host.input = e.host.input
  output_eq : ¬ writes → r.2.host.output = e.host.output
  /-- It is by reading that a machine comes to wait for input. -/
  not_suspended : ¬ reads → r.1 ≠ .failed .suspended

variable {reads writes : Prop} {x : Action Engine α} {f : α → Action Engine β}

theorem Abstains.bind (hx : ∀ e, Abstains reads writes e (x e))
    (hf : ∀ a e, Abstains reads writes e (f a e)) (e : Engine) :
    Abstains reads writes e ((x >>= f) e) := by
  have hfirst := hx e
  rcases h : x e with ⟨a | fault | crash, e'⟩ <;> rw [h] at hfirst
  · rw [Action.bind_done h]
    have hrest := hf a e'
    exact ⟨fun hr => (hrest.input_eq hr).trans (hfirst.input_eq hr),
      fun hw => (hrest.output_eq hw).trans (hfirst.output_eq hw), hrest.not_suspended⟩
  · rw [Action.bind_failed h]
    refine ⟨hfirst.input_eq, hfirst.output_eq, fun hr hsuspended => ?_⟩
    cases hsuspended
    exact hfirst.not_suspended hr rfl
  · rw [Action.bind_crashed h]
    exact ⟨hfirst.input_eq, hfirst.output_eq, fun _ => nofun⟩

theorem Composed.abstains {manner : Manner} (h : Composed reads writes manner x) (e : Engine) :
    Abstains reads writes e (x e) := by
  induction h generalizing e with
  | value a => exact ⟨fun _ => rfl, fun _ => rfl, fun _ => nofun⟩
  | look _ => exact ⟨fun _ => rfl, fun _ => rfl, fun _ => nofun⟩
  | crash crash => exact ⟨fun _ => rfl, fun _ => rfl, fun _ => nofun⟩
  | fail hfault =>
    refine ⟨fun _ => rfl, fun _ => rfl, fun hr hsuspended => hr (hfault ?_)⟩
    cases hsuspended
    rfl
  | machine g => exact ⟨fun _ => rfl, fun _ => rfl, fun _ => nofun⟩
  | array place _ => exact ⟨fun _ => rfl, fun _ => rfl, fun _ => nofun⟩
  | scratch v => exact ⟨fun _ => rfl, fun _ => rfl, fun _ => nofun⟩
  | @host _ g hg _ =>
    have hself := hg e.host e.host.input e.host.output e.host.logs e.host.events
    refine ⟨fun _ => ?_, fun _ => ?_, fun _ => nofun⟩
    · change (g e.host).input = e.host.input
      rw [hself]
    · change (g e.host).output = e.host.output
      rw [hself]
  | note event =>
    rw [note_apply]
    exact ⟨fun _ => rfl, fun _ => rfl, fun _ => nofun⟩
  | memory hy => exact ⟨fun _ => rfl, fun _ => rfl, fun _ => hy e.host.memory .suspended⟩
  | request y activity =>
    -- a fault that names its activity is not the wait for input
    refine ⟨fun _ => rfl, fun _ => rfl, fun _ => ?_⟩
    change (y e.host.memory).1.during activity ≠ _
    cases (y e.host.memory).1 <;> exact nofun
  | input hr => exact ⟨fun h => absurd hr h, fun _ => rfl, fun h => absurd hr h⟩
  | @output hw activity g _ =>
    refine ⟨fun _ => rfl, fun h => absurd hw h, fun _ => ?_⟩
    rcases h : g e.host.output with ⟨_ | fault, w⟩ <;> simp only [onWriter, h] <;> exact nofun
  | bind _ _ hx hf => exact .bind hx hf e
  | whole _ hx => exact hx e
  | first _ _ hx hf => exact .bind hx hf e
  | last _ _ hx hf => exact .bind hx hf e

/-- Giving everything back leaves the streams alone, also where it fails. -/
theorem quiet_close (e : Engine) : e.Quiet (close e).2 := by
  obtain ⟨memory, hclose | hclose⟩ := e.snd_close
  · rw [hclose]
    exact ⟨rfl, rfl⟩
  · rw [hclose]
    exact ⟨rfl, rfl⟩

theorem wp_start_quiet (program : Array Platter) :
    (start program).wp (fun _ => e.Quiet) (fun _ => True) e :=
  wp_start_of_forall fun _ _ => ⟨rfl, rfl⟩

theorem wp_resume_quiet (s : MachineState) (program : Array Platter) (top : Nat) :
    (resume s program top).wp (fun _ => e.Quiet) (fun _ => True) e :=
  wp_resume_of_forall (P := e.Quiet) (fun _ _ => ⟨rfl, rfl⟩)
    (fun _ _ _ _ _ h => ⟨h.input_eq, h.output_eq⟩) fun _ h => ⟨h.input_eq, h.output_eq⟩

end Engine

end PlatterMachine
