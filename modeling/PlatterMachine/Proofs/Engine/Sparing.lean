import PlatterMachine.Proofs.Engine.Committing
import PlatterMachine.Proofs.Engine.Speech

/-!
# Operations that fail spare the machine

An operation of the engine that fails has changed code, memory and scratch slots at most, never
registers, words or handles: what it has to do before it can fail does not show, and what shows is
done where nothing can fail any more.
-/

namespace PlatterMachine

theorem Action.bind_ne_done {σ α β : Type} {x : Action σ α} {f : α → Action σ β} {b : β}
    (hf : ∀ a t, (f a t).1 ≠ .done b) (s : σ) : ((x >>= f) s).1 ≠ .done b := by
  rcases hx : x s with ⟨a | fault | crash, t⟩
  · rw [bind_done hx]
    exact hf a t
  · rw [bind_failed hx]
    nofun
  · rw [bind_crashed hx]
    nofun

namespace Engine

variable {e e' e'' : Engine} {α β : Type}

structure Untouched (e e' : Engine) : Prop where
  contents_eq : e'.machine.contents = e.machine.contents
  closed_eq : e'.host.closed = e.host.closed

theorem Untouched.refl (e : Engine) : e.Untouched e := ⟨rfl, rfl⟩

theorem Untouched.trans (h : e.Untouched e') (h' : e'.Untouched e'') : e.Untouched e'' :=
  ⟨h'.contents_eq.trans h.contents_eq, h'.closed_eq.trans h.closed_eq⟩

def Harmless (x : Action Engine α) : Prop := ∀ e : Engine, e.Untouched (x e).2

/-- Where it fails, the action leaves registers and arrays as they were. -/
def Sparing (x : Action Engine α) : Prop :=
  ∀ (e : Engine) fault e', x e = (.failed fault, e') → e.Untouched e'

variable {x : Action Engine α} {f : α → Action Engine β}

theorem Harmless.bind (hx : Harmless x) (hf : ∀ a, Harmless (f a)) : Harmless (x >>= f) :=
  Action.rel_snd_bind (r := Untouched) .trans hx hf

theorem Harmless.sparing (hx : Harmless x) : Sparing x := by
  intro e fault e' h
  have hsnd := hx e
  rw [h] at hsnd
  exact hsnd

/-- What does no harm may come before anything that spares the machine. -/
theorem Harmless.bind_sparing (hx : Harmless x) (hf : ∀ a, Sparing (f a)) :
    Sparing (x >>= f) := by
  intro e fault e' h
  have hfirst := hx e
  rcases hx' : x e with ⟨a | fault₁ | crash, e₁⟩ <;> rw [hx'] at hfirst
  · rw [Action.bind_done hx'] at h
    exact hfirst.trans (hf a e₁ fault e' h)
  · rw [Action.bind_failed hx'] at h
    cases h
    exact hfirst
  · rw [Action.bind_crashed hx'] at h
    cases h

/-- Behind what can fail, anything may be done that cannot. -/
theorem Sparing.bind_unfailing (hx : Sparing x) (hf : ∀ a, (f a).Unfailing) :
    Sparing (x >>= f) := by
  intro e fault e' h
  rcases hx' : x e with ⟨a | fault₁ | crash, e₁⟩
  · rw [Action.bind_done hx'] at h
    exact absurd (congrArg Prod.fst h) (hf a e₁ fault)
  · rw [Action.bind_failed hx'] at h
    cases h
    exact hx e fault _ hx'
  · rw [Action.bind_crashed hx'] at h
    cases h

theorem sparing_of_unfailing (hx : x.Unfailing) : Sparing x := by
  intro e fault e' h
  exact absurd (congrArg Prod.fst h) (hx e fault)

def Manner.Spares : Manner → Action Engine α → Prop
  | .plain false, x => Harmless x
  | .plain true, x => x.Unfailing
  | .staged, x => Sparing x

theorem Manner.spares_plain {settled : Bool} (hx : Harmless x) (hx' : x.Unfailing) :
    (plain settled).Spares x := by
  cases settled with
  | false => exact hx
  | true => exact hx'

theorem harmless_modifyArray (place : Place) {g : PlatterArray → PlatterArray}
    (hg : ∀ a, (g a).words = a.words) : Harmless (onMachine (·.modifyArray place g)) :=
  fun e => ⟨e.machine.contents_modifyArray place hg, rfl⟩

theorem harmless_note (event : EngineEvent) : Harmless (note event) := by
  intro e
  rw [note_apply]
  exact ⟨rfl, rfl⟩

theorem Composed.spares {reads writes : Prop} {manner : Manner}
    (h : Composed reads writes manner x) : manner.Spares x := by
  induction h with
  | value a => exact Manner.spares_plain (fun e => .refl e) fun _ _ => nofun
  | look _ => exact Manner.spares_plain (fun e => .refl e) fun _ _ => nofun
  | crash crash => exact Manner.spares_plain (fun e => .refl e) fun _ _ => nofun
  | fail _ => exact fun e => .refl e
  | machine g => exact fun _ _ => nofun
  | array place hg => exact Manner.spares_plain (harmless_modifyArray place hg) fun _ _ => nofun
  | scratch v => exact fun e => ⟨e.machine.contents_setSlot (by decide) v, rfl⟩
  | host _ hclosed => exact Manner.spares_plain (fun e => ⟨rfl, hclosed e.host⟩) fun _ _ => nofun
  | note event => exact Manner.spares_plain (harmless_note event) fun _ _ => nofun
  | memory hy => exact Manner.spares_plain (fun _ => ⟨rfl, rfl⟩) hy.within
  | request y activity => exact fun _ => ⟨rfl, rfl⟩
  | input _ => exact fun _ => ⟨rfl, rfl⟩
  | output _ activity _ => exact fun _ => ⟨rfl, rfl⟩
  | @bind settled _ _ _ _ _ _ hx hf =>
    cases settled with
    | false => exact Harmless.bind hx hf
    | true => exact Action.Unfailing.bind hx hf
  | @whole settled _ _ _ hx =>
    cases settled with
    | false => exact Harmless.sparing hx
    | true => exact sparing_of_unfailing hx
  | first _ _ hx hf => exact Harmless.bind_sparing hx hf
  | last _ _ hx hf => exact Sparing.bind_unfailing hx hf

theorem harmless_of_composed (h : Composed True True .careful x) : Harmless x := h.spares

/-- No return to the host leaves a trace when it cannot be served. -/
theorem sparing_serveReason (reason : Reason) (left : Exit) : Sparing (serveReason reason left) :=
  (composed_serveReason (fun _ => trivial) (fun _ => trivial) left :
    Composed True True .staged _).spares

/-- A run that comes to a normal end leaves the machine alone, too. -/
theorem untouched_of_halted {reason : Reason} {left : Exit}
    (h : serveReason reason left e = (.done none, e')) : e.Untouched e' := by
  have hharmless (hx : Composed True True .careful (serveReason reason left)) :
      e.Untouched e' := by
    have hsnd := harmless_of_composed hx e
    rwa [h] at hsnd
  -- after what gives handles or the program a new meaning, execution goes on
  have hgoes (hx : (serveReason reason left e).1 ≠ .done none) : e.Untouched e' :=
    absurd (congrArg Prod.fst h) hx
  cases reason with
  | halt => exact hharmless (composed_serveHalt trivial left)
  | allocation => exact hgoes (Action.bind_ne_done (fun _ _ => by rintro ⟨⟩) e)
  | abandonment => exact hgoes (Action.bind_ne_done (fun _ _ => by rintro ⟨⟩) e)
  | output => exact hharmless (composed_serveOutput trivial left)
  | input => exact hharmless (composed_serveInput trivial trivial left)
  | loadProgram => exact hgoes (Action.bind_ne_done (fun _ _ => by rintro ⟨⟩) e)
  | recompile => exact hharmless (composed_serveRecompile left)
  | fault => exact hharmless (composed_serveFault left)
  | interrupt => exact hharmless (.value _)

end Engine

end PlatterMachine
