import PlatterMachine.Engine.Run
import PlatterMachine.Proofs.Action

/-!
# How the operations of an engine are composed

Every operation of an engine is made of a few kinds of steps. It looks at the engine, changes machine
or host, works in memory or on a stream, fails or crashes. Up to some point it may fail, but leaves
registers, words and handles alone; from there on it may change them, but does not fail any more.

So each operation is taken apart once, and what is said of all of them is proved by induction on how
they are composed.
-/

namespace PlatterMachine

namespace Action

variable {σ τ α β : Type} {x : Action σ α} {f : α → Action σ β}

def Unfailing (x : Action σ α) : Prop := ∀ s fault, (x s).1 ≠ .failed fault

theorem Unfailing.bind (hx : x.Unfailing) (hf : ∀ a, (f a).Unfailing) : (x >>= f).Unfailing := by
  intro s fault
  rcases h : x s with ⟨a | fault' | crash, t⟩
  · rw [bind_done h]
    exact hf a t fault
  · have hfault := hx s fault'
    rw [h] at hfault
    exact absurd rfl hfault
  · rw [bind_crashed h]
    exact nofun

theorem Unfailing.within {get : τ → σ} {set : σ → τ → τ} (hx : x.Unfailing) :
    (x.within get set).Unfailing := fun t fault => hx (get t) fault

theorem fail_bind (fault : Fault) (f : α → Action σ β) :
    (Action.fail fault >>= f) = Action.fail fault := rfl

theorem crash_bind (crash : Crash) (f : α → Action σ β) :
    (Action.crash crash >>= f) = Action.crash crash := rfl

end Action

theorem Arena.unfailing_release {α : Type} [Element α] (b : Buffer) :
    (release b : Action (Arena α) Unit).Unfailing := by
  intro a fault
  unfold release
  split
  · exact nofun
  · split
    · split <;> exact nofun
    · split
      · split <;> exact nofun
      · exact nofun

theorem PlatterArray.unfailing_releaseCode (a : PlatterArray) : a.releaseCode.Unfailing := by
  unfold releaseCode
  split
  · unfold CodeObject.release
    exact (Arena.unfailing_release _).within.bind fun _ => (Arena.unfailing_release _).within
  · exact fun _ _ => nofun

theorem PlatterArray.unfailing_release (a : PlatterArray) : a.release.Unfailing :=
  a.unfailing_releaseCode.bind fun _ => (Arena.unfailing_release _).within

theorem CodeObject.fingerFor_ne_suspended {co : CodeObject} {addr : UInt32} {fault : Fault}
    (h : co.fingerFor addr = .error fault) : fault ≠ .suspended := by
  unfold fingerFor at h
  dsimp only at h
  split at h
  · cases h
    exact nofun
  · split at h
    · cases h
      exact nofun
    · cases h

inductive Writer.Use : (Writer → Option Fault × Writer) → Prop
  | flush : Use flush
  | byte (b : UInt8) : Use (·.writeByte b)
  | bytes (text : List UInt8) : Use (write text)

namespace Engine

/-- What an action may do besides working in memory: a careful one may fail, a settled one may change
registers, words and handles, and a staged one is careful first and settled from then on. -/
inductive Manner where
  | plain (settled : Bool)
  | staged

namespace Manner

abbrev careful : Manner := plain false

abbrev settled : Manner := plain true

end Manner

variable {α β : Type}

/-- The action is composed of steps of the given manner. It uses the input only if `reads`, and the
output only if `writes`. -/
inductive Composed (reads writes : Prop) : Manner → {α : Type} → Action Engine α → Prop
  | value {settled : Bool} {α : Type} (a : α) : Composed reads writes (.plain settled) (pure a)
  | look {settled : Bool} {α : Type} {g : Engine → α}
      (hg : ∀ m h input output logs events, g ⟨m, { h with input, output, logs, events }⟩ = g ⟨m, h⟩) :
      Composed reads writes (.plain settled) (Action.read g)
  | crash {settled : Bool} {α : Type} (crash : Crash) :
      Composed reads writes (.plain settled) (Action.crash crash : Action Engine α)
  | fail {α : Type} {fault : Fault} (h : fault = .suspended → reads) :
      Composed reads writes .careful (Action.fail fault : Action Engine α)
  | machine (g : Machine → Machine) : Composed reads writes .settled (onMachine g)
  | array {settled : Bool} (place : Place) {g : PlatterArray → PlatterArray}
      (hg : ∀ a, (g a).words = a.words) :
      Composed reads writes (.plain settled) (onMachine (·.modifyArray place g))
  | scratch (v : UInt32) : Composed reads writes .careful (onMachine (·.setSlot slotAcc v))
  | host {settled : Bool} {g : Host → Host}
      (hg : ∀ h input output logs events,
        g { h with input, output, logs, events } = { g h with input, output, logs, events })
      (hclosed : ∀ h, (g h).closed = h.closed) : Composed reads writes (.plain settled) (onHost g)
  | note {settled : Bool} (event : EngineEvent) :
      Composed reads writes (.plain settled) (note event)
  | memory {settled : Bool} {α : Type} {y : Action Memory α} (hy : y.Unfailing) :
      Composed reads writes (.plain settled) (inMemory y)
  | request {α : Type} (y : Action Memory α) (activity : String) :
      Composed reads writes .careful ((inMemory y).during activity)
  | input (h : reads) : Composed reads writes .careful (onReader Reader.readByte)
  | output (h : writes) (activity : String) {g : Writer → Option Fault × Writer} (hg : Writer.Use g) :
      Composed reads writes .careful (onWriter activity g)
  | bind {settled : Bool} {α β : Type} {x : Action Engine α} {f : α → Action Engine β}
      (hx : Composed reads writes (.plain settled) x)
      (hf : ∀ a, Composed reads writes (.plain settled) (f a)) :
      Composed reads writes (.plain settled) (x >>= f)
  | whole {settled : Bool} {α : Type} {x : Action Engine α}
      (hx : Composed reads writes (.plain settled) x) : Composed reads writes .staged x
  | first {α β : Type} {x : Action Engine α} {f : α → Action Engine β}
      (hx : Composed reads writes .careful x) (hf : ∀ a, Composed reads writes .staged (f a)) :
      Composed reads writes .staged (x >>= f)
  | last {α β : Type} {x : Action Engine α} {f : α → Action Engine β}
      (hx : Composed reads writes .staged x) (hf : ∀ a, Composed reads writes .settled (f a)) :
      Composed reads writes .staged (x >>= f)

variable {reads writes : Prop} {settled : Bool}

theorem Composed.settle {x : Action Engine α} (hx : Composed reads writes .settled x) :
    Composed reads writes .staged x := .whole hx

theorem Composed.count (g : EngineStats → EngineStats) :
    Composed reads writes (.plain settled) (count g) :=
  .host (fun _ _ _ _ _ => rfl) fun _ => rfl

theorem Composed.ofExcept {r : Except Fault α} (h : ∀ fault, r = .error fault → fault ≠ .suspended) :
    Composed reads writes .careful (Action.ofExcept r) := by
  cases r with
  | ok a => exact .value a
  | error fault => exact .fail fun hsuspended => absurd hsuspended (h fault rfl)

theorem composed_regenerate (place : Place) :
    Composed reads writes .careful (regenerate place) := by
  unfold regenerate
  refine .bind (.look fun _ _ _ _ _ _ => rfl) fun found => ?_
  cases found with
  | none => exact .crash _
  | some a =>
    refine .bind (.memory a.unfailing_releaseCode) fun _ => ?_
    refine .bind (.array place fun _ => rfl) fun _ => .bind (.request _ _) fun co => ?_
    refine .bind (.array place fun _ => rfl) fun _ => ?_
    dsimp only
    split
    · exact .bind (.host (fun _ _ _ _ _ => rfl) fun _ => rfl) fun _ =>
        .bind (.count _) fun _ => .note _
    · exact .bind (.count _) fun _ => .note _

theorem composed_allocate (size : UInt32) : Composed reads writes .staged (allocate size) := by
  unfold allocate
  refine .first (.request _ _) fun buffer => .first (.look fun _ _ _ _ _ _ => rfl) fun closed => ?_
  dsimp only
  split
  · rw [Action.crash_bind]
    exact .settle (.crash _)
  · refine .settle (.bind (.look fun _ _ _ _ _ _ => rfl) fun _ => .bind (.machine _) fun _ => ?_)
    exact .bind (.host (fun _ _ _ _ _ => rfl) fun _ => rfl) fun _ => .bind (.count _) fun _ =>
      .value _

theorem composed_abandon (handle : UInt32) : Composed reads writes .staged (abandon handle) := by
  unfold abandon
  refine .first (.look fun _ _ _ _ _ _ => rfl) fun place => ?_
  dsimp only
  split
  · rw [Action.fail_bind]
    exact .whole (.fail nofun)
  · exact .settle (.bind (.machine _) fun _ => .bind (.note _) fun _ => .count _)
  · refine .settle (.bind (.look fun _ _ _ _ _ _ => rfl) fun a => .bind (.machine _) fun _ => ?_)
    refine .bind (.host (fun _ _ _ _ _ => rfl) fun _ => rfl) fun _ => ?_
    refine .bind (.memory (PlatterArray.unfailing_release _)) fun _ => ?_
    exact .bind (.host (fun _ _ _ _ _ => rfl) fun _ => rfl) fun _ => .count _

theorem composed_returnCode : Composed reads writes .careful returnCode := by
  unfold returnCode
  refine .bind (.look fun _ _ _ _ _ _ => rfl) fun target => ?_
  cases target with
  | none => exact .value ()
  | some i =>
    refine .bind (.look fun _ _ _ _ _ _ => rfl) fun code => ?_
    refine .bind (.array .running fun _ => rfl) fun _ => ?_
    refine .bind (.array (.other i) fun _ => rfl) fun _ => .bind (.count _) fun _ => ?_
    exact .bind (.look fun _ _ _ _ _ _ => rfl) fun _ => .note _

theorem composed_loadProgram (source finger : UInt32) :
    Composed reads writes .staged (loadProgram source finger) := by
  unfold loadProgram
  dsimp only
  split
  · rw [Action.fail_bind]
    exact .whole (.fail nofun)
  refine .first (.look fun _ _ _ _ _ _ => rfl) fun found => ?_
  split
  · exact .whole (.fail nofun)
  rename_i src
  split
  · rw [Action.fail_bind]
    exact .whole (.fail nofun)
  refine .first composed_returnCode fun _ => .first (.look fun _ _ _ _ _ _ => rfl) fun again => ?_
  -- the program is copied in the same way whether it had to be compiled or not
  split
  any_goals refine .first (composed_regenerate _) fun _ => ?_
  all_goals
    refine .first (.request _ _) fun buffer => .settle ?_
    refine .bind (.look fun _ _ _ _ _ _ => rfl) fun previous => ?_
    refine .bind (.memory previous.unfailing_release) fun _ => ?_
    refine .bind (.look fun _ _ _ _ _ _ => rfl) fun code => .bind (.machine _) fun _ => ?_
    refine .bind (.machine _) fun _ => .bind (.host (fun _ _ _ _ _ => rfl) fun _ => rfl) fun _ => ?_
    refine .bind (.count _) fun _ => .bind (.note _) fun _ => ?_
    cases code with
    | none => exact .crash _
    | some co => exact .value _

theorem composed_prepare : Composed reads writes .careful prepare := by
  unfold prepare
  refine .bind (.look fun _ _ _ _ _ _ => rfl) fun stale => ?_
  split
  · exact composed_regenerate _
  · exact .value ()

theorem composed_flush (h : writes) : Composed reads writes .careful flush := .output h _ .flush

theorem composed_serveHalt (h : writes) (left : Exit) :
    Composed reads writes .careful (serveHalt left) := by
  unfold serveHalt
  split
  · exact .value none
  · exact .bind (.output h _ (.bytes _)) fun _ => .fail nofun

theorem composed_serveOutput (h : writes) (left : Exit) :
    Composed reads writes .careful (serveOutput left) := by
  unfold serveOutput
  refine .bind (.output h _ (.byte _)) fun _ => ?_
  dsimp only
  split
  · exact .bind (composed_flush h) fun _ => .value _
  · exact .value _

theorem composed_suspend (h : reads) (left : Exit) :
    Composed reads writes .careful (suspend left) := by
  unfold suspend
  refine .bind (.look fun _ _ _ _ _ _ => rfl) fun code => ?_
  cases code with
  | none => exact .crash _
  | some co =>
    refine .bind (.ofExcept fun fault hfault => co.fingerFor_ne_suspended hfault) fun finger => ?_
    exact .bind (.host (fun _ _ _ _ _ => rfl) fun _ => rfl) fun _ => .bind (.note _) fun _ =>
      .fail fun _ => h

theorem composed_serveInput (hreads : reads) (hwrites : writes) (left : Exit) :
    Composed reads writes .careful (serveInput left) := by
  unfold serveInput
  refine .bind (composed_flush hwrites) fun _ => .bind (.input hreads) fun read => ?_
  cases read with
  | ok b => exact .bind (.scratch _) fun _ => .value _
  | error fault =>
    dsimp only
    split
    · refine .bind (.look fun _ _ _ _ _ _ => rfl) fun suspends => ?_
      split
      · exact composed_suspend hreads left
      · exact .bind (.scratch _) fun _ => .value _
    · exact .fail fun _ => hreads

theorem composed_serveRecompile (left : Exit) :
    Composed reads writes .careful (serveRecompile left) := by
  unfold serveRecompile
  refine .bind (.look fun _ _ _ _ _ _ => rfl) fun code => ?_
  cases code with
  | none => exact .crash _
  | some co =>
    refine .bind (.ofExcept fun fault hfault => co.fingerFor_ne_suspended hfault) fun finger => ?_
    refine .bind (composed_regenerate _) fun _ => .bind (.count _) fun _ => .bind (.note _) fun _ => ?_
    refine .bind (.look fun _ _ _ _ _ _ => rfl) fun code' => ?_
    cases code' with
    | none => exact .crash _
    | some co' => exact .value _

theorem composed_serveFault (left : Exit) : Composed reads writes .careful (serveFault left) := by
  unfold serveFault
  refine .bind (.look fun _ _ _ _ _ _ => rfl) fun found => ?_
  cases found with
  | none => exact .fail nofun
  | some _ => exact .fail nofun

theorem composed_serveReason {reason : Reason} (hreads : reason = .input → reads)
    (hwrites : reason = .halt ∨ reason = .output ∨ reason = .input → writes) (left : Exit) :
    Composed reads writes .staged (serveReason reason left) := by
  cases reason with
  | halt => exact .whole (composed_serveHalt (hwrites (.inl rfl)) left)
  | allocation =>
    exact .last (composed_allocate _) fun _ => .bind (.machine _) fun _ => .value _
  | abandonment => exact .last (composed_abandon _) fun _ => .value _
  | output => exact .whole (composed_serveOutput (hwrites (.inr (.inl rfl))) left)
  | input => exact .whole (composed_serveInput (hreads rfl) (hwrites (.inr (.inr rfl))) left)
  | loadProgram => exact .last (composed_loadProgram _ _) fun _ => .value _
  | recompile => exact .whole (composed_serveRecompile left)
  | fault => exact .whole (composed_serveFault left)
  | interrupt => exact .settle (.value _)

end Engine

end PlatterMachine
