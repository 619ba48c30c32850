import PlatterMachine.Fault

/-!
# Actions

An action works on a state and ends in one of three ways: done with a value, failed with a fault, or
crashed. What it had changed by then stays, however it ends.
-/

namespace PlatterMachine

/-- A broken internal assumption. -/
inductive Crash where
  /-- A check of the program's own failed. -/
  | broken (message : String)
  /-- Something outside its bounds, or missing, was touched. -/
  | outOfRange
  deriving DecidableEq, Repr

inductive Outcome (α : Type) where
  | done (value : α)
  | failed (fault : Fault)
  | crashed (crash : Crash)
  deriving DecidableEq, Repr

namespace Outcome

variable {α β : Type}

def during (activity : String) : Outcome α → Outcome α
  | failed fault => failed (fault.during activity)
  | o => o

@[inline] protected def bind (o : Outcome α) (f : α → Outcome β) : Outcome β :=
  match o with
  | done a => f a
  | failed fault => failed fault
  | crashed crash => crashed crash

instance : Monad Outcome where
  pure := done
  bind := Outcome.bind

end Outcome

def Action (σ α : Type) : Type := σ → Outcome α × σ

namespace Action

variable {σ τ α β : Type}

@[inline] protected def pure (a : α) : Action σ α := fun s => (.done a, s)

@[inline] protected def bind (x : Action σ α) (f : α → Action σ β) : Action σ β := fun s =>
  match x s with
  | (.done a, s) => f a s
  | (.failed fault, s) => (.failed fault, s)
  | (.crashed crash, s) => (.crashed crash, s)

instance : Monad (Action σ) where
  pure := Action.pure
  bind := Action.bind

@[inline] def read (f : σ → α) : Action σ α := fun s => (.done (f s), s)

@[inline] def modify (f : σ → σ) : Action σ Unit := fun s => (.done (), f s)

@[inline] def fail (fault : Fault) : Action σ α := fun s => (.failed fault, s)

@[inline] def crash (crash : Crash) : Action σ α := fun s => (.crashed crash, s)

/-- An outcome that does not touch the state. -/
@[inline] def ofOutcome (o : Outcome α) : Action σ α := fun s => (o, s)

def ofExcept (r : Except Fault α) : Action σ α := fun s =>
  match r with
  | .ok a => (.done a, s)
  | .error fault => (.failed fault, s)

/-- Cleans up after a failure of `x`, which stays the fault. -/
def cleaningUp (x : Action σ α) (cleanup : Action σ Unit) : Action σ α := fun s =>
  match x s with
  | (.failed fault, s) => (cleanup.bind fun _ => fail fault) s
  | r => r

def orElse (x : Action σ α) (a : α) : Action σ α := fun s =>
  match x s with
  | (.failed _, s) => (.done a, s)
  | r => r

@[inline] def during (activity : String) (x : Action σ α) : Action σ α := fun s =>
  let (o, s) := x s
  (o.during activity, s)

@[inline] def within (get : σ → τ) (set : τ → σ → σ) (x : Action τ α) : Action σ α := fun s =>
  let (o, t) := x (get s)
  (o, set t s)

end Action

end PlatterMachine
