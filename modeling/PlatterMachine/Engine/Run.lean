import PlatterMachine.Engine.Serve

/-!
# Running

A run alternates between stretches of generated code and the host. A cancelled run stops at the next
return to the host; so that every loop meets one, jumps return when they see the cancellation.

Time is counted in ticks, one for every host instruction and every look at the cancellation.
-/

namespace PlatterMachine

/-- When a run is cancelled from outside, and when its code gets to see a cancellation. -/
structure Signals where
  cancels : Nat → Bool
  /-- Whether a jump at the given tick sees that the run has been cancelled. -/
  shows : Nat → Bool

namespace Signals

def none : Signals := ⟨fun _ => false, fun _ => true⟩

def cancelAt (tick : Nat) : Signals := ⟨(tick ≤ ·), fun _ => true⟩

end Signals

namespace Host

def cancelled (h : Host) : Bool := h.input.source.cancelled || h.output.sink.cancelled

def renew (h : Host) : Host :=
  { h with
    input := { h.input with source := { h.input.source with cancelled := false } }
    output := { h.output with sink := { h.output.sink with cancelled := false } } }

end Host

namespace Engine

/-- The end of a run, or none if it needs more ticks. -/
abbrev RunResult := Option (Outcome Unit) × Engine

def stop (e : Engine) : Engine := { e with host := { e.host with stopped := true } }

def conclude (outcome : Outcome Unit) (e : Engine) : RunResult :=
  match outcome with
  | .done () => (some outcome, e.stop)
  | .failed fault => (some outcome, if fault.isSuspended then e else e.stop)
  | .crashed _ => (some outcome, e)

/-- Runs for at most `fuel` ticks. With `looking` set the cancellation is looked at before the code
at `pc` goes on. -/
def loop (signals : Signals) : (fuel tick : Nat) → (cancelled looking : Bool) → Machine → Host →
    (pc : UInt32) → RunResult
  | 0, _, _, _, m, h, _ => (none, ⟨m, h⟩)
  | fuel + 1, tick, cancelled, looking, m, h, pc =>
    let cancelled := cancelled || signals.cancels tick
    if looking then
      if cancelled || h.cancelled then conclude (.failed .canceled) ⟨m, h⟩
      else loop signals fuel (tick + 1) cancelled false m h pc
    else
      match m.step (cancelled && signals.shows tick) pc with
      | .next m pc => loop signals fuel (tick + 1) cancelled false m h pc
      | .crash m crash => conclude (.crashed crash) ⟨m, h⟩
      | .exit m exit =>
        match Reason.ofCode? exit.reason with
        | none =>
          conclude (.failed (.plain ("um: unexpected return reason " ++ Reason.nameOf exit.reason)))
            ⟨m, h⟩
        | some reason =>
          match serveReason reason exit ⟨m, h⟩ with
          | (.done (some pc), ⟨m, h⟩) => loop signals fuel (tick + 1) cancelled true m h pc
          | (.done Option.none, e) => conclude (.done ()) e
          | (.failed fault, e) => conclude (.failed fault) e
          | (.crashed crash, e) => conclude (.crashed crash) e

/-- Compiles the program if its code is missing or stale. -/
def prepare : Action Engine Unit := do
  if ← Action.read fun e => e.machine.running.code.isNone || e.machine.running.dirty then
    regenerate .running

/-- Flushes the output at the end of a run, which may turn success into failure. -/
def finish : RunResult → RunResult
  | (none, e) => (none, e)
  | (some outcome, e) =>
    match flush e, outcome with
    | (.failed fault, e), .done () => (some (.failed fault), e)
    | (_, e), _ => (some outcome, e)

/-- Runs until the machine halts, fails or suspends, for at most `fuel` ticks. A normal halt is
success; an abnormal one writes a diagnostic line. After a suspension the engine can run again. -/
def run (signals : Signals) (cancelled : Bool) (fuel : Nat) (e : Engine) : RunResult :=
  if e.host.stopped then (some (.failed .stopped), e)
  else
    match prepare { e with host := e.host.renew } with
    | (.done (), ⟨m, h⟩) =>
      match m.running.code with
      | some co =>
        let pc := co.entry h.finger
        finish (loop signals fuel 0 cancelled true m h pc)
      | none => finish (conclude (.crashed .outOfRange) ⟨m, h⟩)
    | (.failed fault, e) => finish (conclude (.failed fault) e)
    | (.crashed crash, e) => finish (conclude (.crashed crash) e)

end Engine

end PlatterMachine
