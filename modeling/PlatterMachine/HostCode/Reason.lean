/-!
# Reasons for a return to the host

Generated code returns to the host with the code of a reason when it needs the host to act.
-/

namespace PlatterMachine

inductive Reason where
  /-- The first value is the kind of halt, the second the offending word. -/
  | halt
  /-- The first value is the size wanted; the handle goes back in the accumulator. -/
  | allocation
  /-- The first value is a handle. -/
  | abandonment
  /-- The first value holds a byte. -/
  | output
  /-- A byte, or all ones at the end of input, goes back in the accumulator. -/
  | input
  /-- The values are the source handle and the finger. -/
  | loadProgram
  /-- A slot of the running array was amended and is now to be executed. -/
  | recompile
  /-- The values are the handle and offset of a bad array access. -/
  | fault
  /-- The run was cancelled during a jump. -/
  | interrupt
  deriving DecidableEq, Repr

namespace Reason

def code : Reason → UInt8
  | halt => 1
  | allocation => 2
  | abandonment => 3
  | output => 4
  | input => 5
  | loadProgram => 6
  | recompile => 7
  | fault => 8
  | interrupt => 9

def all : List Reason :=
  [halt, allocation, abandonment, output, input, loadProgram, recompile, fault, interrupt]

def ofCode? (n : UInt8) : Option Reason :=
  if n = 0 then none else all[n.toNat - 1]?

def name : Reason → String
  | halt => "halt"
  | allocation => "allocation"
  | abandonment => "abandonment"
  | output => "output"
  | input => "input"
  | loadProgram => "load-program"
  | recompile => "recompile"
  | fault => "fault"
  | interrupt => "interrupt"

def nameOf (n : UInt8) : String :=
  match ofCode? n with
  | some reason => reason.name
  | none => "reason(" ++ toString n.toNat ++ ")"

theorem ofCode?_code (reason : Reason) : ofCode? reason.code = some reason := by
  cases reason <;> rfl

end Reason

end PlatterMachine
