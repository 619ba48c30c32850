import PlatterMachine.Text.Basic

/-!
# Faults

A fault tells why an operation did not succeed. Faults may wrap one another: the message reads from
the outside in, and the kind of a fault is a question about its whole chain of causes. Why a machine
halts is the number that generated code hands to the host.
-/

namespace PlatterMachine

namespace Halt

def normal : UInt32 := 0

def invalidOperator : UInt32 := 1

def outOfBounds : UInt32 := 2

def divisionByZero : UInt32 := 3

/-- The text of an abnormal halt; only an invalid operator shows its word. -/
def message (reason word : UInt32) : String :=
  if reason = invalidOperator then "Invalid operator: 0x" ++ Hex.number 8 word.toNat
  else if reason = outOfBounds then "Execution beyond array length"
  else if reason = divisionByZero then "Division by zero"
  else "Unexpected halt code: 0x" ++ Hex.number 1 reason.toNat

end Halt

inductive Wrapping where
  | context
  | format
  | resource
  deriving DecidableEq, Repr

inductive Fault where
  | plain (message : String)
  | endOfInput
  /-- Input that ends within something. -/
  | unexpectedEnd
  | format (message : String)
  | resource (message : String)
  /-- A handle, offset or finger that does not exist. -/
  | invalidIndex (message : String) (index : UInt32)
  | halt (reason word : UInt32)
  /-- The machine waits for input. -/
  | suspended
  | stopped
  | canceled
  | snapshotMissing
  | wrapped (wrapping : Wrapping) (message : String) (cause : Fault)
  deriving DecidableEq, Repr

namespace Fault

def message : Fault → String
  | plain text => text
  | endOfInput => "EOF"
  | unexpectedEnd => "unexpected EOF"
  | format text => text
  | resource text => text
  | invalidIndex text index => text ++ ": " ++ toString index.toNat
  | halt reason word => Halt.message reason word
  | suspended => "machine suspended waiting for input"
  | stopped => "um: engine already stopped"
  | canceled => "context canceled"
  | snapshotMissing => "snapshot not found"
  | wrapped _ text cause => text ++ ": " ++ cause.message

def chain : Fault → List Fault
  | wrapped w text cause => wrapped w text cause :: cause.chain
  | f => [f]

def cause? : Fault → Option Fault
  | wrapped _ _ cause => some cause
  | _ => none

def isFormat (f : Fault) : Bool :=
  f.chain.any fun
    | format _ | wrapped .format _ _ => true
    | _ => false

def isResource (f : Fault) : Bool :=
  f.chain.any fun
    | resource _ | wrapped .resource _ _ => true
    | _ => false

def index? (f : Fault) : Option UInt32 :=
  f.chain.findSome? fun
    | invalidIndex _ index => some index
    | _ => none

def isInvalidIndex (f : Fault) : Bool := f.index?.isSome

def halt? (f : Fault) : Option (UInt32 × UInt32) :=
  f.chain.findSome? fun
    | halt reason word => some (reason, word)
    | _ => none

def isEndOfInput (f : Fault) : Bool := f.chain.contains endOfInput

def isUnexpectedEnd (f : Fault) : Bool := f.chain.contains unexpectedEnd

def isSuspended (f : Fault) : Bool := f.chain.contains suspended

def midway (f : Fault) : Fault := if f = endOfInput then unexpectedEnd else f

def during (f : Fault) (activity : String) : Fault := wrapped .context activity f

theorem message_during (f : Fault) (activity : String) :
    (f.during activity).message = activity ++ ": " ++ f.message := rfl

end Fault

end PlatterMachine
