import PlatterMachine.Fault

/-!
# Byte sinks

A sink accepts writes, numbered from 0, and remembers them one by one. It may refuse all writes from
some number on, accept one of them only in part, and cancel the run at one of them.
-/

namespace PlatterMachine

structure Sink where
  /-- The first write that is refused. -/
  failAt : Option Nat := none
  /-- How many bytes of a refused write are accepted all the same. -/
  failTakes : Nat := 0
  /-- The write that is cut short without being refused. -/
  shortAt : Option Nat := none
  /-- How many bytes are then accepted, which are never all of them; half of them if not given. -/
  shortTakes : Option Nat := none
  cancelAt : Option Nat := none
  discards : Bool := false
  /-- Writes made so far, refused ones included. -/
  writes : Nat := 0
  accepted : Array (List UInt8) := #[]
  cancelled : Bool := false
  deriving DecidableEq

namespace Sink

def refuses (s : Sink) : Bool := s.failAt.any (· ≤ s.writes)

def taken (s : Sink) (bytes : List UInt8) : List UInt8 :=
  if s.refuses then bytes.take s.failTakes
  else if s.shortAt = some s.writes then
    bytes.take (min (s.shortTakes.getD (bytes.length / 2)) (bytes.length - 1))
  else bytes

def counted (s : Sink) : Sink :=
  { s with writes := s.writes + 1, cancelled := s.cancelled || s.cancelAt == some s.writes }

def remember (s : Sink) (bytes : List UInt8) : Sink :=
  if s.discards then s else { s with accepted := s.accepted.push bytes }

/-- A write of all of `bytes`: how many were accepted, and the fault if it was refused. A refused
write of which nothing is accepted is not remembered. -/
def write (s : Sink) (bytes : List UInt8) : (Nat × Option Fault) × Sink :=
  (((s.taken bytes).length, if s.refuses then some (.plain "disk full") else none),
    if s.refuses && (s.taken bytes).isEmpty then s.counted else s.counted.remember (s.taken bytes))

/-- The writes accepted so far, which the sink then forgets. -/
def drain (s : Sink) : List (List UInt8) × Sink :=
  (s.accepted.toList, { s with accepted := #[] })

end Sink

end PlatterMachine
