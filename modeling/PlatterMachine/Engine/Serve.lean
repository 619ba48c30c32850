import PlatterMachine.Engine.Basic

/-!
# Serving returns to the host

What the host does when execution leaves the code: `Engine.serve` gives the address to resume at, or
none when the machine has halted normally.
-/

namespace PlatterMachine.Engine

@[inline] def onReader {α : Type} (f : Reader → α × Reader) : Action Engine α := fun e =>
  let (a, input) := f e.host.input
  (.done a, { e with host := { e.host with input } })

/-- Works on the output; a fault names the activity. -/
@[inline] def onWriter (activity : String) (f : Writer → Option Fault × Writer) :
    Action Engine Unit := fun e =>
  let (fault, output) := f e.host.output
  (match fault with
    | some fault => .failed (fault.during activity)
    | none => .done (),
    { e with host := { e.host with output } })

def flush : Action Engine Unit := onWriter "flushing output" Writer.flush

def serveHalt (exit : Exit) : Action Engine (Option UInt32) := do
  if exit.value1 = Halt.normal then pure none
  else
    let fault : Fault := .halt exit.value1 exit.value2
    onWriter "writing halt diagnostic" (Writer.write ("\n" ++ fault.message ++ "\n").toUTF8.toList)
    Action.fail fault

def serveOutput (exit : Exit) : Action Engine (Option UInt32) := do
  let b := exit.value1.toUInt8
  onWriter "writing output" (·.writeByte b)
  if b = 10 then flush
  pure (some exit.resume)

/-- Stops at the end of input; the next run starts at the input instruction again. -/
def suspend (exit : Exit) : Action Engine (Option UInt32) := do
  match ← Action.read (·.machine.running.code) with
  | none => Action.crash .outOfRange
  | some co =>
    let finger ← Action.ofExcept (co.fingerFor exit.resume)
    onHost fun h => { h with finger }
    note (.suspended finger)
    Action.fail .suspended

def serveInput (exit : Exit) : Action Engine (Option UInt32) := do
  flush
  match ← onReader Reader.readByte with
  | .ok b =>
    onMachine (·.setSlot slotAcc b.toUInt32)
    pure (some exit.resume)
  | .error fault =>
    if fault.isEndOfInput then
      if ← Action.read (·.host.suspendOnEnd) then suspend exit
      else
        onMachine (·.setSlot slotAcc 0xFFFFFFFF)
        pure (some exit.resume)
    else Action.fail (fault.during "reading input")

def serveRecompile (exit : Exit) : Action Engine (Option UInt32) := do
  match ← Action.read (·.machine.running.code) with
  | none => Action.crash .outOfRange
  | some co =>
    let finger ← Action.ofExcept (co.fingerFor exit.resume)
    regenerate .running
    count fun s => { s with recompiles := s.recompiles + 1 }
    note (.recompiled finger)
    match ← Action.read (·.machine.running.code) with
    | none => Action.crash .outOfRange
    | some co => pure (some (co.entry finger))

def serveFault (exit : Exit) : Action Engine (Option UInt32) := do
  match ← Action.read (·.machine.lookup exit.value1) with
  | none => Action.fail (.invalidIndex "access to unallocated array" exit.value1)
  | some _ =>
    Action.fail (.invalidIndex s!"offset beyond array {exit.value1.toNat}" exit.value2)

def serveReason (reason : Reason) (exit : Exit) : Action Engine (Option UInt32) :=
  match reason with
  | .halt => serveHalt exit
  | .allocation => do
    let handle ← allocate exit.value1
    onMachine (·.setSlot slotAcc handle)
    pure (some exit.resume)
  | .abandonment => do
    abandon exit.value1
    pure (some exit.resume)
  | .output => serveOutput exit
  | .input => serveInput exit
  | .loadProgram => do
    let pc ← loadProgram exit.value1 exit.value2
    pure (some pc)
  | .recompile => serveRecompile exit
  | .fault => serveFault exit
  | .interrupt => pure (some exit.resume)

def serve (exit : Exit) : Action Engine (Option UInt32) :=
  match Reason.ofCode? exit.reason with
  | some reason => serveReason reason exit
  | none => Action.crash .outOfRange

end PlatterMachine.Engine
