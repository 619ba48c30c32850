import PlatterMachine.Engine.Exec
import PlatterMachine.Log.Record
import PlatterMachine.Stream.Writer

/-!
# Engines

An engine is a machine together with what the host keeps for it: the memory its buffers come from,
its input and output, and the bookkeeping of handles and of code. An array that is loaded as the
program lends its code to the copy that runs; it is then the donor, and gets the code back when the
next program is loaded, unless either of the two was written in between.
-/

namespace PlatterMachine

inductive EngineEvent where
  | regenerated (platters bytes : Nat)
  | recompiled (finger : UInt32)
  | suspended (finger : UInt32)
  | abandonedRunning
  | returnedCode (platters : Nat)
  | loaded (source finger : UInt32) (platters : Nat)
  deriving DecidableEq, Repr

namespace EngineEvent

def message : EngineEvent → String
  | regenerated _ _ => "regenerated code"
  | recompiled _ => "recompiled running array"
  | suspended _ => "suspended on end of input"
  | abandonedRunning => "abandoned array 0 while running"
  | returnedCode _ => "returned code to donor"
  | loaded _ _ _ => "loaded program"

def attrs : EngineEvent → List (String × LogValue)
  | regenerated platters bytes => [("platters", .number platters), ("bytes", .number bytes)]
  | recompiled finger => [("finger", .number finger.toNat)]
  | suspended finger => [("finger", .number finger.toNat)]
  | abandonedRunning => []
  | returnedCode platters => [("platters", .number platters)]
  | loaded source finger platters =>
    [("source", .number source.toNat), ("finger", .number finger.toNat),
      ("platters", .number platters)]

def record (event : EngineEvent) : LogRecord := ⟨.debug, event.message, event.attrs⟩

end EngineEvent

structure EngineStats where
  regenerations : Nat := 0
  recompiles : Nat := 0
  transfers : Nat := 0
  loads : Nat := 0
  allocations : Nat := 0
  abandonments : Nat := 0
  deriving DecidableEq, Repr

def EngineStats.fields (s : EngineStats) : List (String × Nat) :=
  [("Regenerations", s.regenerations), ("Recompiles", s.recompiles), ("Transfers", s.transfers),
    ("Loads", s.loads), ("Allocations", s.allocations), ("Abandonments", s.abandonments)]

structure Host where
  /-- Every handle from 1 up to this one, which is excluded, is live. -/
  minFree : Nat := 1
  /-- The array that last gave its code to the running program, by its index among the others. -/
  donor : Option Nat := none
  finger : UInt32 := 0
  memory : Memory
  /-- Whether the memory is returned when the engine is closed. -/
  ownsMemory : Bool
  input : Reader
  output : Writer
  logs : Bool
  events : Array EngineEvent := #[]
  /-- Whether a run stops at the end of input, to be continued later. -/
  suspendOnEnd : Bool
  /-- Whether the engine can no longer run. -/
  stopped : Bool := false
  /-- Whether the arrays are gone. -/
  closed : Bool := true
  stats : EngineStats := {}

structure Engine where
  machine : Machine
  host : Host

structure EngineConfig where
  input : Reader := ⟨⟨[], false⟩, []⟩
  output : Sink := { discards := true }
  /-- Memory to share; without it the engine has its own. -/
  memory : Option Memory := none
  suspendOnEnd : Bool := false
  logs : Bool := false

namespace PlatterArray

/-- An array without words. -/
def empty : PlatterArray := ⟨#[], .empty, false, none⟩

def releaseCode (a : PlatterArray) : Action Memory Unit :=
  match a.code with
  | some co => co.release
  | none => pure ()

def release (a : PlatterArray) : Action Memory Unit := do
  a.releaseCode
  Memory.inPlatters (Arena.release a.buffer)

end PlatterArray

namespace Engine

/-- An engine without a program. -/
def blank (config : EngineConfig) : Engine where
  machine := ⟨Vector.replicate fileSize 0, .empty, false, #[]⟩
  host :=
    { memory := config.memory.getD .mapped
      ownsMemory := config.memory.isNone
      input := config.input
      output := ⟨config.output, #[], none⟩
      logs := config.logs
      suspendOnEnd := config.suspendOnEnd }

@[inline] def inMemory {α : Type} (x : Action Memory α) : Action Engine α :=
  x.within (·.host.memory) fun m e => { e with host := { e.host with memory := m } }

@[inline] def onMachine (f : Machine → Machine) : Action Engine Unit :=
  Action.modify fun e => { e with machine := f e.machine }

@[inline] def onHost (f : Host → Host) : Action Engine Unit :=
  Action.modify fun e => { e with host := f e.host }

@[inline] def count (f : EngineStats → EngineStats) : Action Engine Unit :=
  onHost fun h => { h with stats := f h.stats }

def note (event : EngineEvent) : Action Engine Unit :=
  onHost fun h => if h.logs then { h with events := h.events.push event } else h

/-- The arrays, each once, in the order of their handles. -/
def arrays (e : Engine) : List PlatterArray :=
  let others := (e.machine.others.filterMap id).toList
  if e.host.closed then []
  else if e.machine.zeroLive then e.machine.running :: others
  else others ++ [e.machine.running]

def tableSize (e : Engine) : Nat :=
  if e.host.closed then 0 else e.machine.others.size + 1

def close : Action Engine Unit := do
  let arrays ← Action.read arrays
  inMemory (arrays.forM PlatterArray.release)
  onMachine fun m => { m with running := .empty, zeroLive := false, others := #[] }
  onHost fun h => { h with donor := none, stopped := true, closed := true }
  if ← Action.read (·.host.ownsMemory) then
    let fault ← fun e =>
      let (fault, memory) := e.host.memory.close
      (.done fault, { e with host := { e.host with memory } })
    match fault with
    | some fault => Action.fail fault
    | none => pure ()

def start (program : Array Platter) : Action Engine Unit := do
  let buffer ←
    ((inMemory (Memory.inPlatters (Arena.alloc program.size false))).cleaningUp close).during
      "allocating array 0"
  onMachine fun m =>
    { m with running := ⟨program, buffer, false, none⟩, zeroLive := true, others := #[] }
  onHost fun h => { h with closed := false }

def new (program : Array Platter) (config : EngineConfig) : Outcome Unit × Engine :=
  start program (blank config)

/-- Gives a fresh code object to an array. When that is the running array, its code no longer is the
donor's. -/
def regenerate (place : Place) : Action Engine Unit := do
  match ← Action.read (·.machine.array? place) with
  | none => Action.crash .outOfRange
  | some a =>
    inMemory a.releaseCode
    onMachine (·.modifyArray place fun a => { a with code := none })
    let co ← (inMemory (CodeObject.generate a.words)).during "generating code"
    onMachine (·.modifyArray place fun a => { a with code := some co, dirty := false })
    if place = .running then onHost fun h => { h with donor := none }
    count fun s => { s with regenerations := s.regenerations + 1 }
    note (.regenerated a.words.size co.code.size)

/-- The least handle from `h` on that is not live, for `h` at least 1. -/
def freeHandle (others : Array (Option PlatterArray)) : (fuel h : Nat) → Nat
  | 0, h => h
  | fuel + 1, h =>
    match others[h - 1]? with
    | some (some _) => freeHandle others fuel (h + 1)
    | _ => h

/-- Makes an array of `size` zeros under the least free handle. -/
def allocate (size : UInt32) : Action Engine UInt32 := do
  let buffer ← (inMemory (Memory.inPlatters (Arena.alloc size.toNat true))).during
    s!"allocating {size.toNat} platters"
  if ← Action.read (·.host.closed) then Action.crash .outOfRange
  let handle ← Action.read fun e =>
    freeHandle e.machine.others e.machine.others.size e.host.minFree
  onMachine (·.setOther handle (some ⟨Array.replicate size.toNat 0, buffer, false, none⟩))
  onHost fun h => { h with minFree := handle + 1 }
  count fun s => { s with allocations := s.allocations + 1 }
  pure (UInt32.ofNat handle)

/-- Destroys the array with the given handle. Abandoning handle 0 leaves the program running. -/
def abandon (handle : UInt32) : Action Engine Unit := do
  match ← Action.read (·.machine.place? handle) with
  | none => Action.fail (.invalidIndex "abandonment of unallocated array" handle)
  | some .running =>
    onMachine fun m => { m with zeroLive := false }
    note .abandonedRunning
  | some (.other i) =>
    let a ← Action.read (·.machine.array? (.other i))
    onMachine (·.setOther (i + 1) none)
    onHost fun h => { h with donor := if h.donor = some i then none else h.donor }
    inMemory ((a.getD .empty).release)
    onHost fun h => { h with minFree := min h.minFree (i + 1) }
  count fun s => { s with abandonments := s.abandonments + 1 }

/-- The donor that the running code goes back to: both are as they were when it was lent. -/
def returnTarget? (e : Engine) : Option Nat := do
  let i ← e.host.donor
  let donor ← e.machine.array? (.other i)
  let running := e.machine.running
  if donor.code.isNone && !donor.dirty && !running.dirty && running.code.isSome then some i
  else none

def returnCode : Action Engine Unit := do
  match ← Action.read returnTarget? with
  | none => pure ()
  | some i =>
    let code ← Action.read (·.machine.running.code)
    onMachine (·.modifyArray .running fun a => { a with code := none })
    onMachine (·.modifyArray (.other i) fun a => { a with code })
    count fun s => { s with transfers := s.transfers + 1 }
    note (.returnedCode
      (← Action.read fun e => ((e.machine.array? (.other i)).getD .empty).words.size))

/-- Replaces the program by a copy of the source array, which becomes the donor, and gives the
address of `finger` in it. -/
def loadProgram (source finger : UInt32) : Action Engine UInt32 := do
  if source = 0 then
    Action.fail (.invalidIndex "load-program from array 0 reached the host" source)
  match ← Action.read (·.machine.lookup source) with
  | none => Action.fail (.invalidIndex "load-program from unallocated array" source)
  | some src =>
    if src.words.size ≤ finger.toNat then
      Action.fail (.invalidIndex "program finger beyond loaded array" finger)
    let place : Place := .other (source.toNat - 1)
    returnCode
    let src := (← Action.read (·.machine.array? place)).getD src
    if src.code.isNone || src.dirty then regenerate place
    let buffer ← (inMemory (Memory.inPlatters (Arena.alloc src.words.size false))).during
      "copying program"
    let previous ← Action.read (·.machine.running)
    inMemory previous.release
    let code ← Action.read fun e => ((e.machine.array? place).getD src).code
    onMachine (·.modifyArray place fun a => { a with code := none })
    onMachine fun m => { m with running := ⟨src.words, buffer, false, code⟩, zeroLive := true }
    onHost fun h => { h with donor := some (source.toNat - 1) }
    count fun s => { s with loads := s.loads + 1 }
    note (.loaded source finger src.words.size)
    match code with
    | some co => pure (co.entry finger)
    | none => Action.crash .outOfRange

def setCode (code : Array UInt8) (table : Array UInt32) (guard : UInt32) :
    Action Engine Unit := do
  if ← Action.read (·.host.closed) then Action.crash .outOfRange
  let previous ← Action.read (·.machine.running)
  inMemory previous.releaseCode
  onMachine (·.modifyArray .running fun a => { a with code := none })
  let co ← inMemory (CodeObject.install code table guard)
  onMachine (·.modifyArray .running fun a => { a with code := some co, dirty := false })

/-- The events recorded so far, which the engine then forgets. -/
def drainEvents (e : Engine) : List EngineEvent × Engine :=
  (e.host.events.toList, { e with host := { e.host with events := #[] } })

end Engine

end PlatterMachine
