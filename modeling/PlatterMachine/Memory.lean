import PlatterMachine.Arena.Basic

/-!
# Memory

The three arenas that an engine's buffers come from: platters, code bytes and jump-table slots.
-/

namespace PlatterMachine

structure Memory where
  platters : Arena UInt32
  code : Arena UInt8
  slots : Arena UInt32

namespace Memory

def ofSources (platters code slots : BlockSource) : Memory :=
  ⟨.new platters, .new code, .new slots⟩

def mapped : Memory := ofSources .mapped .mapped .mapped

@[inline] def inPlatters {α : Type} (x : Action (Arena UInt32) α) : Action Memory α :=
  x.within (·.platters) fun a m => { m with platters := a }

@[inline] def inCode {α : Type} (x : Action (Arena UInt8) α) : Action Memory α :=
  x.within (·.code) fun a m => { m with code := a }

@[inline] def inSlots {α : Type} (x : Action (Arena UInt32) α) : Action Memory α :=
  x.within (·.slots) fun a m => { m with slots := a }

/-- Returns every block of the three arenas; the faults are reported together, one a line. -/
def close (m : Memory) : Option Fault × Memory :=
  let (f₁, platters) := m.platters.close
  let (f₂, code) := m.code.close
  let (f₃, slots) := m.slots.close
  let fault :=
    match [f₁, f₂, f₃].filterMap id with
    | [] => none
    | [f] => some f
    | fs => some (.plain ("\n".intercalate (fs.map Fault.message)))
  (fault, ⟨platters, code, slots⟩)

end Memory

end PlatterMachine
