import PlatterMachine.Proofs.Engine.Operations

/-!
# What a program can see of its engine

The picture of an engine leaves out code, donor, memory, events and statistics. Compiling an array
and giving code back to a donor do not change the picture; the other operations change it as the
instructions that they serve ask for.
-/

namespace PlatterMachine

structure Picture where
  file : Vector UInt32 fileSize
  program : Array Platter
  zeroLive : Bool
  others : Array (Option (Array Platter))
  minFree : Nat
  finger : UInt32
  input : Reader
  output : Writer
  suspendOnEnd : Bool
  stopped : Bool
  closed : Bool

namespace Machine

variable {m : Machine}

def otherWords (m : Machine) : Array (Option (Array Platter)) :=
  m.others.map (Option.map PlatterArray.words)

@[simp] theorem size_otherWords (m : Machine) : m.otherWords.size = m.others.size := by
  simp [otherWords]

theorem join_getElem?_otherWords (m : Machine) (i : Nat) :
    m.otherWords[i]?.join = (m.array? (.other i)).map PlatterArray.words := by
  rw [otherWords, Array.getElem?_map, array?_other]
  rcases m.others[i]? with _ | _ | a <;> rfl

theorem otherWords_modifyArray_other (m : Machine) (i : Nat) {f : PlatterArray → PlatterArray}
    {g : Array Platter → Array Platter} (hf : ∀ a, (f a).words = g a.words) :
    (m.modifyArray (.other i) f).otherWords = m.otherWords.modify i (Option.map g) := by
  apply Array.ext_getElem?
  intro j
  simp only [otherWords, modifyArray, Array.getElem?_map, Array.getElem?_modify]
  by_cases hij : i = j
  · simp only [hij, if_true]
    rcases m.others[j]? with _ | _ | a
    · rfl
    · rfl
    · simp [hf]
  · simp only [hij, if_false]

/-- A change that leaves the words alone. -/
theorem otherWords_modifyArray (m : Machine) (place : Place) {f : PlatterArray → PlatterArray}
    (hf : ∀ a, (f a).words = a.words) : (m.modifyArray place f).otherWords = m.otherWords := by
  cases place with
  | running => rfl
  | other i =>
    rw [otherWords_modifyArray_other m i (g := id) hf]
    apply Array.ext_getElem?
    intro j
    simp [Array.getElem?_modify]

theorem running_words_modifyArray (m : Machine) (place : Place)
    {f : PlatterArray → PlatterArray} (hf : ∀ a, (f a).words = a.words) :
    (m.modifyArray place f).running.words = m.running.words := by
  cases place with
  | running => exact hf m.running
  | other i => rfl

theorem otherWords_setOther (m : Machine) (i : Nat) (a : Option PlatterArray) :
    (m.setOther (i + 1) a).otherWords =
      if i < m.otherWords.size then m.otherWords.setIfInBounds i (a.map PlatterArray.words)
      else m.otherWords.push (a.map PlatterArray.words) := by
  simp only [setOther, Nat.add_sub_cancel, size_otherWords]
  split
  · simp [otherWords, Array.map_setIfInBounds]
  · simp [otherWords]

end Machine

namespace Engine

variable {e : Engine}

def picture (e : Engine) : Picture where
  file := e.machine.file
  program := e.machine.running.words
  zeroLive := e.machine.zeroLive
  others := e.machine.otherWords
  minFree := e.host.minFree
  finger := e.host.finger
  input := e.host.input
  output := e.host.output
  suspendOnEnd := e.host.suspendOnEnd
  stopped := e.host.stopped
  closed := e.host.closed

@[simp] theorem picture_withMemory (e : Engine) (memory : Memory) :
    (e.withMemory memory).picture = e.picture := rfl

theorem picture_regenerated (e : Engine) (place : Place) (size : Nat) (co : CodeObject) :
    (e.regenerated place size co).picture = e.picture := by
  simp only [picture, regenerated, Machine.modifyArray_file, Machine.modifyArray_zeroLive,
    Machine.otherWords_modifyArray, Machine.running_words_modifyArray, implies_true]

theorem picture_allocated {i : Nat} (hi : e.nextHandle = i + 1) (size : UInt32)
    (buffer : Buffer) :
    (e.allocated size buffer).picture = { e.picture with
      others :=
        if i < e.picture.others.size then
          e.picture.others.setIfInBounds i (some (Array.replicate size.toNat 0))
        else e.picture.others.push (some (Array.replicate size.toNat 0))
      minFree := i + 2 } := by
  simp only [picture, allocated, hi, Machine.setOther_file, Machine.setOther_running,
    Machine.setOther_zeroLive, Machine.otherWords_setOther, Option.map_some]
  rfl

theorem picture_abandoned {i : Nat} {a : PlatterArray}
    (ha : e.machine.array? (.other i) = some a) :
    (e.abandoned i).picture = { e.picture with
      others := e.picture.others.setIfInBounds i none
      minFree := min e.picture.minFree (i + 1) } := by
  have hlt := Machine.lt_size_of_array?_other ha
  simp only [picture, abandoned, detached, Machine.setOther_file, Machine.setOther_running,
    Machine.setOther_zeroLive, Machine.otherWords_setOther, Option.map_none, Machine.size_otherWords,
    if_pos hlt]

theorem picture_codeReturned (e : Engine) : e.codeReturned.picture = e.picture := by
  unfold codeReturned
  split
  · rfl
  · simp only [picture, Machine.modifyArray_file, Machine.modifyArray_zeroLive,
      Machine.otherWords_modifyArray, Machine.running_words_modifyArray, implies_true]

theorem picture_loaded (e : Engine) (source finger : UInt32) (words : Array Platter)
    (buffer : Buffer) (code : Option CodeObject) :
    (e.loaded source finger words buffer code).picture =
      { e.picture with program := words, zeroLive := true } := by
  have hothers := e.machine.otherWords_modifyArray (.other (source.toNat - 1))
    (f := fun a => { a with code := none }) fun _ => rfl
  simp only [picture, ← hothers]
  rfl

end Engine

end PlatterMachine
