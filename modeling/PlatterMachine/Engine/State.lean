import PlatterMachine.Engine.Run

/-!
# Machine states

Everything needed to continue a machine elsewhere. Handle 0 always is the running program, even when
the program has abandoned it.
-/

namespace PlatterMachine

@[ext] structure MachineState where
  registers : Vector UInt32 8
  finger : UInt32
  arrays : List (UInt32 × Array Platter)
  ascending : arrays.Pairwise fun x y => x.1 < y.1

namespace MachineState

/-- Puts an entry in its place, unless the handle has one. -/
def insert (x : UInt32 × Array Platter) :
    List (UInt32 × Array Platter) → List (UInt32 × Array Platter)
  | [] => [x]
  | y :: rest =>
    if x.1 < y.1 then x :: y :: rest
    else if x.1 = y.1 then y :: rest
    else y :: insert x rest

theorem eq_or_mem_of_mem_insert {x z : UInt32 × Array Platter}
    {entries : List (UInt32 × Array Platter)} (h : z ∈ insert x entries) : z = x ∨ z ∈ entries := by
  induction entries with
  | nil => exact .inl (List.mem_singleton.mp h)
  | cons y rest ih =>
    rw [insert] at h
    split at h
    · exact List.mem_cons.mp h
    · split at h
      · exact .inr h
      · rcases List.mem_cons.mp h with rfl | h
        · exact .inr List.mem_cons_self
        · exact (ih h).imp_right (List.mem_cons_of_mem y)

theorem ascending_insert (x : UInt32 × Array Platter) {entries : List (UInt32 × Array Platter)}
    (h : entries.Pairwise fun x y => x.1 < y.1) : (insert x entries).Pairwise fun x y => x.1 < y.1 := by
  induction entries with
  | nil => exact List.pairwise_singleton _ _
  | cons y rest ih =>
    obtain ⟨hfirst, hrest⟩ := List.pairwise_cons.mp h
    rw [insert]
    split
    · rename_i hlt
      refine List.pairwise_cons.mpr ⟨fun z hz => ?_, h⟩
      rcases List.mem_cons.mp hz with rfl | hz
      · exact hlt
      · exact UInt32.lt_trans hlt (hfirst z hz)
    · split
      · exact h
      · rename_i hnot hne
        refine List.pairwise_cons.mpr ⟨fun z hz => ?_, ih hrest⟩
        rcases eq_or_mem_of_mem_insert hz with rfl | hz
        · exact UInt32.lt_of_le_of_ne (UInt32.not_lt.mp hnot) (Ne.symm hne)
        · exact hfirst z hz

/-- The entries in ascending order; of several for one handle the last counts. -/
def collect (entries : List (UInt32 × Array Platter)) : List (UInt32 × Array Platter) :=
  entries.foldr insert []

theorem ascending_collect (entries : List (UInt32 × Array Platter)) :
    (collect entries).Pairwise fun x y => x.1 < y.1 := by
  induction entries with
  | nil => exact .nil
  | cons x rest ih => exact ascending_insert x ih

theorem insert_of_lt {x : UInt32 × Array Platter} {entries : List (UInt32 × Array Platter)}
    (h : ∀ y ∈ entries, x.1 < y.1) : insert x entries = x :: entries := by
  cases entries with
  | nil => rfl
  | cons y rest => exact if_pos (h y List.mem_cons_self)

theorem collect_eq_self {entries : List (UInt32 × Array Platter)}
    (h : entries.Pairwise fun x y => x.1 < y.1) : collect entries = entries := by
  induction h with
  | nil => rfl
  | @cons x rest hx _ ih => exact (congrArg (insert x) ih).trans (insert_of_lt hx)

/-- An entry that comes last but belongs first. -/
theorem collect_concat {entries : List (UInt32 × Array Platter)}
    (h : entries.Pairwise fun x y => x.1 < y.1) {first : UInt32 × Array Platter}
    (hfirst : ∀ x ∈ entries, first.1 < x.1) :
    collect (entries ++ [first]) = first :: entries := by
  induction h with
  | nil => rfl
  | @cons x rest hx _ ih =>
    obtain ⟨hlt, hrest⟩ := List.forall_mem_cons.mp hfirst
    refine (congrArg (insert x) (ih hrest)).trans ?_
    rw [insert, if_neg (UInt32.not_lt.mpr (UInt32.le_of_lt hlt)), if_neg (UInt32.ne_of_lt hlt).symm,
      insert_of_lt hx]

/-- A state with arrays listed in any order; of entries for one handle the last counts. -/
def ofEntries (registers : Vector UInt32 8) (finger : UInt32)
    (entries : List (UInt32 × Array Platter)) : MachineState :=
  ⟨registers, finger, collect entries, ascending_collect entries⟩

def empty : MachineState := ofEntries (Vector.replicate 8 0) 0 []

def array? (s : MachineState) (handle : UInt32) : Option (Array Platter) :=
  s.arrays.lookup handle

def handles (s : MachineState) : List UInt32 := s.arrays.map Prod.fst

theorem ofEntries_arrays (s : MachineState) : ofEntries s.registers s.finger s.arrays = s := by
  simp only [ofEntries, collect_eq_self s.ascending]

theorem nodup_handles (s : MachineState) : s.handles.Nodup :=
  List.pairwise_map.mpr (s.ascending.imp fun hlt => UInt32.ne_of_lt hlt)

end MachineState

namespace Engine

def stateEntries (others : Array (Option PlatterArray)) : (n : Nat) →
    (later : List (UInt32 × Array Platter)) → List (UInt32 × Array Platter)
  | 0, later => later
  | n + 1, later =>
    match others[n]? with
    | some (some a) => stateEntries others n ((UInt32.ofNat (n + 1), a.words) :: later)
    | _ => stateEntries others n later

/-- The state of the machine. Its finger means something before the first run and after a run that
was suspended. -/
def state (e : Engine) : MachineState :=
  .ofEntries e.machine.registers e.host.finger <|
    if e.host.closed then []
    else stateEntries e.machine.others e.machine.others.size [(0, e.machine.running.words)]

def handleLimit : Nat := 1 <<< 24

def restoreArrays : List (UInt32 × Array Platter) → Action Engine Unit
  | [] => pure ()
  | (handle, words) :: rest => do
    if handle ≠ 0 then
      let buffer ← ((inMemory (Memory.inPlatters (Arena.alloc words.size true))).cleaningUp
        close).during s!"restoring array {handle.toNat}"
      onMachine (·.setOther handle.toNat (some ⟨words, buffer, false, none⟩))
    restoreArrays rest

def resume (s : MachineState) (program : Array Platter) (top : Nat) : Action Engine Unit := do
  start program
  onMachine fun m =>
    { m with
      file := Vector.ofFn fun i => if h : i.val < 8 then s.registers.get ⟨i.val, h⟩ else 0
      others := Array.replicate top none }
  onHost fun h => { h with finger := s.finger }
  restoreArrays s.arrays
  let handle ← Action.read fun e => freeHandle e.machine.others e.machine.others.size 1
  onHost fun h => { h with minFree := handle }

def restore (s : MachineState) (config : EngineConfig) : Outcome Unit × Engine :=
  let e := blank config
  match s.array? 0 with
  | none => (.failed (.invalidIndex "restored state has no array 0" 0), e)
  | some program =>
    if program.size ≤ s.finger.toNat then
      (.failed (.invalidIndex "restored finger beyond array 0" s.finger), e)
    else
      let top := s.handles.foldl max 0
      if handleLimit ≤ top.toNat then
        (.failed (.invalidIndex "restored handle beyond handle limit" top), e)
      else resume s program top.toNat e

end Engine

end PlatterMachine
