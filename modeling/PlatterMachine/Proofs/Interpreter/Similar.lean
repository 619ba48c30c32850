import PlatterMachine.Interpreter

/-!
# Machines that behave alike

Two plain machines are similar when they differ only in what the one has written before, in how many
free handles end their tables, and perhaps in input of which the other has not been told yet. Step by
step they then do the same, until the other has to wait for that input.
-/

namespace PlatterMachine.Interpreter

variable {s s' t : Interpreter} {before : Array UInt8} {seam : Option (List UInt8 × Bool)}

/-- The least free handle is told by what is free, not by how the table ends. -/
theorem freeIndex_eq {i : Nat} (hnone : s.others[i]?.join = none)
    (hlive : ∀ k, k < i → s.others[k]?.join ≠ none) : s.freeIndex = i := by
  have hle : i ≤ s.others.size := by
    refine Nat.le_of_not_lt fun hlt => hlive _ hlt ?_
    rw [Array.getElem?_eq_none (Nat.le_refl _)]
    rfl
  rw [freeIndex]
  by_cases hi : i < s.others.size
  · have hfind : s.others.findIdx? Option.isNone = some i := by
      refine Array.findIdx?_eq_some_iff_getElem.mpr ⟨hi, ?_, fun k hk => ?_⟩
      · rw [Array.getElem?_eq_getElem hi] at hnone
        rw [Option.isNone_iff_eq_none]
        exact hnone
      · have hk' := hlive k hk
        rw [Array.getElem?_eq_getElem (Nat.lt_trans hk hi)] at hk'
        rw [Option.isNone_iff_eq_none]
        exact hk'
    rw [hfind, Option.getD_some]
  · have hfind : s.others.findIdx? Option.isNone = none := by
      refine Array.findIdx?_eq_none_iff.mpr fun a ha => ?_
      obtain ⟨k, hk, rfl⟩ := Array.mem_iff_getElem.mp ha
      have hk' := hlive k (by omega)
      rw [Array.getElem?_eq_getElem hk] at hk'
      exact Option.isNone_eq_false_iff.mpr (Option.isSome_iff_ne_none.mpr hk')
    rw [hfind, Option.getD_none]
    omega

theorem freeIndex_spec (s : Interpreter) :
    s.freeIndex ≤ s.others.size ∧ s.others[s.freeIndex]?.join = none ∧
      ∀ k, k < s.freeIndex → s.others[k]?.join ≠ none := by
  rw [freeIndex]
  cases hfind : s.others.findIdx? Option.isNone with
  | some i =>
    obtain ⟨hi, hnone, hlive⟩ := Array.findIdx?_eq_some_iff_getElem.mp hfind
    rw [Option.getD_some]
    refine ⟨Nat.le_of_lt hi, ?_, fun k hk => ?_⟩
    · rw [Array.getElem?_eq_getElem hi, Option.isNone_iff_eq_none.mp hnone]
      rfl
    · rw [Array.getElem?_eq_getElem (Nat.lt_trans hk hi)]
      exact fun hnone => hlive k hk (Option.isNone_iff_eq_none.mpr hnone)
  | none =>
    rw [Option.getD_none]
    refine ⟨Nat.le_refl _, ?_, fun k hk => ?_⟩
    · rw [Array.getElem?_eq_none (Nat.le_refl _)]
      rfl
    · have hsome := Array.findIdx?_eq_none_iff.mp hfind _ (Array.getElem_mem hk)
      rw [Array.getElem?_eq_getElem hk]
      exact Option.isSome_iff_ne_none.mp (Option.isNone_eq_false_iff.mp hsome)

theorem join_getElem?_allocate (s : Interpreter) (size : UInt32) (k : Nat) :
    (s.allocate size).2.others[k]?.join =
      if k = s.freeIndex then some (Array.replicate size.toNat 0) else s.others[k]?.join := by
  have hle := (freeIndex_spec s).1
  simp only [allocate]
  split
  · rename_i hlt
    by_cases hk : k = s.freeIndex
    · rw [if_pos hk, hk, Array.getElem?_setIfInBounds_self_of_lt hlt]
      rfl
    · rw [if_neg hk, Array.getElem?_setIfInBounds_ne (Ne.symm hk)]
  · rename_i hlt
    rw [Array.getElem?_push]
    by_cases hk : k = s.freeIndex
    · rw [if_pos hk, if_pos (by omega)]
      rfl
    · rw [if_neg hk, if_neg (by omega)]

theorem join_getElem?_modify (others : Array (Option (Array Platter))) (i k : Nat)
    (f : Array Platter → Array Platter) :
    (others.modify i (Option.map f))[k]?.join =
      if i = k then others[k]?.join.map f else others[k]?.join := by
  rw [Array.getElem?_modify]
  split
  · rcases others[k]? with _ | _ | a <;> rfl
  · rfl

theorem join_getElem?_setIfInBounds_none (others : Array (Option (Array Platter))) (i k : Nat) :
    (others.setIfInBounds i none)[k]?.join = if i = k then none else others[k]?.join := by
  rw [Array.getElem?_setIfInBounds]
  split
  · split <;> rfl
  · rfl

/-- The machines have the same input and setting; or, at a seam, `s` is going to wait where `t` has
more input and a setting of its own. -/
def Joined (seam : Option (List UInt8 × Bool)) (s t : Interpreter) : Prop :=
  match seam with
  | none => s.input = t.input ∧ s.suspendOnEnd = t.suspendOnEnd
  | some (more, suspendOnEnd) =>
    s.input ++ more = t.input ∧ s.suspendOnEnd = true ∧ t.suspendOnEnd = suspendOnEnd

/-- `t` is `s`, but for the output `before`, for free handles at the end of the table and for input
behind the seam. -/
structure Similar (before : Array UInt8) (seam : Option (List UInt8 × Bool))
    (s t : Interpreter) : Prop where
  registers_eq : s.registers = t.registers
  program_eq : s.program = t.program
  zeroLive_eq : s.zeroLive = t.zeroLive
  others_eq : ∀ k : Nat, s.others[k]?.join = t.others[k]?.join
  bounded : ∀ (k : Nat) a, s.others[k]?.join = some a → a.size < 0x100000000
  finger_eq : s.finger = t.finger
  joined : Joined seam s t
  output_eq : before ++ s.output = t.output

/-- What similar machines come to; a machine that waits for input has not come to anything yet. -/
inductive Result.Similar (before : Array UInt8) (seam : Option (List UInt8 × Bool)) :
    Result → Result → Prop
  | next {s t : Interpreter} (h : Interpreter.Similar before seam s t) :
      Similar before seam (.next s) (.next t)
  | stop {s t : Interpreter} (result : Except Fault Unit)
      (h : Interpreter.Similar before seam s t) :
      Similar before seam (.stop result s) (.stop result t)
  | waits {s : Interpreter} (hseam : seam ≠ none) (r : Result) :
      Similar before seam (.stop (.error .suspended) s) r

namespace Similar

theorem get (h : Similar before seam s t) (r : Register) : s.get r = t.get r := by
  rw [Interpreter.get, Interpreter.get, h.registers_eq]

theorem set (h : Similar before seam s t) (r : Register) (v : UInt32) :
    Similar before seam (s.set r v) (t.set r v) :=
  { h with registers_eq := by rw [Interpreter.set, Interpreter.set, h.registers_eq] }

theorem advance (h : Similar before seam s t) : Result.Similar before seam s.advance t.advance :=
  .next { h with finger_eq := by rw [h.finger_eq] }

theorem fail (h : Similar before seam s t) (fault : Fault) :
    Result.Similar before seam (s.fail fault) (t.fail fault) :=
  .stop _ h

theorem halt (h : Similar before seam s t) (reason word : UInt32) :
    Result.Similar before seam (s.halt reason word) (t.halt reason word) :=
  .stop _ { h with
    output_eq := by
      rw [← h.output_eq]
      apply Array.ext'
      simp only [Array.toList_append, Array.toList_appendList, List.append_assoc] }

theorem lookup (h : Similar before seam s t) (handle : UInt32) : s.lookup handle = t.lookup handle := by
  rw [Interpreter.lookup, Interpreter.lookup, h.zeroLive_eq, h.program_eq, h.others_eq]

theorem word? (h : Similar before seam s t) (handle offset : UInt32) :
    s.word? handle offset = t.word? handle offset := by
  rw [Interpreter.word?, Interpreter.word?, h.lookup]

theorem badAccess (h : Similar before seam s t) (handle offset : UInt32) :
    Result.Similar before seam (s.badAccess handle offset) (t.badAccess handle offset) := by
  rw [Interpreter.badAccess, Interpreter.badAccess, h.lookup]
  split
  · exact h.fail _
  · exact h.fail _

theorem write (h : Similar before seam s t) (handle offset : UInt32) (v : Platter) :
    Similar before seam (s.write handle offset v) (t.write handle offset v) := by
  rw [Interpreter.write, Interpreter.write]
  split
  · exact { h with program_eq := by rw [h.program_eq] }
  · refine { h with others_eq := fun k => ?_, bounded := fun k a ha => ?_ }
    · rw [join_getElem?_modify, join_getElem?_modify, h.others_eq]
    · rw [join_getElem?_modify] at ha
      split at ha
      · obtain ⟨b, hb, rfl⟩ := Option.map_eq_some_iff.mp ha
        rw [Array.size_setIfInBounds]
        exact h.bounded k b hb
      · exact h.bounded k a ha

theorem freeIndex (h : Similar before seam s t) : s.freeIndex = t.freeIndex := by
  obtain ⟨-, hnone, hlive⟩ := freeIndex_spec t
  apply freeIndex_eq
  · rw [h.others_eq, hnone]
  · intro k hk
    rw [h.others_eq]
    exact hlive k hk

theorem allocate (h : Similar before seam s t) (size : UInt32) :
    (s.allocate size).1 = (t.allocate size).1 ∧
      Similar before seam (s.allocate size).2 (t.allocate size).2 := by
  refine ⟨congrArg (fun i => UInt32.ofNat (i + 1)) h.freeIndex,
    { h with others_eq := fun k => ?_, bounded := fun k a ha => ?_ }⟩
  · rw [join_getElem?_allocate, join_getElem?_allocate, h.freeIndex, h.others_eq]
  · rw [join_getElem?_allocate] at ha
    split at ha
    · cases ha
      rw [Array.size_replicate]
      exact size.toNat_lt
    · exact h.bounded k a ha

theorem abandon (h : Similar before seam s t) (handle : UInt32) :
    Similar before seam (s.abandon handle) (t.abandon handle) := by
  rw [Interpreter.abandon, Interpreter.abandon]
  split
  · exact { h with zeroLive_eq := rfl }
  · refine { h with others_eq := fun k => ?_, bounded := fun k a ha => ?_ }
    · rw [join_getElem?_setIfInBounds_none, join_getElem?_setIfInBounds_none, h.others_eq]
    · rw [join_getElem?_setIfInBounds_none] at ha
      split at ha
      · cases ha
      · exact h.bounded k a ha

/-- The one instruction that looks at the seam. -/
theorem readInput (h : Similar before seam s t) (r : Register) :
    Result.Similar before seam (s.readInput r) (t.readInput r) := by
  have hjoined := h.joined
  have hread (b : UInt8) (rest rest' : List UInt8)
      (hrest : Joined seam { s with input := rest } { t with input := rest' }) :
      Result.Similar before seam (({ s with input := rest }.set r b.toUInt32).advance)
        (({ t with input := rest' }.set r b.toUInt32).advance) := by
    have h' : Similar before seam { s with input := rest } { t with input := rest' } :=
      { h with joined := hrest }
    exact (h'.set r _).advance
  rw [Interpreter.readInput, Interpreter.readInput]
  cases seam with
  | none =>
    obtain ⟨hinput, hsuspend⟩ := hjoined
    rw [← hinput]
    cases hs : s.input with
    | cons b rest => exact hread b rest rest ⟨rfl, hsuspend⟩
    | nil =>
      dsimp only
      rw [hsuspend]
      split
      · exact h.fail _
      · exact (h.set r _).advance
  | some seam =>
    obtain ⟨hinput, hsuspend, hsetting⟩ := hjoined
    rw [← hinput]
    cases hs : s.input with
    | cons b rest => exact hread b rest (rest ++ seam.1) ⟨rfl, hsuspend, hsetting⟩
    | nil =>
      have hseam : some seam ≠ none := nofun
      simp only [hsuspend, if_true]
      exact .waits hseam _

theorem load (h : Similar before seam s t) (handle finger : UInt32) :
    Result.Similar before seam (s.load handle finger) (t.load handle finger) := by
  rw [Interpreter.load, Interpreter.load, h.lookup]
  split
  · exact .next { h with finger_eq := rfl }
  · split
    · exact h.fail _
    · split
      · exact h.fail _
      · exact .next { h with program_eq := rfl, zeroLive_eq := rfl, finger_eq := rfl }

theorem carryOut (h : Similar before seam s t) (i : Instruction) :
    Result.Similar before seam (s.carryOut i) (t.carryOut i) := by
  obtain ⟨op, a, b, c, value⟩ := i
  cases op <;> simp only [Interpreter.carryOut, h.get, h.word?, h.lookup]
  case conditionalMove =>
    split
    · exact h.advance
    · exact (h.set a _).advance
  case arrayIndex =>
    split
    · exact (h.set a _).advance
    · exact h.badAccess _ _
  case arrayAmendment =>
    split
    · exact (h.write _ _ _).advance
    · exact h.badAccess _ _
  case addition => exact (h.set a _).advance
  case multiplication => exact (h.set a _).advance
  case division =>
    split
    · exact h.halt _ _
    · exact (h.set a _).advance
  case notAnd => exact (h.set a _).advance
  case halt => exact .stop _ h
  case allocation =>
    obtain ⟨hhandle, h'⟩ := h.allocate (t.get c)
    rw [hhandle]
    exact (h'.set b _).advance
  case abandonment =>
    split
    · exact (h.abandon _).advance
    · exact h.fail _
  case output =>
    have h' : Similar before seam { s with output := s.output.push (t.get c).toUInt8 }
        { t with output := t.output.push (t.get c).toUInt8 } :=
      { h with output_eq := by simp [← h.output_eq] }
    exact h'.advance
  case input => exact h.readInput c
  case loadProgram => exact h.load _ _
  case orthography => exact (h.set a _).advance

theorem step (h : Similar before seam s t) : Result.Similar before seam s.step t.step := by
  rw [Interpreter.step, Interpreter.step, h.program_eq, h.finger_eq]
  split
  · exact h.halt _ _
  · split
    · exact h.carryOut _
    · exact h.halt _ _

/-- Similar machines stop after the same number of steps, in the same way. -/
theorem run (h : Similar before none s t) (n : Nat) :
    (s.run n).1 = (t.run n).1 ∧ Similar before none (s.run n).2 (t.run n).2 := by
  induction n generalizing s t with
  | zero => exact ⟨rfl, h⟩
  | succ n ih =>
    have hstep := h.step
    rw [Interpreter.run, Interpreter.run]
    cases hs : s.step with
    | next s' =>
      rw [hs] at hstep
      cases ht : t.step with
      | next t' =>
        rw [ht] at hstep
        cases hstep with
        | next h' => exact ih h'
      | stop result t' =>
        rw [ht] at hstep
        cases hstep
    | stop result s' =>
      rw [hs] at hstep
      cases ht : t.step with
      | next t' =>
        rw [ht] at hstep
        cases hstep with
        | waits hseam _ => exact absurd rfl hseam
      | stop result' t' =>
        rw [ht] at hstep
        cases hstep with
        | stop _ h' => exact ⟨rfl, h'⟩
        | waits hseam _ => exact absurd rfl hseam

/-- As long as a machine does not wait, more input makes no difference. -/
theorem run_none (h : Similar before seam s t) {n : Nat} (hrun : s.run n = (none, s')) :
    ∃ t', t.run n = (none, t') ∧ Similar before seam s' t' := by
  induction n generalizing s t with
  | zero =>
    cases hrun
    exact ⟨t, rfl, h⟩
  | succ n ih =>
    have hstep := h.step
    rw [Interpreter.run] at hrun
    cases hs : s.step with
    | stop result s₁ =>
      rw [hs] at hrun
      cases hrun
    | next s₁ =>
      rw [hs] at hrun hstep
      cases ht : t.step with
      | stop result t₁ =>
        rw [ht] at hstep
        cases hstep
      | next t₁ =>
        rw [ht] at hstep
        cases hstep with
        | next h' =>
          obtain ⟨t', hrun', h''⟩ := ih h' hrun
          refine ⟨t', ?_, h''⟩
          rw [Interpreter.run, ht]
          exact hrun'

end Similar

theorem carryOut_suspended {i : Instruction} (h : s.carryOut i = .stop (.error .suspended) s') :
    s' = s ∧ s.input = [] := by
  obtain ⟨op, a, b, c, value⟩ := i
  cases op <;>
    simp only [carryOut, advance, readInput, load, badAccess, fail, halt, write] at h
  case input =>
    split at h
    · cases h
    · rename_i hinput
      split at h
      · cases h
        exact ⟨rfl, hinput⟩
      · cases h
  all_goals repeat' split at h
  all_goals cases h

theorem step_suspended (h : s.step = .stop (.error .suspended) s') :
    s' = s ∧ s.input = [] ∧ s.finger < s.program.size := by
  rw [step] at h
  cases hp : s.program[s.finger]? with
  | none =>
    rw [hp] at h
    cases h
  | some p =>
    rw [hp] at h
    dsimp only at h
    split at h
    · obtain ⟨hs, hinput⟩ := carryOut_suspended h
      exact ⟨hs, hinput, (Array.getElem?_eq_some_iff.mp hp).1⟩
    · cases h

/-- A machine that waits is where it was when it found no input. -/
theorem run_suspended {n : Nat} (h : s.run n = (some (.error .suspended), s')) :
    ∃ k, s.run k = (none, s') ∧ s'.input = [] ∧ s'.finger < s'.program.size := by
  induction n generalizing s with
  | zero => cases h
  | succ n ih =>
    rw [run] at h
    cases hstep : s.step with
    | next s₁ =>
      rw [hstep] at h
      obtain ⟨k, hrun, hinput, hfinger⟩ := ih h
      refine ⟨k + 1, ?_, hinput, hfinger⟩
      rw [run, hstep]
      exact hrun
    | stop result s₁ =>
      rw [hstep] at h
      cases h
      obtain ⟨rfl, hinput, hfinger⟩ := step_suspended hstep
      exact ⟨0, rfl, hinput, hfinger⟩

end PlatterMachine.Interpreter
