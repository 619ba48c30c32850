import PlatterMachine.Proofs.Engine.Suspension

/-!
# Programs that make many arrays

A program whose instructions are tame never changes. Two such programs fill the table of handles with
empty arrays and then wait for input, the one with all of them live and the other when all but the
last have been abandoned.
-/

namespace PlatterMachine

/-- Unless register 0 has been written, the instruction changes neither it nor the program. -/
def Instruction.tame (i : Instruction) : Bool :=
  match i.op with
  | .arrayAmendment => false
  | .halt => true
  | .abandonment => true
  | .output => true
  | .allocation => i.b.val != 0
  | .input => i.c.val != 0
  | .loadProgram => i.b.val == 0
  | _ => i.a.val != 0

namespace Interpreter

variable {s s' : Interpreter} {p : Array Platter}

def Tame (p : Array Platter) : Prop :=
  (p.toList.all fun w => w.decode.toOption.all Instruction.tame) = true

instance (p : Array Platter) : Decidable (Tame p) :=
  inferInstanceAs (Decidable (_ = true))

theorem step_of_decode {w : Platter} {i : Instruction} (hw : s.program[s.finger]? = some w)
    (hi : w.decode = .ok i) : s.step = s.carryOut i := by
  simp only [step, hw, hi]

theorem get_set_of_ne {r : Register} (hr : r.val ≠ 0) (v : UInt32) :
    (s.set r v).get 0 = s.get 0 := by
  change (s.registers.set r.val v r.isLt)[0] = s.registers[0]
  exact Vector.getElem_set_ne _ _ hr

theorem carryOut_tame {i : Instruction} (hi : i.tame = true) (h0 : s.get 0 = 0)
    (h : s.carryOut i = .next s') : s'.program = s.program ∧ s'.get 0 = 0 := by
  have hset {r : Register} (hr : r.val ≠ 0) {v : UInt32} (h : (s.set r v).advance = .next s') :
      s'.program = s.program ∧ s'.get 0 = 0 := by
    cases h
    exact ⟨rfl, (get_set_of_ne hr v).trans h0⟩
  obtain ⟨op, a, b, c, value⟩ := i
  cases op with
  | conditionalMove =>
    simp only [carryOut] at h
    split at h
    · cases h
      exact ⟨rfl, h0⟩
    · exact hset (bne_iff_ne.mp hi) h
  | arrayIndex =>
    simp only [carryOut] at h
    split at h
    · exact hset (bne_iff_ne.mp hi) h
    · simp only [badAccess] at h
      split at h <;> cases h
  | arrayAmendment => cases hi
  | addition => exact hset (bne_iff_ne.mp hi) h
  | multiplication => exact hset (bne_iff_ne.mp hi) h
  | division =>
    simp only [carryOut] at h
    split at h
    · cases h
    · exact hset (bne_iff_ne.mp hi) h
  | notAnd => exact hset (bne_iff_ne.mp hi) h
  | halt => cases h
  | allocation =>
    cases h
    exact ⟨rfl, (get_set_of_ne (bne_iff_ne.mp hi) _).trans h0⟩
  | abandonment =>
    simp only [carryOut, abandon] at h
    split at h
    · split at h <;> cases h <;> exact ⟨rfl, h0⟩
    · cases h
  | output =>
    cases h
    exact ⟨rfl, h0⟩
  | input =>
    simp only [carryOut, readInput] at h
    split at h
    · cases h
      exact ⟨rfl, (get_set_of_ne (bne_iff_ne.mp hi) _).trans h0⟩
    · split at h
      · cases h
      · exact hset (bne_iff_ne.mp hi) h
  | loadProgram =>
    obtain rfl : b = 0 := Fin.ext (eq_of_beq (show (b.val == 0) = true from hi))
    simp only [carryOut, load, h0, if_true] at h
    cases h
    exact ⟨rfl, h0⟩
  | orthography => exact hset (bne_iff_ne.mp hi) h

/-- A tame program runs as it was loaded. -/
theorem program_of_run (htame : Tame s.program) (h0 : s.get 0 = 0) {n : Nat}
    (h : s.run n = (none, s')) : s'.program = s.program := by
  induction n generalizing s with
  | zero =>
    cases h
    rfl
  | succ n ih =>
    rw [run] at h
    cases hstep : s.step with
    | stop result s₁ =>
      rw [hstep] at h
      cases h
    | next s₁ =>
      rw [hstep] at h
      unfold step at hstep
      split at hstep
      · cases hstep
      · rename_i w hw
        split at hstep
        · rename_i i hi
          have hi' := List.all_eq_true.mp htame w (Array.mem_of_getElem? hw).val
          rw [hi] at hi'
          obtain ⟨hprogram, h0'⟩ := carryOut_tame hi' h0 hstep
          rw [ih (hprogram ▸ htame) h0' h, hprogram]
        · cases hstep

theorem addressable_of_tame (htame : Tame p) (hsize : Layout.size p.toList < Layout.limit)
    (input : List UInt8) (suspendOnEnd : Bool) : (start p input suspendOnEnd).Addressable := by
  intro n s' h
  rw [program_of_run (s := start p input suspendOnEnd) htame rfl h]
  exact hsize

theorem run_succ_of_next {n : Nat} (h : s.step = .next s') : s.run (n + 1) = s'.run n := by
  rw [run, h]

/-- In a loop with `count` rounds to go. Register 3 has the last handle, and registers 4 and 5 are
for the jump. -/
def looping (p : Array Platter) (others : Array (Option (Array Platter))) (finger : Nat)
    (count handle target again : UInt32) : Interpreter where
  registers := #v[0, count, 0xFFFFFFFF, handle, target, again, 0, 0]
  program := p
  zeroLive := true
  others := others
  finger := finger
  input := []
  output := #[]
  suspendOnEnd := true

/-- Both loops end with five instructions that count down and jump to `again`, or to `exit` when
nothing is left to count. -/
structure Closes (p : Array Platter) (finger : Nat) (exit again : UInt32) : Prop where
  add : p[finger]? = some 0x3000004A
  exit : ∃ w : Platter, p[finger + 1]? = some w ∧ w.decode = .ok ⟨.orthography, 4, 0, 0, exit⟩
  again : ∃ w : Platter, p[finger + 2]? = some w ∧ w.decode = .ok ⟨.orthography, 5, 0, 0, again⟩
  move : p[finger + 3]? = some 0x00000129
  jump : p[finger + 4]? = some 0xC0000004

theorem Closes.run {finger : Nat} {exit again : UInt32} (h : Closes p finger exit again)
    (others : Array (Option (Array Platter))) (count handle target last : UInt32) :
    (looping p others finger count handle target last).run 5 =
      (none, looping p others
        (if count + 0xFFFFFFFF = 0 then exit else again).toNat (count + 0xFFFFFFFF) handle
        (if count + 0xFFFFFFFF = 0 then exit else again) again) := by
  obtain ⟨hadd, ⟨wexit, hexit, hdexit⟩, ⟨wagain, hagain, hdagain⟩, hmove, hjump⟩ := h
  have h₁ : (looping p others finger count handle target last).step =
      .next (looping p others (finger + 1) (count + 0xFFFFFFFF) handle target last) :=
    (step_of_decode hadd rfl).trans rfl
  have h₂ : (looping p others (finger + 1) (count + 0xFFFFFFFF) handle target last).step =
      .next (looping p others (finger + 2) (count + 0xFFFFFFFF) handle exit last) :=
    step_of_decode hexit hdexit
  have h₃ : (looping p others (finger + 2) (count + 0xFFFFFFFF) handle exit last).step =
      .next (looping p others (finger + 3) (count + 0xFFFFFFFF) handle exit again) :=
    step_of_decode hagain hdagain
  have h₄ : (looping p others (finger + 3) (count + 0xFFFFFFFF) handle exit again).step =
      .next (looping p others (finger + 4) (count + 0xFFFFFFFF) handle
        (if count + 0xFFFFFFFF = 0 then exit else again) again) := by
    refine (step_of_decode hmove rfl).trans ?_
    change (if count + 0xFFFFFFFF = 0 then _ else _ : Interpreter).advance = _
    split <;> rfl
  have h₅ (left goal : UInt32) : (looping p others (finger + 4) left handle goal again).step =
      .next (looping p others goal.toNat left handle goal again) :=
    (step_of_decode hjump rfl).trans rfl
  rw [run_succ_of_next h₁, run_succ_of_next h₂, run_succ_of_next h₃, run_succ_of_next h₄,
    run_succ_of_next (h₅ _ _)]
  rfl

/-- One less to count. -/
theorem toNat_countdown {count : UInt32} {j : Nat} (h : count.toNat = j + 1) :
    (count + 0xFFFFFFFF).toNat = j := by
  rw [UInt32.toNat_add, h]
  have hlt := count.toNat_lt
  change (j + 1 + 4294967295) % 4294967296 = j
  omega

structure Fills (p : Array Platter) : Prop where
  make : p[2]? = some 0x80000018
  closes : Closes p 3 8 2

theorem Fills.step (h : Fills p) (k : Nat) (count handle target again : UInt32) :
    (looping p (Array.replicate k (some #[])) 2 count handle target again).step =
      .next (looping p (Array.replicate (k + 1) (some #[])) 3 count (UInt32.ofNat (k + 1)) target
        again) := by
  have hfree : (looping p (Array.replicate k (some #[])) 2 count handle target again).freeIndex =
      k := by
    refine freeIndex_eq ?_ fun i hi => ?_
    · simp [looping]
    · simp [looping, hi]
  refine (step_of_decode h.make rfl).trans ?_
  change (set (allocate _ 0).2 3 (allocate _ 0).1).advance = _
  rw [allocate, hfree]
  simp only [looping, Array.size_replicate, Nat.lt_irrefl, if_false, Array.replicate_succ]
  rfl

theorem Fills.run (h : Fills p) {j : Nat} {count : UInt32} (hcount : count.toNat = j + 1) (k : Nat)
    (handle target again : UInt32) :
    ∃ n handle', (looping p (Array.replicate k (some #[])) 2 count handle target again).run n =
      (none, looping p (Array.replicate (k + (j + 1)) (some #[])) 8 0 handle' 8 2) := by
  induction j generalizing k count handle target again with
  | zero =>
    have hzero : count + 0xFFFFFFFF = 0 := UInt32.toNat_inj.mp (toNat_countdown hcount)
    refine ⟨6, UInt32.ofNat (k + 1), ?_⟩
    rw [run_succ_of_next (h.step k count handle target again), h.closes.run, if_pos hzero, hzero]
    rfl
  | succ j ih =>
    have hnat := toNat_countdown hcount
    have hne : count + 0xFFFFFFFF ≠ 0 := fun h0 => by
      rw [h0] at hnat
      cases hnat
    have hround : (looping p (Array.replicate k (some #[])) 2 count handle target again).run 6 =
        (none, looping p (Array.replicate (k + 1) (some #[])) 2 (count + 0xFFFFFFFF)
          (UInt32.ofNat (k + 1)) 2 2) := by
      rw [run_succ_of_next (h.step k count handle target again), h.closes.run, if_neg hne]
      rfl
    obtain ⟨n, handle', hrest⟩ := ih hnat (k + 1) (UInt32.ofNat (k + 1)) 2 2
    refine ⟨6 + n, handle', ?_⟩
    rw [run_none_add hround, hrest, Nat.add_assoc, Nat.add_comm 1]

structure Thins (p : Array Platter) : Prop where
  abandon : p[9]? = some 0x90000001
  closes : Closes p 10 15 9

theorem Thins.step (h : Thins p) {others : Array (Option (Array Platter))} {j : Nat} {count : UInt32}
    (hcount : count.toNat = j + 1) (hlive : others[j]?.join ≠ none)
    (handle target again : UInt32) :
    (looping p others 9 count handle target again).step =
      .next (looping p (others.setIfInBounds j none) 10 count handle target again) := by
  have hne : count ≠ 0 := fun h0 => by
    rw [h0] at hcount
    cases hcount
  obtain ⟨words, hwords⟩ := Option.ne_none_iff_exists'.mp hlive
  have hlookup : (looping p others 9 count handle target again).lookup count = some words := by
    rw [lookup, if_neg hne, hcount]
    exact hwords
  refine (step_of_decode h.abandon rfl).trans ?_
  have hget : (looping p others 9 count handle target again).get (Platter.register 0x90000001 0) =
    count := rfl
  simp only [carryOut, hget, hlookup]
  rw [Interpreter.abandon, if_neg hne, hcount]
  rfl

theorem Thins.run (h : Thins p) {j : Nat} {count : UInt32} (hcount : count.toNat = j + 1)
    {others : Array (Option (Array Platter))} (hlive : ∀ k, k ≤ j → others[k]?.join ≠ none)
    (handle target again : UInt32) :
    ∃ n others', (looping p others 9 count handle target again).run n =
        (none, looping p others' 15 0 handle 15 9) ∧ others'.size = others.size ∧
      ∀ k : Nat, others'[k]?.join = if k ≤ j then none else others[k]?.join := by
  have hstep := h.step hcount (hlive j (Nat.le_refl j)) handle target again
  induction j generalizing count others target again with
  | zero =>
    have hzero : count + 0xFFFFFFFF = 0 := UInt32.toNat_inj.mp (toNat_countdown hcount)
    refine ⟨6, others.setIfInBounds 0 none, ?_, Array.size_setIfInBounds, fun k => ?_⟩
    · rw [run_succ_of_next hstep, h.closes.run, if_pos hzero, hzero]
      rfl
    · rw [join_getElem?_setIfInBounds_none]
      simp only [Nat.le_zero, eq_comm]
  | succ j ih =>
    have hnat := toNat_countdown hcount
    have hne : count + 0xFFFFFFFF ≠ 0 := fun h0 => by
      rw [h0] at hnat
      cases hnat
    have hround : (looping p others 9 count handle target again).run 6 =
        (none, looping p (others.setIfInBounds (j + 1) none) 9 (count + 0xFFFFFFFF) handle 9 9) := by
      rw [run_succ_of_next hstep, h.closes.run, if_neg hne]
      rfl
    have hlive' (k : Nat) (hk : k ≤ j) :
        (others.setIfInBounds (j + 1) none)[k]?.join ≠ none := by
      rw [join_getElem?_setIfInBounds_none, if_neg (by omega)]
      exact hlive k (by omega)
    obtain ⟨n, others', hrest, hsize, hjoin⟩ := ih hnat hlive' 9 9
      (h.step hnat (hlive' j (Nat.le_refl j)) handle 9 9)
    refine ⟨6 + n, others', ?_, hsize.trans Array.size_setIfInBounds, fun k => ?_⟩
    · rw [run_none_add hround, hrest]
    · rw [hjoin, join_getElem?_setIfInBounds_none]
      by_cases hk : k ≤ j
      · rw [if_pos hk, if_pos (by omega)]
      · rw [if_neg hk]
        by_cases hkj : j + 1 = k
        · rw [if_pos hkj, if_pos (by omega)]
        · rw [if_neg hkj, if_neg (by omega)]

theorem suspends_of_input {finger : Nat} (h : p[finger]? = some 0xB0000006)
    (others : Array (Option (Array Platter))) (count handle target again : UInt32) :
    (looping p others finger count handle target again).run 1 =
      (some (.error .suspended), looping p others finger count handle target again) := by
  rw [run, step_of_decode h rfl]
  rfl

/-- Makes 131072 arrays and waits for input. -/
def crowded : Array Platter :=
  #[0xD2020000, 0x60000080, 0x80000018, 0x3000004A, 0xD8000008, 0xDA000002, 0x00000129, 0xC0000004,
    0xB0000006, 0x70000000]

theorem crowded_run : ∃ n handle, (start crowded [] true).run n =
    (some (.error .suspended),
      looping crowded (Array.replicate 131072 (some #[])) 8 0 handle 8 2) := by
  have hfills : Fills crowded := ⟨rfl, rfl, ⟨_, rfl, rfl⟩, ⟨_, rfl, rfl⟩, rfl, rfl⟩
  have hstart : (start crowded [] true).run 2 =
      (none, looping crowded (Array.replicate 0 (some #[])) 2 131072 0 0 0) := rfl
  obtain ⟨n, handle, hrun⟩ :=
    hfills.run (show (131072 : UInt32).toNat = 131071 + 1 by decide) 0 0 0 0
  rw [Nat.zero_add] at hrun
  refine ⟨2 + (n + 1), handle, ?_⟩
  rw [run_none_add hstart, run_none_add hrun]
  exact suspends_of_input rfl _ _ _ _ _

theorem crowded_addressable : (start crowded [] true).Addressable :=
  addressable_of_tame (by decide) (by decide +kernel) [] true

/-- Makes 16777216 arrays, abandons all but the last and waits for input. -/
def scattered : Array Platter :=
  #[0xD3000000, 0x60000080, 0x80000018, 0x3000004A, 0xD8000008, 0xDA000002, 0x00000129, 0xC0000004,
    0xD2FFFFFF, 0x90000001, 0x3000004A, 0xD800000F, 0xDA000009, 0x00000129, 0xC0000004, 0xB0000006,
    0x70000000]

theorem scattered_run : ∃ n handle others, (start scattered [] true).run n =
      (some (.error .suspended), looping scattered others 15 0 handle 15 9) ∧
    others.size = 0x1000000 ∧
    ∀ k : Nat, others[k]?.join = if k = 0xFFFFFF then some #[] else none := by
  have hfills : Fills scattered := ⟨rfl, rfl, ⟨_, rfl, rfl⟩, ⟨_, rfl, rfl⟩, rfl, rfl⟩
  have hthins : Thins scattered := ⟨rfl, rfl, ⟨_, rfl, rfl⟩, ⟨_, rfl, rfl⟩, rfl, rfl⟩
  have hstart : (start scattered [] true).run 2 =
      (none, looping scattered (Array.replicate 0 (some #[])) 2 0x1000000 0 0 0) := rfl
  obtain ⟨n, handle, hfilled⟩ :=
    hfills.run (show (0x1000000 : UInt32).toNat = 0xFFFFFF + 1 by decide) 0 0 0 0
  rw [Nat.zero_add] at hfilled
  generalize hlive : Array.replicate (0xFFFFFF + 1) (some (#[] : Array Platter)) = others at hfilled
  have hjoin (k : Nat) : others[k]?.join = if k < 0x1000000 then some #[] else none := by
    rw [← hlive, Array.getElem?_replicate]
    split <;> rfl
  have hbetween : (looping scattered others 8 0 handle 8 2).run 1 =
      (none, looping scattered others 9 0xFFFFFF handle 8 2) :=
    run_succ_of_next ((step_of_decode (w := 0xD2FFFFFF) rfl rfl).trans rfl)
  have hfull (k : Nat) (hk : k ≤ 0xFFFFFE) : others[k]?.join ≠ none := by
    rw [hjoin, if_pos (by omega)]
    rintro ⟨⟩
  obtain ⟨m, others', hthinned, hsize, hjoin'⟩ :=
    hthins.run (show (0xFFFFFF : UInt32).toNat = 0xFFFFFE + 1 by decide) hfull handle 8 2
  refine ⟨2 + (n + (1 + (m + 1))), handle, others', ?_, ?_, fun k => ?_⟩
  · rw [run_none_add hstart, run_none_add hfilled, run_none_add hbetween, run_none_add hthinned]
    exact suspends_of_input rfl _ _ _ _ _
  · rw [hsize, ← hlive, Array.size_replicate]
  · rw [hjoin', hjoin]
    split
    · rw [if_neg (by omega)]
    · split
      · rw [if_pos (by omega)]
      · rw [if_neg (by omega)]

theorem scattered_addressable : (start scattered [] true).Addressable :=
  addressable_of_tame (by decide) (by decide +kernel) [] true

end Interpreter

end PlatterMachine
