import PlatterMachine.Proofs.Engine.Readiness
import PlatterMachine.Proofs.Engine.RoundTrip

/-!
# What a halt tells about the machine

However an engine got where it is, what comes of running it depends on its registers, its arrays, its
finger and the input: two engines that have these in common end in the same way, with the same
fault. The scratch slots, which may differ between them, show in one place only, the word of a halt
beyond the end of the program.
-/

namespace PlatterMachine

namespace Interpreter

variable {s s' t : Interpreter} {before : Array UInt8} {reason word : UInt32}

theorem Addressable.of_similar_none (h : s.Addressable) (hsim : Similar before none s t) :
    t.Addressable := by
  intro n t' hrun
  obtain ⟨hfst, hsim'⟩ := hsim.run n
  rw [hrun] at hfst hsim'
  rw [← hsim'.program_eq]
  exact h n _ (Prod.ext hfst rfl)

/-- What the word of a halt is, by the instruction that the machine was at. -/
inductive Offends (s : Interpreter) : UInt32 → UInt32 → Prop
  | beyond (hnone : s.program[s.finger]? = none) : Offends s Halt.outOfBounds 0
  | operator {p : Platter} {fault : Fault} (hp : s.program[s.finger]? = some p)
      (hdecode : p.decode = .error fault) : Offends s Halt.invalidOperator p
  | division {p : Platter} {i : Instruction} (hp : s.program[s.finger]? = some p)
      (hdecode : p.decode = .ok i) (hop : i.op = .division) (hzero : s.get i.c = 0) :
      Offends s Halt.divisionByZero 0

theorem carryOut_halt {i : Instruction} (h : s.carryOut i = .stop (.error (.halt reason word)) s') :
    reason = Halt.divisionByZero ∧ word = 0 ∧ i.op = .division ∧ s.get i.c = 0 := by
  obtain ⟨op, a, b, c, value⟩ := i
  cases op <;>
    simp only [carryOut, advance, readInput, load, badAccess, fail, halt, write] at h
  case division =>
    split at h
    · rename_i hzero
      cases h
      exact ⟨rfl, rfl, rfl, hzero⟩
    · cases h
  all_goals repeat' split at h
  all_goals cases h

theorem step_halt (h : s.step = .stop (.error (.halt reason word)) s') :
    s.Offends reason word := by
  rw [step] at h
  cases hp : s.program[s.finger]? with
  | none =>
    rw [hp] at h
    cases h
    exact .beyond hp
  | some p =>
    rw [hp] at h
    dsimp only at h
    cases hdecode : p.decode with
    | ok i =>
      rw [hdecode] at h
      obtain ⟨rfl, rfl, hop, hzero⟩ := carryOut_halt h
      exact .division hp hdecode hop hzero
    | error fault =>
      rw [hdecode] at h
      cases h
      exact .operator hp hdecode

theorem run_halt {n : Nat} (h : s.run n = (some (.error (.halt reason word)), s')) :
    ∃ k t, s.run k = (none, t) ∧ t.Offends reason word := by
  induction n generalizing s with
  | zero => cases h
  | succ n ih =>
    rw [run] at h
    cases hstep : s.step with
    | next s₁ =>
      rw [hstep] at h
      obtain ⟨k, t, hrun, hoffends⟩ := ih h
      refine ⟨k + 1, t, ?_, hoffends⟩
      rw [run, hstep]
      exact hrun
    | stop result s₁ =>
      rw [hstep] at h
      cases h
      exact ⟨0, s, rfl, step_halt hstep⟩

end Interpreter

namespace Engine

variable {e u : Engine} {input : List UInt8}

/-- The engines have the same registers, program and finger and the same arrays under the same
handles, and treat the end of input in the same way. -/
structure SameMachine (e u : Engine) : Prop where
  registers_eq : e.machine.registers = u.machine.registers
  program_eq : e.machine.running.words = u.machine.running.words
  zeroLive_eq : e.machine.zeroLive = u.machine.zeroLive
  others_eq : ∀ k, (e.machine.array? (.other k)).map PlatterArray.words =
    (u.machine.array? (.other k)).map PlatterArray.words
  finger_eq : e.host.finger = u.host.finger
  suspendOnEnd_eq : e.host.suspendOnEnd = u.host.suspendOnEnd

theorem SameMachine.similar (h : e.SameMachine u) (he : e.Ready input) :
    Interpreter.Similar (u.plain input).output none { e.plain input with output := #[] }
      (u.plain input) where
  registers_eq := h.registers_eq
  program_eq := h.program_eq
  zeroLive_eq := h.zeroLive_eq
  others_eq k := by
    change e.machine.otherWords[k]?.join = u.machine.otherWords[k]?.join
    rw [Machine.join_getElem?_otherWords, Machine.join_getElem?_otherWords]
    exact h.others_eq k
  bounded k words hwords := by
    change e.machine.otherWords[k]?.join = some words at hwords
    rw [Machine.join_getElem?_otherWords] at hwords
    obtain ⟨a, ha, rfl⟩ := Option.map_eq_some_iff.mp hwords
    exact he.bounded k a ha
  finger_eq := congrArg UInt32.toNat h.finger_eq
  joined := ⟨rfl, h.suspendOnEnd_eq⟩
  output_eq := Array.append_empty

theorem SameMachine.refl (e : Engine) : e.SameMachine e := ⟨rfl, rfl, rfl, fun _ => rfl, rfl, rfl⟩

def SameReport (outcome outcome' : Outcome Unit) : Prop :=
  outcome = outcome' ∨ ∃ word word', outcome = .failed (.halt Halt.outOfBounds word) ∧
    outcome' = .failed (.halt Halt.outOfBounds word')

theorem Accords.refl (fault : Fault) : Accords (.failed fault) (.error fault) := Or.inl rfl

theorem Accords.sameReport {outcome outcome' : Outcome Unit} {result : Except Fault Unit}
    (h : Accords outcome result) (h' : Accords outcome' result) : SameReport outcome outcome' := by
  cases result with
  | ok _ =>
    cases outcome <;> cases h
    cases outcome' <;> cases h'
    exact .inl rfl
  | error fault =>
    rcases outcome with _ | f | _
    · cases h
    · rcases outcome' with _ | f' | _
      · cases h'
      · rcases h with rfl | ⟨word, word₁, rfl, rfl⟩
        · rcases h' with rfl | ⟨word', word₁, rfl, rfl⟩
          · exact .inl rfl
          · exact .inr ⟨word₁, word', rfl, rfl⟩
        · rcases h' with rfl | ⟨word', word₁', rfl, -⟩
          · exact .inr ⟨word, word₁, rfl, rfl⟩
          · exact .inr ⟨word, word', rfl, rfl⟩
      · cases h'
    · cases h

theorem SameReport.eq_halt {outcome : Outcome Unit} {reason word : UInt32}
    (h : SameReport (.failed (.halt reason word)) outcome) (hne : reason ≠ Halt.outOfBounds) :
    outcome = .failed (.halt reason word) := by
  rcases h with heq | ⟨word₁, word₂, heq, -⟩
  · exact heq.symm
  · cases heq
    exact absurd rfl hne

def EndsLike (e u : Engine) : Prop :=
  ∀ ticks outcome e', e.run .none false ticks = (some outcome, e') →
    ∃ ticks' outcome' u', u.run .none false ticks' = (some outcome', u') ∧
      SameReport outcome outcome'

/-- Both engines are at the machine `o`, whatever they have written before. -/
theorem Poised.endsLike {s t o : Interpreter} {before before' : Array UInt8} (he : e.Poised s)
    (hu : u.Poised t) (hsim : o.Similar before none s) (hsim' : o.Similar before' none t)
    (ho : o.Addressable) : e.EndsLike u := by
  intro ticks outcome e' hrun
  obtain ⟨n, result, s', hs', hleaves⟩ := he.of_run (ho.of_similar_none hsim) hrun
  have hfst := (hsim.run n).1.symm.trans (hsim'.run n).1
  rw [hs'] at hfst
  have ht' : t.run n = (some result, (t.run n).2) := Prod.ext hfst.symm rfl
  obtain ⟨ticks', outcome', u', hrun', hleaves'⟩ :=
    hu.exists_run (ho.of_similar_none hsim') ht'
  exact ⟨ticks', outcome', u', hrun', hleaves.accords.sameReport hleaves'.accords⟩

theorem Accords.of_halt {reason word : UInt32} {result : Except Fault Unit}
    (h : Accords (.failed (.halt reason word)) result) :
    ∃ word', result = .error (.halt reason word') ∧ (reason = Halt.outOfBounds ∨ word = word') := by
  cases result with
  | ok _ => cases h
  | error fault =>
    rcases h with rfl | ⟨word₁, word', heq, rfl⟩
    · exact ⟨word, rfl, .inr rfl⟩
    · cases heq
      exact ⟨word', rfl, .inl rfl⟩

/-- How an engine ends depends on the machine that it is at: any engine at the same machine, and in
particular one that was restored, ends in the same way with the same fault. Only a halt beyond the
end of the program may show another word; otherwise the word is that of the instruction at which the
plain machine halts. -/
theorem halt_report_of_machine (he : e.Ready input) (hshort : (e.plain input).Addressable) :
    (∀ u : Engine, u.Ready input → e.SameMachine u → e.EndsLike u ∧ u.EndsLike e) ∧
    (∀ config : EngineConfig, config.Reliable input →
      config.suspendOnEnd = e.host.suspendOnEnd → e.Restorable →
      ∃ r, restore e.state config = (.done (), r) ∧ e.EndsLike r ∧ r.EndsLike e) ∧
    ∀ ticks reason word e', e.run .none false ticks = (some (.failed (.halt reason word)), e') →
      ∃ n s word', (e.plain input).run n = (none, s) ∧ s.Offends reason word' ∧
        (reason = Halt.outOfBounds ∨ word = word') := by
  have hp := he.poised
  have hsim := (SameMachine.refl e).similar he
  have ho : Interpreter.Addressable { e.plain input with output := #[] } := hshort.of_similar hsim
  refine ⟨fun u hu hsame => ?_, fun config hconfig hsuspend hr => ?_,
    fun ticks reason word e' hrun => ?_⟩
  · have hsim' := hsame.similar he
    exact ⟨hp.endsLike hu.poised hsim hsim' ho, hu.poised.endsLike hp hsim' hsim ho⟩
  · obtain ⟨r, others, hrestore, hpr, hothers⟩ :=
      hp.restore hconfig hr.zeroLive hr.awaits hr.program hr.live
    have hsim' : Interpreter.Similar #[] none { e.plain input with output := #[] }
        { e.plain input with
          others, output := #[], suspendOnEnd := config.suspendOnEnd } :=
      { hsim with
        others_eq := fun k => (hothers k).symm
        joined := ⟨rfl, hsuspend.symm⟩
        output_eq := rfl }
    exact ⟨r, hrestore, hp.endsLike hpr hsim hsim' ho, hpr.endsLike hp hsim' hsim ho⟩
  · obtain ⟨n, result, s', hplain, hleaves⟩ := hp.of_run hshort hrun
    obtain ⟨word', rfl, hword⟩ := hleaves.accords.of_halt
    obtain ⟨k, s, hreach, hoffends⟩ := Interpreter.run_halt hplain
    exact ⟨k, s, word', hreach, hoffends, hword⟩

/-- Jumps to an instruction that wants a byte, and ends behind it. -/
def leaping : Array Platter := #[0xD2000002, 0xC0000001, 0xB0000002]

def derailed : Array Platter := #[0xD2000002, 0xC0000001, 0xB0000002, 0xE0000000]

/-- The engine that went on and the one that was restored both report the platter that is no
instruction. -/
theorem halt_report_of_machine_malformed :
    ∃ e r : Engine, e.Ready [104] ∧ (e.plain [104]).Addressable ∧
      restore e.state (patient [104]) = (.done (), r) ∧
      (∃ ticks e', e.run .none false ticks =
        (some (.failed (.halt Halt.invalidOperator 0xE0000000)), e')) ∧
      ∃ ticks r', r.run .none false ticks =
        (some (.failed (.halt Halt.invalidOperator 0xE0000000)), r') := by
  have hplain : (Interpreter.start derailed [] true).run 3 =
      (some (.error .suspended), ((Interpreter.start derailed [] true).run 3).2) := rfl
  have hfull : (Interpreter.start derailed [104] true).run 4 =
      (some (.error (.halt Halt.invalidOperator 0xE0000000)),
        ((Interpreter.start derailed [104] true).run 4).2) := rfl
  have hshort : (Interpreter.start derailed ([] ++ [104]) true).Addressable :=
    Interpreter.addressable_of_run hfull (by decide +kernel)
  have hsim := Interpreter.similar_start derailed [] [104] true
  obtain ⟨e₀, hnew, hp⟩ := new_poised patient_nil_reliable (hshort.of_similar hsim).size_lt
  obtain ⟨ticks, outcome, e, hrun, hleaves⟩ := hp.exists_run (hshort.of_similar hsim) hplain
  obtain rfl := hleaves.eq_suspended
  have hready := ready_of_suspended patient_nil_reliable rfl account_mapped abundant_mapped hshort
    hnew hrun (patient_reliable 104 []).delivers
  set fed : Engine := { e with host := { e.host with input := (patient [104]).input } }
  have hfed : fed.plain [104] =
      { ((Interpreter.start derailed [] true).run 3).2 with input := [104] } :=
    congrArg (fun s : Interpreter => { s with input := [104] }) (hleaves.poised rfl).plain_eq
  have hrest : (fed.plain [104]).run 2 =
      (some (.error (.halt Halt.invalidOperator 0xE0000000)), ((fed.plain [104]).run 2).2) := by
    rw [hfed]
    rfl
  have hrestShort : (fed.plain [104]).Addressable :=
    Interpreter.addressable_of_run hrest (by rw [hfed]; decide +kernel)
  have hsize : fed.machine.running.words.size = 4 := congrArg Array.size hleaves.agrees.program_eq
  have hnone : fed.machine.otherWords = #[] := hleaves.agrees.others_eq
  have hrestorable : fed.Restorable := {
    zeroLive := hleaves.agrees.zeroLive_eq
    awaits := show e.Awaits from hp.coherent.awaits_of_run hrun
    program := hsize ▸ by decide
    small := fun k a ha => by
      have hlt := Machine.lt_size_of_array?_other ha
      rw [← Machine.size_otherWords, hnone] at hlt
      cases hlt }
  obtain ⟨-, hrestored, -⟩ := halt_report_of_machine hready hrestShort
  obtain ⟨r, hrestore, hends, -⟩ := hrestored (patient [104]) (patient_reliable 104 [])
    (congrArg Interpreter.suspendOnEnd hfed).symm hrestorable
  obtain ⟨ticks₁, outcome₁, e₁, hrun₁, hleaves₁⟩ := hready.poised.exists_run hrestShort hrest
  obtain rfl : outcome₁ = .failed (.halt Halt.invalidOperator 0xE0000000) :=
    (Accords.refl _).sameReport hleaves₁.accords |>.eq_halt (by decide)
  obtain ⟨ticks₂, outcome₂, r₁, hrun₂, hsame⟩ := hends _ _ _ hrun₁
  obtain rfl := hsame.eq_halt (by decide)
  exact ⟨fed, r, hready, hrestShort, hrestore, ⟨ticks₁, e₁, hrun₁⟩, ticks₂, r₁, hrun₂⟩

def replenished : Engine :=
  let e := ((new leaping (patient [])).2.run .none false 40).2
  { e with host := { e.host with input := (patient [104]).input } }

def reinstated : Engine := (restore replenished.state (patient [104])).2

/-- Beyond the end of the program an engine reports the word that the jump has left, and the
restored engine does not have it. -/
theorem halt_words_differ :
    restore replenished.state (patient [104]) = (.done (), reinstated) ∧
      replenished.SameMachine reinstated ∧
      (replenished.run .none false 40).1 = some (.failed (.halt Halt.outOfBounds 2)) ∧
      (reinstated.run .none false 40).1 = some (.failed (.halt Halt.outOfBounds 0)) := by
  -- One evaluation: the engines are run once for all that is said about them.
  have hruns : (restore replenished.state (patient [104])).1 = .done () ∧
      replenished.machine.registers = reinstated.machine.registers ∧
      replenished.machine.running.words = reinstated.machine.running.words ∧
      replenished.machine.zeroLive = reinstated.machine.zeroLive ∧
      replenished.machine.otherWords = reinstated.machine.otherWords ∧
      replenished.host.finger = reinstated.host.finger ∧
      replenished.host.suspendOnEnd = reinstated.host.suspendOnEnd ∧
      (replenished.run .none false 40).1 = some (.failed (.halt Halt.outOfBounds 2)) ∧
      (reinstated.run .none false 40).1 = some (.failed (.halt Halt.outOfBounds 0)) := by
    decide +kernel
  obtain ⟨hrestore, hregisters, hprogram, hzero, hothers, hfinger, hsuspend, hrun, hrun'⟩ :=
    hruns
  refine ⟨?_, ⟨hregisters, hprogram, hzero, fun k => ?_, hfinger, hsuspend⟩, hrun, hrun'⟩
  · rw [reinstated, ← hrestore, Prod.mk.eta]
  · rw [← Machine.join_getElem?_otherWords, ← Machine.join_getElem?_otherWords, hothers]

end Engine

end PlatterMachine
