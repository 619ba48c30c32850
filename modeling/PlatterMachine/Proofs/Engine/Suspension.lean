import PlatterMachine.Proofs.Engine.Restoring

/-!
# Suspended runs continue as if nothing had happened

An engine that waits for input can be run again when there is more, or its state can be restored in
another engine. Both come to what one engine comes to that has had all the input from the start, and
the output before and after the suspension is the output of that engine.
-/

namespace PlatterMachine

namespace Interpreter

variable {before : Array UInt8} {s s' t : Interpreter}

theorem run_none_add {n : Nat} (h : s.run n = (none, s')) (k : Nat) : s.run (n + k) = s'.run k := by
  induction n generalizing s with
  | zero =>
    cases h
    rw [Nat.zero_add]
  | succ n ih =>
    rw [run] at h
    rw [Nat.add_right_comm, run]
    cases hstep : s.step with
    | next s₁ =>
      rw [hstep] at h
      exact ih h
    | stop result s₁ =>
      rw [hstep] at h
      cases h

/-- The rest of a run that has come as far as `s'`. -/
theorem exists_run_of_run {n k : Nat} {result : Except Fault Unit} (h : s.run n = (none, s'))
    (hrun : s.run k = (some result, t)) : ∃ j, s'.run j = (some result, t) := by
  rcases Nat.le_total n k with hle | hle
  · obtain ⟨j, rfl⟩ := Nat.exists_eq_add_of_le hle
    exact ⟨j, (run_none_add h j).symm.trans hrun⟩
  · obtain ⟨j, rfl⟩ := Nat.exists_eq_add_of_le hle
    rw [run_add hrun] at h
    cases h

theorem Addressable.of_run (h : s.Addressable) {n : Nat} (hrun : s.run n = (none, s')) :
    s'.Addressable := fun k s₁ hk => h (n + k) s₁ ((run_none_add hrun k).trans hk)

theorem Addressable.of_similar {seam : Option (List UInt8 × Bool)} (h : t.Addressable)
    (hsim : Similar before seam s t) : s.Addressable := by
  intro n s' hrun
  obtain ⟨t', hrun', hsim'⟩ := hsim.run_none hrun
  rw [hsim'.program_eq]
  exact h n t' hrun'

/-- Output comes behind the output there is. -/
theorem exists_output_append {result : Except Fault Unit} {n : Nat}
    (hbounded : ∀ (k : Nat) words, s.others[k]?.join = some words → words.size < 0x100000000)
    (h : s.run n = (some result, s')) : ∃ more : Array UInt8, s'.output = s.output ++ more := by
  have hsim : Similar s.output none { s with output := #[] } s :=
    ⟨rfl, rfl, rfl, fun _ => rfl, hbounded, rfl, ⟨rfl, rfl⟩, by simp⟩
  obtain ⟨-, hsim'⟩ := hsim.run n
  rw [h] at hsim'
  exact ⟨_, hsim'.output_eq.symm⟩

theorem similar_start (program : Array Platter) (input more : List UInt8) (suspendOnEnd : Bool) :
    Similar #[] (some (more, suspendOnEnd)) (start program input true)
      (start program (input ++ more) suspendOnEnd) where
  registers_eq := rfl
  program_eq := rfl
  zeroLive_eq := rfl
  others_eq _ := rfl
  bounded k words h := by cases h
  finger_eq := rfl
  joined := ⟨rfl, rfl, rfl⟩
  output_eq := rfl

end Interpreter

namespace Engine

variable {e e' u u' : Engine} {before : List UInt8} {outcome outcome' : Outcome Unit}

/-- Two runs have ended in the same way; the word of a halt counts only when it was an invalid
operator. -/
def Concur : Outcome Unit → Outcome Unit → Prop
  | .done (), .done () => True
  | .failed fault, .failed fault' => fault = fault' ∨ ∃ reason word word',
      reason ≠ Halt.invalidOperator ∧ fault = .halt reason word ∧ fault' = .halt reason word'
  | _, _ => False

theorem Alike.concur {result : Except Fault Unit} (h : Alike outcome result)
    (h' : Alike outcome' result) : Concur outcome outcome' := by
  cases result with
  | ok _ =>
    cases outcome <;> cases h
    cases outcome' <;> cases h'
    trivial
  | error fault =>
    rcases outcome with _ | f | _
    · cases h
    · rcases outcome' with _ | f' | _
      · cases h'
      · rcases h with rfl | ⟨reason, word, word₁, hreason, rfl, rfl⟩
        · rcases h' with rfl | ⟨reason, word, word₁, hreason, rfl, rfl⟩
          · exact .inl rfl
          · exact .inr ⟨reason, word₁, word, hreason, rfl, rfl⟩
        · rcases h' with rfl | ⟨reason', word', word₁', hreason', rfl, heq⟩
          · exact .inr ⟨reason, word, word₁, hreason, rfl, rfl⟩
          · cases heq
            exact .inr ⟨reason, word, word', hreason, rfl, rfl⟩
      · cases h'
    · cases h

/-- `e` has been run to `e'`, and `u` from the start to `u'`. They show the same registers and arrays
and have ended in the same way. What `e` has written in the run is what `u` has written after
`before`. -/
structure Coincide (before : List UInt8) (e : Engine) (outcome : Outcome Unit) (e' : Engine)
    (outcome' : Outcome Unit) (u' : Engine) : Prop where
  concur : Concur outcome outcome'
  registers_eq : e'.machine.registers = u'.machine.registers
  program_eq : e'.machine.running.words = u'.machine.running.words
  lookup_eq : ∀ handle, (e'.machine.lookup handle).map PlatterArray.words =
    (u'.machine.lookup handle).map PlatterArray.words
  flushed : e'.host.output.buffer = #[] ∧ u'.host.output.buffer = #[]
  output_eq : ∃ resumed, e'.host.output.emitted = e.host.output.emitted ++ resumed ∧
    u'.host.output.emitted = before ++ resumed

/-- One of the engines ends exactly when the other does, and then they coincide. -/
def Continues (before : List UInt8) (e u : Engine) : Prop :=
  (∀ ticks outcome e', e.run .none false ticks = (some outcome, e') →
    ∃ ticks' outcome' u', u.run .none false ticks' = (some outcome', u') ∧
      Coincide before e outcome e' outcome' u') ∧
  ∀ ticks outcome' u', u.run .none false ticks = (some outcome', u') →
    ∃ ticks' outcome e', e.run .none false ticks' = (some outcome, e') ∧
      Coincide before e outcome e' outcome' u'

theorem Agrees.lookup_eq {s : Interpreter} (h : e.Agrees s) (handle : UInt32) :
    (e.machine.lookup handle).map PlatterArray.words =
      if handle = 0 then if s.zeroLive then some s.program else none
      else s.others[handle.toNat - 1]?.join := by
  rw [Machine.lookup]
  split
  · rw [h.zeroLive_eq]
    split
    · rw [Option.map_some, h.program_eq]
    · rfl
  · rw [← h.others_eq, Machine.join_getElem?_otherWords, Machine.array?_other]

theorem Leaves.coincide {first : Array UInt8} {result : Except Fault Unit} {s s' t t' : Interpreter}
    (hp : e.Poised s) (hsim : s.Similar first none t) {n : Nat}
    (hrun : s.run n = (some result, s')) (hrun' : t.run n = (some result, t'))
    (h : Leaves outcome e' result s') (h' : Leaves outcome' u' result t') :
    Coincide t.output.toList e outcome e' outcome' u' := by
  obtain ⟨-, hsim'⟩ := hsim.run n
  rw [hrun, hrun'] at hsim'
  obtain ⟨more, hmore⟩ := Interpreter.exists_output_append hsim.bounded hrun
  refine ⟨h.alike.concur h'.alike, ?_, ?_, fun handle => ?_, ⟨h.flushed, h'.flushed⟩,
    more.toList, ?_, ?_⟩
  · rw [h.agrees.registers_eq, h'.agrees.registers_eq]
    exact hsim'.registers_eq
  · rw [h.agrees.program_eq, h'.agrees.program_eq]
    exact hsim'.program_eq
  · rw [h.agrees.lookup_eq, h'.agrees.lookup_eq, ← hsim'.zeroLive_eq, ← hsim'.program_eq,
      ← hsim'.others_eq]
  · rw [h.agrees.emitted_eq, hmore, hp.represents.agrees.emitted_eq, Array.toList_append]
  · rw [h'.agrees.emitted_eq, ← hsim'.output_eq, ← hsim.output_eq, hmore]
    simp

/-- `e` stands where `u` comes to on its way. -/
theorem Poised.continues {first : Array UInt8} {s t₀ t : Interpreter} (he : e.Poised s)
    (hu : u.Poised t₀) (hshort : t₀.Addressable) {n : Nat} (hreach : t₀.run n = (none, t))
    (hsim : s.Similar first none t) : Continues t.output.toList e u := by
  have hs : s.Addressable := (hshort.of_run hreach).of_similar hsim
  refine ⟨fun ticks outcome e' hrun => ?_, fun ticks outcome' u' hrun => ?_⟩
  · obtain ⟨k, result, s', hs', hleaves⟩ := he.of_run hs hrun
    have hfst := (hsim.run k).1
    rw [hs'] at hfst
    have ht' : t.run k = (some result, (t.run k).2) := Prod.ext hfst.symm rfl
    obtain ⟨ticks', outcome', u', hrun', hleaves'⟩ :=
      hu.exists_run hshort ((Interpreter.run_none_add hreach k).trans ht')
    exact ⟨ticks', outcome', u', hrun', hleaves.coincide he hsim hs' ht' hleaves'⟩
  · obtain ⟨k, result, t', hk, hleaves'⟩ := hu.of_run hshort hrun
    obtain ⟨j, ht'⟩ := Interpreter.exists_run_of_run hreach hk
    have hfst := (hsim.run j).1
    rw [ht'] at hfst
    have hs' : s.run j = (some result, (s.run j).2) := Prod.ext hfst rfl
    obtain ⟨ticks', outcome, e', hrun', hleaves⟩ := he.exists_run hs hs'
    exact ⟨ticks', outcome, e', hrun', hleaves.coincide he hsim hs' ht' hleaves'⟩

/-- An engine that stands where `t` comes to with more input ahead, and is suspended then, stands
where `t` comes to later. -/
theorem Poised.exists_suspended {first : Array UInt8} {more : List UInt8} {suspendOnEnd : Bool}
    {s t₀ t : Interpreter} (hp : e.Poised s) (hshort : t₀.Addressable) {n : Nat}
    (hreach : t₀.run n = (none, t)) (hsim : s.Similar first (some (more, suspendOnEnd)) t)
    {ticks : Nat} (hrun : e.run .none false ticks = (some (.failed .suspended), e')) :
    ∃ s' t' n', e'.Poised s' ∧ e'.host.output.buffer = #[] ∧ s'.suspendOnEnd = true ∧
      s'.finger < s'.program.size ∧ t₀.run n' = (none, t') ∧
      Interpreter.Similar first none { s' with input := more, suspendOnEnd } t' := by
  obtain ⟨k, result, s', hplain, hleaves⟩ :=
    hp.of_run ((hshort.of_run hreach).of_similar hsim) hrun
  have hresult : result = .error .suspended := by
    cases result with
    | ok _ => cases hleaves.alike
    | error fault =>
      rcases hleaves.alike with rfl | ⟨reason, word, word', -, hhalt, -⟩
      · rfl
      · cases hhalt
  subst hresult
  obtain ⟨k, hreach', hinput, hfinger⟩ := Interpreter.run_suspended hplain
  obtain ⟨t', hlater, hsim'⟩ := hsim.run_none hreach'
  obtain ⟨hjoined, hwaits, hsetting⟩ := hsim'.joined
  rw [hinput, List.nil_append] at hjoined
  refine ⟨s', t', n + k, hleaves.poised rfl, hleaves.flushed, hwaits, hfinger,
    (Interpreter.run_none_add hreach k).trans hlater, ?_⟩
  exact { hsim' with joined := ⟨hjoined, hsetting.symm⟩ }

/-- A suspended engine represents a machine that `t`, which has all the input, gets past. -/
theorem exists_suspended {program : Array Platter} {config : EngineConfig} {input more : List UInt8}
    {suspendOnEnd : Bool} (hconfig : config.Reliable input) (hsuspend : config.suspendOnEnd = true)
    (hshort : (Interpreter.start program (input ++ more) suspendOnEnd).Addressable) {e₀ e : Engine}
    (hnew : new program config = (.done (), e₀)) {ticks : Nat}
    (hrun : e₀.run .none false ticks = (some (.failed .suspended), e)) :
    ∃ s t n, e.Poised s ∧ e.host.output.buffer = #[] ∧ s.suspendOnEnd = true ∧
      s.finger < s.program.size ∧
      (Interpreter.start program (input ++ more) suspendOnEnd).run n = (none, t) ∧
      Interpreter.Similar #[] none { s with input := more, suspendOnEnd } t := by
  have hsim := Interpreter.similar_start program input more suspendOnEnd
  obtain ⟨e₁, hnew₁, hp⟩ := new_poised hconfig (hshort.of_similar hsim).size_lt
  cases hnew.symm.trans hnew₁
  rw [hsuspend] at hp
  exact hp.exists_suspended hshort (n := 0) rfl hsim hrun

/-- Running a suspended engine again when there is more input, and restoring its state in an engine
with that input, both come to what an engine comes to that had all the input from the start. No byte
of the output is lost or written twice. Only for restoring does array 0 have to be live, since a state
does not tell whether it is. -/
theorem suspension_transparent {program : Array Platter} {config full : EngineConfig}
    {input more : List UInt8} (hconfig : config.Reliable input)
    (hsuspend : config.suspendOnEnd = true) (hfull : full.Reliable (input ++ more))
    (hshort : (Interpreter.start program (input ++ more) full.suspendOnEnd).Addressable)
    {e₀ e : Engine} {ticks : Nat} (hnew : new program config = (.done (), e₀))
    (hrun : e₀.run .none false ticks = (some (.failed .suspended), e)) :
    e.host.output.buffer = #[] ∧
    ∃ u, new program full = (.done (), u) ∧
      (∀ reader : Reader, reader.Delivers more → full.suspendOnEnd = true →
        Continues e.host.output.emitted { e with host := { e.host with input := reader } } u) ∧
      ∀ other : EngineConfig, other.Reliable more → other.suspendOnEnd = full.suspendOnEnd →
        e.machine.zeroLive = true →
        (∀ i a, e.machine.array? (.other i) = some a → i + 1 < handleLimit) →
        ∃ r, restore e.state other = (.done (), r) ∧ r.host.output.emitted = [] ∧
          Continues e.host.output.emitted r u := by
  obtain ⟨s, t, n, hp, hflushed, hwaits, hfinger, hreach, hsim⟩ :=
    exists_suspended hconfig hsuspend hshort hnew hrun
  obtain ⟨u, hnewu, hpu⟩ := new_poised hfull hshort.size_lt
  have hemitted : e.host.output.emitted = t.output.toList := by
    rw [hp.represents.agrees.emitted_eq, ← hsim.output_eq, Array.empty_append]
  rw [hemitted]
  refine ⟨hflushed, u, hnewu, fun reader hdelivers hsetting => ?_,
    fun other hother hsetting hzero hhandles => ?_⟩
  · have hp' : Poised { e with host := { e.host with input := reader } } { s with input := more } :=
      ⟨hp.coherent.of_host rfl rfl rfl, hp.represents.withInput hdelivers, hp.finger_eq⟩
    rw [hsetting, ← hwaits] at hsim
    exact hp'.continues hpu hshort hreach hsim
  · have hsize : s.program.size < Layout.limit := by
      rw [show s.program = t.program from hsim.program_eq]
      exact Layout.words_lt_limit (hshort n t hreach)
    have hlive (k : Nat) (words : Array Platter) (h : s.others[k]?.join = some words) :
        k + 1 < handleLimit ∧ words.size < Layout.limit := by
      refine ⟨?_, hsim.bounded k words h⟩
      rw [← show e.machine.otherWords = s.others from hp.represents.shows.others_eq,
        Machine.join_getElem?_otherWords] at h
      obtain ⟨a, ha, -⟩ := Option.map_eq_some_iff.mp h
      exact hhandles k a ha
    obtain ⟨r, others, hrestore, hpr, hothers⟩ := hp.restore hother
      (hp.represents.agrees.zeroLive_eq.symm.trans hzero) hfinger hsize hlive
    refine ⟨r, hrestore, hpr.represents.agrees.emitted_eq, ?_⟩
    have hsim' : Interpreter.Similar s.output none
        { s with others, input := more, output := #[], suspendOnEnd := other.suspendOnEnd } t :=
      { hsim with
        others_eq := fun k => (hothers k).trans (hsim.others_eq k)
        bounded := fun k a h => hsim.bounded k a ((hothers k).symm.trans h)
        joined := ⟨hsim.joined.1, hsetting.trans hsim.joined.2⟩
        output_eq := by
          rw [← hsim.output_eq]
          simp }
    exact hpr.continues hpu hshort hreach hsim'

/-- Writes the first byte, makes an array, and then wants another byte to write. -/
def patientEcho : Array Platter :=
  #[0xB0000002, 0xA0000002, 0x8000000A, 0xB0000003, 0xA0000003, 0x70000000]

def patient (input : List UInt8) : EngineConfig :=
  { input := ⟨⟨[.data input], false⟩, []⟩, output := {}, suspendOnEnd := true }

theorem patient_reliable (b : UInt8) (rest : List UInt8) :
    (patient (b :: rest)).Reliable (b :: rest) :=
  ⟨Memory.covers_mapped, ⟨by simp [patient, Source.payload], by simp [patient, Source.Steady], rfl⟩,
    ⟨rfl, rfl, rfl, rfl, rfl⟩, rfl, rfl⟩

theorem patient_nil_reliable : (patient []).Reliable [] :=
  ⟨Memory.covers_mapped, ⟨rfl, trivial, rfl⟩, ⟨rfl, rfl, rfl, rfl, rfl⟩, rfl, rfl⟩

theorem suspension_transparent_patientEcho :
    ∃ e₀ ticks e, new patientEcho (patient [104]) = (.done (), e₀) ∧
      e₀.run .none false ticks = (some (.failed .suspended), e) ∧
      e.host.output.emitted = [104] ∧
      (∃ ticks' e', Engine.run .none false ticks'
          { e with host := { e.host with input := (patient [105]).input } } =
            (some (.done ()), e') ∧ e'.host.output.emitted = [104, 105]) ∧
      ∃ r ticks' r', restore e.state (patient [105]) = (.done (), r) ∧
        r.run .none false ticks' = (some (.done ()), r') ∧ r'.host.output.emitted = [105] := by
  have hplain : (Interpreter.start patientEcho [104] true).run 4 = (some (.error .suspended),
      ((Interpreter.start patientEcho [104] true).run 4).2) := rfl
  have hshort : (Interpreter.start patientEcho [104] true).Addressable :=
    Interpreter.addressable_of_run hplain (by decide +kernel)
  have hplain' : (Interpreter.start patientEcho [104, 105] true).run 6 = (some (.ok ()),
      ((Interpreter.start patientEcho [104, 105] true).run 6).2) := rfl
  have hshort' : (Interpreter.start patientEcho [104, 105] true).Addressable :=
    Interpreter.addressable_of_run hplain' (by decide +kernel)
  obtain ⟨e₀, hnew, hp⟩ := new_poised (patient_reliable 104 []) hshort.size_lt
  obtain ⟨ticks, outcome, e, hrun, hleaves⟩ := hp.exists_run hshort hplain
  obtain rfl : outcome = .failed .suspended := by
    rcases outcome with _ | fault | _
    · cases hleaves.alike
    · rcases hleaves.alike with rfl | ⟨reason, word, word', -, -, hhalt⟩
      · rfl
      · cases hhalt
    · cases hleaves.alike
  have hemitted : e.host.output.emitted = [104] := hleaves.agrees.emitted_eq
  have hhandles (i : Nat) (a : PlatterArray) (ha : e.machine.array? (.other i) = some a) :
      i + 1 < handleLimit := by
    have hlt := Machine.lt_size_of_array?_other ha
    rw [← Machine.size_otherWords, hleaves.agrees.others_eq] at hlt
    exact Nat.lt_of_lt_of_le (Nat.succ_lt_succ hlt) (by decide +kernel)
  obtain ⟨-, u, hnewu, hagain, hrestored⟩ := suspension_transparent (patient_reliable 104 []) rfl
    (patient_reliable 104 [105]) hshort' hnew hrun
  obtain ⟨u₁, hnewu₁, hpu⟩ := new_poised (patient_reliable 104 [105]) hshort'.size_lt
  cases hnewu.symm.trans hnewu₁
  obtain ⟨ticksu, outcomeu, u', hrunu, hleavesu⟩ := hpu.exists_run hshort' hplain'
  have hends (x : Engine) (hx : Continues e.host.output.emitted x u) :
      ∃ ticks' x', x.run .none false ticks' = (some (.done ()), x') ∧
        x'.host.output.emitted = x.host.output.emitted ++ [105] := by
    obtain ⟨ticks', outcome, x', hrunx, hcoincide⟩ := hx.2 ticksu outcomeu u' hrunu
    obtain ⟨resumed, hx', hu'⟩ := hcoincide.output_eq
    rw [hleavesu.agrees.emitted_eq, hemitted] at hu'
    cases hu'
    have hconcur := hcoincide.concur
    cases outcomeu with
    | done _ =>
      cases outcome with
      | done _ => exact ⟨ticks', x', hrunx, hx'⟩
      | failed _ => cases hconcur
      | crashed _ => cases hconcur
    | failed _ => cases hleavesu.alike
    | crashed _ => cases hleavesu.alike
  obtain ⟨r, hrestore, hempty, hr⟩ := hrestored _ (patient_reliable 105 []) rfl
    hleaves.agrees.zeroLive_eq hhandles
  obtain ⟨ticks₁, e₁, hrun₁, hemitted₁⟩ := hends _ (hagain _ (patient_reliable 105 []).delivers rfl)
  obtain ⟨ticks₂, r', hrun₂, hemitted₂⟩ := hends r hr
  rw [hempty] at hemitted₂
  refine ⟨e₀, ticks, e, hnew, hrun, hemitted, ⟨ticks₁, e₁, hrun₁, ?_⟩, r, ticks₂, r', hrestore,
    hrun₂, hemitted₂⟩
  rw [hemitted₁, hemitted]
  rfl

end Engine

end PlatterMachine
