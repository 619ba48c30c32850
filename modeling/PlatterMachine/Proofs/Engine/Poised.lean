import PlatterMachine.Proofs.Engine.Stepping

/-!
# Runs of engines that are ready to run

An engine is poised when it represents a plain machine and is going to start at its finger. Running it
then comes to an end exactly when the plain machine does, in the same way and with the same registers,
arrays and output. If the end was a suspension, the engine is poised again.
-/

namespace PlatterMachine.Engine

variable {e : Engine} {s s' : Interpreter} {outcome : Outcome Unit} {result : Except Fault Unit}

structure Poised (e : Engine) (s : Interpreter) : Prop where
  coherent : e.Coherent
  represents : e.Represents s
  finger_eq : e.host.finger.toNat = s.finger

structure Agrees (e : Engine) (s : Interpreter) : Prop where
  registers_eq : e.machine.registers = s.registers
  program_eq : e.machine.running.words = s.program
  zeroLive_eq : e.machine.zeroLive = s.zeroLive
  others_eq : e.machine.otherWords = s.others
  emitted_eq : e.host.output.emitted = s.output.toList

theorem Represents.agrees (hr : e.Represents s) : e.Agrees s :=
  ⟨hr.shows.registers_eq, hr.shows.program_eq, hr.shows.zeroLive_eq, hr.shows.others_eq,
    hr.shows.emits.emitted_eq⟩

theorem Represents.renew_eq (hr : e.Represents s) : e.host.renew = e.host := by
  have hinput : { e.host.input.source with cancelled := false } = e.host.input.source := by
    rw [← show e.host.input.source.cancelled = false from hr.shows.delivers.uncancelled]
  have houtput : { e.host.output.sink with cancelled := false } = e.host.output.sink := by
    rw [← show e.host.output.sink.cancelled = false from hr.shows.emits.reliable.uncancelled]
  rw [Host.renew, hinput, houtput]

theorem Represents.prepare (hr : e.Represents s)
    (hsize : Layout.size s.program.toList < Layout.limit) :
    ∃ e' co, prepare e = (.done (), e') ∧ e'.Represents s ∧ e'.host.finger = e.host.finger ∧
      e'.machine.running.code = some co ∧ e'.machine.running.dirty = false := by
  have hprepare : Engine.prepare.wp
      (fun _ e' => ∃ co, e'.Represents s ∧ e'.host.finger = e.host.finger ∧
        e'.machine.running.code = some co ∧ e'.machine.running.dirty = false)
      (fun _ => False) e := by
    refine wp_prepare_of_forall (fun _ => ?_) fun co hco hclean => ⟨co, hr, rfl, hco, hclean⟩
    rw [← hr.shows.program_eq] at hsize
    refine (hr.supplied.wp_regenerate e.machine.array?_running hsize).imp
      (fun _ e' _ h => ?_) fun _ hf => hf
    obtain ⟨hs', hpicture, co, ha⟩ := h
    rw [Machine.array?_running, Option.some.injEq] at ha
    have hshows := hr.shows
    rw [← hpicture] at hshows
    exact ⟨co, ⟨hs', hshows⟩, congrArg Picture.finger hpicture, by rw [ha], by rw [ha]⟩
  obtain ⟨_, e', heq, co, h⟩ := hprepare.exists_done
  exact ⟨e', co, heq, h⟩

theorem Poised.opening (hp : e.Poised s) (hsize : Layout.size s.program.toList < Layout.limit) :
    ∃ g, e.opening false = .inl g ∧ g.At s := by
  have hkept := hp.coherent.opening false
  obtain ⟨e', co, hprepare, hr, hfinger, hco, hclean⟩ := hp.represents.prepare hsize
  have hrenewed : Engine.prepare { e with host := e.host.renew } = (.done (), e') := by
    rw [hp.represents.renew_eq]
    exact hprepare
  have hopening : e.opening false =
      .inl ⟨0, false, true, e'.machine, e'.host, co.entry e'.host.finger⟩ := by
    simp only [Engine.opening, hrenewed, hco]
  rw [hopening] at hkept ⊢
  have hfor : co.IsFor e'.machine.running.words :=
    CodeObject.isFor_of_clean (Sound.toCoherent hkept) hco hclean
  rw [show e'.machine.running.words = s.program from hr.shows.program_eq] at hfor
  refine ⟨_, rfl, co, ⟨rfl, hkept, hr, hco, hfor.code_size_eq ▸ hsize⟩, ?_⟩
  rw [← hp.finger_eq, ← hfinger]
  rfl

structure Leaves (outcome : Outcome Unit) (e : Engine) (result : Except Fault Unit)
    (s : Interpreter) : Prop where
  accords : Accords outcome result
  agrees : e.Agrees s
  flushed : e.host.output.buffer = #[]
  poised : result = .error .suspended → e.Poised s

theorem Leaves.alike (h : Leaves outcome e result s) : Alike outcome result := h.accords.alike

theorem Leaves.eq_suspended (h : Leaves outcome e (.error .suspended) s) :
    outcome = .failed .suspended := by
  have halike := h.alike
  rcases outcome with _ | fault | _
  · cases halike
  · rcases halike with rfl | ⟨reason, word, word', -, -, hhalt⟩
    · rfl
    · cases hhalt
  · cases halike

theorem flush_eq {bytes : Array UInt8} (h : e.host.output.Emits bytes) :
    flush e = (.done (), { e with host := { e.host with output := e.host.output.flush.2 } }) := by
  have hnone := h.flush.1
  rcases hf : e.host.output.flush with ⟨fault, output⟩
  rw [hf] at hnone
  cases hnone
  simp only [Engine.flush, onWriter, hf]

theorem finish_eq {bytes : Array UInt8} (h : e.host.output.Emits bytes) (outcome : Outcome Unit) :
    finish (some outcome, e) =
      (some outcome, { e with host := { e.host with output := e.host.output.flush.2 } }) := by
  simp only [finish, flush_eq h]

theorem Ends.finish {ended : RunResult} (h : Ends ended result s)
    (hc : (finish ended).2.Coherent) :
    ∃ outcome e, finish ended = (some outcome, e) ∧ Leaves outcome e result s := by
  obtain ⟨outcome, e, rfl, haccords, hr, hfinger⟩ := h
  have hemits : e.host.output.Emits s.output := hr.shows.emits
  have hflush := hemits.flush
  have hagrees := (hr.withOutput hflush.2.1).agrees
  have hstopped : result ≠ .error .suspended →
      Leaves outcome { e.stop with host := { e.stop.host with output := e.host.output.flush.2 } }
        result s := fun hne =>
    ⟨haccords, ⟨hagrees.registers_eq, hagrees.program_eq, hagrees.zeroLive_eq, hagrees.others_eq,
      hagrees.emitted_eq⟩, hflush.2.2, fun h => absurd h hne⟩
  cases outcome with
  | crashed crash => cases haccords
  | done _ =>
    refine ⟨_, _, finish_eq (e := e.stop) hemits _, hstopped fun hsuspended => ?_⟩
    rw [hsuspended] at haccords
    cases haccords
  | failed fault =>
    by_cases hsuspended : fault.isSuspended = true
    · have hconclude : conclude (.failed fault) e = (some (.failed fault), e) := by
        simp only [conclude, hsuspended, if_true]
      rw [hconclude, finish_eq hemits] at hc ⊢
      exact ⟨_, _, rfl, haccords, hagrees, hflush.2.2,
        fun h => ⟨hc, hr.withOutput hflush.2.1, hfinger h⟩⟩
    · have hconclude : conclude (.failed fault) e = (some (.failed fault), e.stop) := by
        simp only [conclude, hsuspended, if_false, Bool.false_eq_true]
      rw [hconclude, finish_eq (e := e.stop) hemits]
      refine ⟨_, _, rfl, hstopped fun h => hsuspended ?_⟩
      rw [h] at haccords
      rcases haccords with rfl | ⟨_, _, _, hhalt⟩
      · rfl
      · cases hhalt

theorem Poised.course_eq (hp : e.Poised s) (hs : s.Addressable) :
    ∃ g : Moment, g.At s ∧ ∀ ticks, e.course .none false ticks = g.after .none ticks := by
  obtain ⟨g, hopening, hat⟩ := hp.opening hs.size_lt
  refine ⟨g, hat, fun ticks => ?_⟩
  rw [course, hopening]

theorem Poised.run_eq (hp : e.Poised s) (ticks : Nat) :
    e.run .none false ticks = finish (Moment.report (e.course .none false ticks)) :=
  run_eq_finish_course hp.represents.shows.going .none false ticks

/-- The engine ends if the plain machine does. -/
theorem Poised.exists_run (hp : e.Poised s) (hs : s.Addressable) {n : Nat}
    (hrun : s.run n = (some result, s')) :
    ∃ ticks outcome e', e.run .none false ticks = (some outcome, e') ∧
      Leaves outcome e' result s' := by
  obtain ⟨g, hat, hcourse⟩ := hp.course_eq hs
  obtain ⟨ticks, ended, hafter, hends⟩ := hat.exists_ends hs hrun
  have heq : e.run .none false ticks = finish ended := by
    rw [hp.run_eq, hcourse, hafter, Moment.report]
  have hc := (hp.coherent.run .none false ticks).1
  rw [heq] at hc
  obtain ⟨outcome, e', hfinish, hleaves⟩ := hends.finish hc
  exact ⟨ticks, outcome, e', heq.trans hfinish, hleaves⟩

/-- A run that has ended does not depend on the number of ticks. -/
theorem Poised.run_unique (hp : e.Poised s) {ticks₁ ticks₂ : Nat} {outcome₁ outcome₂ : Outcome Unit}
    {e₁ e₂ : Engine} (h₁ : e.run .none false ticks₁ = (some outcome₁, e₁))
    (h₂ : e.run .none false ticks₂ = (some outcome₂, e₂)) : outcome₁ = outcome₂ ∧ e₁ = e₂ := by
  rw [hp.run_eq] at h₁ h₂
  rcases hg₁ : e.course .none false ticks₁ with g₁ | ended₁
  · rw [hg₁] at h₁
    cases h₁
  rcases hg₂ : e.course .none false ticks₂ with g₂ | ended₂
  · rw [hg₂] at h₂
    cases h₂
  have hlater₁ := course_inr_add hg₁ ticks₂
  have hlater₂ := course_inr_add hg₂ ticks₁
  rw [Nat.add_comm, hlater₂] at hlater₁
  cases hlater₁
  rw [hg₁] at h₁
  rw [hg₂] at h₂
  cases h₁.symm.trans h₂
  exact ⟨rfl, rfl⟩

/-- The plain machine ends if the engine does. -/
theorem Poised.of_run (hp : e.Poised s) (hs : s.Addressable) {ticks : Nat} {e' : Engine}
    (hrun : e.run .none false ticks = (some outcome, e')) :
    ∃ n result s', s.run n = (some result, s') ∧ Leaves outcome e' result s' := by
  rcases hplain : s.run ticks with ⟨_ | result, s'⟩
  · -- the engine takes at least one tick for every step that the plain machine has taken
    obtain ⟨g, hat, hcourse⟩ := hp.course_eq hs
    obtain ⟨later, g', hle, hafter, -⟩ := hat.exists_after hs hplain
    obtain ⟨k, rfl⟩ := Nat.exists_eq_add_of_le hle
    rw [hp.run_eq] at hrun
    rcases hg : e.course .none false ticks with g₁ | ended
    · rw [hg] at hrun
      cases hrun
    · rw [← hcourse, course_inr_add hg] at hafter
      cases hafter
  · obtain ⟨ticks', outcome', e'', hrun', hleaves⟩ := hp.exists_run hs hplain
    obtain ⟨rfl, rfl⟩ := hp.run_unique hrun hrun'
    exact ⟨ticks, result, s', hplain, hleaves⟩

end PlatterMachine.Engine
