import PlatterMachine.Proofs.Engine.LastEntry
import PlatterMachine.Proofs.Engine.Sparing
import PlatterMachine.Proofs.Engine.Standstill

/-!
# Failing leaves the machine as it was

Whatever an instruction asks of the host, it has changed nothing when it fails. So a run that ends
with a fault leaves the machine that it had at the last entry it came to, which is where its last
instruction was complete, and an engine that could run still shows it.
-/

namespace PlatterMachine.Engine

variable {e e' : Engine} {α β : Type}

def Lasting (x : Action Engine α) : Prop := ∀ e : Engine, (x e).2.host.closed = e.host.closed

theorem Lasting.bind {x : Action Engine α} {f : α → Action Engine β} (hx : Lasting x)
    (hf : ∀ a, Lasting (f a)) : Lasting (x >>= f) :=
  Action.rel_snd_bind (r := fun e e' : Engine => e'.host.closed = e.host.closed)
    (fun h h' => h'.trans h) hx hf

theorem lasting_of_composed {manner : Manner} {x : Action Engine α}
    (h : Composed True True manner x) : Lasting x := by
  induction h with
  | value a => exact fun _ => rfl
  | look _ => exact fun _ => rfl
  | crash crash => exact fun _ => rfl
  | fail _ => exact fun _ => rfl
  | machine g => exact fun _ => rfl
  | array place _ => exact fun _ => rfl
  | scratch v => exact fun _ => rfl
  | host _ hclosed => exact fun e => hclosed e.host
  | note event => exact fun e => (harmless_note event e).closed_eq
  | memory _ => exact fun _ => rfl
  | request y activity => exact fun _ => rfl
  | input _ => exact fun _ => rfl
  | output _ activity _ => exact fun _ => rfl
  | bind _ _ hx hf => exact hx.bind hf
  | whole _ hx => exact hx
  | first _ _ hx hf => exact hx.bind hf
  | last _ _ hx hf => exact hx.bind hf

theorem lasting_serveReason (reason : Reason) (left : Exit) : Lasting (serveReason reason left) :=
  lasting_of_composed (composed_serveReason (fun _ => trivial) (fun _ => trivial) left)

theorem untouched_conclude (outcome : Outcome Unit) (e : Engine) :
    e.Untouched (conclude outcome e).2 := by
  rcases snd_conclude outcome e with h | h
  · rw [h]
    exact .refl e
  · rw [h]
    exact ⟨rfl, rfl⟩

theorem untouched_finish (result : RunResult) : result.2.Untouched (finish result).2 := by
  obtain ⟨_ | outcome, e⟩ := result
  · exact .refl e
  · obtain ⟨o, hfinish⟩ := exists_finish outcome e
    rw [hfinish]
    exact harmless_of_composed (composed_flush trivial) e

/-- The last flush gives another outcome to normal ends only. -/
theorem eq_of_finish_conclude {outcome o : Outcome Unit}
    (h : finish (conclude outcome e) = (some o, e')) (hne : outcome ≠ .done ()) : outcome = o := by
  have hconclude : conclude outcome e = (some outcome, (conclude outcome e).2) :=
    Prod.ext (fst_conclude outcome e) rfl
  rw [hconclude, finish_of_ne_done hne] at h
  cases h
  rfl

theorem untouched_opening (e : Engine) (cancelled : Bool) :
    Sum.elim (fun g => e.Untouched g.engine) (fun result => e.Untouched result.2)
      (e.opening cancelled) := by
  have hrenew : e.Untouched { e with host := e.host.renew } := ⟨rfl, rfl⟩
  have hprepare := hrenew.trans (harmless_of_composed composed_prepare _)
  rcases opening_cases cancelled e with
    ⟨m, h, co, hp, -, ho⟩ | ⟨e', hp, -, ho⟩ | ⟨outcome, e', -, hp, ho⟩ <;>
    rw [hp] at hprepare <;> rw [ho]
  · exact hprepare
  · exact hprepare.trans (untouched_conclude _ e')
  · exact hprepare.trans (untouched_conclude outcome e')

theorem closed_report_conclude (outcome : Outcome Unit) (e : Engine) :
    (Moment.report (.inr (conclude outcome e))).2.host.closed = e.host.closed :=
  (untouched_conclude outcome e).closed_eq

/-- The engine of a moment, or the one that a run has left behind, is open as it was. -/
theorem Moment.closed_tick {g : Moment} {interrupted : Bool} {r : Moment ⊕ RunResult}
    (ht : g.Tick interrupted r) :
    (Moment.report r).2.host.closed = g.host.closed := by
  cases ht with
  | canceled _ => exact closed_report_conclude _ _
  | looked _ _ => rfl
  | stepped _ _ _ => rfl
  | crashed _ _ => exact closed_report_conclude _ _
  | unknown _ _ _ _ => exact closed_report_conclude _ _
  | @returned m left reason cancelled _ hstep hreason =>
    have hlasting := lasting_serveReason reason left ⟨m, g.host⟩
    rcases hserve : serveReason reason left ⟨m, g.host⟩ with ⟨(_ | pc) | fault | crash, e'⟩ <;>
      rw [hserve] at hlasting
    · exact (closed_report_conclude (.done ()) e').trans hlasting
    · exact hlasting
    · exact (closed_report_conclude (.failed fault) e').trans hlasting
    · exact (closed_report_conclude (.crashed crash) e').trans hlasting

theorem closed_course (e : Engine) (signals : Signals) (cancelled : Bool) (n : Nat) :
    (Moment.report (e.course signals cancelled n)).2.host.closed = e.host.closed := by
  induction n with
  | zero =>
    have hopening := untouched_opening e cancelled
    unfold course
    cases h : e.opening cancelled with
    | inl g =>
      rw [h] at hopening
      exact hopening.closed_eq
    | inr result =>
      rw [h] at hopening
      exact hopening.closed_eq
  | succ n ih =>
    rw [course_succ]
    cases h : e.course signals cancelled n with
    | inl g =>
      rw [h] at ih
      exact (Moment.closed_tick (Moment.tick_next signals g)).trans ih
    | inr result =>
      rw [h] at ih
      exact ih

theorem closed_run (e : Engine) (signals : Signals) (cancelled : Bool) (fuel : Nat) :
    (e.run signals cancelled fuel).2.host.closed = e.host.closed := by
  cases hstopped : e.host.stopped with
  | true => rw [run, if_pos hstopped]
  | false =>
    rw [run_eq_finish_course hstopped]
    exact (untouched_finish _).closed_eq.trans (closed_course e signals cancelled fuel)

theorem wp_start_opened (program : Array Platter) :
    (start program).wp (fun _ e => e.host.closed = false) (fun _ => True) e :=
  wp_start_of_forall fun _ _ => rfl

theorem wp_resume_opened (s : MachineState) (program : Array Platter) (top : Nat) :
    (resume s program top).wp (fun _ e => e.host.closed = false) (fun _ => True) e :=
  wp_resume_of_forall (fun _ _ => rfl) (fun _ _ _ _ _ h => h) fun _ h => h

/-- Closing stops the engine, and where it cannot release everything the engine stays as it was. -/
theorem stopped_or_closed_close (e : Engine) :
    (close e).2.host.stopped = true ∨ (close e).2.host.stopped = e.host.stopped ∧
      (close e).2.host.closed = e.host.closed := by
  obtain ⟨memory, hclose | hclose⟩ := e.snd_close
  · rw [hclose]
    exact Or.inr ⟨rfl, rfl⟩
  · rw [hclose]
    exact Or.inl rfl

/-- An engine that can run is open. -/
theorem Reachable.opened (h : Reachable e) (hgoing : e.host.stopped = false) :
    e.host.closed = false := by
  induction h with
  | new h => exact (wp_start_opened _).of_done h
  | restore h =>
    obtain ⟨program, top, heq⟩ := restore_eq_resume h
    rw [heq] at h ⊢
    exact (wp_resume_opened _ program top).of_done h
  | @run e signals cancelled fuel _ ih =>
    rw [closed_run]
    cases hstopped : e.host.stopped with
    | true =>
      rw [Engine.run, if_pos hstopped, hstopped] at hgoing
      cases hgoing
    | false => exact ih hstopped
  | supply input _ ih => exact ih hgoing
  | share memory _ ih => exact ih hgoing
  | @close e _ ih =>
    rcases stopped_or_closed_close e with hstopped | ⟨hstopped, hclosed⟩
    · rw [hstopped] at hgoing
      cases hgoing
    · rw [hclosed]
      exact ih (hstopped.symm.trans hgoing)

/-- The engine has the registers, handles and words of `m`, and its state shows them, with the
running program as array 0. -/
structure Preserves (e : Engine) (m : Machine) : Prop where
  registers_eq : e.machine.registers = m.registers
  program_eq : e.machine.running.words = m.running.words
  lookup_eq : ∀ handle, (e.machine.lookup handle).map PlatterArray.words =
    (m.lookup handle).map PlatterArray.words
  state_registers_eq : e.state.registers = m.registers
  state_arrays_eq : e.state.arrays =
    MachineState.collect (stateEntries m.others m.others.size [(0, m.running.words)])

theorem preserves_of_contents {m : Machine} (h : e.machine.contents = m.contents)
    (hopen : e.host.closed = false) : e.Preserves m := by
  have hregisters : e.machine.registers = m.registers := congrArg Contents.registers h
  have hprogram : e.machine.running.words = m.running.words := congrArg Contents.program h
  have hzero : e.machine.zeroLive = m.zeroLive := congrArg Contents.zeroLive h
  have hothers : e.machine.otherWords = m.otherWords := congrArg Contents.others h
  refine ⟨hregisters, hprogram, fun handle => ?_, hregisters, ?_⟩
  · by_cases h0 : handle = 0
    · subst h0
      rw [Machine.lookup_zero, Machine.lookup_zero, hzero]
      split
      · exact congrArg some hprogram
      · rfl
    · rw [Machine.lookup_of_ne_zero h0, Machine.lookup_of_ne_zero h0,
        ← Machine.join_getElem?_otherWords, ← Machine.join_getElem?_otherWords, hothers]
  · simp only [state, MachineState.ofEntries, hopen, Bool.false_eq_true, if_false, stateEntries_eq,
      ← Machine.size_otherWords, hprogram, hothers]

/-- What a run that ends at `g` leaves of the machine, unless it crashes: all of it, as it was at the
last entry if it was not just looking at the cancellation. -/
def Moment.Spares (g : Moment) (result : RunResult) : Prop :=
  ∃ outcome e', result = conclude outcome e' ∧ ((∃ crash, outcome = .crashed crash) ∨
    g.engine.Untouched e' ∧ (g.looking = true ∧ outcome = .failed .canceled ∨
      ∀ co c old, g.machine.running.code = some co → co.Patched old g.machine.running.words →
        g.machine.Standing c co old g.pc → g.machine.contents = c))

theorem Moment.spares_tick {g : Moment} {interrupted : Bool} {r : Moment ⊕ RunResult}
    (ht : g.Tick interrupted r) : Sum.elim (fun _ => True) g.Spares r := by
  -- execution has left the code, so that the machine is as it was at the last entry
  have hleft {m : Machine} {left : Exit} (hstep : g.machine.step interrupted g.pc = .exit m left)
      {outcome : Outcome Unit} {e' : Engine} (hu : Untouched ⟨m, g.host⟩ e') :
      g.Spares (conclude outcome e') := by
    have hcontents := Machine.contents_of_step_exit hstep
    have hstepped : g.engine.Untouched ⟨m, g.host⟩ := ⟨hcontents, rfl⟩
    refine ⟨outcome, e', rfl, Or.inr ⟨hstepped.trans hu, Or.inr ?_⟩⟩
    intro co c old hco hp hstanding
    have hcommits := hstanding.commits_step hco hp interrupted
    rw [hstep] at hcommits
    exact hcontents.symm.trans hcommits.1
  cases ht with
  | canceled hl => exact ⟨_, g.engine, rfl, Or.inr ⟨.refl _, Or.inl ⟨hl, rfl⟩⟩⟩
  | looked _ _ => trivial
  | stepped _ _ _ => trivial
  | crashed _ _ => exact ⟨_, _, rfl, Or.inl ⟨_, rfl⟩⟩
  | unknown _ _ hstep _ => exact hleft hstep (.refl _)
  | @returned m left reason cancelled _ hstep hreason =>
    rcases hserve : serveReason reason left ⟨m, g.host⟩ with ⟨(_ | pc) | fault | crash, e'⟩
    · exact hleft hstep (untouched_of_halted hserve)
    · trivial
    · exact hleft hstep (sparing_serveReason reason left _ fault e' hserve)
    · exact ⟨_, _, rfl, Or.inl ⟨_, rfl⟩⟩

/-- A run that ends with a fault leaves registers, handles and words as they were when its last
instruction was complete: at the last entry it came to, or before the run if it came to none. Only a
cancellation is noticed within an instruction, and then they are as they were when it was. In code too
long to be addressed an entry may be the middle of a routine, and they are as in the last moment. -/
theorem failed_run_preserves_machine {signals : Signals} {cancelled : Bool} {fuel : Nat}
    {fault : Fault} (h : Reachable e) (hgoing : e.host.stopped = false)
    (hrun : e.run signals cancelled fuel = (some (.failed fault), e')) :
    (∃ result, e.opening cancelled = .inr result) ∧ e'.Preserves e.machine ∨
      ∃ n g result, e.course signals cancelled n = .inl g ∧ g.next signals = .inr result ∧
        e'.Preserves g.machine ∧
        (g.looking = true ∧ fault = .canceled ∨
          ∃ co, g.machine.running.code = some co ∧ (co.code.size < Layout.limit →
            ∃ k g₀, e.LastEntry signals cancelled n k g₀ ∧ e'.Preserves g₀.machine)) := by
  have hopen := h.opened hgoing
  rw [run_eq_finish_course hgoing] at hrun
  cases hcourse : e.course signals cancelled fuel with
  | inl g =>
    rw [hcourse] at hrun
    cases hrun
  | inr result =>
  rw [hcourse, Moment.report] at hrun
  have hfinish := untouched_finish result
  rw [hrun] at hfinish
  rcases exists_last_of_course hcourse with hopening | ⟨n, g, -, hg, hnext⟩
  · left
    have hopened := untouched_opening e cancelled
    rw [hopening] at hopened
    have hu := hopened.trans hfinish
    exact ⟨⟨result, hopening⟩, preserves_of_contents hu.contents_eq (hu.closed_eq.trans hopen)⟩
  · right
    have hclosed := closed_course e signals cancelled n
    rw [hg, hopen] at hclosed
    have hspares := Moment.spares_tick (Moment.tick_next signals g)
    rw [hnext] at hspares
    obtain ⟨outcome, e₁, rfl, ⟨crash, rfl⟩ | ⟨hu, hends⟩⟩ := hspares
    · cases eq_of_finish_conclude hrun (by rintro ⟨⟩)
    have hall := hu.trans ((untouched_conclude outcome e₁).trans hfinish)
    have hopen' : e'.host.closed = false := hall.closed_eq.trans hclosed
    refine ⟨n, g, _, hg, hnext, preserves_of_contents hall.contents_eq hopen', ?_⟩
    rcases hends with ⟨hlooking, rfl⟩ | hcontents
    · cases eq_of_finish_conclude hrun (by rintro ⟨⟩)
      exact Or.inl ⟨hlooking, rfl⟩
    · obtain ⟨co, hco, hsituated⟩ := h.coherent.situated hg
      refine Or.inr ⟨co, hco, fun hsize => ?_⟩
      obtain ⟨k, g₀, old, hlast, hp, hstanding⟩ := hsituated hsize
      have heq := hcontents co _ old hco hp hstanding
      exact ⟨k, g₀, hlast, preserves_of_contents (hall.contents_eq.trans heq) hopen'⟩

/-- Loads an array of one platter, for which it has to generate code. -/
def loadsOther : Array Platter := #[0xD2000001, 0x80000011, 0xC0000010]

def oneCodeBlock : EngineConfig :=
  { memory := some (.ofSources .mapped (.failing .mapped [1] []) .mapped) }

def noCodeBlock : Fault :=
  .wrapped .context "generating code"
    (.wrapped .resource "arena: failed to obtain block" (.plain "out of memory"))

/-- The array has been made when there is no block for its code. -/
theorem failed_run_preserves_machine_unmapped :
    (new loadsOther oneCodeBlock).2.Reachable ∧ ∃ e' k g,
      (new loadsOther oneCodeBlock).2.run .none false 20 = (some (.failed noCodeBlock), e') ∧
        (new loadsOther oneCodeBlock).2.LastEntry .none false 9 k g ∧ e'.Preserves g.machine ∧
        e'.machine.registers.get 2 = 1 ∧ e'.state.arrays = [(0, loadsOther), (1, #[0])] := by
  have hreachable : (new loadsOther oneCodeBlock).2.Reachable := .new (by decide +kernel)
  have hends : ((new loadsOther oneCodeBlock).2.run .none false 20).1 =
        some (.failed noCodeBlock) ∧
      ((new loadsOther oneCodeBlock).2.run .none false 20).2.machine.registers.get 2 = 1 ∧
      ((new loadsOther oneCodeBlock).2.run .none false 20).2.state.arrays =
        [(0, loadsOther), (1, #[0])] := by decide +kernel
  have hlast : ((new loadsOther oneCodeBlock).2.course .none false 9).getLeft?.any
      (fun g => g.machine.running.code.all fun co => co.code.size < Layout.limit) = true ∧
      ((new loadsOther oneCodeBlock).2.course .none false 10).isRight = true := by decide +kernel
  rcases hrun : (new loadsOther oneCodeBlock).2.run .none false 20 with ⟨outcome, e'⟩
  rw [hrun] at hends
  obtain ⟨rfl, hleft⟩ := hends
  refine ⟨hreachable, e', ?_⟩
  rcases failed_run_preserves_machine hreachable (by decide +kernel) hrun with
    ⟨⟨result, hopening⟩, -⟩ | ⟨n, g, result, hg, hnext, -, ⟨-, hcanceled⟩ | ⟨co, hco, hentry⟩⟩
  · rw [course, hopening] at hlast
    cases hlast.1
  · cases hcanceled
  -- the run is over after the tenth tick, which is the tick at `g`
  have hover := (course_succ_of_inl hg).trans hnext
  obtain rfl : n = 9 := by
    rcases Nat.lt_trichotomy n 9 with hlt | heq | hlt
    · obtain ⟨j, hj⟩ := Nat.exists_eq_add_of_le (Nat.succ_le_of_lt hlt)
      rw [hj, course_inr_add hover] at hlast
      cases hlast.1
    · exact heq
    · obtain ⟨j, rfl⟩ := Nat.exists_eq_add_of_le (Nat.succ_le_of_lt hlt)
      obtain ⟨result', hten⟩ := Sum.isRight_iff.mp hlast.2
      cases (course_inr_add hten j).symm.trans hg
  rw [hg, Sum.getLeft?_inl, Option.any_some, hco, Option.all_some, decide_eq_true_iff] at hlast
  obtain ⟨k, g₀, hlastEntry, hpreserves⟩ := hentry hlast.1
  exact ⟨k, g₀, rfl, hlastEntry, hpreserves, hleft⟩

end PlatterMachine.Engine
