import PlatterMachine.Engine.Run
import PlatterMachine.Proofs.Action

/-!
# Runs, tick by tick

A `Moment` is a run between two ticks. `Moment.next` is one tick of `Engine.loop` and `Moment.after`
any number of them, so that a run is its opening followed by ticks. What holds at the opening and is
kept by every tick holds all through a run.
-/

namespace PlatterMachine.Engine

/-- A run between two ticks. -/
structure Moment where
  tick : Nat
  cancelled : Bool
  looking : Bool
  machine : Machine
  host : Host
  pc : UInt32

namespace Moment

def engine (g : Moment) : Engine := ⟨g.machine, g.host⟩

def next (signals : Signals) (g : Moment) : Moment ⊕ RunResult :=
  let cancelled := g.cancelled || signals.cancels g.tick
  if g.looking then
    if cancelled || g.host.cancelled then .inr (conclude (.failed .canceled) g.engine)
    else .inl { g with tick := g.tick + 1, cancelled, looking := false }
  else
    match g.machine.step (cancelled && signals.shows g.tick) g.pc with
    | .next m pc => .inl ⟨g.tick + 1, cancelled, false, m, g.host, pc⟩
    | .crash m crash => .inr (conclude (.crashed crash) ⟨m, g.host⟩)
    | .exit m exit =>
      match Reason.ofCode? exit.reason with
      | none =>
        .inr (conclude (.failed (.plain ("um: unexpected return reason " ++
          Reason.nameOf exit.reason))) ⟨m, g.host⟩)
      | some reason =>
        match serveReason reason exit ⟨m, g.host⟩ with
        | (.done (some pc), ⟨m, h⟩) => .inl ⟨g.tick + 1, cancelled, true, m, h, pc⟩
        | (.done none, e) => .inr (conclude (.done ()) e)
        | (.failed fault, e) => .inr (conclude (.failed fault) e)
        | (.crashed crash, e) => .inr (conclude (.crashed crash) e)

def served (tick : Nat) (cancelled : Bool) :
    Outcome (Option UInt32) × Engine → Moment ⊕ RunResult
  | (.done (some pc), e) => .inl ⟨tick, cancelled, true, e.machine, e.host, pc⟩
  | (.done none, e) => .inr (conclude (.done ()) e)
  | (.failed fault, e) => .inr (conclude (.failed fault) e)
  | (.crashed crash, e) => .inr (conclude (.crashed crash) e)

def interrupted (signals : Signals) (g : Moment) : Bool :=
  (g.cancelled || signals.cancels g.tick) && signals.shows g.tick

def exit? (interrupted : Bool) (g : Moment) : Option (Machine × Exit) :=
  if g.looking then none
  else
    match g.machine.step interrupted g.pc with
    | .exit m left => some (m, left)
    | _ => none

theorem exit?_eq_some_iff {interrupted : Bool} {g : Moment} {m : Machine} {left : Exit} :
    g.exit? interrupted = some (m, left) ↔
      g.looking = false ∧ g.machine.step interrupted g.pc = .exit m left := by
  unfold exit?
  split
  · rename_i hl
    simp [hl]
  · rename_i hl
    cases g.machine.step interrupted g.pc <;> simp [hl]

inductive Tick (interrupted : Bool) (g : Moment) : Moment ⊕ RunResult → Prop
  | canceled (hl : g.looking = true) :
      Tick interrupted g (.inr (conclude (.failed .canceled) g.engine))
  | looked (cancelled : Bool) (hl : g.looking = true) :
      Tick interrupted g (.inl { g with tick := g.tick + 1, cancelled, looking := false })
  | stepped {m : Machine} {pc : UInt32} (cancelled : Bool) (hl : g.looking = false)
      (hstep : g.machine.step interrupted g.pc = .next m pc) :
      Tick interrupted g (.inl ⟨g.tick + 1, cancelled, false, m, g.host, pc⟩)
  | crashed {m : Machine} {crash : Crash} (hl : g.looking = false)
      (hstep : g.machine.step interrupted g.pc = .crash m crash) :
      Tick interrupted g (.inr (conclude (.crashed crash) ⟨m, g.host⟩))
  | unknown {m : Machine} {exit : Exit} (message : String) (hl : g.looking = false)
      (hstep : g.machine.step interrupted g.pc = .exit m exit)
      (hreason : Reason.ofCode? exit.reason = none) :
      Tick interrupted g (.inr (conclude (.failed (.plain message)) ⟨m, g.host⟩))
  | returned {m : Machine} {exit : Exit} {reason : Reason} (cancelled : Bool)
      (hl : g.looking = false) (hstep : g.machine.step interrupted g.pc = .exit m exit)
      (hreason : Reason.ofCode? exit.reason = some reason) :
      Tick interrupted g (served (g.tick + 1) cancelled (serveReason reason exit ⟨m, g.host⟩))

theorem tick_next (signals : Signals) (g : Moment) :
    Tick (g.interrupted signals) g (g.next signals) := by
  unfold next
  dsimp only
  split
  · rename_i hl
    split
    · exact .canceled hl
    · exact .looked _ hl
  · rename_i hl
    rw [Bool.not_eq_true] at hl
    change Tick _ g (match g.machine.step (g.interrupted signals) g.pc with
      | .next m pc => _
      | .crash m crash => _
      | .exit m exit => _)
    cases hstep : g.machine.step (g.interrupted signals) g.pc with
    | next m pc => exact .stepped _ hl hstep
    | crash m crash => exact .crashed hl hstep
    | exit m exit =>
      dsimp only
      cases hreason : Reason.ofCode? exit.reason with
      | none => exact .unknown _ hl hstep hreason
      | some reason =>
        have htick := Tick.returned (g.cancelled || signals.cancels g.tick) hl hstep hreason
        dsimp only
        rcases hs : serveReason reason exit ⟨m, g.host⟩ with ⟨(_ | pc) | _ | _, ⟨m', h'⟩⟩ <;>
          rw [hs] at htick <;> exact htick

theorem Tick.eq_served {interrupted : Bool} {g : Moment} {r : Moment ⊕ RunResult} {m : Machine}
    {left : Exit} {reason : Reason} (ht : g.Tick interrupted r) (hl : g.looking = false)
    (hstep : g.machine.step interrupted g.pc = .exit m left)
    (hreason : Reason.ofCode? left.reason = some reason) :
    ∃ cancelled, r = served (g.tick + 1) cancelled (serveReason reason left ⟨m, g.host⟩) := by
  cases ht with
  | canceled hl' => cases hl.symm.trans hl'
  | looked _ hl' => cases hl.symm.trans hl'
  | stepped _ _ hstep' => cases hstep.symm.trans hstep'
  | crashed _ hstep' => cases hstep.symm.trans hstep'
  | unknown _ _ hstep' hreason' =>
    cases hstep.symm.trans hstep'
    cases hreason.symm.trans hreason'
  | returned cancelled _ hstep' hreason' =>
    cases hstep.symm.trans hstep'
    cases hreason.symm.trans hreason'
    exact ⟨cancelled, rfl⟩

def after (signals : Signals) : Nat → Moment → Moment ⊕ RunResult
  | 0, g => .inl g
  | n + 1, g =>
    match g.next signals with
    | .inl g => after signals n g
    | .inr result => .inr result

/-- What every tick keeps holds all through a run. -/
theorem after_kept {P : Moment → Prop} {Q : RunResult → Prop}
    (hkept : ∀ interrupted g r, P g → Tick interrupted g r → Sum.elim P Q r) {g : Moment}
    (hg : P g) (signals : Signals) (n : Nat) : Sum.elim P Q (g.after signals n) := by
  induction n generalizing g with
  | zero => exact hg
  | succ n ih =>
    have hnext := hkept _ g _ hg (tick_next signals g)
    rw [after]
    cases h : g.next signals with
    | inl g' =>
      rw [h] at hnext
      exact ih hnext
    | inr result =>
      rw [h] at hnext
      exact hnext

theorem after_succ_of_next {signals : Signals} {g g' : Moment} (h : g.next signals = .inl g')
    (n : Nat) : g.after signals (n + 1) = g'.after signals n := by
  rw [after, h]

theorem after_add {signals : Signals} {k : Nat} {g g' : Moment}
    (h : g.after signals k = .inl g') (j : Nat) :
    g.after signals (k + j) = g'.after signals j := by
  induction k generalizing g with
  | zero =>
    cases h
    rw [Nat.zero_add]
  | succ k ih =>
    rw [Nat.add_right_comm, after]
    rw [after] at h
    cases hn : g.next signals with
    | inl g₁ =>
      rw [hn] at h
      exact ih h
    | inr result =>
      rw [hn] at h
      cases h

/-- A run that has ended stays as it ended. -/
theorem after_inr_add {signals : Signals} {k : Nat} {g : Moment} {result : RunResult}
    (h : g.after signals k = .inr result) (j : Nat) : g.after signals (k + j) = .inr result := by
  induction k generalizing g with
  | zero => cases h
  | succ k ih =>
    rw [Nat.add_right_comm, after]
    rw [after] at h
    cases hn : g.next signals with
    | inl g₁ =>
      rw [hn] at h
      exact ih h
    | inr r =>
      rw [hn] at h
      exact h

theorem after_succ (signals : Signals) (n : Nat) (g : Moment) :
    g.after signals (n + 1) =
      match g.after signals n with
      | .inl g' => g'.next signals
      | .inr result => .inr result := by
  cases h : g.after signals n with
  | inl g' =>
    rw [after_add h, after]
    dsimp only
    cases g'.next signals <;> rfl
  | inr result => exact after_inr_add h 1

def report : Moment ⊕ RunResult → RunResult
  | .inl g => (none, g.engine)
  | .inr result => result

theorem loop_eq_report (signals : Signals) (fuel : Nat) (g : Moment) :
    loop signals fuel g.tick g.cancelled g.looking g.machine g.host g.pc =
      report (g.after signals fuel) := by
  induction fuel generalizing g with
  | zero => rfl
  | succ fuel ih =>
    obtain ⟨tick, cancelled, looking, m, h, pc⟩ := g
    rw [after, loop, next]
    cases looking with
    | true =>
      simp only [if_true]
      split
      · rfl
      · exact ih ⟨tick + 1, _, false, m, h, pc⟩
    | false =>
      simp only [Bool.false_eq_true, if_false]
      cases m.step ((cancelled || signals.cancels tick) && signals.shows tick) pc with
      | next m' pc' => exact ih ⟨tick + 1, _, false, m', h, pc'⟩
      | crash m' crash => rfl
      | exit m' exit =>
        dsimp only
        cases Reason.ofCode? exit.reason with
        | none => rfl
        | some reason =>
          dsimp only
          rcases serveReason reason exit ⟨m', h⟩ with ⟨(_ | pc') | _ | _, ⟨m'', h'⟩⟩
          · rfl
          · exact ih ⟨tick + 1, _, true, m'', h', pc'⟩
          · rfl
          · rfl

end Moment

theorem wp_prepare_of_forall {post : Unit → Engine → Prop} {broken : Engine → Prop} {e : Engine}
    (hstale : e.machine.running.code = none ∨ e.machine.running.dirty = true →
      (regenerate .running).wp post broken e)
    (hfresh : ∀ co, e.machine.running.code = some co → e.machine.running.dirty = false →
      post () e) :
    prepare.wp post broken e := by
  unfold prepare
  rw [Action.wp_bind, Action.wp_read]
  split
  · rename_i h
    exact hstale (by simpa [Option.isNone_iff_eq_none] using h)
  · rename_i h
    simp only [Bool.or_eq_true, Option.isNone_iff_eq_none, not_or, Bool.not_eq_true,
      Option.ne_none_iff_exists'] at h
    obtain ⟨⟨co, hco⟩, hclean⟩ := h
    exact hfresh co hco hclean

def opening (cancelled : Bool) (e : Engine) : Moment ⊕ RunResult :=
  match prepare { e with host := e.host.renew } with
  | (.done (), ⟨m, h⟩) =>
    match m.running.code with
    | some co => .inl ⟨0, cancelled, true, m, h, co.entry h.finger⟩
    | none => .inr (conclude (.crashed .outOfRange) ⟨m, h⟩)
  | (.failed fault, e) => .inr (conclude (.failed fault) e)
  | (.crashed crash, e) => .inr (conclude (.crashed crash) e)

theorem opening_cases (cancelled : Bool) (e : Engine) :
    (∃ m h co, prepare { e with host := e.host.renew } = (.done (), ⟨m, h⟩) ∧
      m.running.code = some co ∧
      e.opening cancelled = .inl ⟨0, cancelled, true, m, h, co.entry h.finger⟩) ∨
    (∃ e', prepare { e with host := e.host.renew } = (.done (), e') ∧
      e'.machine.running.code = none ∧
      e.opening cancelled = .inr (conclude (.crashed .outOfRange) e')) ∨
    ∃ outcome e', (∀ u, outcome ≠ .done u) ∧
      prepare { e with host := e.host.renew } = (outcome, e') ∧
      e.opening cancelled = .inr (conclude outcome e') := by
  unfold opening
  rcases hp : prepare { e with host := e.host.renew } with ⟨_ | fault | crash, ⟨m, h⟩⟩
  · cases hco : m.running.code with
    | some co => exact Or.inl ⟨m, h, co, rfl, hco, by simp only [hco]⟩
    | none => exact Or.inr (Or.inl ⟨⟨m, h⟩, rfl, hco, by simp only [hco]⟩)
  · exact Or.inr (Or.inr ⟨_, _, by rintro _ ⟨⟩, rfl, rfl⟩)
  · exact Or.inr (Or.inr ⟨_, _, by rintro _ ⟨⟩, rfl, rfl⟩)

/-- The moment after `n` ticks of a run, or its result before the last flush. -/
def course (signals : Signals) (cancelled : Bool) (n : Nat) (e : Engine) : Moment ⊕ RunResult :=
  match e.opening cancelled with
  | .inl g => g.after signals n
  | .inr result => .inr result

theorem course_of_opening {cancelled : Bool} {e : Engine} {g : Moment}
    (h : e.opening cancelled = .inl g) (signals : Signals) (n : Nat) :
    e.course signals cancelled n = g.after signals n := by
  rw [course, h]

theorem exists_opening_of_course {signals : Signals} {cancelled : Bool} {n : Nat} {e : Engine}
    {g : Moment} (h : e.course signals cancelled n = .inl g) :
    ∃ g₀, e.opening cancelled = .inl g₀ ∧ g₀.after signals n = .inl g := by
  unfold course at h
  cases ho : e.opening cancelled with
  | inl g₀ =>
    rw [ho] at h
    exact ⟨g₀, rfl, h⟩
  | inr result =>
    rw [ho] at h
    cases h

theorem course_inr_add {signals : Signals} {cancelled : Bool} {k : Nat} {e : Engine}
    {result : RunResult} (h : e.course signals cancelled k = .inr result) (j : Nat) :
    e.course signals cancelled (k + j) = .inr result := by
  unfold course at h ⊢
  cases ho : e.opening cancelled with
  | inl g =>
    rw [ho] at h
    exact Moment.after_inr_add h j
  | inr result' =>
    rw [ho] at h
    exact h

theorem course_succ (signals : Signals) (cancelled : Bool) (n : Nat) (e : Engine) :
    e.course signals cancelled (n + 1) =
      match e.course signals cancelled n with
      | .inl g => g.next signals
      | .inr result => .inr result := by
  unfold course
  cases e.opening cancelled with
  | inl g => exact Moment.after_succ signals n g
  | inr result => rfl

theorem course_succ_of_inl {signals : Signals} {cancelled : Bool} {n : Nat} {e : Engine}
    {g : Moment} (h : e.course signals cancelled n = .inl g) :
    e.course signals cancelled (n + 1) = g.next signals := by
  rw [course_succ, h]

/-- A run that has ended did so at its opening or in a tick. -/
theorem exists_last_of_course {signals : Signals} {cancelled : Bool} {n : Nat} {e : Engine}
    {result : RunResult} (h : e.course signals cancelled n = .inr result) :
    e.opening cancelled = .inr result ∨ ∃ k g, k < n ∧
      e.course signals cancelled k = .inl g ∧ g.next signals = .inr result := by
  induction n with
  | zero =>
    left
    unfold course at h
    cases hopening : e.opening cancelled with
    | inl g =>
      rw [hopening] at h
      cases h
    | inr result' =>
      rw [hopening] at h
      exact h
  | succ n ih =>
    rw [course_succ] at h
    cases hn : e.course signals cancelled n with
    | inl g =>
      rw [hn] at h
      exact Or.inr ⟨n, g, Nat.lt_succ_self n, hn, h⟩
    | inr result' =>
      rw [hn] at h
      rcases ih (hn.trans h) with hopening | ⟨k, g, hk, hg, hnext⟩
      · exact Or.inl hopening
      · exact Or.inr ⟨k, g, Nat.lt_succ_of_lt hk, hg, hnext⟩

theorem run_eq_finish_course {e : Engine} (h : e.host.stopped = false) (signals : Signals)
    (cancelled : Bool) (fuel : Nat) :
    e.run signals cancelled fuel = finish (Moment.report (e.course signals cancelled fuel)) := by
  simp only [run, h, course, opening, Bool.false_eq_true, if_false]
  rcases prepare { e with host := e.host.renew } with ⟨_ | _ | _, ⟨m, h⟩⟩
  · cases hc : m.running.code with
    | none => simp only [hc]; rfl
    | some co =>
      simp only [hc]
      exact congrArg finish (Moment.loop_eq_report signals fuel ⟨0, cancelled, true, m, h, _⟩)
  · rfl
  · rfl

theorem fst_conclude (outcome : Outcome Unit) (e : Engine) :
    (conclude outcome e).1 = some outcome := by
  cases outcome <;> rfl

/-- The end of a run at most stops the engine. -/
theorem snd_conclude (outcome : Outcome Unit) (e : Engine) :
    (conclude outcome e).2 = e ∨ (conclude outcome e).2 = e.stop := by
  cases outcome with
  | done _ => exact Or.inr rfl
  | crashed crash => exact Or.inl rfl
  | failed fault =>
    unfold conclude
    dsimp only
    split
    · exact Or.inl rfl
    · exact Or.inr rfl

theorem exists_finish (outcome : Outcome Unit) (e : Engine) :
    ∃ o, finish (some outcome, e) = (some o, (flush e).2) := by
  unfold finish
  dsimp only
  rcases flush e with ⟨_ | _ | _, e'⟩ <;> cases outcome <;> exact ⟨_, rfl⟩

theorem finish_of_ne_done {outcome : Outcome Unit} (h : outcome ≠ .done ()) (e : Engine) :
    finish (some outcome, e) = (some outcome, (flush e).2) := by
  unfold finish
  dsimp only
  cases outcome with
  | done _ => exact absurd rfl h
  | failed fault => rcases flush e with ⟨_ | _ | _, e'⟩ <;> rfl
  | crashed crash => rcases flush e with ⟨_ | _ | _, e'⟩ <;> rfl

end PlatterMachine.Engine
