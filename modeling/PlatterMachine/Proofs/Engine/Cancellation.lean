import Mathlib.Dynamics.PeriodicPts.Defs
import PlatterMachine.Proofs.Engine.Boundaries
import PlatterMachine.Proofs.Engine.Speech
import PlatterMachine.Proofs.Engine.Undisturbed

/-!
# Cancelled runs

Whatever cancels a run, and whenever its jumps get to see that, the run goes tick by tick along with
the same run that nothing cancels, until it looks at the cancellation and stops. Only a jump that
sees the cancellation is out of step, and all it does is to make the run look.
-/

namespace PlatterMachine

namespace Machine

variable {m m' : Machine} {co : CodeObject} {pc pc' : UInt32}

/-- Only jumps see that a run has been cancelled. -/
theorem step_interrupted (m : Machine) (pc : UInt32) :
    m.step true pc = m.step false pc ∨ ∃ target,
      m.step true pc = .exit m ⟨Reason.interrupt.code, 0, 0, target⟩ ∧
        m.step false pc = .next m target := by
  unfold step
  cases m.running.code with
  | none => exact .inl rfl
  | some co =>
    dsimp only
    cases co.code[pc.toNat]? with
    | none => exact .inl rfl
    | some byte =>
      dsimp only
      cases HostOp.ofByte? byte with
      | none => exact .inl rfl
      | some op =>
        cases op with
        | jmpt =>
          dsimp only
          cases m.operand? co.code (pc + 1) with
          | none => exact .inl rfl
          | some i => exact .inr ⟨_, rfl, rfl⟩
        | arith op => cases op <;> exact .inl rfl
        | _ => exact .inl rfl

/-- Once jumps leave the code, execution that stays in it goes forward. -/
theorem step_true_eq_next (hco : m.running.code = some co) (h : m.step true pc = .next m' pc') :
    pc.toNat < co.code.size ∧ ∃ n : UInt32, 0 < n.toNat ∧
      n.toNat ≤ HostInstr.jumpSize + HostInstr.maxSkip ∧ pc' = pc + n := by
  have hpc : pc.toNat < co.code.size := by
    by_contra hge
    rw [step, hco] at h
    simp only [Array.getElem?_eq_none (Nat.le_of_not_lt hge)] at h
    cases h
  have heffect := m.effect_step true pc
  rw [h] at heffect
  refine ⟨hpc, ?_⟩
  cases heffect with
  | assigned _ _ hn => exact ⟨_, hn.1, hn.2, rfl⟩
  | passed hn => exact ⟨_, hn.1, hn.2, rfl⟩
  | stored _ _ hs => exact ⟨4, by decide, by decide, store_eq_next hs⟩
  | jumped _ hon => cases hon

/-- The machine and its place in the code after one more host instruction, unless execution leaves
the code there. -/
def onward? (s : Machine × UInt32) : Option (Machine × UInt32) :=
  match s.1.step false s.2 with
  | .next m pc => some (m, pc)
  | .exit _ _ | .crash _ _ => none

theorem onward?_eq_some_iff {s s' : Machine × UInt32} :
    onward? s = some s' ↔ s.1.step false s.2 = .next s'.1 s'.2 := by
  unfold onward?
  cases s.1.step false s.2 <;> simp [Prod.ext_iff]

def onward (n : Nat) (s : Machine × UInt32) : Option (Machine × UInt32) :=
  (Option.bind · onward?)^[n] (some s)

theorem onward_succ (n : Nat) (s : Machine × UInt32) :
    onward (n + 1) s = (onward? s).bind (onward n) := by
  rw [onward, Function.iterate_succ_apply, Option.bind_some]
  cases onward? s with
  | none => exact Function.iterate_fixed rfl n
  | some s' => rfl

/-- Execution that gets back to where it was never leaves the code. -/
theorem exists_onward_of_periodic {p : Nat} {s : Machine × UInt32} (hp : 0 < p)
    (h : onward p s = some s) (n : Nat) : ∃ s', onward n s = some s' := by
  have hround : onward (p * n) s = some s :=
    Function.IsPeriodicPt.mul_const h n
  obtain ⟨k, hk⟩ := Nat.exists_eq_add_of_le (Nat.le_mul_of_pos_left n hp)
  rw [hk, Nat.add_comm, onward, Function.iterate_add_apply] at hround
  cases hn : onward n s with
  | some s' => exact ⟨s', rfl⟩
  | none =>
    rw [onward] at hn
    rw [hn, Function.iterate_fixed rfl] at hround
    cases hround

end Machine

namespace Engine

variable {e : Engine} {g g' : Moment} {signals : Signals} {cancelled : Bool} {n : Nat}

theorem conclude_undisturbed (outcome : Outcome Unit) (e : Engine) :
    conclude outcome e.undisturbed = (conclude outcome e).map id undisturbed := by
  cases outcome with
  | done _ => rfl
  | crashed crash => rfl
  | failed fault =>
    unfold conclude
    dsimp only
    split <;> rfl

theorem finish_undisturbed (r : RunResult) :
    finish (r.map id undisturbed) = (finish r).map id undisturbed := by
  obtain ⟨_ | outcome, e⟩ := r
  · rfl
  · have hflush := unheeding_flush e
    simp only [Prod.map_apply, id_eq, finish, hflush]
    rcases flush e with ⟨_ | fault | crash, e'⟩ <;> cases outcome <;> rfl

namespace Moment

def undisturbed (g : Moment) : Moment := { g with cancelled := false, host := g.host.undisturbed }

def isCancelled (signals : Signals) (g : Moment) : Bool :=
  g.cancelled || signals.cancels g.tick || g.host.cancelled

theorem served_undisturbed (tick : Nat) (cancelled : Bool) (r : Outcome (Option UInt32) × Engine) :
    served tick false (r.1, r.2.undisturbed) =
      (served tick cancelled r).map undisturbed (Prod.map id Engine.undisturbed) := by
  obtain ⟨(_ | pc) | fault | crash, e⟩ := r
  · rfl
  · rfl
  · exact congrArg Sum.inr (conclude_undisturbed (.failed fault) e)
  · rfl

/-- How a tick of a run compares with the same tick of the run that nothing cancels. -/
inductive Abreast (signals : Signals) (g : Moment) : Prop
  | along (hspeech : g.undisturbed.speech false = g.speech (g.interrupted signals))
      (hnext : g.undisturbed.next .none =
        (g.next signals).map undisturbed (Prod.map id Engine.undisturbed))
  | canceled (hcancelled : g.isCancelled signals = true) (hl : g.looking = true)
      (hnext : g.next signals = .inr (conclude (.failed .canceled) g.engine))
  | interrupted (target : UInt32) (hflag : g.interrupted signals = true)
      (hspeech : g.speech true = [])
      (hnext : g.next signals =
        .inl { g with tick := g.tick + 1, cancelled := true, looking := true, pc := target })

theorem next_of_looking (hl : g.looking = true) (h : g.isCancelled signals = true) :
    g.next signals = .inr (conclude (.failed .canceled) g.engine) := by
  unfold isCancelled at h
  simp only [next, hl, if_true, h]

def proceed (tick : Nat) (cancelled : Bool) (host : Host) : Step → Moment ⊕ RunResult
  | .next m pc => .inl ⟨tick, cancelled, false, m, host, pc⟩
  | .crash m crash => .inr (conclude (.crashed crash) ⟨m, host⟩)
  | .exit m left =>
    match Reason.ofCode? left.reason with
    | none =>
      .inr (conclude (.failed (.plain ("um: unexpected return reason " ++
        Reason.nameOf left.reason))) ⟨m, host⟩)
    | some reason => served tick cancelled (serveReason reason left ⟨m, host⟩)

theorem next_of_not_looking (hl : g.looking = false) :
    g.next signals = proceed (g.tick + 1) (g.cancelled || signals.cancels g.tick) g.host
      (g.machine.step (g.interrupted signals) g.pc) := by
  unfold next
  simp only [hl, Bool.false_eq_true, if_false]
  change (match g.machine.step (g.interrupted signals) g.pc with
    | .next m pc => _
    | .crash m crash => _
    | .exit m left => _) = _
  cases g.machine.step (g.interrupted signals) g.pc with
  | next m pc => rfl
  | crash m crash => rfl
  | exit m left =>
    simp only [proceed]
    cases Reason.ofCode? left.reason with
    | none => rfl
    | some reason =>
      dsimp only
      rcases serveReason reason left ⟨m, g.host⟩ with ⟨(_ | pc) | fault | crash, ⟨m', h'⟩⟩ <;> rfl

/-- Unless execution goes on in the code, the run looks at its cancellation next. -/
theorem proceed_eq_inl {tick : Nat} {cancelled : Bool} {host : Host} {s : Step}
    (h : proceed tick cancelled host s = .inl g') :
    g'.tick = tick ∧ g'.cancelled = cancelled ∧ (g'.looking = true ∨ ∃ m pc, s = .next m pc) := by
  cases s with
  | next m pc =>
    cases h
    exact ⟨rfl, rfl, Or.inr ⟨m, pc, rfl⟩⟩
  | crash m crash => cases h
  | exit m left =>
    rw [proceed] at h
    cases hreason : Reason.ofCode? left.reason with
    | none =>
      rw [hreason] at h
      cases h
    | some reason =>
      rw [hreason] at h
      dsimp only at h
      rcases hs : serveReason reason left ⟨m, host⟩ with ⟨(_ | pc) | fault | crash, e'⟩ <;>
        rw [hs] at h <;> cases h
      exact ⟨rfl, rfl, Or.inl rfl⟩

theorem proceed_undisturbed (tick : Nat) (cancelled : Bool) (host : Host) (s : Step) :
    proceed tick false host.undisturbed s =
      (proceed tick cancelled host s).map undisturbed (Prod.map id Engine.undisturbed) := by
  cases s with
  | next m pc => rfl
  | crash m crash => rfl
  | exit m left =>
    simp only [proceed]
    cases Reason.ofCode? left.reason with
    | none => exact congrArg Sum.inr (conclude_undisturbed (.failed (.plain _)) ⟨m, host⟩)
    | some reason =>
      have hserve := unheeding_serveReason reason left ⟨m, host⟩
      rw [← served_undisturbed tick cancelled, ← hserve]
      rfl

theorem abreast (signals : Signals) (g : Moment) : g.Abreast signals := by
  cases hl : g.looking with
  | true =>
    cases hcancelled : g.isCancelled signals with
    | true => exact .canceled hcancelled hl (next_of_looking hl hcancelled)
    | false =>
      refine .along ?_ ?_
      · rw [speech_of_looking hl]
        exact speech_of_looking (g := g.undisturbed) hl
      · unfold isCancelled at hcancelled
        have hlooking : g.undisturbed.looking = true := hl
        simp only [next, hl, hlooking, if_true, hcancelled, Bool.false_eq_true, if_false]
        rfl
  | false =>
    have hlooking : g.undisturbed.looking = false := hl
    have hsame (h : g.machine.step (g.interrupted signals) g.pc = g.machine.step false g.pc) :
        g.Abreast signals := by
      refine .along ?_ ?_
      · have hexit : g.undisturbed.exit? false = g.exit? (g.interrupted signals) := by
          simp only [exit?, hl, hlooking, Bool.false_eq_true, if_false, h]
          rfl
        rw [speech, speech, hexit]
      · rw [next_of_not_looking hl, next_of_not_looking hlooking, h, ← proceed_undisturbed]
        rfl
    cases hflag : g.interrupted signals with
    | false => exact hsame (by rw [hflag])
    | true =>
      rcases g.machine.step_interrupted g.pc with h | ⟨target, htrue, -⟩
      · exact hsame (by rw [hflag, h])
      · refine .interrupted target hflag ?_ ?_
        · rw [speech_of_exit hl htrue]
          rfl
        · have hcancelled : (g.cancelled || signals.cancels g.tick) = true :=
            (Bool.and_eq_true_iff.mp hflag).1
          rw [next_of_not_looking hl, hflag, htrue, hcancelled]
          rfl

/-- The run has looked at its cancellation, or will do so in the next tick, where it is at `g'`. -/
inductive Stopping (g' : Moment) : Moment ⊕ RunResult → Prop
  | looked : Stopping g' (.inr (conclude (.failed .canceled) g'.engine))
  | looks {g : Moment} (hl : g.looking = true) (hcancelled : g.cancelled = true)
      (hengine : g.engine = g'.engine) : Stopping g' (.inl g)

/-- Any number of ticks of a run, and of the run that nothing cancels. -/
theorem after_undisturbed (signals : Signals) (n : Nat) (g : Moment) :
    g.undisturbed.after .none n =
        (g.after signals n).map undisturbed (Prod.map id Engine.undisturbed) ∨
      ∃ k g', k ≤ n ∧ g.after signals k = .inl g' ∧ g'.isCancelled signals = true ∧
        g'.Stopping (g.after signals n) := by
  induction n generalizing g with
  | zero => exact .inl rfl
  | succ n ih =>
    cases abreast signals g with
    | along hspeech hnext =>
      cases h : g.next signals with
      | inr result =>
        left
        rw [after, after, hnext, h]
        rfl
      | inl g₁ =>
        have hthere : g.undisturbed.next .none = .inl g₁.undisturbed := by rw [hnext, h]; rfl
        rw [after_succ_of_next hthere, after_succ_of_next h]
        rcases ih g₁ with halong | ⟨k, g', hk, hafter, hcancelled, hstop⟩
        · exact .inl halong
        · refine .inr ⟨k + 1, g', Nat.succ_le_succ hk, ?_, hcancelled, hstop⟩
          rw [after_succ_of_next h, hafter]
    | canceled hcancelled hl hnext =>
      refine .inr ⟨0, g, Nat.zero_le _, rfl, hcancelled, ?_⟩
      rw [after, hnext]
      exact .looked
    | interrupted target hflag hspeech hnext =>
      have hcancelled : g.isCancelled signals = true := by
        have hseen := (Bool.and_eq_true_iff.mp hflag).1
        rw [isCancelled, hseen, Bool.true_or]
      refine .inr ⟨0, g, Nat.zero_le _, rfl, hcancelled, ?_⟩
      rw [after_succ_of_next hnext]
      cases n with
      | zero => exact .looks rfl rfl rfl
      | succ n =>
        rw [after, next_of_looking rfl (by simp [isCancelled])]
        exact .looked

/-- What is said in a run is said in the run that nothing cancels. -/
theorem spoken_undisturbed (signals : Signals) (n : Nat) (g : Moment) :
    g.spoken signals n <+: g.undisturbed.spoken .none n := by
  induction n generalizing g with
  | zero => exact List.prefix_refl _
  | succ n ih =>
    cases abreast signals g with
    | along hspeech hnext =>
      have hcalm : g.undisturbed.interrupted .none = false := rfl
      rw [spoken, spoken, hcalm, hspeech, hnext]
      cases g.next signals with
      | inl g₁ => exact List.prefix_append_right_inj _ |>.mpr (ih g₁)
      | inr result => exact List.prefix_refl _
    | canceled hcancelled hl hnext =>
      rw [spoken, hnext, speech_of_looking hl]
      exact List.nil_prefix
    | interrupted target hflag hspeech hnext =>
      have hsilent (k : Nat) : spoken signals k
          { g with tick := g.tick + 1, cancelled := true, looking := true, pc := target } = [] := by
        cases k with
        | zero => rfl
        | succ k =>
          rw [spoken, next_of_looking rfl (by simp [isCancelled]), speech_of_looking rfl]
          rfl
      rw [spoken, hflag, hspeech, hnext]
      dsimp only
      rw [hsilent]
      exact List.nil_prefix

/-- The returns to the host that are served in the next `n` ticks. -/
def requests (signals : Signals) : (n : Nat) → Moment → Nat
  | 0, _ => 0
  | n + 1, g => (if (g.exit? (g.interrupted signals)).isSome then 1 else 0) +
    match g.next signals with
    | .inl g' => requests signals n g'
    | .inr _ => 0

/-- The run has been cancelled and will see it when it next looks. -/
def Doomed (signals : Signals) (g : Moment) : Prop :=
  (g.cancelled || signals.cancels g.tick) = true ∨ g.looking = true ∧ g.host.cancelled = true

theorem Doomed.isCancelled (h : g.Doomed signals) : g.isCancelled signals = true := by
  rcases h with h | ⟨-, h⟩
  · rw [Moment.isCancelled, h, Bool.true_or]
  · rw [Moment.isCancelled, h, Bool.or_true]

theorem tick_of_next (h : g.next signals = .inl g') :
    g'.tick = g.tick + 1 ∧ g'.cancelled = (g.cancelled || signals.cancels g.tick) := by
  cases hl : g.looking with
  | true =>
    simp only [next, hl, if_true] at h
    split at h <;> cases h
    exact ⟨rfl, rfl⟩
  | false =>
    rw [next_of_not_looking hl] at h
    obtain ⟨htick, hcancelled, -⟩ := proceed_eq_inl h
    exact ⟨htick, hcancelled⟩

theorem looking_of_exit {m : Machine} {left : Exit}
    (hexit : g.exit? (g.interrupted signals) = some (m, left)) (h : g.next signals = .inl g') :
    g'.looking = true := by
  obtain ⟨hl, hstep⟩ := exit?_eq_some_iff.mp hexit
  rw [next_of_not_looking hl, hstep] at h
  obtain ⟨-, -, hlooking | ⟨m', pc, hnext⟩⟩ := proceed_eq_inl h
  · exact hlooking
  · cases hnext

theorem Doomed.next (hd : g.Doomed signals) (h : g.next signals = .inl g') :
    g.looking = false ∧ g'.cancelled = true := by
  cases hl : g.looking with
  | true =>
    rw [next_of_looking hl hd.isCancelled] at h
    cases h
  | false =>
    refine ⟨rfl, ?_⟩
    rw [(tick_of_next h).2]
    refine hd.resolve_right fun hlater => ?_
    rw [hl] at hlater
    cases hlater.1

theorem doomed_of_cancelled (h : g.cancelled = true) : g.Doomed signals :=
  .inl (by rw [h, Bool.true_or])

/-- One more return to the host is served at most, and none if the run is about to look. -/
theorem Doomed.requests_le (hd : g.Doomed signals) (n : Nat) :
    g.requests signals n ≤ 1 ∧ (g.looking = true → g.requests signals n = 0) := by
  have hlooking (n : Nat) {g : Moment} (hd : g.Doomed signals) (hl : g.looking = true) :
      g.requests signals n = 0 := by
    cases n with
    | zero => rfl
    | succ n =>
      rw [requests, next_of_looking hl hd.isCancelled]
      simp [exit?, hl]
  refine ⟨?_, hlooking n hd⟩
  induction n generalizing g with
  | zero => exact Nat.zero_le _
  | succ n ih =>
    rw [requests]
    cases h : g.next signals with
    | inr result =>
      dsimp only
      split <;> omega
    | inl g' =>
      have hd' : g'.Doomed signals := doomed_of_cancelled (hd.next h).2
      dsimp only
      cases hexit : g.exit? (g.interrupted signals) with
      | none =>
        have hle := ih hd'
        simpa using hle
      | some r => simp [hlooking n hd' (looking_of_exit hexit h)]

def Calm (g : Moment) : Prop := g.host.cancelled = true → g.looking = true

theorem Calm.next (hc : g.Calm) (h : g.next signals = .inl g') : g'.Calm := by
  intro hcancelled
  cases hl : g.looking with
  | true =>
    simp only [Moment.next, hl, if_true] at h
    split at h <;> cases h
    rename_i hsigns
    rw [Bool.or_eq_true, not_or] at hsigns
    exact absurd hcancelled hsigns.2
  | false =>
    have htick := tick_next signals g
    rw [h] at htick
    generalize hr : (Sum.inl g' : Moment ⊕ RunResult) = r at htick
    cases htick with
    | canceled hl' => cases hr
    | looked _ hl' =>
      rw [hl] at hl'
      cases hl'
    | stepped _ _ hstep =>
      cases hr
      rw [hc hcancelled] at hl
      cases hl
    | crashed _ hstep => cases hr
    | unknown _ _ hstep hreason => cases hr
    | returned _ _ hstep hreason =>
      exact looking_of_exit (exit?_eq_some_iff.mpr ⟨hl, hstep⟩) h

theorem Calm.doomed (hc : g.Calm) (h : g.isCancelled signals = true) : g.Doomed signals := by
  rw [isCancelled, Bool.or_eq_true] at h
  exact h.imp_right fun h => ⟨hc h, h⟩

def Compact (g : Moment) : Prop :=
  ∀ co, g.machine.running.code = some co →
    co.code.size + (HostInstr.jumpSize + HostInstr.maxSkip) ≤ Layout.limit

/-- Once jumps see the cancellation, execution in the code goes forward until it leaves. -/
theorem Doomed.advances (hd : g.Doomed signals) (hshows : signals.shows g.tick = true)
    (hcompact : g.Compact) {co : CodeObject} (hco : g.machine.running.code = some co)
    (h : g.next signals = .inl g') (hl' : g'.looking = false) :
    g.pc.toNat < co.code.size ∧ ∃ co', g'.machine.running.code = some co' ∧
      co'.code.size = co.code.size ∧ g.pc.toNat < g'.pc.toNat := by
  obtain ⟨hl, -⟩ := hd.next h
  have hflag : g.interrupted signals = true := by
    have hseen : (g.cancelled || signals.cancels g.tick) = true :=
      hd.resolve_right fun hlater => by
        rw [hl] at hlater
        cases hlater.1
    rw [interrupted, hseen, hshows]
    rfl
  cases hstep : g.machine.step true g.pc with
  | next m pc =>
    rw [next_of_not_looking hl, hflag, hstep] at h
    cases h
    obtain ⟨hpc, k, hpos, hle, rfl⟩ := Machine.step_true_eq_next hco hstep
    have hsum : (g.pc + k).toNat = g.pc.toNat + k.toNat := by
      have hlimit := hcompact co hco
      exact Layout.toNat_add (by omega)
    obtain ⟨co', hco', hsize⟩ := Machine.code_of_step_next hco hstep
    refine ⟨hpc, co', hco', ?_, by dsimp only; omega⟩
    rcases hsize with rfl | ⟨i, -, rfl⟩
    · rfl
    · exact Assembler.size_writeBytes ..
  | crash m crash =>
    rw [next_of_not_looking hl, hflag, hstep] at h
    cases h
  | exit m left =>
    have hlooking := looking_of_exit (exit?_eq_some_iff.mpr ⟨hl, hflag ▸ hstep⟩) h
    rw [hl'] at hlooking
    cases hlooking

/-- A run that has been cancelled ends once its jumps see that. -/
theorem Doomed.ends (hd : g.Doomed signals) (hshows : ∀ t, g.tick ≤ t → signals.shows t = true)
    (hcompact : ∀ n g', g.after signals n = .inl g' → g'.Compact) :
    ∃ n result, g.after signals n = .inr result := by
  -- the room left in front of the address shrinks until execution leaves the code
  generalize hroom : (g.machine.running.code.elim 0 (·.code.size)) - g.pc.toNat = room
  induction room using Nat.strong_induction_on generalizing g with
  | _ room ih =>
    cases h : g.next signals with
    | inr result => exact ⟨1, result, by rw [after, h]⟩
    | inl g' =>
      have hd' : g'.Doomed signals := doomed_of_cancelled (hd.next h).2
      cases hl' : g'.looking with
      | true =>
        refine ⟨2, conclude (.failed .canceled) g'.engine, ?_⟩
        rw [after_succ_of_next h, after, next_of_looking hl' hd'.isCancelled]
      | false =>
        cases hco : g.machine.running.code with
        | none =>
          rw [next_of_not_looking (hd.next h).1, Machine.step, hco] at h
          cases h
        | some co =>
          obtain ⟨hpc, co', hco', hsize, hlt⟩ := hd.advances (hshows _ (Nat.le_refl _))
            (hcompact 0 g rfl) hco h hl'
          have hsmaller : (g'.machine.running.code.elim 0 (·.code.size)) - g'.pc.toNat < room := by
            rw [← hroom, hco, hco']
            simp only [Option.elim_some, hsize]
            omega
          obtain ⟨n, result, hend⟩ := ih _ hsmaller hd'
            (fun t ht => hshows t (by rw [(tick_of_next h).1] at ht; omega))
            (fun n g'' hg'' => hcompact (n + 1) g'' (by rw [after_succ_of_next h, hg''])) rfl
          exact ⟨n + 1, result, by rw [after_succ_of_next h, hend]⟩

end Moment

theorem opening_undisturbed (e : Engine) (cancelled : Bool) :
    e.undisturbed.opening false =
      (e.opening cancelled).map Moment.undisturbed (Prod.map id undisturbed) := by
  have hprepare := unheeding_prepare { e with host := e.host.renew }
  have hrenew : { e.undisturbed with host := e.undisturbed.host.renew } =
      undisturbed { e with host := e.host.renew } := rfl
  unfold opening
  rw [hrenew, hprepare]
  rcases prepare { e with host := e.host.renew } with ⟨_ | fault | crash, ⟨m, h⟩⟩
  · dsimp only [undisturbed]
    cases m.running.code <;> rfl
  · exact congrArg Sum.inr (conclude_undisturbed (.failed fault) ⟨m, h⟩)
  · rfl

/-- A run goes along with the run that nothing cancels, or stops because it was cancelled. -/
theorem course_undisturbed (e : Engine) (signals : Signals) (cancelled : Bool) (n : Nat) :
    e.undisturbed.course .none false n =
        (e.course signals cancelled n).map Moment.undisturbed (Prod.map id undisturbed) ∨
      ∃ k g, k ≤ n ∧ e.course signals cancelled k = .inl g ∧ g.isCancelled signals = true ∧
        g.Stopping (e.course signals cancelled n) := by
  have hopening := opening_undisturbed e cancelled
  unfold course
  rw [hopening]
  cases e.opening cancelled with
  | inl g => exact Moment.after_undisturbed signals n g
  | inr result => exact .inl rfl

theorem report_undisturbed (r : Moment ⊕ RunResult) :
    Moment.report (r.map Moment.undisturbed (Prod.map id undisturbed)) =
      (Moment.report r).map id undisturbed := by
  cases r <;> rfl

theorem run_undisturbed {o : Outcome Unit} {e₁ : Engine}
    (h : e.run signals cancelled n = (some o, e₁)) :
    e.undisturbed.run .none false n = (some o, e₁.undisturbed) ∨
      o = .failed .canceled ∧ e₁.host.stopped = true ∧
        ∃ k g, e.course signals cancelled k = .inl g ∧ g.isCancelled signals = true := by
  cases hstopped : e.host.stopped with
  | true =>
    left
    have hstopped' : e.undisturbed.host.stopped = true := hstopped
    rw [run, hstopped] at h
    cases h
    rw [run, hstopped']
    rfl
  | false =>
    have hstopped' : e.undisturbed.host.stopped = false := hstopped
    rw [run_eq_finish_course hstopped] at h
    rw [run_eq_finish_course hstopped']
    rcases course_undisturbed e signals cancelled n with halong | ⟨k, g, -, hk, hcancelled, hstop⟩
    · left
      rw [halong, report_undisturbed, finish_undisturbed, h]
      rfl
    · right
      cases hstop' : e.course signals cancelled n with
      | inl g' =>
        rw [hstop'] at h
        cases h
      | inr result =>
        rw [hstop'] at h hstop
        cases hstop
        have hend : finish (some (.failed .canceled), g.engine.stop) = (some o, e₁) := h
        rw [finish_of_ne_done (by rintro ⟨⟩)] at hend
        cases hend
        exact ⟨rfl, rfl, k, g, hk, hcancelled⟩

theorem said_undisturbed (e : Engine) (signals : Signals) (cancelled : Bool) (n : Nat) :
    e.said signals cancelled n <+: e.undisturbed.said .none false n := by
  have hopening := opening_undisturbed e cancelled
  have hstopped' : e.undisturbed.host.stopped = e.host.stopped := rfl
  unfold said
  rw [hopening, hstopped']
  split
  · exact List.prefix_refl _
  · cases e.opening cancelled with
    | inl g => exact Moment.spoken_undisturbed signals n g
    | inr result => exact List.prefix_refl _

/-- Every run that ends is concluded. -/
theorem exists_conclude_of_course {result : RunResult}
    (h : e.course signals cancelled n = .inr result) :
    ∃ outcome e', result = conclude outcome e' := by
  have hopening : Sum.elim (fun _ => True) (fun r => ∃ outcome e', r = conclude outcome e')
      (e.opening cancelled) := by
    rcases opening_cases cancelled e with
      ⟨m, h, co, -, -, ho⟩ | ⟨e', -, -, ho⟩ | ⟨outcome, e', -, -, ho⟩ <;> rw [ho]
    · trivial
    · exact ⟨_, e', rfl⟩
    · exact ⟨outcome, e', rfl⟩
  unfold course at h
  cases ho : e.opening cancelled with
  | inr r =>
    rw [ho] at h hopening
    cases h
    exact hopening
  | inl g =>
    rw [ho] at h
    have hkept := Moment.after_kept (P := fun _ => True)
      (Q := fun r => ∃ outcome e', r = conclude outcome e') (fun _ g r _ ht => ?_) (g := g) trivial
      signals n
    · dsimp only at h
      rw [h] at hkept
      exact hkept
    · cases ht with
      | canceled _ => exact ⟨_, _, rfl⟩
      | looked _ _ => trivial
      | stepped _ _ _ => trivial
      | crashed _ _ => exact ⟨_, _, rfl⟩
      | unknown _ _ _ _ => exact ⟨_, _, rfl⟩
      | @returned m left reason _ _ hstep hreason =>
        rcases serveReason reason left ⟨m, g.host⟩ with ⟨(_ | pc) | fault | crash, e'⟩
        · exact ⟨_, _, rfl⟩
        · trivial
        · exact ⟨_, _, rfl⟩
        · exact ⟨_, _, rfl⟩

/-- Every run that returns stops the engine, unless the machine is suspended. -/
theorem stopped_of_run {o : Outcome Unit} {e₁ : Engine}
    (h : e.run signals cancelled n = (some o, e₁)) (hcrash : ∀ crash, o ≠ .crashed crash)
    (hsuspended : ∀ fault, o = .failed fault → fault.isSuspended = false) :
    e₁.host.stopped = true := by
  cases hstopped : e.host.stopped with
  | true =>
    rw [run, hstopped] at h
    cases h
    exact hstopped
  | false =>
    rw [run_eq_finish_course hstopped] at h
    cases hcourse : e.course signals cancelled n with
    | inl g =>
      rw [hcourse] at h
      cases h
    | inr result =>
      rw [hcourse] at h
      obtain ⟨outcome, e', rfl⟩ := exists_conclude_of_course hcourse
      cases outcome with
      | done _ =>
        obtain ⟨o', hfinish⟩ := exists_finish (.done ()) e'.stop
        have hend : finish (some (.done ()), e'.stop) = (some o, e₁) := h
        rw [hfinish] at hend
        cases hend
        rfl
      | crashed crash =>
        have hend : finish (some (.crashed crash), e') = (some o, e₁) := h
        rw [finish_of_ne_done (by rintro ⟨⟩)] at hend
        cases hend
        exact absurd rfl (hcrash crash)
      | failed fault =>
        have hend : finish (conclude (.failed fault) e') = (some o, e₁) := h
        rw [conclude, finish_of_ne_done (by rintro ⟨⟩)] at hend
        cases hend
        rw [hsuspended fault rfl]
        rfl

/-- The last thing that a run does is to flush the output. -/
theorem run_eq_of_course {result : RunResult} (hstopped : e.host.stopped = false)
    (h : e.course signals cancelled n = .inr result) :
    ∃ o e', e.run signals cancelled n = (some o, (flush e').2) := by
  obtain ⟨outcome, e', rfl⟩ := exists_conclude_of_course h
  obtain ⟨o, hfinish⟩ := exists_finish outcome (conclude outcome e').2
  refine ⟨o, (conclude outcome e').2, ?_⟩
  rw [run_eq_finish_course hstopped, h, ← hfinish, ← fst_conclude outcome e']
  rfl

/-- At the end of a run without a fault of the writer nothing is held back. -/
theorem flushed_of_run {o : Outcome Unit} {e₁ : Engine} (hstopped : e.host.stopped = false)
    (h : e.run signals cancelled n = (some o, e₁)) (hfault : e₁.host.output.fault = none) :
    e₁.host.output.Flushed := by
  cases hcourse : e.course signals cancelled n with
  | inl g =>
    rw [run_eq_finish_course hstopped, hcourse] at h
    cases h
  | inr result =>
    obtain ⟨o', e', hrun⟩ := run_eq_of_course hstopped hcourse
    rw [h] at hrun
    cases hrun
    have hnone : e'.host.output.flush.2.fault = none := hfault
    rw [← Writer.flush_fst] at hnone
    exact Writer.flushed_flush hnone

namespace Moment

theorem spoken_prefix_of_after {result : RunResult} (h : g.after signals n = .inr result) (k : Nat) :
    g.spoken signals k <+: g.spoken signals n := by
  induction n generalizing g k with
  | zero => cases h
  | succ n ih =>
    cases k with
    | zero => exact List.nil_prefix
    | succ k =>
      rw [after] at h
      rw [spoken, spoken]
      cases hnext : g.next signals with
      | inr r => exact List.prefix_refl _
      | inl g' =>
        rw [hnext] at h
        exact (List.prefix_append_right_inj _).mpr (ih h k)

theorem spoken_prefix (signals : Signals) (n k : Nat) (g : Moment) :
    g.spoken signals n <+: g.spoken signals (n + k) := by
  induction n generalizing g with
  | zero => exact List.nil_prefix
  | succ n ih =>
    rw [Nat.succ_add, spoken, spoken]
    cases g.next signals with
    | inr r => exact List.prefix_refl _
    | inl g' => exact (List.prefix_append_right_inj _).mpr (ih g')

/-- As long as execution stays in the code, a run that nothing cancels is with it. -/
theorem after_of_onward {s : Machine × UInt32} (hl : g.looking = false) (hc : g.cancelled = false)
    (h : Machine.onward n (g.machine, g.pc) = some s) :
    g.after .none n = .inl ⟨g.tick + n, false, false, s.1, g.host, s.2⟩ := by
  induction n generalizing g with
  | zero =>
    obtain ⟨tick, _, _, m, host, pc⟩ := g
    cases hl
    cases hc
    cases h
    rfl
  | succ n ih =>
    rw [Machine.onward_succ, Option.bind_eq_some_iff] at h
    obtain ⟨⟨m, pc⟩, hstep, h⟩ := h
    rw [Machine.onward?_eq_some_iff] at hstep
    have hnext : g.next .none = .inl ⟨g.tick + 1, false, false, m, g.host, pc⟩ := by
      have hflag : g.interrupted .none = false := by simp [interrupted, hc, Signals.none]
      rw [next_of_not_looking hl, hflag, hstep, proceed, hc]
      rfl
    rw [after_succ_of_next hnext, ih rfl rfl h, Nat.add_assoc, Nat.add_comm 1 n]

theorem doomed_after (hd : g.Doomed signals) (h : g.after signals n = .inl g') :
    g'.Doomed signals := by
  induction n generalizing g with
  | zero =>
    cases h
    exact hd
  | succ n ih =>
    rw [after] at h
    cases hnext : g.next signals with
    | inr r =>
      rw [hnext] at h
      cases h
    | inl g₁ =>
      rw [hnext] at h
      exact ih (doomed_of_cancelled (hd.next hnext).2) h

theorem calm_after (hc : g.Calm) (h : g.after signals n = .inl g') :
    g'.Calm ∧ g'.tick = g.tick + n := by
  induction n generalizing g with
  | zero =>
    cases h
    exact ⟨hc, rfl⟩
  | succ n ih =>
    rw [after] at h
    cases hnext : g.next signals with
    | inr r =>
      rw [hnext] at h
      cases h
    | inl g₁ =>
      rw [hnext] at h
      obtain ⟨hcalm, htick⟩ := ih (hc.next hnext) h
      rw [(tick_of_next hnext).1] at htick
      exact ⟨hcalm, by omega⟩

end Moment

/-- Nothing more is said once a run has ended. -/
theorem said_prefix_of_run {o : Outcome Unit} {e₁ : Engine}
    (h : e.run signals cancelled n = (some o, e₁)) (k : Nat) :
    e.said signals cancelled k <+: e.said signals cancelled n := by
  cases hstopped : e.host.stopped with
  | true =>
    simp only [said, hstopped, if_true]
    exact List.prefix_refl _
  | false =>
    rw [run_eq_finish_course hstopped] at h
    simp only [said, hstopped, Bool.false_eq_true, if_false]
    unfold course at h
    cases ho : e.opening cancelled with
    | inr r => exact List.prefix_refl _
    | inl g =>
      rw [ho] at h
      dsimp only at h ⊢
      cases hafter : g.after signals n with
      | inl g' =>
        rw [hafter] at h
        cases h
      | inr result => exact Moment.spoken_prefix_of_after hafter k

/-- A longer run says more. -/
theorem said_prefix_of_le {fuel : Nat} (h : n ≤ fuel) :
    e.said signals cancelled n <+: e.said signals cancelled fuel := by
  obtain ⟨k, rfl⟩ := Nat.exists_eq_add_of_le h
  unfold said
  split
  · exact List.prefix_refl _
  · cases e.opening cancelled with
    | inl g => exact g.spoken_prefix signals n k
    | inr result => exact List.prefix_refl _

/-- What has arrived at the end of a run. -/
theorem delivered_of_run {text : List UInt8} {o : Outcome Unit} {e₁ : Engine}
    (hstopped : e.host.stopped = false) (hd : e.host.output.Delivers text)
    (h : e.run signals cancelled n = (some o, e₁)) (hfault : e₁.host.output.fault = none) :
    e₁.host.output.delivered = text ++ e.said signals cancelled n := by
  have hgiven := (given_run e signals cancelled n).1.delivers text hd
  rw [h] at hgiven
  exact hgiven.delivered_eq (flushed_of_run hstopped h hfault)

theorem delivered_undisturbed {text : List UInt8} {fuel fuel' : Nat} {o o' : Outcome Unit}
    {e₁ e₂ : Engine} (hd : e.host.output.Delivers text)
    (h₁ : e.run signals cancelled fuel = (some o, e₁)) (hfault₁ : e₁.host.output.fault = none)
    (h₂ : e.undisturbed.run .none false fuel' = (some o', e₂))
    (hfault₂ : e₂.host.output.fault = none) :
    e₁.host.output.delivered <+: e₂.host.output.delivered := by
  cases hstopped : e.host.stopped with
  | true =>
    have hstopped' : e.undisturbed.host.stopped = true := hstopped
    rw [run, hstopped] at h₁
    rw [run, hstopped'] at h₂
    cases h₁
    cases h₂
    exact List.prefix_refl _
  | false =>
    have hd' : e.undisturbed.host.output.Delivers text :=
      ⟨hd.keeps, hd.start, hd.emitted_eq, hd.fault_iff⟩
    rw [delivered_of_run hstopped hd h₁ hfault₁,
      delivered_of_run (e := e.undisturbed) hstopped hd' h₂ hfault₂, List.prefix_append_right_inj]
    exact (said_undisturbed e signals cancelled fuel).trans (said_prefix_of_run h₂ fuel)

/-- What has arrived at any time is the start of what the run that nothing cancels has been given to
write by then, whether that has arrived or is still held back. -/
theorem delivered_prefix_emitted {text : List UInt8} {fuel fuel' : Nat} (hfuel : fuel ≤ fuel')
    (hd : e.host.output.Delivers text)
    (hfault : (e.undisturbed.run .none false fuel').2.host.output.fault = none) :
    (e.run signals cancelled fuel).2.host.output.delivered <+:
      (e.undisturbed.run .none false fuel').2.host.output.emitted := by
  have hgiven := (given_run e signals cancelled fuel).1.delivers text hd
  have hd' : e.undisturbed.host.output.Delivers text :=
    ⟨hd.keeps, hd.start, hd.emitted_eq, hd.fault_iff⟩
  have hgiven' := (given_run e.undisturbed .none false fuel').1.delivers text hd'
  rw [hgiven'.emitted_eq hfault]
  refine hgiven.start.trans ((List.prefix_append_right_inj _).mpr ?_)
  exact (said_undisturbed e signals cancelled fuel).trans (said_prefix_of_le hfuel)

theorem calm_course (h : e.course signals cancelled n = .inl g) : g.Calm ∧ g.tick = n := by
  obtain ⟨g₀, ho, hafter⟩ := exists_opening_of_course h
  have hstart : g₀.looking = true ∧ g₀.tick = 0 := by
    rcases opening_cases cancelled e with
      ⟨m, h, co, -, -, ho'⟩ | ⟨e', -, -, ho'⟩ | ⟨outcome, e', -, -, ho'⟩ <;> cases ho'.symm.trans ho
    exact ⟨rfl, rfl⟩
  obtain ⟨hcalm, htick⟩ := Moment.calm_after (fun _ => hstart.1) hafter
  exact ⟨hcalm, by rw [htick, hstart.2, Nat.zero_add]⟩

theorem exists_run_of_isCancelled (h : e.course signals cancelled n = .inl g)
    (hcancelled : g.isCancelled signals = true) {t : Nat}
    (hshows : ∀ t', t ≤ t' → signals.shows t' = true)
    (hcompact : ∀ n g, e.course signals cancelled n = .inl g → g.Compact) :
    ∃ fuel o e₁, e.run signals cancelled fuel = (some o, e₁) := by
  cases hstopped : e.host.stopped with
  | true => exact ⟨0, _, _, by rw [run, hstopped]; rfl⟩
  | false =>
    have hended : ∃ fuel result, e.course signals cancelled fuel = .inr result := by
      obtain ⟨g₀, ho, hafter⟩ := exists_opening_of_course h
      have hd := (calm_course h).1.doomed hcancelled
      have hlater := Moment.after_add hafter t
      cases hg' : g.after signals t with
      | inr result => exact ⟨n + t, result, by rw [course_of_opening ho, hlater, hg']⟩
      | inl g' =>
        have hcourse : e.course signals cancelled (n + t) = .inl g' := by
          rw [course_of_opening ho, hlater, hg']
        have htick := (calm_course hcourse).2
        have hfrom (k : Nat) : e.course signals cancelled (n + t + k) = g'.after signals k := by
          rw [course_of_opening ho, Moment.after_add (hlater.trans hg')]
        obtain ⟨k, result, hend⟩ := (Moment.doomed_after hd hg').ends
          (fun t' ht' => hshows t' (by omega))
          fun k g'' hg'' => hcompact (n + t + k) g'' (by rw [hfrom, hg''])
        exact ⟨n + t + k, result, by rw [hfrom, hend]⟩
    obtain ⟨fuel, result, hend⟩ := hended
    obtain ⟨o, e', hrun⟩ := run_eq_of_course hstopped hend
    exact ⟨fuel, o, _, hrun⟩

/-- Whenever and by whatever a run is cancelled, it ends as the run that nothing cancels, which
leaves the same machine and has written the same, or it ends as cancelled and the engine has
stopped. What it says is the start of what the other says, and so is what has arrived of it when both
runs have ended. Until then, what has arrived of it is the start of what the other has been given to
write. Once it has been cancelled, it makes one more request of the host at most, and it ends
when its jumps get to see that, in code that can be addressed. It leaves a stopped engine unless the
machine is suspended. -/
theorem cancellation_clean (e : Engine) (signals : Signals) (cancelled : Bool) :
    (∀ fuel o e₁, e.run signals cancelled fuel = (some o, e₁) →
      (e.undisturbed.run .none false fuel = (some o, e₁.undisturbed) ∨
        o = .failed .canceled ∧ e₁.host.stopped = true ∧
          ∃ n g, e.course signals cancelled n = .inl g ∧ g.isCancelled signals = true) ∧
      ((∀ crash, o ≠ .crashed crash) → (∀ fault, o = .failed fault → fault.isSuspended = false) →
        ∀ signals' cancelled' fuel',
          e₁.run signals' cancelled' fuel' = (some (.failed .stopped), e₁))) ∧
    (∀ fuel, e.said signals cancelled fuel <+: e.undisturbed.said .none false fuel) ∧
    (∀ text fuel fuel' o o' e₁ e₂, e.host.output.Delivers text →
      e.run signals cancelled fuel = (some o, e₁) → e₁.host.output.fault = none →
      e.undisturbed.run .none false fuel' = (some o', e₂) → e₂.host.output.fault = none →
      e₁.host.output.delivered <+: e₂.host.output.delivered) ∧
    (∀ text fuel fuel', fuel ≤ fuel' → e.host.output.Delivers text →
      (e.undisturbed.run .none false fuel').2.host.output.fault = none →
      (e.run signals cancelled fuel).2.host.output.delivered <+:
        (e.undisturbed.run .none false fuel').2.host.output.emitted) ∧
    (∀ n g, e.course signals cancelled n = .inl g → g.isCancelled signals = true →
      ∀ k, g.requests signals k ≤ 1) ∧
    ((∃ n g, e.course signals cancelled n = .inl g ∧ g.isCancelled signals = true) →
      (∃ t, ∀ t', t ≤ t' → signals.shows t' = true) →
      (∀ n g, e.course signals cancelled n = .inl g → g.Compact) →
      ∃ fuel o e₁, e.run signals cancelled fuel = (some o, e₁)) := by
  refine ⟨fun fuel o e₁ h => ⟨run_undisturbed h, fun hcrash hsuspended _ _ _ => ?_⟩,
    said_undisturbed e signals cancelled, ?_, ?_, fun n g h hcancelled k => ?_, ?_⟩
  · rw [run, stopped_of_run h hcrash hsuspended]
    rfl
  · intro text fuel fuel' o o' e₁ e₂ hd h₁ hfault₁ h₂ hfault₂
    exact delivered_undisturbed hd h₁ hfault₁ h₂ hfault₂
  · intro text fuel fuel' hfuel hd hfault
    exact delivered_prefix_emitted hfuel hd hfault
  · exact (((calm_course h).1.doomed hcancelled).requests_le k).1
  · rintro ⟨n, g, h, hcancelled⟩ ⟨t, hshows⟩ hcompact
    exact exists_run_of_isCancelled h hcancelled hshows hcompact

def spinning : Array Platter := #[0xD2000041, 0xA0000001, 0xC0000002]

def lettering : Array Platter := #[0xD2000041, 0xA0000001, 0x70000000]

/-- A program that writes a letter and then does nothing but jump to where it is. -/
def loitering : Array Platter := #[0xD2000041, 0xA0000001, 0xD4000003, 0xC0000002]

/-- Cancelled from tick 6 on, which jumps see from tick 8 on. -/
def belated : Signals := ⟨(6 ≤ ·), (8 ≤ ·)⟩

theorem cancellation_clean_spinning :
    (∃ g, (new spinning {}).2.course belated false 6 = .inl g ∧ g.isCancelled belated = true ∧
      ∀ k, g.requests belated k ≤ 1) ∧
    (∀ n g, (new spinning {}).2.course belated false n = .inl g → g.Compact) ∧
    (∃ fuel o e₁, (new spinning {}).2.run belated false fuel = (some o, e₁)) ∧
    (∃ e₁, (new spinning {}).2.run belated false 40 = (some (.failed .canceled), e₁) ∧
      e₁.run .none false 7 = (some (.failed .stopped), e₁)) ∧
    ((new lettering { output := {} }).2.run (.cancelAt 2) false 40).2.host.output.delivered <+:
      ((new lettering { output := {} }).2.undisturbed.run .none false 40).2.host.output.delivered ∧
    ((new loitering { output := {} }).2.run (.cancelAt 12) false 40).2.host.output.delivered <+:
      ((new loitering { output := {} }).2.undisturbed.run .none false 40).2.host.output.emitted := by
  obtain ⟨hends, -, -, -, hrequests, hreturns⟩ := cancellation_clean (new spinning {}).2 belated false
  have hcancelled : ((new spinning {}).2.course belated false 6).getLeft?.any
      (·.isCancelled belated) = true := by decide +kernel
  obtain ⟨g, hg, hcancelled⟩ := (Option.any_eq_true _ _).mp hcancelled
  rw [Sum.getLeft?_eq_some_iff] at hg
  have hover : ((new spinning {}).2.course belated false 12).isRight = true := by decide +kernel
  have hcompact : ∀ n g, (new spinning {}).2.course belated false n = .inl g → g.Compact := by
    intro n g hn co hco
    rcases Nat.lt_or_ge n 12 with hlt | hge
    · have hsizes : ∀ n < 12, ((new spinning {}).2.course belated false n).getLeft?.all
          (fun g => g.machine.running.code.all fun co =>
            co.code.size + (HostInstr.jumpSize + HostInstr.maxSkip) ≤ Layout.limit) = true := by
        decide +kernel
      simpa [hn, hco] using hsizes n hlt
    · obtain ⟨result, hresult⟩ := Sum.isRight_iff.mp hover
      obtain ⟨k, rfl⟩ := Nat.exists_eq_add_of_le hge
      rw [course_inr_add hresult] at hn
      cases hn
  refine ⟨⟨g, hg, hcancelled, hrequests 6 g hg hcancelled⟩, hcompact,
    hreturns ⟨6, g, hg, hcancelled⟩ ⟨8, fun t ht => by simpa [belated] using ht⟩ hcompact, ?_, ?_, ?_⟩
  -- the run has ended, and without the cancellation it would not have
  · have hsome : ((new spinning {}).2.run belated false 40).1.isSome = true := by decide +kernel
    have hnone : ((new spinning {}).2.undisturbed.run .none false 40).1.isNone = true := by
      decide +kernel
    rcases hrun : (new spinning {}).2.run belated false 40 with ⟨_ | o, e₁⟩
    · rw [hrun] at hsome
      cases hsome
    · obtain ⟨hend, hlater⟩ := hends 40 o e₁ hrun
      rcases hend with hsame | ⟨rfl, -⟩
      · rw [hsame] at hnone
        cases hnone
      · refine ⟨e₁, rfl, hlater nofun ?_ .none false 7⟩
        rintro _ ⟨⟩
        rfl
  · have hdelivers : (new lettering { output := {} }).2.host.output.Delivers [] := by
      rw [new_output (by decide +kernel)]
      exact Writer.delivers_of_fresh ⟨rfl, rfl, rfl⟩
    have hgood : ((new lettering { output := {} }).2.run (.cancelAt 2) false 40).1.isSome ∧
        ((new lettering { output := {} }).2.run (.cancelAt 2) false 40).2.host.output.fault.isNone ∧
        ((new lettering { output := {} }).2.undisturbed.run .none false 40).1.isSome ∧
        ((new lettering { output := {} }).2.undisturbed.run .none false
          40).2.host.output.fault.isNone := by decide +kernel
    obtain ⟨h₁, hfault₁, h₂, hfault₂⟩ := hgood
    have hended (r : RunResult) (h : r.1.isSome = true) : ∃ o, r = (some o, r.2) := by
      obtain ⟨_ | o, e⟩ := r
      · cases h
      · exact ⟨o, rfl⟩
    obtain ⟨o, h₁⟩ := hended _ h₁
    obtain ⟨o', h₂⟩ := hended _ h₂
    exact (cancellation_clean _ _ _).2.2.1 [] 40 40 o o' _ _ hdelivers h₁
      (Option.isNone_iff_eq_none.mp hfault₁) h₂ (Option.isNone_iff_eq_none.mp hfault₂)
  · have hdelivers : (new loitering { output := {} }).2.host.output.Delivers [] := by
      rw [new_output (by decide +kernel)]
      exact Writer.delivers_of_fresh ⟨rfl, rfl, rfl⟩
    have hfault : ((new loitering { output := {} }).2.undisturbed.run .none false
        40).2.host.output.fault.isNone := by decide +kernel
    exact (cancellation_clean _ _ _).2.2.2.1 [] 40 40 (Nat.le_refl _) hdelivers
      (Option.isNone_iff_eq_none.mp hfault)

/-- Without a cancellation the letter is held back for ever. -/
theorem loitering_holds_back (n : Nat) : ∃ g,
    (new loitering { output := {} }).2.undisturbed.course .none false n = .inl g ∧
      g.host.output.fault = none ∧ g.host.output.delivered = [] := by
  rcases Nat.lt_or_ge n 10 with hlt | hge
  · have hstart : ∀ n < 10, ((new loitering { output := {} }).2.undisturbed.course .none false
        n).getLeft?.any (fun g => g.host.output.fault = none ∧ g.host.output.delivered = []) := by
      decide +kernel
    obtain ⟨g, hg, hquiet⟩ := (Option.any_eq_true _ _).mp (hstart n hlt)
    exact ⟨g, Sum.getLeft?_eq_some_iff.mp hg, of_decide_eq_true hquiet⟩
  · -- from tick 10 on, four host instructions lead back to the same machine
    have hround : ((new loitering { output := {} }).2.undisturbed.course .none false
        10).getLeft?.any (fun g => g.looking = false ∧ g.cancelled = false ∧
          Machine.onward 4 (g.machine, g.pc) = some (g.machine, g.pc) ∧
          g.host.output.fault = none ∧ g.host.output.delivered = []) := by
      decide +kernel
    obtain ⟨g, hg, hround⟩ := (Option.any_eq_true _ _).mp hround
    obtain ⟨hl, hc, hperiod, hquiet⟩ := of_decide_eq_true hround
    obtain ⟨g₀, ho, hafter⟩ := exists_opening_of_course (Sum.getLeft?_eq_some_iff.mp hg)
    obtain ⟨k, rfl⟩ := Nat.exists_eq_add_of_le hge
    obtain ⟨s, hs⟩ := Machine.exists_onward_of_periodic (by decide) hperiod k
    refine ⟨⟨g.tick + k, false, false, s.1, g.host, s.2⟩, ?_, hquiet⟩
    rw [course_of_opening ho, Moment.after_add hafter, Moment.after_of_onward hl hc hs]

/-- A cancelled run writes out what it has said before it returns, so more may have arrived of it than
ever arrives of the run that nothing cancels. -/
theorem cancelled_run_delivers_more :
    (∃ e₁, (new loitering { output := {} }).2.run (.cancelAt 12) false 40 =
        (some (.failed .canceled), e₁) ∧
      e₁.host.output.fault = none ∧ e₁.host.output.delivered = [0x41]) ∧
    ∀ n, ((new loitering { output := {} }).2.undisturbed.run .none false n).1 = none ∧
      ((new loitering { output := {} }).2.undisturbed.run .none false n).2.host.output.fault = none ∧
      ((new loitering { output := {} }).2.undisturbed.run .none false
        n).2.host.output.delivered = [] := by
  constructor
  · have hend : ((new loitering { output := {} }).2.run (.cancelAt 12) false 40).1 =
          some (.failed .canceled) ∧
        ((new loitering { output := {} }).2.run (.cancelAt 12) false 40).2.host.output.fault = none ∧
        ((new loitering { output := {} }).2.run (.cancelAt 12) false
          40).2.host.output.delivered = [0x41] := by decide +kernel
    rcases hrun : (new loitering { output := {} }).2.run (.cancelAt 12) false 40 with ⟨o, e₁⟩
    rw [hrun] at hend
    obtain ⟨rfl, hquiet⟩ := hend
    exact ⟨e₁, rfl, hquiet⟩
  · intro n
    obtain ⟨g, hg, hfault, hdelivered⟩ := loitering_holds_back n
    have hstopped : (new loitering { output := {} }).2.undisturbed.host.stopped = false := by
      decide +kernel
    rw [run_eq_finish_course hstopped, hg]
    exact ⟨rfl, hfault, hdelivered⟩

end Engine

end PlatterMachine
