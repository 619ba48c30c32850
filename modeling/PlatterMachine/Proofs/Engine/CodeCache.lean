import PlatterMachine.Proofs.Engine.Serving
import PlatterMachine.Proofs.Engine.Ticks

/-!
# The code cache

Engines are coherent in every state that they can get into, and sound while they execute code. So
the code that a clean array has is the code of its words, the running code can go back to its donor
unread, and no routine of a platter that has been overwritten is ever entered.
-/

namespace PlatterMachine.Engine

variable {e : Engine}

/-- A run that goes on is sound, and what one that has ended leaves is coherent. -/
def Moment.Kept : Moment ⊕ RunResult → Prop
  | .inl g => g.engine.Sound
  | .inr result => result.1 ≠ none ∧ result.2.Coherent

theorem Coherent.conclude (hc : e.Coherent) (outcome : Outcome Unit) :
    Moment.Kept (.inr (conclude outcome e)) := by
  constructor
  · rw [fst_conclude]
    exact Option.some_ne_none outcome
  · rcases snd_conclude outcome e with h | h
    · rw [h]
      exact hc
    · rw [h]
      exact hc.of_host rfl rfl rfl

theorem Moment.kept_tick {interrupted : Bool} {g : Moment} {r : Moment ⊕ RunResult}
    (hs : g.engine.Sound) (ht : g.Tick interrupted r) : Kept r := by
  cases ht with
  | canceled _ => exact hs.toCoherent.conclude _
  | looked cancelled _ => exact hs
  | @stepped m pc cancelled _ hstep =>
    have hc := hs.toCoherent.step interrupted g.pc
    rw [hstep] at hc
    exact ⟨hc, hs.executable.step_next hstep⟩
  | @crashed m crash _ hstep =>
    have hc := hs.toCoherent.step interrupted g.pc
    rw [hstep] at hc
    exact hc.conclude _
  | @unknown m exit message _ hstep _ =>
    have hc := hs.toCoherent.step interrupted g.pc
    rw [hstep] at hc
    exact hc.conclude _
  | @returned m exit reason cancelled _ hstep _ =>
    have hc := hs.toCoherent.step interrupted g.pc
    rw [hstep] at hc
    have hs' : Sound ⟨m, g.host⟩ := ⟨hc, hs.executable.step_exit hstep⟩
    have hserve := hs'.wp_serveReason reason exit
    unfold Action.wp at hserve
    rcases hr : serveReason reason exit ⟨m, g.host⟩ with ⟨(_ | pc) | fault | crash, e'⟩ <;>
      rw [hr] at hserve
    · exact Coherent.conclude (And.left hserve) _
    · exact And.right hserve nofun
    · exact Coherent.conclude hserve _
    · exact Coherent.conclude hserve _

theorem Moment.kept_next {g : Moment} (hs : g.engine.Sound) (signals : Signals) :
    Kept (g.next signals) :=
  kept_tick hs (tick_next signals g)

theorem Moment.kept_after {g : Moment} (hs : g.engine.Sound) (signals : Signals) (n : Nat) :
    Kept (g.after signals n) := by
  induction n generalizing g with
  | zero => exact hs
  | succ n ih =>
    have hnext := Moment.kept_next hs signals
    rw [Moment.after]
    cases hg : g.next signals with
    | inl g' =>
      rw [hg] at hnext
      exact ih hnext
    | inr result =>
      rw [hg] at hnext
      exact hnext

theorem Coherent.wp_prepare (hc : e.Coherent) : prepare.wp (fun _ => Sound) Coherent e :=
  wp_prepare_of_forall (fun _ => hc.wp_regenerate_running) fun co hco hclean =>
    hc.sound ⟨_, co, rfl, rfl, hclean, hco⟩

theorem Coherent.opening (hc : e.Coherent) (cancelled : Bool) :
    Moment.Kept (e.opening cancelled) := by
  have hc' : Coherent { e with host := e.host.renew } := hc.of_host rfl rfl rfl
  have hprepare := hc'.wp_prepare
  rcases opening_cases cancelled e with
    ⟨m, h, co, hp, -, ho⟩ | ⟨e', hp, hnone, ho⟩ | ⟨outcome, e', hne, hp, ho⟩ <;> rw [ho]
  · rw [Action.wp, hp] at hprepare
    exact hprepare
  · rw [Action.wp, hp] at hprepare
    obtain ⟨co, hco, -⟩ := Sound.executable hprepare
    cases hnone.symm.trans hco
  · exact (hprepare.of_ne_done hp hne).conclude outcome

theorem Coherent.course (hc : e.Coherent) (signals : Signals) (cancelled : Bool) (n : Nat) :
    Moment.Kept (e.course signals cancelled n) := by
  have hopening := hc.opening cancelled
  unfold Engine.course
  cases ho : e.opening cancelled with
  | inl g =>
    rw [ho] at hopening
    exact Moment.kept_after hopening signals n
  | inr result =>
    rw [ho] at hopening
    exact hopening

theorem Coherent.finish (hc : e.Coherent) (outcome : Outcome Unit) :
    Moment.Kept (.inr (finish (some outcome, e))) := by
  have hflush : flush.wp (fun _ => Coherent) Coherent e :=
    wp_onWriter_of_forall (fun _ => hc.of_host rfl rfl rfl) fun _ => hc.of_host rfl rfl rfl
  obtain ⟨o, hfinish⟩ := exists_finish outcome e
  rw [hfinish]
  exact ⟨nofun, hflush.snd⟩

/-- A run leaves a coherent engine, and a sound one as long as it has not ended. -/
theorem Coherent.run (hc : e.Coherent) (signals : Signals) (cancelled : Bool) (fuel : Nat) :
    (e.run signals cancelled fuel).2.Coherent ∧
      ((e.run signals cancelled fuel).1 = none → (e.run signals cancelled fuel).2.Sound) := by
  cases hstopped : e.host.stopped with
  | true =>
    simp only [Engine.run, hstopped, if_true]
    refine ⟨hc, fun hnone => ?_⟩
    cases hnone
  | false =>
    rw [run_eq_finish_course hstopped]
    have hcourse := hc.course signals cancelled fuel
    rcases hg : e.course signals cancelled fuel with g | ⟨_ | outcome, e'⟩ <;> rw [hg] at hcourse
    · exact ⟨Sound.toCoherent hcourse, fun _ => hcourse⟩
    · exact absurd rfl (And.left hcourse)
    · obtain ⟨hsome, hc'⟩ := Coherent.finish (And.right hcourse) outcome
      exact ⟨hc', fun hnone => absurd hnone hsome⟩

structure Uncompiled (e : Engine) : Prop where
  donor_eq : e.host.donor = none
  code_eq : ∀ place a, e.machine.array? place = some a → a.code = none

theorem Uncompiled.coherent (hu : e.Uncompiled)
    (hroom : 1 ≤ e.host.minFree ∧ e.host.minFree ≤ e.machine.others.size + 1) : e.Coherent where
  fresh place a ha := PlatterArray.fresh_of_code_eq_none (hu.code_eq place a ha)
  lent i hi := by
    rw [hu.donor_eq] at hi
    cases hi
  room _ := hroom

theorem wp_start (program : Array Platter) (config : EngineConfig) :
    (start program).wp
      (fun _ e => e.Uncompiled ∧ e.host.minFree = 1) (fun _ => True) (blank config) := by
  refine wp_start_of_forall fun buffer memory => ⟨⟨rfl, fun place a ha => ?_⟩, rfl⟩
  cases place with
  | running =>
    cases ha
    rfl
  | other i => cases ha

theorem foldl_max_lt_iff (handles : List UInt32) (first : UInt32) (bound : Nat) :
    (handles.foldl max first).toNat < bound ↔
      first.toNat < bound ∧ ∀ handle ∈ handles, handle.toNat < bound := by
  induction handles generalizing first with
  | nil => simp
  | cons handle rest ih =>
    have hmax : (max first handle).toNat < bound ↔
        first.toNat < bound ∧ handle.toNat < bound := by
      change (if first ≤ handle then handle else first).toNat < bound ↔ _
      split
      · rename_i hle
        have hle' := UInt32.le_iff_toNat_le.mp hle
        omega
      · rename_i hle
        have hle' := mt UInt32.le_iff_toNat_le.mpr hle
        omega
    rw [List.foldl_cons, ih, hmax, List.forall_mem_cons, and_assoc]

theorem Uncompiled.setOther (hu : e.Uncompiled) (handle : Nat) (words : Array Platter)
    (buffer : Buffer) (memory : Memory) :
    Uncompiled ⟨e.machine.setOther handle (some ⟨words, buffer, false, none⟩),
      { e.host with memory }⟩ := by
  refine ⟨hu.donor_eq, fun place a ha => ?_⟩
  rcases e.machine.array?_setOther_or handle (some ⟨words, buffer, false, none⟩) place
    with hset | hset
  · exact hu.code_eq place a (hset.symm.trans ha)
  · cases hset.symm.trans ha
    rfl

theorem new_coherent {program : Array Platter} {config : EngineConfig}
    (h : (new program config).1 = .done ()) : (new program config).2.Coherent := by
  obtain ⟨hu, hfree⟩ := (wp_start program config).of_done h
  refine hu.coherent ?_
  rw [hfree]
  omega

theorem wp_resume (s : MachineState) (program : Array Platter) (top : Nat)
    (config : EngineConfig) :
    (resume s program top).wp (fun _ => Coherent) (fun _ => True) (blank config) := by
  refine wp_resume_of_forall (P := Uncompiled)
    (fun buffer memory => ⟨rfl, fun place a ha => ?_⟩)
    (fun _ handle words buffer memory hu => hu.setOther handle words buffer memory)
    fun e hu => ?_
  · cases place with
    | running =>
      cases ha
      rfl
    | other i =>
      rw [array?_readied_other] at ha
      cases ha
  · obtain ⟨hge, hle, -⟩ := e.minFree_searched
    exact Uncompiled.coherent ⟨hu.donor_eq, hu.code_eq⟩ ⟨hge, hle⟩

theorem restore_coherent {s : MachineState} {config : EngineConfig}
    (h : (restore s config).1 = .done ()) : (restore s config).2.Coherent := by
  obtain ⟨program, top, heq⟩ := restore_eq_resume h
  rw [heq] at h ⊢
  exact (wp_resume s program top config).of_done h

theorem emptied_coherent (e : Engine) (memory : Memory) : (e.emptied memory).Coherent where
  fresh place a ha := by
    cases place with
    | running =>
      cases ha
      exact PlatterArray.fresh_of_code_eq_none rfl
    | other i => cases ha
  lent i hi := by cases hi
  room hopen := by cases hopen

theorem Coherent.close (hc : e.Coherent) : (close e).2.Coherent := by
  obtain ⟨memory, hclose | hclose⟩ := e.snd_close
  · rw [hclose]
    exact hc.withMemory memory
  · rw [hclose]
    exact e.emptied_coherent memory

/-- Engines that come about by making, supplying, running and closing them. A run is taken at any of
its ticks, and memory that is shared changes as others use it. -/
inductive Reachable : Engine → Prop
  | new {program : Array Platter} {config : EngineConfig}
      (h : (new program config).1 = .done ()) : Reachable (new program config).2
  | restore {s : MachineState} {config : EngineConfig}
      (h : (restore s config).1 = .done ()) : Reachable (restore s config).2
  | run {e : Engine} (signals : Signals) (cancelled : Bool) (fuel : Nat) (h : Reachable e) :
      Reachable (e.run signals cancelled fuel).2
  | supply {e : Engine} (input : Reader) (h : Reachable e) :
      Reachable { e with host := { e.host with input } }
  | share {e : Engine} (memory : Memory) (h : Reachable e) : Reachable (e.withMemory memory)
  | close {e : Engine} (h : Reachable e) : Reachable (close e).2

theorem Reachable.coherent (h : Reachable e) : e.Coherent := by
  induction h with
  | new h => exact new_coherent h
  | restore h => exact restore_coherent h
  | run signals cancelled fuel _ ih => exact (ih.run signals cancelled fuel).1
  | supply input _ ih => exact ih.of_host rfl rfl rfl
  | share memory _ ih => exact ih.withMemory memory
  | close _ ih => exact ih.close

open Assembler in
/-- Clean code is the code of the present words; a donor that can get the running code back has the
running words; and while code executes, each entry leads to a stub or to the routine of the present
platter, with the guard behind the last. -/
theorem reachable_code_coherent (h : Reachable e) :
    (∀ place a co, e.machine.array? place = some a → a.code = some co → a.dirty = false →
      (∃ memory memory', CodeObject.generate a.words memory = (.done co, memory')) ∧
      ∀ memory memory' co', CodeObject.generate a.words memory = (.done co', memory') →
        co'.code = co.code ∧ co'.table = co.table ∧ co'.guard = co.guard) ∧
    (∀ signals cancelled fuel e', e.run signals cancelled fuel = (none, e') →
      ∃ co, e'.machine.running.code = some co ∧ (co.code.size < Layout.limit →
        (∀ i p, e'.machine.running.words[i]? = some p →
          co.code.extract (co.entry (UInt32.ofNat i)).toNat
              ((co.entry (UInt32.ofNat i)).toNat + Routine.stubSize) =
            assembled (emit (.ret Reason.recompile.code)) ∨
          co.code.extract (co.entry (UInt32.ofNat i)).toNat
              (co.entry (UInt32.ofNat (i + 1))).toNat = assembled (Routine.emit p)) ∧
        co.code.extract co.guard.toNat co.code.size = assembled Routine.emitGuard)) ∧
    (∀ i, e.host.donor = some i → ∃ d, e.machine.array? (.other i) = some d ∧
      (d.code = none → d.dirty = false → e.machine.running.dirty = false →
        d.words = e.machine.running.words)) := by
  have hc := h.coherent
  refine ⟨fun place a co ha hco hclean => ?_, fun signals cancelled fuel e' hrun => ?_, hc.lent⟩
  · obtain ⟨memory, memory', hgenerate⟩ := hc.fresh place a ha hclean co hco
    exact ⟨⟨memory, memory', hgenerate⟩, fun _ _ _ h' => CodeObject.generate_agree hgenerate h'⟩
  · have hsound : e'.Sound := by
      have hs := (hc.run signals cancelled fuel).2
      rw [hrun] at hs
      exact hs rfl
    obtain ⟨co, hco, hpatched⟩ := hsound.executable
    refine ⟨co, hco, fun hsize => ?_⟩
    obtain ⟨old, hold⟩ := hpatched hsize
    rw [(emits_emit _).assembled_eq, Routine.emits_guard.assembled_eq]
    refine ⟨fun i p hp => ?_, hold.extract_guard⟩
    rw [(Routine.emits_routine p).assembled_eq]
    exact hold.extract_entry hp

/-- A program that overwrites its third platter before it gets there. -/
theorem reachable_code_coherent_amending :
    Reachable (new #[0xD2000002, 0x2000000A, 0x70000000, 0x70000000] {}).2 ∧
      ∀ fuel e', (new #[0xD2000002, 0x2000000A, 0x70000000, 0x70000000] {}).2.run .none false fuel =
        (none, e') → ∃ co, e'.machine.running.code = some co ∧ (co.code.size < Layout.limit →
          co.code.extract co.guard.toNat co.code.size =
            Assembler.assembled Routine.emitGuard) := by
  have hnew : Reachable (new #[0xD2000002, 0x2000000A, 0x70000000, 0x70000000] {}).2 :=
    .new (by decide +kernel)
  refine ⟨hnew, fun fuel e' hrun => ?_⟩
  obtain ⟨co, hco, hcode⟩ := (reachable_code_coherent hnew).2.1 .none false fuel e' hrun
  exact ⟨co, hco, fun hsize => (hcode hsize).2⟩

end PlatterMachine.Engine
