import PlatterMachine.Proofs.Engine.Containment
import PlatterMachine.Proofs.Engine.Restoring
import PlatterMachine.Proofs.Engine.Speech
import PlatterMachine.Proofs.Snapshot.Entries

/-!
# Engines that wait for input

However long the running code is, its table has an entry for every word of the running program. So an
engine whose run is suspended has its finger at an instruction, and its state can be restored as soon
as the handles are small enough and there is memory.
-/

namespace PlatterMachine

theorem CodeObject.lt_size_of_fingerFor {co : CodeObject} {addr finger : UInt32}
    (h : co.fingerFor addr = .ok finger) : finger.toNat < co.table.size := by
  unfold fingerFor at h
  dsimp only at h
  split at h
  · cases h
  · split at h
    · cases h
    · cases h
      rw [UInt32.toNat_ofNat']
      exact Nat.lt_of_le_of_lt (Nat.mod_le _ _) (by omega)

def Machine.Tabled (m : Machine) : Prop :=
  ∃ co, m.running.code = some co ∧ co.table.size = m.running.words.size

namespace Machine

variable {m m' : Machine} {interrupted : Bool} {pc pc' : UInt32}

theorem Tabled.of_running (h : m.Tabled) (heq : m'.running = m.running) : m'.Tabled := by
  unfold Tabled
  rwa [heq]

theorem size_words_of_step_next (hstep : m.step interrupted pc = .next m' pc') :
    m'.running.words.size = m.running.words.size := by
  rcases step_cases m interrupted pc with ⟨file, hfile⟩ |
    ⟨handle, offset, v, p, _, -, hread, hstore⟩
  · rw [hstep] at hfile
    cases hfile
    rfl
  obtain ⟨place, a, hplace, -, -⟩ := readWord?_eq_some hread
  rw [hstep, store, writeWord_eq hplace] at hstore
  split at hstore
  · rename_i h0
    obtain rfl := (place?_eq_running_iff hplace).mpr h0
    rcases plantStub_cases (m.modifyArray .running fun a =>
      { a with words := a.words.setIfInBounds offset.toNat v, dirty := true }) offset _ with
      ⟨co', -, hplant⟩ | hplant <;> cases hstore.trans hplant
    exact Array.size_setIfInBounds
  · rename_i h0
    cases hstore
    cases place with
    | running => exact absurd ((place?_eq_running_iff hplace).mp rfl) h0
    | other i => rfl

theorem Tabled.step_next (h : m.Tabled) (hstep : m.step interrupted pc = .next m' pc') :
    m'.Tabled := by
  obtain ⟨co, hco, hsize⟩ := h
  rw [← size_words_of_step_next hstep] at hsize
  obtain ⟨co', hco', rfl | ⟨i, -, rfl⟩⟩ := code_of_step_next hco hstep
  · exact ⟨co', hco', hsize⟩
  · exact ⟨_, hco', hsize⟩

end Machine

namespace Engine

variable {e e' : Engine} {g : Moment} {signals : Signals} {cancelled : Bool} {n : Nat}

theorem Coherent.tabled (hc : e.Coherent) {co : CodeObject}
    (hco : e.machine.running.code = some co) (hclean : e.machine.running.dirty = false) :
    e.machine.Tabled := by
  refine ⟨co, hco, ?_⟩
  rw [(CodeObject.isFor_of_clean hc hco hclean).table_eq]
  simp [Layout.table]

def Awaits (e : Engine) : Prop := e.host.finger.toNat < e.machine.running.words.size

/-- Writing does not suspend the machine, but what comes behind it may. -/
theorem suspended_of_onWriter_bind {α : Type} {activity : String}
    {f : Writer → Option Fault × Writer} {k : Unit → Action Engine α}
    (h : (onWriter activity f >>= k) e = (.failed .suspended, e')) :
    ∃ w, k () (e.withOutput w) = (.failed .suspended, e') := by
  rcases hf : f e.host.output with ⟨_ | fault, w⟩
  · exact ⟨w, (Action.bind_done (onWriter_of_none hf)).symm.trans h⟩
  · cases (Action.bind_failed (onWriter_of_some hf)).symm.trans h

theorem awaits_of_suspend (ht : e.machine.Tabled) {left : Exit}
    (h : suspend left e = (.failed .suspended, e')) : e'.Awaits := by
  obtain ⟨co, hco, hsize⟩ := ht
  rw [suspend, Action.read_bind_apply, hco] at h
  dsimp only at h
  cases hfinger : co.fingerFor left.resume with
  | error fault =>
    rw [hfinger] at h
    cases h
    exact absurd rfl (co.fingerFor_ne_suspended hfinger)
  | ok finger =>
    rw [hfinger] at h
    change (note (.suspended finger) >>= fun _ => Action.fail .suspended)
      ⟨e.machine, { e.host with finger }⟩ = _ at h
    rw [Action.bind_done (note_apply _ _)] at h
    cases h
    have hlt := CodeObject.lt_size_of_fingerFor hfinger
    rwa [hsize] at hlt

theorem awaits_of_serveInput (ht : e.machine.Tabled) {left : Exit}
    (h : serveInput left e = (.failed .suspended, e')) : e'.Awaits := by
  obtain ⟨w, h⟩ := suspended_of_onWriter_bind h
  have hread : onReader Reader.readByte (e.withOutput w) =
      (.done e.host.input.readByte.1, ⟨e.machine,
        { (e.withOutput w).host with input := e.host.input.readByte.2 }⟩) := rfl
  rw [Action.bind_done hread] at h
  cases hbyte : e.host.input.readByte.1 with
  | ok b =>
    rw [hbyte] at h
    cases h
  | error fault =>
    rw [hbyte] at h
    dsimp only at h
    split at h
    · rw [Action.read_bind_apply] at h
      split at h
      · refine awaits_of_suspend ?_ h
        exact ht
      · cases h
    · cases h

theorem awaits_of_serveReason (ht : e.machine.Tabled) {reason : Reason} {left : Exit}
    (h : serveReason reason left e = (.failed .suspended, e')) : e'.Awaits := by
  by_cases hinput : reason = .input
  · subst hinput
    exact awaits_of_serveInput ht h
  · have habstains := (composed_serveReason hinput (fun _ => trivial) left).abstains e
    exact absurd (congrArg Prod.fst h) (habstains.not_suspended id)

/-- The code has a table, and if that was the end the engine awaits input at an instruction. -/
def Moment.Tables : Moment ⊕ RunResult → Prop
  | .inl g => g.engine.Sound ∧ g.machine.Tabled
  | .inr result => result.1 = some (.failed .suspended) → result.2.Awaits

theorem tables_conclude {outcome : Outcome Unit}
    (h : outcome = .failed .suspended → e.Awaits) : Moment.Tables (.inr (conclude outcome e)) := by
  intro hsuspended
  rw [fst_conclude, Option.some.injEq] at hsuspended
  cases hsuspended
  exact h rfl

theorem Moment.tables_tick {interrupted : Bool} {r : Moment ⊕ RunResult} (hs : g.engine.Sound)
    (htabled : g.machine.Tabled) (ht : g.Tick interrupted r) : Tables r := by
  have hkept := kept_tick hs ht
  cases ht with
  | canceled _ => exact tables_conclude (by rintro ⟨⟩)
  | looked cancelled _ => exact ⟨hs, htabled⟩
  | stepped cancelled _ hstep => exact ⟨hkept, htabled.step_next hstep⟩
  | crashed _ _ => exact tables_conclude (by rintro ⟨⟩)
  | unknown _ _ _ _ => exact tables_conclude (by rintro ⟨⟩)
  | @returned m left reason cancelled _ hstep hreason =>
    have hleft : m.Tabled := htabled.of_running (Machine.running_of_step_exit hstep)
    rcases hserve : serveReason reason left ⟨m, g.host⟩ with ⟨(_ | pc) | fault | crash, e'⟩ <;>
      rw [hserve] at hkept
    · exact tables_conclude (by rintro ⟨⟩)
    · refine ⟨hkept, ?_⟩
      rcases hs.returns hstep hserve pc rfl with ⟨hclean, co, -, hco, -⟩ | ⟨-, -, hsame⟩
      · exact (Sound.toCoherent hkept).tabled hco hclean
      · exact htabled.of_running hsame
    · refine tables_conclude fun hfault => ?_
      cases hfault
      exact awaits_of_serveReason (e := ⟨m, g.host⟩) hleft hserve
    · exact tables_conclude (by rintro ⟨⟩)

theorem Coherent.wp_prepare_clean (hc : e.Coherent) :
    prepare.wp (fun _ e => e.machine.running.dirty = false) (fun _ => True) e := by
  refine wp_prepare_of_forall (fun _ => ?_) fun _ _ hclean => hclean
  refine (hc.wp_regenerate rfl (Or.inl rfl)).imp (fun _ e' _ h => ?_) fun _ _ => trivial
  obtain ⟨-, a, _, ha, -, hclean, -⟩ := h
  cases ha
  exact hclean

theorem Coherent.tables_opening (hc : e.Coherent) (cancelled : Bool) :
    Moment.Tables (e.opening cancelled) := by
  have hkept := hc.opening cancelled
  have hc' : Coherent { e with host := e.host.renew } := hc.of_host rfl rfl rfl
  have hclean := hc'.wp_prepare_clean
  have hprepare : Abstains False False { e with host := e.host.renew } _ :=
    composed_prepare.abstains _
  have hfault := hprepare.not_suspended id
  rcases opening_cases cancelled e with
    ⟨m, h, co, hp, hco, ho⟩ | ⟨e', -, -, ho⟩ | ⟨outcome, e', -, hp, ho⟩ <;> rw [ho] at hkept ⊢
  · rw [Action.wp, hp] at hclean
    exact ⟨hkept, (Sound.toCoherent hkept).tabled hco hclean⟩
  · exact tables_conclude (by rintro ⟨⟩)
  · refine tables_conclude fun hsuspended => ?_
    rw [hp] at hfault
    exact absurd hsuspended hfault

theorem Coherent.tables_course (hc : e.Coherent) (signals : Signals) (cancelled : Bool) (n : Nat) :
    Moment.Tables (e.course signals cancelled n) := by
  have hopening := hc.tables_opening cancelled
  unfold Engine.course
  cases ho : e.opening cancelled with
  | inl g =>
    rw [ho] at hopening
    have hkept := Moment.after_kept (P := fun g => g.engine.Sound ∧ g.machine.Tabled)
      (Q := fun r => Moment.Tables (.inr r)) (fun _ g r hg ht => ?_) hopening signals n
    · dsimp only
      revert hkept
      cases g.after signals n <;> exact id
    · have htables := Moment.tables_tick hg.1 hg.2 ht
      cases r <;> exact htables
  | inr result =>
    rw [ho] at hopening
    exact hopening

/-- An engine that was suspended starts again at an instruction of its program. -/
theorem Coherent.awaits_of_run (hc : e.Coherent)
    (h : e.run signals cancelled n = (some (.failed .suspended), e')) : e'.Awaits := by
  cases hstopped : e.host.stopped with
  | true =>
    rw [Engine.run, hstopped] at h
    cases h
  | false =>
    rw [run_eq_finish_course hstopped] at h
    have htables := hc.tables_course signals cancelled n
    rcases hcourse : e.course signals cancelled n with g | ⟨_ | outcome, e₁⟩ <;>
      rw [hcourse] at h htables
    · cases h
    · cases h
    · have hflush : (flush e₁).2 = e₁.withOutput e₁.host.output.flush.2 := rfl
      cases outcome with
      | done _ =>
        rcases hf : e₁.host.output.flush with ⟨_ | fault, w⟩
        · simp only [Moment.report, Engine.finish, flush_of_none hf] at h
          cases h
        · simp only [Moment.report, Engine.finish, flush_of_some hf] at h
          cases h
      | failed fault =>
        cases (finish_of_ne_done (by rintro ⟨⟩) e₁).symm.trans h
        rw [hflush]
        exact htables rfl
      | crashed crash => cases (finish_of_ne_done (by rintro ⟨⟩) e₁).symm.trans h

theorem liveEntries_of_le {others : Array (Option (Array Platter))} {n : Nat}
    (h : others.size ≤ n) : liveEntries others n = liveEntries others others.size := by
  induction n, h using Nat.le_induction with
  | base => rfl
  | succ n hn ih =>
    rw [liveEntries_succ, Array.getElem?_eq_none hn, ih]
    exact List.append_nil _

/-- Only the live arrays of a table count. -/
theorem liveEntries_congr {others others' : Array (Option (Array Platter))}
    (h : ∀ k : Nat, others[k]?.join = others'[k]?.join) :
    liveEntries others others.size = liveEntries others' others'.size := by
  rw [← liveEntries_of_le (Nat.le_max_left others.size others'.size),
    ← liveEntries_of_le (Nat.le_max_right others.size others'.size), liveEntries, liveEntries]
  simp only [h]

theorem lt_size_of_join {others : Array (Option (Array Platter))} {i : Nat} {words : Array Platter}
    (h : others[i]?.join = some words) : i < others.size := by
  by_contra hge
  rw [Array.getElem?_eq_none (Nat.le_of_not_lt hge)] at h
  cases h

theorem size_others_lt (hopen : e.host.closed = false) (h : e.tableSize ≤ UInt32.size) :
    e.machine.otherWords.size < UInt32.size := by
  simp only [tableSize, hopen, Bool.false_eq_true, if_false] at h
  rw [Machine.size_otherWords]
  omega

theorem succ_lt_of_join (hopen : e.host.closed = false) (h : e.tableSize ≤ UInt32.size) {i : Nat}
    {words : Array Platter} (hi : e.machine.otherWords[i]?.join = some words) :
    i + 1 < UInt32.size :=
  Nat.lt_of_le_of_lt (lt_size_of_join hi) (size_others_lt hopen h)

variable {config : EngineConfig}

theorem exists_collect_zero (entries : List (UInt32 × Array Platter)) (words : Array Platter) :
    ∃ rest, MachineState.collect (entries ++ [(0, words)]) = (0, words) :: rest := by
  induction entries with
  | nil => exact ⟨[], rfl⟩
  | cons x entries ih =>
    obtain ⟨rest, hrest⟩ := ih
    have hcollect : MachineState.collect (x :: entries ++ [(0, words)]) =
        MachineState.insert x ((0, words) :: rest) := congrArg (MachineState.insert x) hrest
    rw [hcollect, MachineState.insert, if_neg UInt32.not_lt_zero]
    split
    · exact ⟨rest, rfl⟩
    · exact ⟨_, rfl⟩

theorem state_array?_zero (hopen : e.host.closed = false) :
    e.state.array? 0 = some e.machine.running.words := by
  simp only [MachineState.array?, state, MachineState.ofEntries, hopen, Bool.false_eq_true, if_false,
    stateEntries_eq]
  obtain ⟨rest, hrest⟩ := exists_collect_zero
    (liveEntries e.machine.otherWords e.machine.others.size) e.machine.running.words
  rw [hrest, List.lookup_cons_self]

/-- With small handles and memory, the state of an engine that awaits input is restored, to an engine
with that very state. -/
theorem Awaits.exists_restore (hawaits : e.Awaits) (hopen : e.host.closed = false)
    (htable : e.tableSize ≤ UInt32.size) (hmemory : (config.memory.getD .mapped).Covers 0 0)
    (hfit : ∀ x ∈ e.state.arrays, x.1.toNat < handleLimit ∧ x.2.size < Layout.limit) :
    ∃ r, restore e.state config = (.done (), r) ∧ r.state = e.state := by
  have hword (i : Nat) (words : Array Platter) (h : e.machine.otherWords[i]?.join = some words) :
      i + 1 < 0x100000000 := succ_lt_of_join hopen htable h
  have harrays := state_arrays hopen hword
  have hprogram : e.machine.running.words.size < Layout.limit :=
    (hfit (0, e.machine.running.words) (by rw [harrays]; exact List.mem_cons_self)).2
  obtain ⟨r, top, hrestore, hbelow, -, -, hpicture⟩ := Engine.exists_restore hmemory
    (state_array?_zero hopen) hawaits hprogram hfit
  have hothers : r.machine.otherWords = placed (Array.replicate top none) e.state.arrays :=
    congrArg Picture.others hpicture
  have hsame (k : Nat) : r.machine.otherWords[k]?.join = e.machine.otherWords[k]?.join := by
    rw [hothers]
    exact join_getElem?_placed_state hopen hbelow hword k
  have hregisters : r.state.registers = e.state.registers :=
    (congrArg Picture.registers hpicture).trans (registers_restored e.state
      e.machine.running.words top config)
  have hfinger : r.state.finger = e.state.finger := congrArg Picture.finger hpicture
  have hstate : r.state.arrays = e.state.arrays := by
    rw [harrays, state_arrays (congrArg Picture.closed hpicture) fun i words h =>
        hword i words (hsame i ▸ h), liveEntries_congr hsame,
      show r.machine.running.words = e.machine.running.words from
        congrArg Picture.program hpicture]
  exact ⟨r, hrestore, MachineState.ext hregisters hfinger hstate⟩

theorem foldl_max_mem (handles : List UInt32) (first : UInt32) :
    handles.foldl max first = first ∨ handles.foldl max first ∈ handles := by
  induction handles generalizing first with
  | nil => exact .inl rfl
  | cons handle rest ih =>
    rw [List.foldl_cons, List.mem_cons]
    have hmax : max first handle = first ∨ max first handle = handle := by
      change (if first ≤ handle then handle else first) = first ∨
        (if first ≤ handle then handle else first) = handle
      split
      · exact .inr rfl
      · exact .inl rfl
    rcases ih (max first handle) with heq | hmem
    · rw [heq]
      exact hmax.imp_right .inl
    · exact .inr (.inr hmem)

/-- A handle that is too large is refused. -/
theorem Awaits.restore_refused (hawaits : e.Awaits) (hopen : e.host.closed = false)
    {handle : UInt32} (hmem : handle ∈ e.state.handles) (hlarge : handleLimit ≤ handle.toNat)
    (config : EngineConfig) :
    ∃ top ∈ e.state.handles, handleLimit ≤ top.toNat ∧ restore e.state config =
      (.failed (.invalidIndex "restored handle beyond handle limit" top), blank config) := by
  have htop : handleLimit ≤ (e.state.handles.foldl max 0).toNat := by
    by_contra hlt
    rw [Nat.not_le, foldl_max_lt_iff] at hlt
    exact Nat.not_le.mpr (hlt.2 handle hmem) hlarge
  refine ⟨e.state.handles.foldl max 0, ?_, htop, ?_⟩
  · rcases foldl_max_mem e.state.handles 0 with heq | hmem
    · rw [heq] at htop
      cases htop
    · exact hmem
  · have hfinger : ¬ e.machine.running.words.size ≤ e.state.finger.toNat := Nat.not_le.mpr hawaits
    simp only [restore, state_array?_zero hopen, if_neg hfinger, if_pos htop]

end Engine

end PlatterMachine
