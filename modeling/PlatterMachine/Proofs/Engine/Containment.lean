import PlatterMachine.Proofs.Engine.Boundaries
import PlatterMachine.Proofs.Engine.Lifetime

/-!
# No failure from within

Serving a return to the host leads back to a position in the running code, so execution stays within
the code all through a run, whatever the program does to itself and whenever it is interrupted. Host
instructions do not fail, every return can be served, and a stub covers nothing but the routine that
it replaces.
-/

namespace PlatterMachine

namespace Engine

variable {e : Engine}

def Returns (e : Engine) (reason : Reason) (left : Exit) (resume : Option UInt32) (e' : Engine) :
    Prop :=
  ∀ pc, resume = some pc →
    (e'.machine.running.dirty = false ∧
      ∃ co finger, e'.machine.running.code = some co ∧ pc = co.entry finger) ∨
    (reason.Resumes ∧ pc = left.resume ∧ e'.machine.running = e.machine.running)

theorem Coherent.wp_serveReason_returns (hc : e.Coherent) (reason : Reason) (left : Exit) :
    (serveReason reason left).wp (e.Returns reason left) (fun _ => True) e := by
  have hstays (m : Machine) (h : Host) (hr : reason.Resumes)
      (hm : m.running = e.machine.running) :
      e.Returns reason left (some left.resume) ⟨m, h⟩ := by
    rintro _ ⟨⟩
    exact Or.inr ⟨hr, rfl, hm⟩
  cases reason with
  | halt =>
    refine wp_serveHalt_of_forall (fun pc hpc => ?_) fun _ => trivial
    cases hpc
  | allocation =>
    rw [serveReason, Action.wp_bind]
    exact (hc.wp_allocate _).imp (fun _ e' _ h => hstays _ _ trivial h.2) fun _ _ => trivial
  | abandonment =>
    rw [serveReason, Action.wp_bind]
    exact (hc.wp_abandon _).imp (fun _ e' _ h => hstays _ _ trivial h.2) fun _ _ => trivial
  | output => exact wp_serveOutput_of_forall (fun _ => hstays _ _ trivial rfl) fun _ => trivial
  | input =>
    apply wp_serveInput_of_forall
    refine wp_onWriter_of_forall (fun output => ⟨?_, ?_, ?_⟩) fun _ => trivial
    · exact fun input v => hstays _ _ trivial rfl
    · exact fun input => trivial
    · exact fun input finger events => trivial
  | loadProgram =>
    rw [serveReason, Action.wp_bind]
    refine (hc.wp_loadProgram _ _).imp (fun pc e' _ h => ?_) fun _ _ => trivial
    obtain ⟨-, ⟨_, a, _, ha, -, hclean, -⟩, co, hco, hpc⟩ := h
    cases ha
    rintro _ ⟨⟩
    exact Or.inl ⟨hclean, co, _, hco, hpc⟩
  | recompile =>
    refine wp_serveRecompile_of_forall trivial ((hc.wp_regenerate rfl (Or.inl rfl)).imp
      (fun _ e' _ h stats events => ?_) fun _ _ => trivial)
    obtain ⟨-, a, _, ha, -, hclean, -⟩ := h
    cases ha
    refine ⟨trivial, fun co finger hco => ?_⟩
    rintro _ ⟨⟩
    exact Or.inl ⟨hclean, co, finger, hco, rfl⟩
  | fault => exact wp_serveFault_of_broken trivial
  | interrupt => exact hstays _ _ trivial rfl

variable {m₀ : Memory} {l₀ others : Loans} {g : Moment} {co : CodeObject}

def Moment.Steady (g : Moment) : Prop :=
  ∃ co, g.machine.running.code = some co ∧ (co.code.size < Layout.limit →
    ∃ old, co.Patched old g.machine.running.words ∧ g.machine.Position co old g.pc)

theorem Sound.steady (hs : e.Sound) (hco : e.machine.running.code = some co) (tick : Nat)
    (cancelled looking : Bool) (finger : UInt32) :
    Moment.Steady ⟨tick, cancelled, looking, e.machine, e.host, co.entry finger⟩ := by
  refine ⟨co, hco, fun hsize => ?_⟩
  obtain ⟨old, hp⟩ := hs.executable.exists_patched hco hsize
  exact ⟨old, hp, Machine.position_entry hp finger _⟩

theorem Owned.room (ho : e.Owned m₀ l₀ others) (hco : e.machine.running.code = some co) :
    co.code.size ≤ co.codeBuffer.capacity :=
  ((ho.fitting .running _ rfl).code co hco).room

/-- Where execution goes on once a return has been served. -/
theorem Sound.returns (hs : g.engine.Sound) {interrupted : Bool} {m : Machine} {left : Exit}
    {reason : Reason} {pc : UInt32} {e' : Engine}
    (hstep : g.machine.step interrupted g.pc = .exit m left)
    (hserve : serveReason reason left ⟨m, g.host⟩ = (.done (some pc), e')) :
    g.engine.Returns reason left (some pc) e' := by
  have hc := hs.toCoherent.step interrupted g.pc
  rw [hstep] at hc
  have hreturns := hc.wp_serveReason_returns reason left
  rw [Action.wp, Step.machine, hserve] at hreturns
  refine fun pc' hpc => (hreturns pc' hpc).imp_right ?_
  rintro ⟨hresumes, hresume, hkept⟩
  exact ⟨hresumes, hresume, hkept.trans (Machine.running_of_step_exit hstep)⟩

namespace Moment

theorem Steady.stepped (hsteady : g.Steady) (ho : g.engine.Owned m₀ l₀ others)
    {interrupted : Bool} {m : Machine} {pc : UInt32}
    (hstep : g.machine.step interrupted g.pc = .next m pc) (tick : Nat) (cancelled : Bool) :
    Steady ⟨tick, cancelled, false, m, g.host, pc⟩ := by
  obtain ⟨co, hco, hposition⟩ := hsteady
  by_cases hsize : co.code.size < Layout.limit
  · obtain ⟨old, hp, hpos⟩ := hposition hsize
    have hwithin := hpos.within_step hco hp (ho.room hco) interrupted
    rw [hstep] at hwithin
    obtain ⟨co', hco', hp', hpos'⟩ := hwithin
    exact ⟨co', hco', fun _ => ⟨old, hp', hpos'⟩⟩
  · obtain ⟨co', hco', rfl | ⟨i, -, rfl⟩⟩ := Machine.code_of_step_next hco hstep
    · exact ⟨co', hco', fun h => absurd h hsize⟩
    · refine ⟨_, hco', fun h => absurd ?_ hsize⟩
      rwa [CodeObject.plantStub, Assembler.size_writeBytes] at h

theorem Steady.returned (hsteady : g.Steady) (ho : g.engine.Owned m₀ l₀ others)
    (hs : g.engine.Sound) {interrupted : Bool} {m : Machine} {left : Exit} {reason : Reason}
    {pc : UInt32} {e' : Engine} (hstep : g.machine.step interrupted g.pc = .exit m left)
    (hreason : Reason.ofCode? left.reason = some reason)
    (hserve : serveReason reason left ⟨m, g.host⟩ = (.done (some pc), e')) (hs' : e'.Sound)
    (tick : Nat) (cancelled : Bool) :
    Steady ⟨tick, cancelled, true, e'.machine, e'.host, pc⟩ := by
  rcases hs.returns hstep hserve pc rfl with ⟨-, co', finger, hco', rfl⟩ | ⟨hresumes, rfl, hsame⟩
  · exact hs'.steady hco' tick cancelled true finger
  -- the code is as it was left, and the position in it depends on nothing else
  · obtain ⟨co, hco, hposition⟩ := hsteady
    refine ⟨co, by rw [hsame]; exact hco, fun hsize => ?_⟩
    obtain ⟨old, hp, hpos⟩ := hposition hsize
    have hwithin := hpos.within_step hco hp (ho.room hco) interrupted
    rw [hstep] at hwithin
    obtain ⟨-, reason', hleaves⟩ := hwithin
    cases hleaves.reason_eq.symm.trans hreason
    exact ⟨old, by rwa [hsame], hleaves.resumes hresumes e'.machine⟩

theorem Steady.tick {interrupted : Bool} {r : Moment ⊕ RunResult} (hsteady : g.Steady)
    (ho : g.engine.Owned m₀ l₀ others) (hs : g.engine.Sound) (ht : g.Tick interrupted r) :
    Sum.elim Steady (fun _ => True) r := by
  have hkept := kept_tick hs ht
  cases ht with
  | canceled _ => trivial
  | looked cancelled _ => exact hsteady
  | stepped cancelled _ hstep => exact hsteady.stepped ho hstep _ cancelled
  | crashed _ _ => trivial
  | unknown _ _ _ _ => trivial
  | @returned m left reason cancelled _ hstep hreason =>
    rcases hserve : serveReason reason left ⟨m, g.host⟩ with ⟨(_ | pc) | fault | crash, e'⟩ <;>
      rw [hserve] at hkept
    · trivial
    · exact hsteady.returned ho hs hstep hreason hserve hkept _ cancelled
    · trivial
    · trivial

end Moment

/-- A run starts at an entry. -/
theorem opening_eq_inl {cancelled : Bool} (h : e.opening cancelled = .inl g) :
    ∃ co, g.machine.running.code = some co ∧ g.pc = co.entry g.host.finger := by
  rcases opening_cases cancelled e with
    ⟨m, host, co, -, hco, ho⟩ | ⟨e', -, -, ho⟩ | ⟨outcome, e', -, -, ho⟩ <;> cases ho.symm.trans h
  exact ⟨co, hco, rfl⟩

/-- What holds at every entry and is kept by every tick holds all through a run. -/
theorem Owned.course_kept {P : Moment → Prop} (ho : e.Owned m₀ l₀ others) (hc : e.Coherent)
    {signals : Signals} {cancelled : Bool}
    (hentry : ∀ (e' : Engine) co, e'.Sound → e'.machine.running.code = some co →
      ∀ tick cancelled looking finger,
        P ⟨tick, cancelled, looking, e'.machine, e'.host, co.entry finger⟩)
    (htick : ∀ interrupted (g : Moment) r, g.engine.Sound → g.engine.Owned m₀ l₀ others → P g →
      g.Tick interrupted r → Sum.elim P (fun _ => True) r)
    {n : Nat} (hg : e.course signals cancelled n = .inl g) :
    g.engine.Sound ∧ g.engine.Owned m₀ l₀ others ∧ P g := by
  obtain ⟨g₀, hopening, hafter⟩ := exists_opening_of_course hg
  have hstart := ho.course hc signals cancelled 0
  rw [course_of_opening hopening] at hstart
  obtain ⟨hs₀, ho₀⟩ : g₀.engine.Sound ∧ g₀.engine.Owned m₀ l₀ others := hstart
  have hP₀ : P g₀ := by
    obtain ⟨co, hco, hpc⟩ := opening_eq_inl hopening
    obtain ⟨tick, cancelled, looking, m, h, pc⟩ := g₀
    dsimp only at hpc
    subst hpc
    exact hentry ⟨m, h⟩ co hs₀ hco tick cancelled looking h.finger
  have hkept := Moment.after_kept
    (P := fun g => g.engine.Sound ∧ g.engine.Owned m₀ l₀ others ∧ P g) (Q := fun _ => True)
    (fun _ g r hg ht => ?_) ⟨hs₀, ho₀, hP₀⟩ signals n
  · rw [hafter] at hkept
    exact hkept
  · obtain ⟨hs, ho, hP⟩ := hg
    have hsound := Moment.kept_tick hs ht
    have howned := Owned.tick ⟨hs, ho⟩ ht
    have hP' := htick _ g r hs ho hP ht
    cases r with
    | inl g' => exact ⟨hsound, howned, hP'⟩
    | inr result => trivial

/-- All through a run, execution is where it can be. -/
theorem Owned.steady_course (ho : e.Owned m₀ l₀ others) (hc : e.Coherent) {signals : Signals}
    {cancelled : Bool} {n : Nat} (hg : e.course signals cancelled n = .inl g) :
    g.engine.Owned m₀ l₀ others ∧ g.Steady :=
  (ho.course_kept hc (fun _ _ hs hco => hs.steady hco)
    (fun _ _ _ hs ho hsteady ht => hsteady.tick ho hs ht) hg).2

/-- At this moment no host instruction fails, the host can serve it if it leaves `co`, and if it
writes to `co`, then within one routine. -/
structure Moment.Secure (g : Moment) (co : CodeObject) : Prop where
  progresses : ∀ interrupted m crash, g.machine.step interrupted g.pc ≠ .crash m crash
  served : ∀ interrupted m left, g.machine.step interrupted g.pc = .exit m left →
    m.running = g.machine.running ∧ ∃ reason, Reason.ofCode? left.reason = some reason ∧
      (reason = .loadProgram → left.value1 ≠ 0) ∧
      (reason = .input ∨ reason = .recompile →
        ∃ finger, co.fingerFor left.resume = .ok finger ∧
          finger.toNat < g.machine.running.words.size)
  amends : ∀ interrupted m pc, g.machine.step interrupted g.pc = .next m pc →
    ∃ co', m.running.code = some co' ∧ co'.code.size = co.code.size ∧
      ∀ j, co'.code[j]? ≠ co.code[j]? → ∃ i, i < g.machine.running.words.size ∧
        (co.entry (UInt32.ofNat i)).toNat ≤ j ∧
        j < (co.entry (UInt32.ofNat i)).toNat + Routine.stubSize
  separate : ∀ i, i < g.machine.running.words.size →
    (co.entry (UInt32.ofNat i)).toNat + Routine.stubSize ≤ (co.entry (UInt32.ofNat (i + 1))).toNat ∧
      co.stubFits (co.entry (UInt32.ofNat i)) = true
  guarded : co.entry (UInt32.ofNat g.machine.running.words.size) = co.guard ∧
    co.guard.toNat + Routine.guardSize = co.code.size ∧ co.code.size ≤ co.codeBuffer.capacity

/-- A stub over routine `i` changes no byte outside of it. -/
theorem entry_le_of_plantStub_ne {old words : Array Platter} (hp : co.Patched old words) {i j : Nat}
    (hi : i < words.size)
    (hj : (co.plantStub (co.entryAt i)).code[j]? ≠ co.code[j]?) :
    (co.entry (UInt32.ofNat i)).toNat ≤ j ∧
      j < (co.entry (UInt32.ofNat i)).toNat + Routine.stubSize := by
  have hlt : i < old.size := hp.size_eq ▸ hi
  have hle := Layout.address_add_eight_le old.toList (i := i) (by rw [Array.length_toList]; omega)
  have hentry := hp.toNat_entryAt i
  rw [Nat.min_eq_left (Nat.le_of_lt hlt)] at hentry
  have hlen : (HostInstr.ret Reason.recompile.code).bytes.length = Routine.stubSize := rfl
  have hstub : Routine.stubSize = 2 := rfl
  have hsize := hp.code_size
  rw [CodeObject.plantStub, hentry, Assembler.getElem?_writeBytes _ _ _ _
    (by rw [hlen]) (by rw [hlen]; omega), hlen] at hj
  rw [hp.toNat_entry_ofNat (Nat.le_of_lt hlt)]
  by_contra hout
  rw [if_neg hout] at hj
  exact hj rfl

theorem Moment.Steady.secure (hsteady : g.Steady) (ho : g.engine.Owned m₀ l₀ others) :
    ∃ co, g.machine.running.code = some co ∧ (co.code.size < Layout.limit → g.Secure co) := by
  obtain ⟨co, hco, hposition⟩ := hsteady
  refine ⟨co, hco, fun hsize => ?_⟩
  obtain ⟨old, hp, hpos⟩ := hposition hsize
  have hroom := ho.room hco
  have hwithin := hpos.within_step hco hp hroom
  have hwords := hp.size_eq
  refine ⟨fun interrupted m crash hstep => ?_, fun interrupted m left hstep => ?_,
    fun interrupted m pc hstep => ?_, fun i hi => ⟨?_, ?_⟩, ?_, ?_, hroom⟩
  · have hcrash := hwithin interrupted
    rw [hstep] at hcrash
    exact hcrash
  · have hexit := hwithin interrupted
    rw [hstep] at hexit
    obtain ⟨hrunning, reason, hleaves⟩ := hexit
    refine ⟨hrunning, reason, hleaves.reason_eq, hleaves.source_ne, fun hr => ?_⟩
    obtain ⟨k, hk, hfinger⟩ := hleaves.finger hr
    refine ⟨_, hfinger, ?_⟩
    have hlimit := Layout.words_lt_limit hp.short
    rw [UInt32.toNat_ofNat_of_lt' (by simp only [Layout.limit, UInt32.size] at hlimit ⊢; omega)]
    omega
  · obtain ⟨co', hco', rfl | ⟨i, hi, rfl⟩⟩ := Machine.code_of_step_next hco hstep
    · exact ⟨co', hco', rfl, fun j hj => absurd rfl hj⟩
    · exact ⟨_, hco', Assembler.size_writeBytes .., fun j hj =>
        ⟨i, hi, entry_le_of_plantStub_ne hp hi hj⟩⟩
  · rw [hp.toNat_entry_ofNat (by omega), hp.toNat_entry_ofNat (by omega)]
    have hnext := Layout.address_add_four_le old.toList (i := i) (by
      rw [Array.length_toList]; omega)
    exact Nat.le_trans (Nat.add_le_add_left (by decide) _) hnext
  · have hfits := hp.stubFits hroom (i := i) (by omega)
    have hentry : co.entry (UInt32.ofNat i) = co.entryAt i := by
      apply UInt32.toNat_inj.mp
      rw [hp.toNat_entry_ofNat (by omega), hp.toNat_entryAt, Nat.min_eq_left (by omega)]
    rwa [hentry]
  · apply UInt32.toNat_inj.mp
    rw [hwords, hp.toNat_entry_ofNat (Nat.le_refl _), hp.toNat_guard]
  · rw [hp.toNat_guard, hp.code_size, Layout.size_eq, Array.length_toList]
    rfl

/-- Execution never leaves the code unserved, however memory, cancellation and input turn out: at
every moment of every run there is running code, and if it can be addressed the moment is secure.
Code of any program is emitted at the size that was measured for it. -/
theorem execution_within_code {platters code slots : BlockSource} (hplatters : platters.Settled)
    (hcode : code.Settled) (hslots : slots.Settled)
    (h₀ : (Memory.ofSources platters code slots).Traffic 0 m₀ l₀) :
    (∀ e others, Operates m₀ l₀ e others → e.host.stopped = false →
      ∀ signals cancelled n g, e.course signals cancelled n = .inl g →
        ∃ co, g.machine.running.code = some co ∧
          (co.code.size < Layout.limit → g.Secure co)) ∧
    ∀ words : Array Platter, ∃ size, CodeObject.measure words.toList = .done size ∧
      ∀ buffer : Array UInt8, buffer.size = size →
        ∃ emission, CodeObject.emitProgram words.toList buffer = .done emission ∧
          emission.code.size = size ∧ emission.addr + Routine.guardSize = size ∧
          emission.table.size = words.size := by
  constructor
  · intro e others h hrunnable signals cancelled n g hg
    have haccount := Memory.account_of_traffic hplatters hcode hslots h₀
    rcases h.owned_or_released haccount with ho | hr
    · obtain ⟨hog, hsteady⟩ := ho.steady_course h.reachable.coherent hg
      exact hsteady.secure hog
    · rw [hr.stopped] at hrunnable
      cases hrunnable
  · intro words
    refine ⟨_, Layout.measure_eq words.toList, fun buffer hbuffer => ?_⟩
    refine ⟨_, Layout.emitProgram_eq words.toList buffer hbuffer, ?_, ?_, ?_⟩
    · rw [List.size_toArray]
      rfl
    · exact (Layout.size_eq words.toList).symm
    · simp [Layout.table]

/-- A program that overwrites its third platter has come to the stub there. -/
theorem execution_within_code_amending :
    Operates (.ofSources .mapped .mapped .heap) 0 (new #[0xD2000002, 0x2000000A, 0x70000000,
        0x70000000] { memory := some (.ofSources .mapped .mapped .heap) }).2 0 ∧
      ∃ g m left co, (new #[0xD2000002, 0x2000000A, 0x70000000, 0x70000000]
          { memory := some (.ofSources .mapped .mapped .heap) }).2.course .none false 3 = .inl g ∧
        g.machine.step false g.pc = .exit m left ∧ left.reason = Reason.recompile.code ∧
        g.machine.running.code = some co ∧ co.code.size < Layout.limit ∧ g.Secure co := by
  have hnew : Operates (.ofSources .mapped .mapped .heap) 0 (new #[0xD2000002, 0x2000000A,
      0x70000000, 0x70000000] { memory := some (.ofSources .mapped .mapped .heap) }).2 0 :=
    .new rfl (by decide) (by decide +kernel)
  refine ⟨hnew, ?_⟩
  have hsettled := BlockSource.mapped_settled
  have hrunnable : (new #[0xD2000002, 0x2000000A, 0x70000000, 0x70000000]
      { memory := some (.ofSources .mapped .mapped .heap) }).2.host.stopped = false := by
    decide +kernel
  have hcourse := (execution_within_code hsettled hsettled BlockSource.heap_settled
    ⟨.refl, .refl, .refl⟩).1 _ _ hnew hrunnable .none false 3
  have hstub : ((new #[0xD2000002, 0x2000000A, 0x70000000, 0x70000000]
      { memory := some (.ofSources .mapped .mapped .heap) }).2.course .none false 3).getLeft?.any
        (fun g => (g.exit? false).any (fun r => r.2.reason == Reason.recompile.code) &&
          g.machine.running.code.any fun co => co.code.size < Layout.limit) = true := by
    decide +kernel
  obtain ⟨g, hg, hstub⟩ := (Option.any_eq_true _ _).mp hstub
  rw [Sum.getLeft?_eq_some_iff] at hg
  obtain ⟨co, hco, hsecure⟩ := hcourse g hg
  rw [hco, Option.any_some, Bool.and_eq_true, decide_eq_true_iff] at hstub
  obtain ⟨hexit, hsize⟩ := hstub
  obtain ⟨⟨m, left⟩, hleft, hreason⟩ := (Option.any_eq_true _ _).mp hexit
  obtain ⟨-, hstep⟩ := Moment.exit?_eq_some_iff.mp hleft
  exact ⟨g, m, left, co, hg, hstep, eq_of_beq hreason, hco, hsize, hsecure hsize⟩

end Engine

end PlatterMachine
