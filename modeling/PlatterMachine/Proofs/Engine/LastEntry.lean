import PlatterMachine.Proofs.Engine.Committing
import PlatterMachine.Proofs.Engine.Containment

/-!
# The last entry that a run came to

A run is at an entry whenever an instruction is complete. Between two entries it is within a routine,
whose contents are those of the first of them until the routine commits. So wherever a run is, the
last entry that it came to is known, together with the registers and arrays it had there.
-/

namespace PlatterMachine.Engine

variable {e : Engine} {g g' g₀ : Moment} {co co' : CodeObject} {c : Contents} {old : Array Platter}
variable {signals : Signals} {cancelled : Bool} {n k : Nat}

namespace Moment

/-- From `g` to `g'` execution comes to an entry, or else it stays within the routine it was in. -/
def Pursues (g : Moment) (co : CodeObject) (g' : Moment) : Prop :=
  ∃ co', g'.machine.running.code = some co' ∧
    (g'.AtEntry ∨ co'.code.size = co.code.size ∧
      ∀ c old, co.Patched old g.machine.running.words → g.machine.Standing c co old g.pc →
        co'.Patched old g'.machine.running.words ∧ g'.machine.Onward c co' old g'.pc)

theorem pursues_looked (hco : g.machine.running.code = some co) (tick : Nat)
    (cancelled looking : Bool) :
    g.Pursues co { g with tick, cancelled, looking } := by
  refine ⟨co, hco, Or.inr ⟨rfl, fun c old hp hstanding => ⟨hp, ?_⟩⟩⟩
  rcases hstanding with ⟨-, hentry⟩ | hamid
  · exact Or.inl hentry
  · exact Or.inr hamid

theorem pursues_stepped (hco : g.machine.running.code = some co) {interrupted : Bool} {m : Machine}
    {pc : UInt32} (hstep : g.machine.step interrupted g.pc = .next m pc) (tick : Nat)
    (cancelled : Bool) : g.Pursues co ⟨tick, cancelled, false, m, g.host, pc⟩ := by
  have hgoes (co' : CodeObject) (hco' : m.running.code = some co') (c : Contents)
      (old : Array Platter) (hp : co.Patched old g.machine.running.words)
      (hstanding : g.machine.Standing c co old g.pc) :
      co'.Patched old m.running.words ∧ m.Onward c co' old pc := by
    have hcommits := hstanding.commits_step hco hp interrupted
    rw [hstep] at hcommits
    obtain ⟨co'', hco'', hp', honward⟩ := hcommits
    cases hco'.symm.trans hco''
    exact ⟨hp', honward⟩
  obtain ⟨co', hco', rfl | ⟨i, -, rfl⟩⟩ := Machine.code_of_step_next hco hstep
  · exact ⟨co', hco', Or.inr ⟨rfl, hgoes co' hco'⟩⟩
  · refine ⟨_, hco', Or.inr ⟨?_, hgoes _ hco'⟩⟩
    rw [CodeObject.plantStub, Assembler.size_writeBytes]

theorem pursues_returned (hs : g.engine.Sound) (hco : g.machine.running.code = some co)
    {interrupted : Bool} {m : Machine} {left : Exit} {reason : Reason} {pc : UInt32} {e' : Engine}
    (hstep : g.machine.step interrupted g.pc = .exit m left)
    (hreason : Reason.ofCode? left.reason = some reason)
    (hserve : serveReason reason left ⟨m, g.host⟩ = (.done (some pc), e')) (tick : Nat)
    (cancelled : Bool) : g.Pursues co ⟨tick, cancelled, true, e'.machine, e'.host, pc⟩ := by
  rcases hs.returns hstep hserve pc rfl with ⟨-, co', finger, hco', rfl⟩ | ⟨hresumes, rfl, hsame⟩
  · exact ⟨co', hco', Or.inl ⟨co', finger.toNat, hco', rfl⟩⟩
  · refine ⟨co, by rw [hsame]; exact hco, Or.inr ⟨rfl, fun c old hp hstanding => ?_⟩⟩
    have hcommits := hstanding.commits_step hco hp interrupted
    rw [hstep] at hcommits
    obtain ⟨-, reason', hreason', -, honward⟩ := hcommits
    cases hreason.symm.trans hreason'
    exact ⟨by rwa [hsame], honward hresumes e'.machine⟩

theorem pursues_tick (hs : g.engine.Sound) (hco : g.machine.running.code = some co)
    {interrupted : Bool} {r : Moment ⊕ RunResult} (ht : g.Tick interrupted r) :
    Sum.elim (g.Pursues co) (fun _ => True) r := by
  cases ht with
  | canceled _ => trivial
  | looked cancelled _ => exact pursues_looked hco _ cancelled false
  | stepped cancelled _ hstep => exact pursues_stepped hco hstep _ cancelled
  | crashed _ _ => trivial
  | unknown _ _ _ _ => trivial
  | @returned m left reason cancelled _ hstep hreason =>
    rcases hserve : serveReason reason left ⟨m, g.host⟩ with ⟨(_ | pc) | fault | crash, e'⟩
    · trivial
    · exact pursues_returned hs hco hstep hreason hserve _ cancelled
    · trivial
    · trivial

theorem Pursues.next (hs : g.engine.Sound) (hco : g.machine.running.code = some co)
    (hnext : g.next signals = .inl g') : g.Pursues co g' := by
  have htick := pursues_tick hs hco (tick_next signals g)
  rw [hnext] at htick
  exact htick

/-- Onward there is an entry, or the routine as it was entered. -/
theorem atEntry_or_amid (hco : g.machine.running.code = some co)
    (hp : co.Patched old g.machine.running.words) (h : g.machine.Onward c co old g.pc) :
    g.AtEntry ∨ g.machine.Amid c co old g.pc := by
  rcases h with ⟨i, hi, hpc⟩ | hamid
  · refine Or.inl ⟨co, i, hco, ?_⟩
    apply UInt32.toNat_inj.mp
    rw [hpc, hp.toNat_entryAt, Nat.min_eq_left hi]
  · exact Or.inr hamid

theorem standing_of_atEntry (hco : g.machine.running.code = some co)
    (hp : co.Patched old g.machine.running.words) (h : g.AtEntry) :
    g.machine.Standing g.machine.contents co old g.pc := by
  obtain ⟨co', i, hco', hpc⟩ := h
  cases hco.symm.trans hco'
  refine Or.inl ⟨rfl, min i old.size, Nat.min_le_right _ _, ?_⟩
  rw [hpc, hp.toNat_entryAt]

end Moment

/-- In the first `n` ticks of its run the engine was at an entry last at tick `k`, at moment `g`. -/
structure LastEntry (e : Engine) (signals : Signals) (cancelled : Bool) (n k : Nat) (g : Moment) :
    Prop where
  le : k ≤ n
  course_eq : e.course signals cancelled k = .inl g
  atEntry : g.AtEntry
  last : ∀ j g', k < j → j ≤ n → e.course signals cancelled j = .inl g' → ¬ g'.AtEntry

theorem lastEntry_self (hg : e.course signals cancelled n = .inl g) (h : g.AtEntry) :
    e.LastEntry signals cancelled n n g := by
  refine ⟨Nat.le_refl n, hg, h, ?_⟩
  intro j g' hlt hle
  omega

theorem LastEntry.succ (h : e.LastEntry signals cancelled n k g₀)
    (hg : e.course signals cancelled (n + 1) = .inl g) (hbetween : ¬ g.AtEntry) :
    e.LastEntry signals cancelled (n + 1) k g₀ := by
  refine ⟨Nat.le_succ_of_le h.le, h.course_eq, h.atEntry, ?_⟩
  intro j g' hlt hle hg'
  rcases Nat.lt_or_eq_of_le hle with hj | rfl
  · exact h.last j g' hlt (Nat.le_of_lt_succ hj) hg'
  · cases hg.symm.trans hg'
    exact hbetween

/-- Execution stands where the last entry has brought it, unless the code is too long to be
addressed. -/
def Situated (e : Engine) (signals : Signals) (cancelled : Bool) (n : Nat) (g : Moment) : Prop :=
  ∃ co, g.machine.running.code = some co ∧ (co.code.size < Layout.limit →
    ∃ k g₀ old, e.LastEntry signals cancelled n k g₀ ∧
      co.Patched old g.machine.running.words ∧
      g.machine.Standing g₀.machine.contents co old g.pc)

theorem situated_of_atEntry (hs : g.engine.Sound) (hg : e.course signals cancelled n = .inl g)
    (hentry : g.AtEntry) : e.Situated signals cancelled n g := by
  obtain ⟨co, i, hco, hpc⟩ := hentry
  refine ⟨co, hco, fun hsize => ?_⟩
  obtain ⟨old, hp⟩ := hs.executable.exists_patched hco hsize
  exact ⟨n, g, old, lastEntry_self hg ⟨co, i, hco, hpc⟩, hp,
    Moment.standing_of_atEntry hco hp ⟨co, i, hco, hpc⟩⟩

theorem Coherent.sound_course (hc : e.Coherent) (hg : e.course signals cancelled n = .inl g) :
    g.engine.Sound := by
  have hkept := hc.course signals cancelled n
  rw [hg] at hkept
  exact hkept

/-- Wherever a run is, it stands where the last entry has brought it. -/
theorem Coherent.situated (hc : e.Coherent) (hg : e.course signals cancelled n = .inl g) :
    e.Situated signals cancelled n g := by
  induction n generalizing g with
  | zero =>
    obtain ⟨g', hopening, hafter⟩ := exists_opening_of_course hg
    cases hafter
    obtain ⟨co, hco, hpc⟩ := opening_eq_inl hopening
    exact situated_of_atEntry (hc.sound_course hg) hg ⟨co, g.host.finger.toNat, hco, hpc⟩
  | succ n ih =>
    have hsound := hc.sound_course hg
    cases hn : e.course signals cancelled n with
    | inr result => cases (course_inr_add hn 1).symm.trans hg
    | inl g' =>
      have hnext := (course_succ_of_inl hn).symm.trans hg
      obtain ⟨co, hco, hsituated⟩ := ih hn
      obtain ⟨co', hco', hentry | ⟨hsize, hpursues⟩⟩ :=
        Moment.Pursues.next (hc.sound_course hn) hco hnext
      · exact situated_of_atEntry hsound hg hentry
      by_cases hentry : g.AtEntry
      · exact situated_of_atEntry hsound hg hentry
      · refine ⟨co', hco', fun hsize' => ?_⟩
        obtain ⟨k, g₀, old, hlast, hp, hstanding⟩ := hsituated (hsize ▸ hsize')
        obtain ⟨hp', honward⟩ := hpursues _ old hp hstanding
        refine ⟨k, g₀, old, hlast.succ hg hentry, hp', ?_⟩
        rcases Moment.atEntry_or_amid hco' hp' honward with h | hamid
        · exact absurd h hentry
        · exact Or.inr hamid

end PlatterMachine.Engine
