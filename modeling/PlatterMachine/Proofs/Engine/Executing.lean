import PlatterMachine.Proofs.Engine.CodeCache
import PlatterMachine.Proofs.Engine.Fetch
import PlatterMachine.Proofs.Engine.Hosting

/-!
# Executing code for a plain machine

While nobody cancels the run, a tick is a host instruction, a return to the host that is served, or a
look at the cancellation. This says for each of them what moment comes next and which plain machine
the engine then represents. `Moment.Leads` strings ticks together, from one instruction of the plain
machine to the next.
-/

namespace PlatterMachine

namespace CodeObject

theorem isFor_of_clean {e : Engine} (hc : e.Coherent) {co : CodeObject}
    (hco : e.machine.running.code = some co) (hclean : e.machine.running.dirty = false) :
    co.IsFor e.machine.running.words := by
  obtain ⟨memory, memory', hgenerate⟩ := hc.fresh .running _ rfl hclean co hco
  exact isFor_of_generate hgenerate

theorem IsFor.code_size_eq {co : CodeObject} {words : Array Platter} (h : co.IsFor words) :
    co.code.size = Layout.size words.toList := by
  rw [h.code_eq, List.size_toArray, Layout.size]

end CodeObject

namespace Engine

/-- Ways a run may end that a program cannot tell from `result`: the word of a halt counts only when
it was an invalid operator. -/
def Alike : Outcome Unit → Except Fault Unit → Prop
  | .done (), .ok () => True
  | .failed fault, .error fault' => fault = fault' ∨ ∃ reason word word',
      reason ≠ Halt.invalidOperator ∧ fault = .halt reason word ∧ fault' = .halt reason word'
  | _, _ => False

/-- The run has ended with `result`, up to the word of a halt beyond the end of the program: the
guard there does not set it. -/
def Accords : Outcome Unit → Except Fault Unit → Prop
  | .done (), .ok () => True
  | .failed fault, .error fault' => fault = fault' ∨ ∃ word word',
      fault = .halt Halt.outOfBounds word ∧ fault' = .halt Halt.outOfBounds word'
  | _, _ => False

theorem Accords.alike {outcome : Outcome Unit} {result : Except Fault Unit}
    (h : Accords outcome result) : Alike outcome result := by
  cases result with
  | ok _ =>
    cases outcome <;> cases h
    trivial
  | error fault =>
    cases outcome with
    | done _ => cases h
    | failed fault' =>
      rcases h with rfl | ⟨word, word', rfl, rfl⟩
      · exact .inl rfl
      · exact .inr ⟨Halt.outOfBounds, word, word', by decide, rfl, rfl⟩
    | crashed _ => cases h

def Ends (ended : RunResult) (result : Except Fault Unit) (s : Interpreter) : Prop :=
  ∃ outcome e, ended = conclude outcome e ∧ Accords outcome result ∧ e.Represents s ∧
    (result = .error .suspended → e.host.finger.toNat = s.finger)

namespace Moment

variable {g : Moment} {co co' : CodeObject} {s s' : Interpreter} {m : Machine} {e : Engine}
variable {pc : UInt32} {exit : Exit}

structure Executes (g : Moment) (co : CodeObject) (s : Interpreter) : Prop where
  uncancelled : g.cancelled = false
  sound : g.engine.Sound
  represents : g.engine.Represents s
  code_eq : g.machine.running.code = some co
  short : co.code.size < Layout.limit

theorem Executes.atFinger (hx : g.Executes co s) (finger : Nat) :
    g.Executes co { s with finger } :=
  { hx with represents := ⟨hx.represents.supplied, hx.represents.shows.atFinger finger⟩ }

theorem Executes.slot_eq (hx : g.Executes co s) (r : Register) :
    g.machine.slot (Routine.slotOf r) = s.get r :=
  slot_of_shows hx.represents.shows r

theorem Executes.patched (hx : g.Executes co s) : ∃ old, co.Patched old s.program := by
  rw [← hx.represents.shows.program_eq]
  exact hx.sound.executable.exists_patched hx.code_eq hx.short

def AtEntry (g : Moment) : Prop :=
  ∃ co i, g.machine.running.code = some co ∧ g.pc = co.entryAt i

def At (g : Moment) (s : Interpreter) : Prop :=
  ∃ co, g.Executes co s ∧ g.pc = co.entryAt s.finger

def looked (g : Moment) : Moment := { g with tick := g.tick + 1, looking := false }

def moved (g : Moment) (m : Machine) (pc : UInt32) : Moment :=
  ⟨g.tick + 1, false, false, m, g.host, pc⟩

def resumed (g : Moment) (e : Engine) (pc : UInt32) : Moment :=
  ⟨g.tick + 1, false, true, e.machine, e.host, pc⟩

theorem Executes.sound_next (hx : g.Executes co s) {g' : Moment}
    (hn : g.next .none = .inl g') : g'.engine.Sound := by
  have hkept := kept_next hx.sound .none
  rw [hn] at hkept
  exact hkept

theorem Executes.next_looked (hx : g.Executes co s) (hl : g.looking = true) :
    g.next .none = .inl g.looked ∧ g.looked.Executes co s := by
  have hhost : g.host.cancelled = false :=
    Bool.or_eq_false_iff.mpr ⟨hx.represents.shows.delivers.uncancelled,
      hx.represents.shows.emits.reliable.uncancelled⟩
  have hn : g.next .none = .inl g.looked := by
    simp [next, hl, hx.uncancelled, hhost, Signals.none, looked]
  exact ⟨hn, ⟨hx.uncancelled, hx.sound, hx.represents, hx.code_eq, hx.short⟩⟩

theorem Executes.next_moved (hx : g.Executes co s) (hl : g.looking = false)
    (hstep : g.machine.step false g.pc = .next m pc) (hr : Represents ⟨m, g.host⟩ s')
    (hco : m.running.code = some co') (hshort : co'.code.size < Layout.limit) :
    g.next .none = .inl (g.moved m pc) ∧ (g.moved m pc).Executes co' s' := by
  have hn : g.next .none = .inl (g.moved m pc) := by
    simp [next, hl, hx.uncancelled, Signals.none, hstep, moved]
  exact ⟨hn, ⟨rfl, hx.sound_next hn, hr, hco, hshort⟩⟩

theorem Executes.next_of_exit (reason : Reason) (hx : g.Executes co s) (hl : g.looking = false)
    (hstep : g.machine.step false g.pc = .exit m exit) (hreason : exit.reason = reason.code) :
    g.next .none = match serveReason reason exit ⟨m, g.host⟩ with
      | (.done (some pc), e) => .inl (g.resumed e pc)
      | (.done none, e) => .inr (conclude (.done ()) e)
      | (.failed fault, e) => .inr (conclude (.failed fault) e)
      | (.crashed crash, e) => .inr (conclude (.crashed crash) e) := by
  simp only [next, hl, hx.uncancelled, Signals.none, Bool.false_eq_true, if_false, Bool.or_self,
    Bool.false_and, hstep, hreason, Reason.ofCode?_code]
  rcases serveReason reason exit ⟨m, g.host⟩ with ⟨(_ | _) | _ | _, _⟩ <;> rfl

theorem Executes.next_resumed (reason : Reason) (hx : g.Executes co s) (hl : g.looking = false)
    (hstep : g.machine.step false g.pc = .exit m exit) (hreason : exit.reason = reason.code)
    (hserve : serveReason reason exit ⟨m, g.host⟩ = (.done (some pc), e)) (hr : e.Represents s')
    (hco : e.machine.running.code = some co') (hshort : co'.code.size < Layout.limit) :
    g.next .none = .inl (g.resumed e pc) ∧ (g.resumed e pc).Executes co' s' := by
  have hn : g.next .none = .inl (g.resumed e pc) := by
    rw [hx.next_of_exit reason hl hstep hreason, hserve]
  exact ⟨hn, ⟨rfl, hx.sound_next hn, hr, hco, hshort⟩⟩

/-- A return after which code is executed that has just been compiled. -/
theorem Executes.next_compiled (reason : Reason) (hx : g.Executes co s) (hl : g.looking = false)
    (hstep : g.machine.step false g.pc = .exit m exit) (hreason : exit.reason = reason.code)
    (hserve : serveReason reason exit ⟨m, g.host⟩ = (.done (some pc), e)) (hr : e.Represents s')
    (hco : e.machine.running.code = some co') (hclean : e.machine.running.dirty = false)
    (hsize : Layout.size s'.program.toList < Layout.limit) :
    g.next .none = .inl (g.resumed e pc) ∧ (g.resumed e pc).Executes co' s' ∧
      co'.IsFor s'.program := by
  have hn : g.next .none = .inl (g.resumed e pc) := by
    rw [hx.next_of_exit reason hl hstep hreason, hserve]
  have hsound := hx.sound_next hn
  have hfor : co'.IsFor e.machine.running.words :=
    CodeObject.isFor_of_clean hsound.toCoherent hco hclean
  rw [show e.machine.running.words = s'.program from hr.shows.program_eq] at hfor
  exact ⟨hn, ⟨rfl, hsound, hr, hco, hfor.code_size_eq ▸ hsize⟩, hfor⟩

theorem Executes.next_failed (reason : Reason) (hx : g.Executes co s) (hl : g.looking = false)
    (hstep : g.machine.step false g.pc = .exit m exit) (hreason : exit.reason = reason.code)
    {fault : Fault} (hserve : serveReason reason exit ⟨m, g.host⟩ = (.failed fault, e)) :
    g.next .none = .inr (conclude (.failed fault) e) := by
  rw [hx.next_of_exit reason hl hstep hreason, hserve]

theorem Executes.next_halted (reason : Reason) (hx : g.Executes co s) (hl : g.looking = false)
    (hstep : g.machine.step false g.pc = .exit m exit) (hreason : exit.reason = reason.code)
    (hserve : serveReason reason exit ⟨m, g.host⟩ = (.done none, e)) :
    g.next .none = .inr (conclude (.done ()) e) := by
  rw [hx.next_of_exit reason hl hstep hreason, hserve]

/-- Ticks from `g` on come to moments with `mid`, until one has come to `post`. -/
inductive Leads (mid : Moment → Prop) (post : Moment ⊕ RunResult → Prop) : Moment → Prop
  | last {g : Moment} (h : post (g.next .none)) : Leads mid post g
  | more {g g' : Moment} (hn : g.next .none = .inl g') (hmid : mid g') (h : Leads mid post g') :
      Leads mid post g

theorem Leads.exists_after {mid : Moment → Prop} {post : Moment ⊕ RunResult → Prop}
    (h : g.Leads mid post) :
    ∃ n, 0 < n ∧ post (g.after .none n) ∧
      ∀ k, 0 < k → k < n → ∃ g', g.after .none k = .inl g' ∧ mid g' := by
  induction h with
  | @last g h =>
    refine ⟨1, Nat.one_pos, ?_, fun k hk hlt => absurd hlt (by omega)⟩
    rw [after]
    cases hn : g.next .none with
    | inl g' =>
      rw [hn] at h
      exact h
    | inr result =>
      rw [hn] at h
      exact h
  | @more g g' hn hmid _ ih =>
    obtain ⟨n, -, hpost, hbefore⟩ := ih
    refine ⟨n + 1, Nat.succ_pos n, by rwa [after_succ_of_next hn], fun k hk hlt => ?_⟩
    obtain ⟨k, rfl⟩ : ∃ j, k = j + 1 := ⟨k - 1, by omega⟩
    rw [after_succ_of_next hn]
    by_cases hk0 : k = 0
    · subst hk0
      exact ⟨g', rfl, hmid⟩
    · exact hbefore k (by omega) (by omega)

end Moment

end Engine

end PlatterMachine
