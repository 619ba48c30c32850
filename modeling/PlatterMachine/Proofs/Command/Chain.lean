import PlatterMachine.Proofs.Command.Process
import PlatterMachine.Proofs.Snapshot.Recovery

/-!
# Chains of processes

A machine can be handed on from process to process: each suspends it under a name when its input has
run out, and the next resumes it with input of its own. Together they write what a single process
writes that has all the input, and the last ends with the exit code of that process.
-/

namespace PlatterMachine

namespace Engine

variable {e : Engine}

structure Portable (e : Engine) : Prop where
  zeroLive : e.machine.zeroLive = true
  count_le : e.state.arrays.length ≤ Cbor.maxElements
  handle_lt : ∀ i a, e.machine.array? (.other i) = some a → i + 1 < handleLimit

theorem Poised.portable {s : Interpreter} (hp : e.Poised s) (hzero : s.zeroLive = true)
    (hcount : (liveEntries s.others s.others.size).length < Cbor.maxElements)
    (hlive : ∀ k words, s.others[k]?.join = some words → k + 1 < handleLimit) : e.Portable where
  zeroLive := hp.represents.agrees.zeroLive_eq.trans hzero
  count_le := by
    rw [hp.state_arrays fun i words h => Nat.lt_trans (hlive i words h) (by decide)]
    exact hcount
  handle_lt k a ha := by
    refine hlive k a.words ?_
    rw [← hp.represents.agrees.others_eq, Machine.join_getElem?_otherWords, ha]
    rfl

theorem Portable.lt_of_join (h : e.Portable) {i : Nat} {words : Array Platter}
    (hi : e.machine.otherWords[i]?.join = some words) : i + 1 < handleLimit := by
  rw [Machine.join_getElem?_otherWords] at hi
  obtain ⟨a, ha, -⟩ := Option.map_eq_some_iff.mp hi
  exact h.handle_lt i a ha

/-- The engine waits where a machine comes to that has `input` and `more` from the start, once it has
read `input` and written `output`. -/
def Halfway (program : Array Platter) (input more output : List UInt8) (e : Engine) : Prop :=
  ∃ s t n first, e.Poised s ∧ s.finger < s.program.size ∧
    (Interpreter.start program (input ++ more) false).run n = (none, t) ∧
    t.output.toList = output ∧
    Interpreter.Similar first none { s with input := more, suspendOnEnd := false } t

/-- The engine stands where a machine comes to on its way that has `input` and `more` from the start.
It has the next bytes of `more` before it and has not written anything yet. -/
def Resumed (program : Array Platter) (input more output : List UInt8)
    (seam : Option (List UInt8 × Bool)) (s : Interpreter) : Prop :=
  s.output = #[] ∧ ∃ t n, (Interpreter.start program (input ++ more) false).run n = (none, t) ∧
    t.output.toList = output ∧ s.Similar t.output seam t

theorem resumed_start (program : Array Platter) (input more : List UInt8) :
    Resumed program [] (input ++ more) [] (some (more, false)) (.start program input true) :=
  ⟨rfl, _, 0, rfl, rfl, Interpreter.similar_start program input more false⟩

variable {program : Array Platter} {input more output : List UInt8}

/-- A machine that is suspended has got to a later place. -/
theorem Poised.halfway {s : Interpreter} {read : List UInt8}
    (hp : e.Poised s) (hs : Resumed program input (read ++ more) output (some (more, false)) s)
    (hshort : (Interpreter.start program (input ++ (read ++ more)) false).Addressable)
    {e' : Engine} {ticks : Nat}
    (hrun : e.run .none false ticks = (some (.failed .suspended), e')) :
    e'.host.output.buffer = #[] ∧
      Halfway program (input ++ read) more (output ++ e'.host.output.emitted) e' := by
  obtain ⟨-, t, n, hreach, houtput, hsim⟩ := hs
  obtain ⟨s', t', n', hp', hflushed, -, hfinger, hreach', hsim'⟩ :=
    hp.exists_suspended hshort hreach hsim hrun
  refine ⟨hflushed, s', t', n', t.output, hp', hfinger, ?_, ?_, hsim'⟩
  · rwa [List.append_assoc]
  · rw [← hsim'.output_eq, Array.toList_append, houtput, hp'.represents.agrees.emitted_eq]

/-- All the input that is left is read now; or, at a seam, some of it is left for later. -/
def Splits (more : List UInt8) (seam : Option (List UInt8 × Bool)) (read : List UInt8)
    (suspends : Bool) : Prop :=
  match seam with
  | none => more = read ∧ suspends = false
  | some (later, setting) => more = read ++ later ∧ suspends = true ∧ setting = false

/-- An engine restored from a state goes on where the other waited. -/
theorem Halfway.restore {read : List UInt8} (h : Halfway program input more output e)
    (hportable : e.Portable)
    (hshort : (Interpreter.start program (input ++ more) false).Addressable)
    {config : EngineConfig} (hconfig : config.Reliable read) {seam : Option (List UInt8 × Bool)}
    (hseam : Splits more seam read config.suspendOnEnd) :
    ∃ r s, restore e.state config = (.done (), r) ∧ r.Poised s ∧
      Resumed program input more output seam s := by
  obtain ⟨s, t, n, first, hp, hfinger, hreach, houtput, hsim⟩ := h
  have hothers : e.machine.otherWords = s.others := hp.represents.shows.others_eq
  have hsize : s.program.size < Layout.limit := by
    rw [show s.program = t.program from hsim.program_eq]
    exact Layout.words_lt_limit (hshort n t hreach)
  obtain ⟨r, others, hrestore, hpr, hjoin⟩ := hp.restore hconfig
    (hp.represents.agrees.zeroLive_eq.symm.trans hportable.zeroLive) hfinger hsize
    fun k words hk => ⟨hportable.lt_of_join (hothers ▸ hk), hsim.bounded k words hk⟩
  refine ⟨r, _, hrestore, hpr, rfl, t, n, hreach, houtput, ?_⟩
  exact
    { hsim with
      others_eq := fun k => (hjoin k).trans (hsim.others_eq k)
      bounded := fun k words hk => hsim.bounded k words ((hjoin k).symm.trans hk)
      joined := by
        obtain ⟨hinput, hsetting⟩ := hsim.joined
        rcases seam with _ | ⟨later, setting⟩
        · obtain ⟨rfl, hsuspend⟩ := hseam
          exact ⟨hinput, hsuspend.trans hsetting⟩
        · obtain ⟨rfl, hsuspend, rfl⟩ := hseam
          exact ⟨hinput, hsuspend, hsetting.symm⟩
      output_eq := Array.append_empty }

end Engine

namespace Command.Run

open Engine (Halfway Resumed Splits)
open Snapshot (ValidName)

/-- Processes have been run one after the other on the same scroll and store. The first has suspended
its machine under `name`, each of the others has resumed it from there and suspended it again. They
have been given `input` and have written `output`; `db` is the store that they leave. -/
inductive Chain (program : Array Platter) (name : String) (location : Location) :
    (input output : List UInt8) → (db : Database) → Prop
  | first (i : Invocation program) (hsuspend : i.suspend = name) (hresume : i.resume = "")
      (hkeeps : i.Keeps location) {e : Engine} {w : World}
      (hends : Suspends i.arguments i.world e w) (hportable : e.Portable) :
      Chain program name location i.input w.output (w.store location)
  | next {input output : List UInt8} {db : Database}
      (hchain : Chain program name location input output db) (i : Invocation program)
      (hsuspend : i.suspend = name) (hresume : i.resume = name) (hkeeps : i.Keeps location)
      (hstore : i.world.store location = db) {e : Engine} {w : World}
      (hends : Suspends i.arguments i.world e w) (hportable : e.Portable) :
      Chain program name location (input ++ i.input) (output ++ w.output) (w.store location)

def Saved (program : Array Platter) (name : String) (input more output : List UInt8)
    (db : Database) : Prop :=
  ∃ (e : Engine) (created : Int64),
    Store.load db (Utf8.encode name) = .ok ⟨Utf8.encode name, mark program, created, e.state⟩ ∧
      e.Portable ∧ Halfway program input more output e

variable {program : Array Platter} {name : String} {location : Location}
  {input more output : List UInt8} {db : Database} {i : Invocation program}

/-- A process that resumes the machine goes on with it. -/
theorem Saved.readies {seam : Option (List UInt8 × Bool)}
    (h : Saved program name input more output db) (hname : ValidName (Utf8.encode name))
    (hshort : (Interpreter.start program (input ++ more) false).Addressable)
    (hresume : i.resume = name) (hkeeps : i.Keeps location) (hstore : i.world.store location = db)
    (hseam : Splits more seam i.input (!i.suspend.isEmpty)) :
    ∃ s job w, i.Readies location s job w ∧ Resumed program input more output seam s := by
  subst hresume hstore
  obtain ⟨e, created, hload, hportable, hhalfway⟩ := h
  refine Invocation.readies_restored hkeeps (ne_empty_of_validName hname)
    (Layout.words_lt_limit hshort.size_lt) hload rfl
    fun config hconfig hsetting => hhalfway.restore hportable hshort hconfig ?_
  rwa [hsetting]

/-- One process of a chain. -/
theorem Invocation.Readies.saved {s : Interpreter} {job : Job} {w₁ w : World} {e : Engine}
    (hready : i.Readies location s job w₁) (hsuspend : i.suspend = name)
    (hs : Resumed program input (i.input ++ more) output (some (more, false)) s)
    (hshort : (Interpreter.start program (input ++ (i.input ++ more)) false).Addressable)
    (hends : Suspends i.arguments i.world e w) (hportable : e.Portable) :
    Saved program name (input ++ i.input) more (output ++ w.output) (w.store location) := by
  obtain ⟨hprepare, hrun, hconclude⟩ := hends
  cases hready.prepared.symm.trans hprepare
  obtain ⟨hsave, houtput⟩ := save_of_conclude hconclude
  obtain ⟨hflushed, hhalfway⟩ := hready.poised.halfway hs hshort hrun
  rw [hready.store_eq, hready.suspend_eq, hready.hash_eq, hsuspend] at hsave
  rw [hready.retains.output_eq, i.silent, List.nil_append, written_eq hflushed] at houtput
  refine ⟨e, _, Store.load_of_save hsave hportable.count_le, hportable, ?_⟩
  rwa [houtput]

/-- At every point of the chain the store has a machine that the machine with all the input gets
past. -/
theorem Chain.saved (h : Chain program name location input output db)
    (hname : ValidName (Utf8.encode name)) (more : List UInt8)
    (hshort : (Interpreter.start program (input ++ more) false).Addressable) :
    Saved program name input more output db := by
  induction h generalizing more with
  | first i hsuspend hresume hkeeps hends hportable =>
    obtain ⟨job, w₁, hready⟩ := Invocation.readies_new hkeeps hresume hshort.size_lt
    rw [hsuspend, show (!name.isEmpty) = true by simp [ne_empty_of_validName hname]] at hready
    exact hready.saved hsuspend (Engine.resumed_start program i.input more) hshort hends hportable
  | next hchain i hsuspend hresume hkeeps hstore hends hportable ih =>
    rw [List.append_assoc] at hshort
    obtain ⟨s, job, w₁, hready, hs⟩ := (ih (i.input ++ more) hshort).readies hname hshort hresume
      hkeeps hstore (show Splits _ (some (more, false)) _ _ from
        ⟨rfl, by simp [hsuspend, ne_empty_of_validName hname], rfl⟩)
    exact hready.saved hsuspend hs hshort hends hportable

section Ending

variable {s : Interpreter} {job : Job} {w w' : World} {code : UInt32}

/-- How a process ends that does not suspend. -/
theorem Invocation.Readies.conclude (hready : i.Readies location s job w) (hsuspend : i.suspend = "")
    (hs : s.Addressable) {fuel : Nat} {o : Outcome Unit} {e : Engine}
    (hrun : job.engine.run .none false fuel = (some o, e)) :
    ∃ w', (conclude job o e).execute w = (exitCode o, w') ∧ w'.output = e.host.output.emitted ∧
      (exitCode o = 0 → ValidName (Utf8.encode i.resume) →
        ¬ Utf8.encode i.resume ∈ Store.names (w'.store location)) := by
  obtain ⟨n, result, s', -, hleaves⟩ := hready.poised.of_run hs hrun
  have hcrash (crash : Crash) : o ≠ .crashed crash := by
    rintro rfl
    have halike := hleaves.alike
    cases result <;> cases halike
  obtain ⟨w', hexit, houtput, hdelete⟩ :=
    conclude_unnamed (hready.suspend_eq.trans hsuspend) hcrash
  refine ⟨w', hexit, ?_, fun hcode hvalid => ?_⟩
  · rw [houtput, hready.retains.output_eq, i.silent, written_eq hleaves.flushed, List.nil_append]
  · rw [hready.resume_eq, hready.store_eq] at hdelete
    exact Store.not_mem_names_of_delete (hdelete hcode hvalid)

theorem Invocation.Readies.of_exits (hready : i.Readies location s job w) (hsuspend : i.suspend = "")
    (hs : s.Addressable) (h : Exits i.arguments i.world code w') :
    ∃ fuel o e, job.engine.run .none false fuel = (some o, e) ∧ code = exitCode o ∧
      w'.output = e.host.output.emitted ∧
      (exitCode o = 0 → ValidName (Utf8.encode i.resume) →
        ¬ Utf8.encode i.resume ∈ Store.names (w'.store location)) := by
  cases h with
  | refused hprepare => cases hready.prepared.symm.trans hprepare
  | ended hprepare hrun hconclude =>
    cases hready.prepared.symm.trans hprepare
    obtain ⟨w₁, hexit, hends⟩ := hready.conclude hsuspend hs hrun
    obtain ⟨hcode, rfl⟩ := Prod.mk.inj (hconclude.symm.trans hexit)
    exact ⟨_, _, _, hrun, hcode, hends⟩

/-- The process ends if its machine does. -/
theorem Invocation.Readies.exists_exits_iff (hready : i.Readies location s job w)
    (hsuspend : i.suspend = "") (hs : s.Addressable) :
    (∃ code w', Exits i.arguments i.world code w') ↔
      ∃ fuel o e, job.engine.run .none false fuel = (some o, e) := by
  constructor
  · rintro ⟨code, w', hexits⟩
    obtain ⟨fuel, o, e, hrun, -⟩ := hready.of_exits hsuspend hs hexits
    exact ⟨fuel, o, e, hrun⟩
  · rintro ⟨fuel, o, e, hrun⟩
    obtain ⟨w', hexit, -⟩ := hready.conclude hsuspend hs hrun
    exact ⟨_, w', .ended hready.prepared hrun hexit⟩

end Ending

theorem exitCode_of_concur {o o' : Outcome Unit} (h : Engine.Concur o o') :
    exitCode o = exitCode o' := by
  cases o <;> cases o' <;> first | rfl | cases h

/-- A chain of processes ends if and only if a single process does that runs the same scroll on all
of their input. The exit code is then the same, and so is the output of the processes put together.
Once the machine has halted, it is no longer listed. -/
theorem chain_runs_as_one (hname : ValidName (Utf8.encode name))
    (hchain : Chain program name location input output db) {last single : Invocation program}
    (hsuspend : last.suspend = "") (hresume : last.resume = name) (hkeeps : last.Keeps location)
    (hstore : last.world.store location = db)
    (hsingle : single.suspend = "" ∧ single.resume = "")
    (hinput : single.input = input ++ last.input)
    (hshort : (Interpreter.start program single.input false).Addressable) :
    ((∃ code w, Exits last.arguments last.world code w) ↔
      ∃ code w, Exits single.arguments single.world code w) ∧
    (∀ code code₁ w w₁, Exits last.arguments last.world code w →
      Exits single.arguments single.world code₁ w₁ →
        code = code₁ ∧ output ++ w.output = w₁.output) ∧
    ∀ w, Exits last.arguments last.world 0 w →
      ¬ Utf8.encode name ∈ Store.names (w.store location) := by
  obtain ⟨job₁, w₁, hready₁⟩ := Invocation.readies_new (.nowhere hsingle.1 hsingle.2) hsingle.2
    hshort.size_lt
  rw [hsingle.1] at hready₁
  rw [hinput] at hshort hready₁
  obtain ⟨s, job, w, hready, hempty, t, n, hreach, houtput, hsim⟩ :=
    (hchain.saved hname last.input hshort).readies hname hshort hresume hkeeps hstore
      (show Splits last.input none _ _ from ⟨rfl, by rw [hsuspend]; rfl⟩)
  have hs : s.Addressable := (hshort.of_run hreach).of_similar hsim
  have hcontinues := hready.poised.continues hready₁.poised hshort hreach hsim
  refine ⟨?_, fun code code₁ w' w₁' hexits hexits₁ => ?_, fun w' hexits => ?_⟩
  · simp only [hready.exists_exits_iff hsuspend hs, hready₁.exists_exits_iff hsingle.1 hshort]
    constructor
    · rintro ⟨fuel, o, e, hrun⟩
      obtain ⟨fuel₁, o₁, e₁, hrun₁, -⟩ := hcontinues.1 fuel o e hrun
      exact ⟨fuel₁, o₁, e₁, hrun₁⟩
    · rintro ⟨fuel₁, o₁, e₁, hrun₁⟩
      obtain ⟨fuel, o, e, hrun, -⟩ := hcontinues.2 fuel₁ o₁ e₁ hrun₁
      exact ⟨fuel, o, e, hrun⟩
  · obtain ⟨fuel, o, e, hrun, rfl, hw', -⟩ := hready.of_exits hsuspend hs hexits
    obtain ⟨fuel₁, o₁, e₁, hrun₁, rfl, hw₁', -⟩ := hready₁.of_exits hsingle.1 hshort hexits₁
    obtain ⟨fuel₂, o₂, e₂, hrun₂, hcoincide⟩ := hcontinues.1 fuel o e hrun
    obtain ⟨rfl, rfl⟩ := hready₁.poised.run_unique hrun₁ hrun₂
    obtain ⟨resumed, he, he₁⟩ := hcoincide.output_eq
    rw [hready.poised.represents.agrees.emitted_eq, hempty] at he
    refine ⟨exitCode_of_concur hcoincide.concur, ?_⟩
    rw [hw', hw₁', he, he₁, houtput]
    rfl
  · obtain ⟨fuel, o, e, -, hcode, -, hgone⟩ := hready.of_exits hsuspend hs hexits
    rw [hresume] at hgone
    exact hgone hcode.symm hname

/-- A process whose machine comes to wait for input saves it. -/
theorem Invocation.Readies.exists_suspends {s s' : Interpreter} {job : Job} {w : World}
    (hready : i.Readies location s job w) (hs : s.Addressable)
    (hname : ValidName (Utf8.encode i.suspend)) {n : Nat} (hplain : s.run n = (some (.error .suspended), s')) :
    ∃ e w', Suspends i.arguments i.world e w' ∧ e.Poised s' ∧ w'.output = s'.output.toList ∧
      (e.Portable → ∃ created, Store.load (w'.store location) (Utf8.encode i.suspend) =
        .ok ⟨Utf8.encode i.suspend, mark program, created, e.state⟩) := by
  obtain ⟨ticks, outcome, e, hrun, hleaves⟩ := hready.poised.exists_run hs hplain
  cases hleaves.eq_suspended
  have hp := hleaves.poised rfl
  obtain ⟨db, hsave⟩ := hp.exists_save (w.store job.store) (hready.suspend_eq ▸ hname) job.hash w.clock
  obtain ⟨w', hexit, houtput, hputs⟩ := conclude_saved job (f := .suspended) rfl hsave
  refine ⟨e, w', .suspended hready.prepared hrun hexit, hp, ?_, fun hportable => ⟨w.clock, ?_⟩⟩
  · rw [houtput, hready.retains.output_eq, i.silent, written_eq hleaves.flushed, List.nil_append,
      hleaves.agrees.emitted_eq]
  · rw [hready.suspend_eq, hready.hash_eq] at hsave
    rw [← hready.store_eq, hputs.store_eq]
    exact Store.load_of_save hsave hportable.count_le

theorem validName_m : ValidName (Utf8.encode "m") := by
  rw [Utf8.encode_eq]
  decide

def directory (program : Array Platter) : FileSystem :=
  ⟨[(["s"], .file (Scroll.encode program.toList)), (["d"], .directory)]⟩

theorem openDirectory_directory (program : Array Platter) :
    (directory program).openDirectory "d" = .ok (["d"], directory program) := by
  have hfind : (directory program).find "d" = .ok .directory := by cbv
  have hlocate : (directory program).locate "d" = .ok ["d"] := by cbv
  simp only [FileSystem.openDirectory, FileSystem.makeAll, hfind]
  change (do
    let location ← Except.mapError _ ((directory program).locate "d")
    Except.ok (location, directory program)) = _
  rw [hlocate]
  rfl

def sample (program : Array Platter) (suspends resumes : Bool)
    (stores : List (Location × Database)) (input : List UInt8) : Invocation program where
  arguments := (if resumes then ["-resume", "m"] else []) ++
    (if suspends then ["-suspend", "m"] else []) ++ ["s"]
  world :=
    { files := directory program, stores, env := [("UM_SNAPSHOT_DIR", "d")], input := .ofBytes input }
  options := ⟨(if suspends then [("suspend", "m")] else []) ++
    (if resumes then [("resume", "m")] else []), ["s"]⟩
  settings := { snapshotDir := "d" }
  log := ⟨.info, none⟩
  path := "s"
  input
  options_eq := by cases suspends <;> cases resumes <;> rfl
  settings_eq := by cases suspends <;> cases resumes <;> rfl
  log_eq := rfl
  listless := by cases suspends <;> cases resumes <;> rfl
  serveless := by cases suspends <;> cases resumes <;> rfl
  path_eq := rfl
  scroll_eq := show (directory program).find "s" = _ by cbv
  delivers := Reader.delivers_ofBytes input
  silent := rfl

section Sample

variable (program : Array Platter) (suspends resumes : Bool) (stores : List (Location × Database))
  (bytes : List UInt8)

theorem suspend_sample : (sample program suspends resumes stores bytes).suspend =
    if suspends then "m" else "" := by
  cases suspends <;> cases resumes <;> rfl

theorem resume_sample : (sample program suspends resumes stores bytes).resume =
    if resumes then "m" else "" := by
  cases suspends <;> cases resumes <;> rfl

theorem keeps_sample (h : suspends = true ∨ resumes = true) :
    (sample program suspends resumes stores bytes).Keeps ["d"] := by
  have hwrite (level : LogLevel) (records : List LogRecord) (w : World) :
      ((⟨level, none⟩ : Log).write records w).2.files = w.files := rfl
  have hfiles : (sample program suspends resumes stores bytes).loaded.files = directory program := by
    refine (hwrite ..).trans ?_
    rw [show (sample program suspends resumes stores bytes).settings = { snapshotDir := "d" } from rfl]
    rfl
  have hopen := openDirectory_directory program
  rw [← hfiles] at hopen
  refine .opened ?_ hopen
  rw [suspend_sample, resume_sample]
  rcases h with rfl | rfl
  · exact .inl (by decide)
  · exact .inr (by decide)

end Sample

open Engine (patientEcho)

def echoed : Interpreter := ((Interpreter.start patientEcho [104] true).run 4).2

theorem echoed_waits (others : Array (Option (Array Platter))) :
    Interpreter.run 1 { echoed with others, input := [], output := #[], suspendOnEnd := true } =
      (some (.error .suspended),
        { echoed with others, input := [], output := #[], suspendOnEnd := true }) := by
  rw [Interpreter.run, Interpreter.step_of_decode (w := 0xB0000003) rfl rfl]
  rfl

theorem echoed_live {k : Nat} {words : Array Platter} (h : echoed.others[k]?.join = some words) :
    k + 1 < Engine.handleLimit ∧ words.size < Layout.limit := by
  have hlt := Engine.lt_size_of_join h
  refine ⟨Nat.lt_of_le_of_lt hlt (by decide +kernel), ?_⟩
  have hall : ∀ k < echoed.others.size, (echoed.others[k]?.join.all fun words =>
      words.size < Layout.limit) = true := by decide +kernel
  have hsize := hall k hlt
  rwa [h, Option.all_some, decide_eq_true_eq] at hsize

/-- The first process echoes a byte, and the second has nothing to read. -/
theorem exists_patientEcho_chain :
    ∃ w : World, Chain patientEcho "m" ["d"] [104] [104] (w.store ["d"]) := by
  have hm : ValidName (Utf8.encode "m") := validName_m
  have hsize : Layout.size patientEcho.toList < Layout.limit := by decide +kernel
  have hplain : (Interpreter.start patientEcho [104] true).run 4 =
      (some (.error .suspended), echoed) := rfl
  have hcount : (Engine.liveEntries echoed.others echoed.others.size).length < Cbor.maxElements := by
    decide +kernel
  have hkeeps₀ := keeps_sample patientEcho true false [] [104] (.inl rfl)
  obtain ⟨job₀, w₀', hready₀⟩ := Invocation.readies_new hkeeps₀ rfl hsize
  obtain ⟨e₀, w₀, hends₀, hp₀, houtput₀, hload₀⟩ := hready₀.exists_suspends
    (Interpreter.addressable_of_run hplain (by decide +kernel)) hm hplain
  have hportable₀ := hp₀.portable rfl hcount fun _ _ hk => (echoed_live hk).1
  obtain ⟨created, hload⟩ := hload₀ hportable₀
  have hchain₀ := Chain.first _ rfl rfl hkeeps₀ hends₀ hportable₀
  have hkeeps₁ := keeps_sample patientEcho true true w₀.stores [] (.inl rfl)
  have hrestore (config : EngineConfig) (hconfig : config.Reliable [])
      (hsetting : config.suspendOnEnd = true) : ∃ r s, Engine.restore e₀.state config = (.done (), r) ∧
        r.Poised s ∧ ∃ others : Array (Option (Array Platter)),
          (∀ k : Nat, others[k]?.join = echoed.others[k]?.join) ∧
            s = { echoed with others, input := [], output := #[], suspendOnEnd := true } := by
    obtain ⟨r, others, hrestore, hpr, hothers⟩ := hp₀.restore hconfig rfl (by decide +kernel)
      (by decide +kernel) fun _ _ => echoed_live
    rw [hsetting] at hpr
    exact ⟨r, _, hrestore, hpr, others, hothers, rfl⟩
  obtain ⟨_, job₁, w₁', hready₁, others, hothers, rfl⟩ := Invocation.readies_restored hkeeps₁
    (show "m" ≠ "" by decide) (Layout.words_lt_limit hsize) hload rfl hrestore
  have hshort : Interpreter.Addressable
      { echoed with others, input := [], output := #[], suspendOnEnd := true } := by
    refine Interpreter.addressable_of_run (echoed_waits others) fun k hk => ?_
    obtain rfl := Nat.lt_one_iff.mp hk
    exact hsize
  obtain ⟨e₁, w₁, hends₁, hp₁, houtput₁, -⟩ := hready₁.exists_suspends hshort hm (echoed_waits others)
  have hportable₁ := hp₁.portable rfl (by rw [Engine.liveEntries_congr hothers]; exact hcount)
    fun k words hk => (echoed_live ((hothers k).symm.trans hk)).1
  have hchain₁ := hchain₀.next (sample patientEcho true true w₀.stores []) rfl rfl hkeeps₁ rfl hends₁
    hportable₁
  rw [houtput₀, houtput₁] at hchain₁
  exact ⟨w₁, hchain₁⟩

/-- The third process of the chain echoes another byte and halts, since a single process would. -/
theorem chain_runs_as_one_patientEcho :
    ∃ stores w, Chain patientEcho "m" ["d"] [104] [104]
        ((sample patientEcho false true stores [105]).world.store ["d"]) ∧
      Exits ["-resume", "m", "s"] (sample patientEcho false true stores [105]).world 0 w ∧
      w.output = [105] ∧ ¬ Utf8.encode "m" ∈ Store.names (w.store ["d"]) := by
  obtain ⟨w₁, hchain⟩ := exists_patientEcho_chain
  have hplain : (Interpreter.start patientEcho [104, 105] false).run 6 = (some (.ok ()),
      ((Interpreter.start patientEcho [104, 105] false).run 6).2) := rfl
  have hshort := Interpreter.addressable_of_run hplain (by decide +kernel)
  obtain ⟨hends, hsame, hgone⟩ := chain_runs_as_one validName_m hchain
    (show (sample patientEcho false true w₁.stores [105]).suspend = "" from rfl) rfl
    (keeps_sample patientEcho false true w₁.stores [105] (.inr rfl)) rfl
    (show (sample patientEcho false false [] [104, 105]).suspend = "" ∧ _ from ⟨rfl, rfl⟩) rfl hshort
  obtain ⟨job, w', hready⟩ := Invocation.readies_new
    (.nowhere (show (sample patientEcho false false [] [104, 105]).suspend = "" from rfl) rfl) rfl
    hshort.size_lt
  obtain ⟨ticks, outcome, e, hrun, hleaves⟩ := hready.poised.exists_run hshort hplain
  obtain ⟨w₂, hexit, houtput, -⟩ := hready.conclude rfl hshort hrun
  have hsingle := Exits.ended hready.prepared hrun hexit
  obtain ⟨code, w, hlast⟩ := hends.mpr ⟨_, w₂, hsingle⟩
  obtain ⟨rfl, hjoined⟩ := hsame _ _ _ _ hlast hsingle
  have hdone : exitCode outcome = 0 := by
    have halike := hleaves.alike
    cases outcome with
    | done _ => rfl
    | failed _ => cases halike
    | crashed _ => cases halike
  rw [hdone] at hlast
  refine ⟨w₁.stores, w, hchain, hlast, ?_, hgone w hlast⟩
  rw [houtput, hleaves.agrees.emitted_eq] at hjoined
  exact List.append_cancel_left (hjoined.trans (show _ = [104] ++ [105] from rfl))

end Command.Run

end PlatterMachine
