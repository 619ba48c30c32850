import PlatterMachine.Command.Run
import PlatterMachine.Proofs.Engine.Refinement
import PlatterMachine.Proofs.Scroll
import PlatterMachine.Proofs.Snapshot.Saving

/-!
# Processes

A process that is asked to run a scroll, and finds what it needs, makes a machine for it, runs the
machine and ends with an exit code. Logging and the making of directories do not touch anything that
the machine depends on.
-/

namespace PlatterMachine

def World.store (w : World) (location : Location) : Database := (w.stores.lookup location).getD ∅

structure World.Puts (w : World) (location : Location) (db : Database) (w' : World) : Prop where
  store_eq : w'.store location = db
  store_of_ne : ∀ other, other ≠ location → w'.store other = w.store other

theorem World.store_congr {w w' : World} (h : w'.stores = w.stores) (location : Location) :
    w'.store location = w.store location := by
  rw [store, store, h]

theorem World.Puts.congr {w w₁ w₂ w' : World} {location : Location} {db : Database}
    (h : w₁.Puts location db w₂) (hbefore : w₁.stores = w.stores) (hafter : w'.stores = w₂.stores) :
    w.Puts location db w' where
  store_eq := (store_congr hafter location).trans h.store_eq
  store_of_ne other hother :=
    (store_congr hafter other).trans ((h.store_of_ne other hother).trans (store_congr hbefore other))

namespace Command

variable {α β : Type} {w w₁ w' : World}

theorem bind_ok {x : Command α} {f : α → Command β} {a : α} (h : x w = (.ok a, w₁)) :
    (x >>= f) w = f a w₁ := by
  change ExceptT.bindCont f (x w).1 (x w).2 = f a w₁
  rw [h]
  rfl

theorem bind_error {x : Command α} {f : α → Command β} {code : UInt32}
    (h : x w = (.error code, w₁)) : (x >>= f) w = (.error code, w₁) := by
  change ExceptT.bindCont f (x w).1 (x w).2 = _
  rw [h]
  rfl

theorem get_bind (f : World → Command β) (w : World) : ((get : Command World) >>= f) w = f w w := rfl

theorem store_bind (location : Location) (f : Database → Command β) (w : World) :
    (store location >>= f) w = f (w.store location) w := rfl

theorem execute_of_ok {c : Command UInt32} {code : UInt32} (h : c w = (.ok code, w')) :
    c.execute w = (code, w') := by
  rw [execute, h]

theorem execute_of_error {c : Command UInt32} {code : UInt32} (h : c w = (.error code, w')) :
    c.execute w = (code, w') := by
  rw [execute, h]

structure Retains (w w' : World) : Prop where
  stores_eq : w'.stores = w.stores
  input_eq : w'.input = w.input
  output_eq : w'.output = w.output
  clock_eq : w'.clock = w.clock

theorem Retains.refl (w : World) : Retains w w := ⟨rfl, rfl, rfl, rfl⟩

theorem Retains.trans (h : Retains w w₁) (h' : Retains w₁ w') : Retains w w' :=
  ⟨h'.stores_eq.trans h.stores_eq, h'.input_eq.trans h.input_eq, h'.output_eq.trans h.output_eq,
    h'.clock_eq.trans h.clock_eq⟩

theorem Retains.store_eq (h : Retains w w') (location : Location) :
    w'.store location = w.store location :=
  World.store_congr h.stores_eq location

/-- The other places are looked up as before. -/
theorem lookup_filter_ne {location other : Location} (h : other ≠ location)
    (stores : List (Location × Database)) :
    (stores.filter (·.1 ≠ location)).lookup other = stores.lookup other := by
  induction stores with
  | nil => rfl
  | cons x stores ih =>
    obtain ⟨place, db⟩ := x
    by_cases hplace : place = location
    · rw [List.filter_cons_of_neg (by simpa using hplace), ih, List.lookup_cons,
        beq_false_of_ne (hplace ▸ h)]
    · rw [List.filter_cons_of_pos (by simpa using hplace), List.lookup_cons, List.lookup_cons, ih]

theorem exists_putStore (location : Location) (db : Database) (w : World) :
    ∃ w', putStore location db w = (.ok (), w') ∧ w'.output = w.output ∧ w.Puts location db w' := by
  refine ⟨_, rfl, rfl, ?_, fun other hother => ?_⟩
  · change (List.lookup location ((location, db) :: _)).getD ∅ = db
    rw [List.lookup_cons_self]
    rfl
  · change (List.lookup other ((location, db) :: _)).getD ∅ = _
    rw [List.lookup_cons, beq_false_of_ne hother, lookup_filter_ne hother, World.store]

theorem Log.exists_write (l : Log) (records : List LogRecord) (w : World) :
    ∃ w', l.write records w = (.ok (), w') ∧ Retains w w' := by
  obtain ⟨level, _ | location⟩ := l
  · exact ⟨_, rfl, rfl, rfl, rfl, rfl⟩
  · exact ⟨_, rfl, rfl, rfl, rfl, rfl⟩

theorem retains_openLog (s : Settings) (w : World) : Retains w (openLog s w).2 := by
  unfold openLog
  cases Logger.ofName s.logLevel with
  | error f => exact .refl w
  | ok logger =>
    dsimp only
    split
    · exact .refl w
    · rw [get_bind]
      cases w.files.openToAppend s.logFile with
      | error e => exact .refl w
      | ok opened => exact ⟨rfl, rfl, rfl, rfl⟩

end Command

/-- Taking the events out of an engine changes nothing else. -/
theorem Engine.Poised.drainEvents {e : Engine} {s : Interpreter} (hp : e.Poised s) :
    e.drainEvents.2.Poised s :=
  ⟨hp.coherent.of_host rfl rfl rfl,
    ⟨hp.represents.supplied.of_arrays rfl (fun _ => rfl) rfl, hp.represents.shows⟩, hp.finger_eq⟩

namespace Command.Run

open Snapshot (ValidName)

theorem ne_empty_of_validName {name : String} (h : ValidName (Utf8.encode name)) : name ≠ "" := by
  rintro rfl
  exact h.1 Utf8.encode_empty

theorem readScroll_of_file {files : FileSystem} {path : String} {program : Array Platter}
    (hfile : files.find path = .ok (.file (Scroll.encode program.toList)))
    (hsize : program.size < Layout.limit) :
    ∃ memory, readScroll files path .mapped = (.done program, memory) ∧ memory.Covers 0 0 := by
  have hlength : (Scroll.encode program.toList).length = 4 * program.size := by
    rw [Scroll.length_encode, Array.length_toList]
  have hbytes : program.size * Element.bytes UInt32 < BlockSource.mappable := by
    change program.size * 4 < 0x800000000000
    simp only [Layout.limit] at hsize
    omega
  have hcount : (((4 * program.size : Nat) : Int) / 4).toNat = program.size := by omega
  have hwhole :
      ¬ (((4 * program.size : Nat) : Int) < 0 ∨ ((4 * program.size : Nat) : Int) % 4 ≠ 0) := by
    omega
  have hplatters := Scroll.readPlatters_encode program.size program.toList #[]
    (Reader.delivers_ofBytes (Scroll.encode program.toList))
  rw [Array.length_toList] at hplatters
  have hread : (Memory.inPlatters ((Scroll.read (.ofBytes (Scroll.encode program.toList))
      (Scroll.encode program.toList).length).during path)).wp
        (fun r memory => r.1 = program ∧ memory.Covers 0 0) (fun _ => False) .mapped := by
    rw [hlength, Memory.inPlatters, Action.wp_within, Action.wp_during, Scroll.read, if_neg hwhole]
    simp only [hcount, Action.wp_bind]
    refine (Memory.lends_mapped.platters.wp_alloc hbytes false).imp (fun buffer arena _ hlent => ?_)
      fun _ hf => hf
    apply Action.wp.cleaningUp
    rw [hplatters, Action.wp_ofExcept_ok, Action.wp_pure]
    exact ⟨by simp, {buffer}, 0, hlent.1, Memory.lends_mapped.code, Memory.lends_mapped.slots⟩
  obtain ⟨r, memory, heq, hprogram, hcovers⟩ := hread.exists_done
  refine ⟨memory, ?_, hcovers⟩
  simp only [readScroll, hfile, heq]
  rw [← hprogram]
  rfl

/-- How a scroll is known to the store. -/
def mark (program : Array Platter) : Vector UInt8 32 :=
  SnapshotRecord.fitTo 32 0 (Scroll.hash program.toList)

/-- A process that is asked to run the scroll of `program` and finds its settings, its log and the
scroll. -/
structure Invocation (program : Array Platter) where
  arguments : List String
  world : World
  options : Arguments
  settings : Settings
  log : Log
  path : String
  input : List UInt8
  options_eq : Arguments.parse flags arguments = .ok options
  settings_eq : (Settings.load world.files world.env (options.text "config")).map
    (applyFlags · options) = .ok settings
  log_eq : (openLog settings world).1 = .ok (.ok log)
  listless : options.isOn "list" = false
  serveless : (options.isOn "serve" || !(options.text "listen").isEmpty) = false
  path_eq : options.rest = [path]
  scroll_eq : (openLog settings world).2.files.find path =
    .ok (.file (Scroll.encode program.toList))
  delivers : Reader.Delivers ⟨world.input, []⟩ input
  silent : world.output = []

namespace Invocation

variable {program : Array Platter} (i : Invocation program)

def suspend : String := i.options.text "suspend"

def resume : String := i.options.text "resume"

def scrollRecord : LogRecord :=
  ⟨.info, "loaded scroll", [("path", .text i.path), ("platters", .number program.size),
    ("hash", .text (Hex.ofBytes (mark program).toList))]⟩

def loaded : World := (i.log.write [i.scrollRecord] (openLog i.settings i.world).2).2

theorem prepare_eq (hsize : program.size < Layout.limit) :
    ∃ memory, memory.Covers 0 0 ∧ Retains i.world i.loaded ∧ prepare i.arguments i.world =
      makeJob i.options i.settings i.log program (mark program) memory i.loaded := by
  obtain ⟨memory, hread, hcovers⟩ := readScroll_of_file i.scroll_eq hsize
  obtain ⟨w, hwrite, hretains⟩ :=
    i.log.exists_write [i.scrollRecord] (openLog i.settings i.world).2
  have hloaded : i.loaded = w := congrArg Prod.snd hwrite
  have hlog : openLog i.settings i.world = (.ok (.ok i.log), (openLog i.settings i.world).2) :=
    Prod.ext i.log_eq rfl
  obtain ⟨s, hs, hsettings⟩ : ∃ s, Settings.load i.world.files i.world.env
      (i.options.text "config") = .ok s ∧ applyFlags s i.options = i.settings := by
    have h := i.settings_eq
    cases hs : Settings.load i.world.files i.world.env (i.options.text "config") with
    | error e =>
      rw [hs] at h
      cases h
    | ok s =>
      rw [hs] at h
      exact ⟨s, rfl, Except.ok.inj h⟩
  refine ⟨memory, hcovers, ?_, ?_⟩
  · rw [hloaded]
    exact (retains_openLog i.settings i.world).trans hretains
  · unfold prepare
    simp only [i.options_eq, pure_bind]
    rw [get_bind]
    simp only [hs, hsettings]
    rw [bind_ok hlog]
    simp only [i.listless, Bool.false_eq_true, if_false, i.path_eq]
    rw [get_bind]
    simp only [hread]
    refine (bind_ok hwrite).trans ?_
    rw [if_neg (by rw [i.serveless]; exact Bool.false_ne_true), hloaded]
    rfl

/-- Where the process keeps its store; one that neither suspends nor resumes has none. -/
inductive Keeps : Location → Prop
  | nowhere (hsuspend : i.suspend = "") (hresume : i.resume = "") : Keeps []
  | opened {location : Location} {files : FileSystem} (hneeded : i.suspend ≠ "" ∨ i.resume ≠ "")
      (hopen : i.loaded.files.openDirectory i.settings.snapshotDir = .ok (location, files)) :
      Keeps location

def config (memory : Memory) : EngineConfig where
  input := ⟨i.world.input, []⟩
  output := {}
  memory := some memory
  suspendOnEnd := !i.suspend.isEmpty
  logs := i.log.level ≤ LogLevel.debug

theorem config_reliable {memory : Memory} (h : memory.Covers 0 0) :
    (i.config memory).Reliable i.input :=
  ⟨h, i.delivers, ⟨rfl, rfl, rfl, rfl, rfl⟩, rfl, rfl⟩

def job (e : Engine) (location : Location) : Job :=
  ⟨e.drainEvents.2, i.log, mark program, location, i.suspend, i.resume⟩

theorem exists_makeJob {memory : Memory} {location : Location} (hkeeps : i.Keeps location)
    (hloaded : Retains i.world i.loaded) {e : Engine}
    (hstart : ∀ w, Retains i.world w → ∃ w', Retains w w' ∧
      start i.log location i.resume program (mark program) (i.config memory) w =
        (.ok (.done (), e), w')) :
    ∃ w', Retains i.world w' ∧
      makeJob i.options i.settings i.log program (mark program) memory i.loaded =
        (.ok (i.job e location), w') := by
  -- what comes once the store is open
  have hrest (w : World) (hw : Retains i.world w) : ∃ w₁ w', Retains i.world w' ∧
      start i.log location (i.options.text "resume") program (mark program)
        { input := ⟨w.input, []⟩, output := {}, memory := some memory,
          suspendOnEnd := !(i.options.text "suspend").isEmpty,
          logs := i.log.level ≤ LogLevel.debug } w = (.ok (.done (), e), w₁) ∧
      i.log.write (e.drainEvents.1.map EngineEvent.record) w₁ = (.ok (), w') := by
    obtain ⟨w₁, hw₁, hstarted⟩ := hstart w hw
    obtain ⟨w', hwrite, hw'⟩ := i.log.exists_write (e.drainEvents.1.map EngineEvent.record) w₁
    rw [hw.input_eq]
    exact ⟨w₁, w', (hw.trans hw₁).trans hw', hstarted, hwrite⟩
  unfold makeJob
  cases hkeeps with
  | nowhere hsuspend hresume =>
    rw [if_pos (by rw [← suspend, ← resume, hsuspend, hresume]; rfl), pure_bind]
    obtain ⟨w₁, w', hw', hstarted, hwrite⟩ := hrest i.loaded hloaded
    refine ⟨w', hw', ?_⟩
    dsimp only
    rw [get_bind, bind_ok hstarted]
    exact bind_ok hwrite
  | @opened _ files hneeded hopen =>
    have hopened : openStore i.settings.snapshotDir i.loaded =
        (.ok (.ok location), { i.loaded with files }) := by
      rw [openStore, get_bind, hopen]
      rfl
    obtain ⟨w₁, w', hw', hstarted, hwrite⟩ := hrest { i.loaded with files }
      ⟨hloaded.stores_eq, hloaded.input_eq, hloaded.output_eq, hloaded.clock_eq⟩
    rw [if_neg fun h => ?_, bind_ok hopened]
    · refine ⟨w', hw', ?_⟩
      dsimp only
      rw [pure_bind, get_bind, bind_ok hstarted]
      exact bind_ok hwrite
    · rw [Bool.and_eq_true, String.isEmpty_iff, String.isEmpty_iff] at h
      exact hneeded.elim (fun hne => hne h.1) fun hne => hne h.2

structure Readies (location : Location) (s : Interpreter) (job : Job) (w : World) : Prop where
  prepared : prepare i.arguments i.world = (.ok job, w)
  retains : Retains i.world w
  poised : job.engine.Poised s
  suspend_eq : job.suspend = i.suspend
  resume_eq : job.resume = i.resume
  store_eq : job.store = location
  hash_eq : job.hash = mark program

variable {i} {location : Location}

theorem readies_of_start (hsize : program.size < Layout.limit) (hkeeps : i.Keeps location)
    {P : Interpreter → Prop}
    (hstart : ∀ config : EngineConfig, config.Reliable i.input →
      config.suspendOnEnd = !i.suspend.isEmpty → ∃ e s, e.Poised s ∧ P s ∧
        ∀ w, Retains i.world w → ∃ w', Retains w w' ∧
          start i.log location i.resume program (mark program) config w =
            (.ok (.done (), e), w')) :
    ∃ s job w, i.Readies location s job w ∧ P s := by
  obtain ⟨memory, hcovers, hretains, hprepare⟩ := i.prepare_eq hsize
  obtain ⟨e, s, hp, hP, hstarted⟩ := hstart _ (i.config_reliable hcovers) rfl
  obtain ⟨w, hw, hjob⟩ := i.exists_makeJob hkeeps hretains hstarted
  exact ⟨s, i.job e location, w,
    ⟨hprepare.trans hjob, hw, hp.drainEvents, rfl, rfl, rfl, rfl⟩, hP⟩

/-- A new machine starts with the whole input ahead of it. -/
theorem readies_new (hkeeps : i.Keeps location) (hresume : i.resume = "")
    (hshort : Layout.size program.toList < Layout.limit) :
    ∃ job w, i.Readies location (.start program i.input (!i.suspend.isEmpty)) job w := by
  obtain ⟨s, job, w, hready, rfl⟩ := readies_of_start (Layout.words_lt_limit hshort) hkeeps
    (P := (· = .start program i.input (!i.suspend.isEmpty))) fun config hconfig hsuspend => by
      obtain ⟨e, hnew, hp⟩ := Engine.new_poised hconfig hshort
      rw [hsuspend] at hp
      refine ⟨e, _, hp, rfl, fun w hw => ⟨w, .refl w, ?_⟩⟩
      rw [start, hresume, ← hnew]
      rfl
  exact ⟨job, w, hready⟩

/-- A machine that was saved goes on as it is restored. -/
theorem readies_restored (hkeeps : i.Keeps location) (hresume : i.resume ≠ "")
    (hsize : program.size < Layout.limit) {snapshot : Snapshot}
    (hload : Store.load (i.world.store location) (Utf8.encode i.resume) = .ok snapshot)
    (hhash : snapshot.hash = mark program) {P : Interpreter → Prop}
    (hrestore : ∀ config : EngineConfig, config.Reliable i.input →
      config.suspendOnEnd = !i.suspend.isEmpty → ∃ e s,
        Engine.restore snapshot.state config = (.done (), e) ∧ e.Poised s ∧ P s) :
    ∃ s job w, i.Readies location s job w ∧ P s := by
  refine readies_of_start hsize hkeeps fun config hconfig hsuspend => ?_
  obtain ⟨e, s, hrestored, hp, hP⟩ := hrestore config hconfig hsuspend
  refine ⟨e, s, hp, hP, fun w hw => ?_⟩
  obtain ⟨w', hwrite, hw'⟩ := i.log.exists_write [⟨.info, "resuming machine",
    [("name", .text i.resume), ("finger", .number snapshot.state.finger.toNat),
      ("created", .text (w.showTime snapshot.created))]⟩] w
  refine ⟨w', hw', ?_⟩
  unfold start
  rw [if_neg (mt String.isEmpty_iff.mp hresume), store_bind, hw.store_eq, hload]
  dsimp only
  rw [if_neg (not_not.mpr hhash), get_bind]
  refine (bind_ok hwrite).trans ?_
  rw [hrestored]
  rfl

end Invocation

def written (e : Engine) : List UInt8 := e.host.output.sink.accepted.toList.flatten

theorem written_eq {e : Engine} (h : e.host.output.buffer = #[]) :
    written e = e.host.output.emitted := by
  rw [Writer.emitted, h]
  exact (List.append_nil _).symm

variable {job : Job} {e : Engine} {w : World}

def stopRecords (e : Engine) : List LogRecord :=
  e.drainEvents.1.map EngineEvent.record ++
    [⟨.debug, "machine stopped", [("stats", .counters e.drainEvents.2.host.stats.fields)]⟩]

/-- The output is written before anything else is done. -/
theorem exists_report (job : Job) (e : Engine) (w : World) :
    ∃ w₁, Retains { w with output := w.output ++ written e } w₁ ∧
      ∀ f : Unit → Command UInt32,
        (write (written e) >>= fun _ => job.log.write (stopRecords e) >>= f) w = f () w₁ := by
  obtain ⟨w₁, hwrite, hw₁⟩ :=
    job.log.exists_write (stopRecords e) { w with output := w.output ++ written e }
  have houtput : write (written e) w = (.ok (), { w with output := w.output ++ written e }) := rfl
  exact ⟨w₁, hw₁, fun f => (bind_ok houtput).trans (bind_ok hwrite)⟩

def exitCode : Outcome Unit → UInt32
  | .done () => 0
  | .failed _ => failure
  | .crashed _ => misuse

theorem conclude_done (job : Job) (e : Engine) (w : World) :
    ∃ w', (conclude job (.done ()) e).execute w = (0, w') ∧ w'.output = w.output ++ written e ∧
      (ValidName (Utf8.encode job.resume) →
        ∃ db, Store.delete (w.store job.store) (Utf8.encode job.resume) = .ok db ∧
          w.Puts job.store db w') ∧
      (¬ ValidName (Utf8.encode job.resume) → w'.stores = w.stores) := by
  obtain ⟨w₁, hw₁, hreport⟩ := exists_report job e w
  have hconclude : conclude job (.done ()) e w = _ := hreport _
  dsimp only at hconclude
  by_cases hvalid : ValidName (Utf8.encode job.resume)
  · rw [if_pos (by simp [ne_empty_of_validName hvalid]), store_bind, hw₁.store_eq,
      Store.delete_of_valid hvalid] at hconclude
    obtain ⟨w', hput, houtput, hputs⟩ := exists_putStore job.store
      ((w.store job.store).eraseRange (Snapshot.keyStart (Utf8.encode job.resume))
        (Snapshot.keyEnd (Snapshot.keyStart (Utf8.encode job.resume)))) w₁
    exact ⟨w', execute_of_ok (hconclude.trans (bind_ok hput)), houtput.trans hw₁.output_eq,
      fun _ => ⟨_, Store.delete_of_valid hvalid, hputs.congr hw₁.stores_eq rfl⟩,
      fun h => absurd hvalid h⟩
  · split at hconclude
    · rw [store_bind, Store.delete_of_not_valid hvalid] at hconclude
      obtain ⟨w', hwrite, hw'⟩ := job.log.exists_write [⟨.warn, "failed to delete resumed snapshot",
        [("name", .text job.resume),
          ("error", .text (Store.badName (Utf8.encode job.resume)).message)]⟩] w₁
      exact ⟨w', execute_of_ok (hconclude.trans (bind_ok hwrite)),
        hw'.output_eq.trans hw₁.output_eq, fun h => absurd h hvalid,
        fun _ => hw'.stores_eq.trans hw₁.stores_eq⟩
    · exact ⟨w₁, execute_of_ok hconclude, hw₁.output_eq, fun h => absurd h hvalid,
        fun _ => hw₁.stores_eq⟩

/-- What becomes of a machine that waits for input depends on whether it can be saved. -/
theorem conclude_suspended (job : Job) (e : Engine) (w : World) {f : Fault}
    (hf : f.isSuspended = true) :
    ∃ w₁, Retains { w with output := w.output ++ written e } w₁ ∧
      conclude job (.failed f) e w =
        (match Store.save (w.store job.store) (Utf8.encode job.suspend) job.hash w.clock e.state with
          | .ok db => do
            putStore job.store db
            job.log.write [⟨.info, "machine suspended", [("name", .text job.suspend)]⟩]
            return 0
          | .error fault => abort failure (complaint s!"saving snapshot: {fault.message}") :
            Command UInt32) w₁ := by
  obtain ⟨w₁, hw₁, hreport⟩ := exists_report job e w
  have hconclude : conclude job (.failed f) e w = _ := hreport _
  dsimp only at hconclude
  rw [if_pos hf, store_bind, get_bind, hw₁.store_eq, hw₁.clock_eq] at hconclude
  exact ⟨w₁, hw₁, hconclude⟩

theorem conclude_saved (job : Job) {f : Fault} (hf : f.isSuspended = true) {db : Database}
    (hsave : Store.save (w.store job.store) (Utf8.encode job.suspend) job.hash w.clock e.state =
      .ok db) :
    ∃ w', (conclude job (.failed f) e).execute w = (0, w') ∧
      w'.output = w.output ++ written e ∧ w.Puts job.store db w' := by
  obtain ⟨w₁, hw₁, hconclude⟩ := conclude_suspended job e w hf
  obtain ⟨w₂, hput, houtput, hputs⟩ := exists_putStore job.store db w₁
  obtain ⟨w', hwrite, hw'⟩ := job.log.exists_write
    [⟨.info, "machine suspended", [("name", .text job.suspend)]⟩] w₂
  rw [hsave] at hconclude
  exact ⟨w', execute_of_ok (hconclude.trans ((bind_ok hput).trans (bind_ok hwrite))),
    (hw'.output_eq.trans houtput).trans hw₁.output_eq, hputs.congr hw₁.stores_eq hw'.stores_eq⟩

theorem conclude_unsaved (job : Job) {f fault : Fault} (hf : f.isSuspended = true)
    (hsave : Store.save (w.store job.store) (Utf8.encode job.suspend) job.hash w.clock e.state =
      .error fault) :
    ∃ w', (conclude job (.failed f) e).execute w = (failure, w') ∧
      w'.output = w.output ++ written e ∧ w'.stores = w.stores := by
  obtain ⟨w₁, hw₁, hconclude⟩ := conclude_suspended job e w hf
  rw [hsave] at hconclude
  exact ⟨_, execute_of_error hconclude, hw₁.output_eq, hw₁.stores_eq⟩

/-- A process that has suspended its machine and reports success has saved it. -/
theorem save_of_conclude {w' : World}
    (h : (conclude job (.failed .suspended) e).execute w = (0, w')) :
    Store.save (w.store job.store) (Utf8.encode job.suspend) job.hash w.clock e.state =
        .ok (w'.store job.store) ∧ w'.output = w.output ++ written e := by
  have hf : Fault.suspended.isSuspended = true := rfl
  cases hsave : Store.save (w.store job.store) (Utf8.encode job.suspend) job.hash w.clock e.state with
  | ok db =>
    obtain ⟨w₁, hexit, houtput, hputs⟩ := conclude_saved job hf hsave
    cases h.symm.trans hexit
    exact ⟨by rw [hputs.store_eq], houtput⟩
  | error fault =>
    obtain ⟨w₁, hexit, -⟩ := conclude_unsaved job hf hsave
    cases h.symm.trans hexit

theorem conclude_failed (job : Job) (e : Engine) (w : World) {f : Fault}
    (hf : f.isSuspended = false) :
    ∃ w', (conclude job (.failed f) e).execute w = (failure, w') ∧
      w'.output = w.output ++ written e ∧ w'.stores = w.stores := by
  obtain ⟨w₁, hw₁, hreport⟩ := exists_report job e w
  have hconclude : conclude job (.failed f) e w = _ := hreport _
  dsimp only at hconclude
  rw [if_neg (by rw [hf]; exact Bool.false_ne_true)] at hconclude
  split at hconclude
  · exact ⟨w₁, execute_of_ok hconclude, hw₁.output_eq, hw₁.stores_eq⟩
  · exact ⟨_, execute_of_error hconclude, hw₁.output_eq, hw₁.stores_eq⟩

theorem conclude_crashed (job : Job) (e : Engine) (w : World) (crash : Crash) :
    ∃ w', (conclude job (.crashed crash) e).execute w = (misuse, w') ∧ w'.stores = w.stores := by
  obtain ⟨w₁, hw₁, hreport⟩ := exists_report job e w
  have hconclude : conclude job (.crashed crash) e w = _ := hreport _
  exact ⟨w₁, execute_of_ok hconclude, hw₁.stores_eq⟩

/-- A process without a name to suspend under tells by its exit code whether the machine has
halted. If it has, the snapshot that it was resumed from is deleted. -/
theorem conclude_unnamed (hsuspend : job.suspend = "") {o : Outcome Unit}
    (ho : ∀ crash, o ≠ .crashed crash) :
    ∃ w', (conclude job o e).execute w = (exitCode o, w') ∧ w'.output = w.output ++ written e ∧
      (exitCode o = 0 → ValidName (Utf8.encode job.resume) →
        Store.delete (w.store job.store) (Utf8.encode job.resume) = .ok (w'.store job.store)) := by
  cases o with
  | done _ =>
    obtain ⟨w', hexit, houtput, hdelete, -⟩ := conclude_done job e w
    refine ⟨w', hexit, houtput, fun _ hvalid => ?_⟩
    obtain ⟨db, hdeleted, hputs⟩ := hdelete hvalid
    rw [hdeleted, hputs.store_eq]
  | failed f =>
    have hexit : ∃ w', (conclude job (.failed f) e).execute w = (failure, w') ∧
        w'.output = w.output ++ written e ∧ w'.stores = w.stores := by
      cases hf : f.isSuspended with
      | true =>
        refine conclude_unsaved job hf (Store.save_of_not_valid ?_)
        rw [hsuspend, Utf8.encode_empty]
        exact fun h => h.1 rfl
      | false => exact conclude_failed job e w hf
    obtain ⟨w', hexit, houtput, -⟩ := hexit
    exact ⟨w', hexit, houtput, by rintro ⟨⟩⟩
  | crashed crash => exact absurd rfl (ho crash)

inductive Exits (arguments : List String) (w : World) : UInt32 → World → Prop
  | refused {code : UInt32} {w' : World} (hprepare : prepare arguments w = (.error code, w')) :
      Exits arguments w code w'
  | ended {job : Job} {w₁ w' : World} {fuel : Nat} {o : Outcome Unit} {e : Engine} {code : UInt32}
      (hprepare : prepare arguments w = (.ok job, w₁))
      (hrun : job.engine.run .none false fuel = (some o, e))
      (hconclude : (conclude job o e).execute w₁ = (code, w')) : Exits arguments w code w'

/-- The process ends with exit code 0, having suspended its machine as `e`. -/
inductive Suspends (arguments : List String) (w : World) (e : Engine) : World → Prop
  | suspended {job : Job} {w₁ w' : World} {fuel : Nat}
      (hprepare : prepare arguments w = (.ok job, w₁))
      (hrun : job.engine.run .none false fuel = (some (.failed .suspended), e))
      (hconclude : (conclude job (.failed .suspended) e).execute w₁ = (0, w')) :
      Suspends arguments w e w'

/-- What a process comes to is what the command comes to, if it may run long enough. -/
theorem Exits.exists_command {arguments : List String} {code : UInt32} {w' : World}
    (h : Exits arguments w code w') :
    ∃ fuel, (command arguments fuel).execute w = (code, w') := by
  cases h with
  | refused hprepare =>
    refine ⟨0, execute_of_error ?_⟩
    rw [command, bind_error hprepare]
  | @ended job w₁ _ fuel o e _ hprepare hrun hconclude =>
    refine ⟨fuel, ?_⟩
    rw [← hconclude, execute, execute, command, bind_ok hprepare, hrun]

end Command.Run

end PlatterMachine
