import PlatterMachine.Proofs.Command.Chain

/-!
# Errands

A process has an errand with its machine: it may be told to resume it from a snapshot, and to save it
under a name when input runs out. Two things can change a store. A machine that has halted takes the
snapshot that it was resumed from with it, and a machine that waits for input is saved. However else
an errand ends, the stores are what they were before, and the exit code tells that it has failed.

The input, the output and the memory of the machine are any at all here, and it may be cancelled.
-/

namespace PlatterMachine

open Snapshot

structure Database.Loses (db : Database) (name : List UInt8) (db' : Database) : Prop where
  gone : ∀ key, keyStart name <+: key → db'[key]? = none
  beside : db.SameBeside name db'
  unknown : Store.load db' name = .error (.fault (Fault.snapshotMissing.during (subject name)))

/-- The name of the snapshot stands for it, whatever it stood for before, and that is all that has
changed. -/
structure Database.Gains (db : Database) (s : Snapshot) (db' : Database) : Prop where
  bound : ∀ key, keyStart s.name <+: key → db'[key]? = s.entry? key
  beside : db.SameBeside s.name db'

namespace Store

variable {db db' : Database} {name : List UInt8} {hash : Vector UInt8 32} {created : Int64}
  {state : MachineState}

theorem loses_of_delete (h : delete db name = .ok db') : db.Loses name db' where
  gone key hkey := (getElem?_delete h key).trans (if_pos hkey)
  beside := sameBeside_delete h
  unknown := load_of_delete h

theorem gains_of_save (h : save db name hash created state = .ok db') :
    db.Gains ⟨name, hash, created, state⟩ db' where
  bound key hkey := (getElem?_save h key).trans (if_pos hkey)
  beside := sameBeside_save h

/-- A store takes any state with a program under any name that is valid. -/
theorem exists_save_iff :
    (∃ db', save db name hash created state = .ok db') ↔
      ValidName name ∧ (state.array? 0).isSome = true := by
  constructor
  · rintro ⟨db', h⟩
    exact ⟨(save_inv h).1, (save_inv h).2.1⟩
  · rintro ⟨hname, hzero⟩
    have hprogram : ¬ (state.array? 0).isNone = true := by
      simpa [Option.isSome_iff_ne_none] using hzero
    exact ⟨_, save_of_valid hname hprogram⟩

end Store

namespace Command

theorem exists_openStore (path : String) (w : World) :
    ∃ r w₁, openStore path w = (.ok r, w₁) ∧ Retains w w₁ := by
  unfold openStore
  rw [get_bind]
  cases w.files.openDirectory path with
  | ok opened => exact ⟨.ok opened.1, _, rfl, rfl, rfl, rfl, rfl⟩
  | error e => exact ⟨_, w, rfl, .refl w⟩

theorem exists_abort {α : Type} (code : UInt32) (reason : String) (w : World) :
    ∃ w₁, (abort code reason : Command α) w = (.error code, w₁) ∧ Retains w w₁ :=
  ⟨_, rfl, rfl, rfl, rfl, rfl⟩

structure Spared (w w' : World) : Prop where
  stores_eq : w'.stores = w.stores
  clock_eq : w'.clock = w.clock

def Spares {α : Type} (c : Command α) : Prop := ∀ w, Spared w (c w).2

variable {α β : Type} {w w₁ w' : World}

theorem Retains.spared (h : Retains w w') : Spared w w' := ⟨h.stores_eq, h.clock_eq⟩

theorem Spared.trans (h : Spared w w₁) (h' : Spared w₁ w') : Spared w w' :=
  ⟨h'.stores_eq.trans h.stores_eq, h'.clock_eq.trans h.clock_eq⟩

theorem spares_get : Spares (get : Command World) := fun _ => ⟨rfl, rfl⟩

theorem spares_say (text : String) : Spares (say text) := fun _ => ⟨rfl, rfl⟩

theorem spares_write (bytes : List UInt8) : Spares (write bytes) := fun _ => ⟨rfl, rfl⟩

theorem spares_store (location : Location) : Spares (store location) := fun _ => ⟨rfl, rfl⟩

theorem spares_exit (code : UInt32) : Spares (exit code : Command α) := fun _ => ⟨rfl, rfl⟩

theorem spares_logWrite (l : Log) (records : List LogRecord) : Spares (l.write records) := by
  intro w
  obtain ⟨w₁, hwrite, hw₁⟩ := l.exists_write records w
  rw [hwrite]
  exact hw₁.spared

theorem spares_openLog (s : Settings) : Spares (openLog s) :=
  fun w => (retains_openLog s w).spared

theorem spares_openStore (path : String) : Spares (openStore path) := by
  intro w
  obtain ⟨r, w₁, hopen, hw₁⟩ := exists_openStore path w
  rw [hopen]
  exact hw₁.spared

theorem Spares.bind {x : Command α} {f : α → Command β} (hx : Spares x) (hf : ∀ a, Spares (f a)) :
    Spares (x >>= f) := by
  intro w
  have hw := hx w
  rcases hxw : x w with ⟨code | a, w₁⟩
  · rw [bind_error hxw]
    rwa [hxw] at hw
  · rw [bind_ok hxw]
    rw [hxw] at hw
    exact hw.trans (hf a w₁)

theorem spares_abort (code : UInt32) (reason : String) : Spares (abort code reason : Command α) :=
  (spares_say _).bind fun _ => spares_exit code

end Command

namespace Command.Run

structure Errand where
  log : Log
  hash : Vector UInt8 32
  directory : String
  /-- The name to suspend under, empty if the machine is not to be suspended. -/
  suspend : String
  /-- The name to resume from, empty for a new machine. -/
  resume : String

def proceed : Outcome Unit × Job → Command Job
  | (.done (), job) => pure job
  | (.failed f, _) => abort failure (complaint f.message)
  | (.crashed _, _) => exit misuse

namespace Errand

def openAt (m : Errand) : Command Location :=
  if m.suspend.isEmpty && m.resume.isEmpty then pure []
  else do
    match ← openStore m.directory with
    | .ok location => pure location
    | .error f => abort failure (complaint f.message)

def make (m : Errand) (program : Array Platter) (config : EngineConfig) (location : Location) :
    Command (Outcome Unit × Job) := do
  let (o, e) ← start m.log location m.resume program m.hash config
  m.log.write (e.drainEvents.1.map EngineEvent.record)
  return (o, ⟨e.drainEvents.2, m.log, m.hash, location, m.suspend, m.resume⟩)

theorem make_bind {α : Type} (m : Errand) (program : Array Platter) (config : EngineConfig)
    (location : Location) (f : Outcome Unit × Job → Command α) :
    m.make program config location >>= f =
      start m.log location m.resume program m.hash config >>= fun made =>
        m.log.write (made.2.drainEvents.1.map EngineEvent.record) >>= fun _ =>
          f (made.1, ⟨made.2.drainEvents.2, m.log, m.hash, location, m.suspend, m.resume⟩) := by
  simp only [make, bind_assoc, pure_bind]

def ready (m : Errand) (program : Array Platter) (config : EngineConfig) :
    Command (Outcome Unit × Job) :=
  m.openAt >>= m.make program config

end Errand

/-- The options of a process give it an errand. -/
theorem makeJob_eq (a : Arguments) (s : Settings) (log : Log) (program : Array Platter)
    (hash : Vector UInt8 32) (memory : Memory) (w : World) :
    makeJob a s log program hash memory w =
      ((⟨log, hash, s.snapshotDir, a.text "suspend", a.text "resume"⟩ : Errand).ready program
        { input := ⟨w.input, []⟩, output := {}, memory := some memory,
          suspendOnEnd := !(a.text "suspend").isEmpty, logs := log.level ≤ LogLevel.debug }
        >>= proceed) w := by
  unfold makeJob Errand.ready Errand.openAt
  dsimp only
  by_cases hneed : ((a.text "suspend").isEmpty && (a.text "resume").isEmpty) = true
  · rw [if_pos hneed, if_pos hneed, pure_bind, pure_bind, get_bind, Errand.make_bind]
    refine congrFun (bind_congr fun made => bind_congr fun _ => ?_) w
    cases made.1 <;> rfl
  · rw [if_neg hneed, if_neg hneed]
    obtain ⟨r, w₁, hopen, hw₁⟩ := exists_openStore s.snapshotDir w
    rw [bind_assoc, bind_assoc, bind_ok hopen, bind_ok hopen]
    cases r with
    | ok location =>
      dsimp only
      -- opening the store leaves the input alone, so it can be taken beforehand
      rw [pure_bind, pure_bind, get_bind, Errand.make_bind, hw₁.input_eq]
      refine congrFun (bind_congr fun made => bind_congr fun _ => ?_) w₁
      cases made.1 <;> rfl
    | error f => rfl

namespace Errand

variable (m : Errand) (program : Array Platter) (config : EngineConfig) (w : World)

def site : Location := ((m.openAt w).1.toOption).getD []

def job (e : Engine) : Job :=
  ⟨e.drainEvents.2, m.log, m.hash, m.site w, m.suspend, m.resume⟩

theorem openAt_cases :
    ∃ w₁, Retains w w₁ ∧
      (m.openAt w = (.error failure, w₁) ∨ m.openAt w = (.ok (m.site w), w₁)) := by
  unfold site openAt
  split
  · exact ⟨w, .refl w, .inr rfl⟩
  · obtain ⟨r, w₁, hopen, hw₁⟩ := exists_openStore m.directory w
    rw [bind_ok hopen]
    cases r with
    | ok location => exact ⟨w₁, hw₁, .inr rfl⟩
    | error f =>
      obtain ⟨w₂, habort, hw₂⟩ :=
        exists_abort (α := Location) failure (complaint f.message) w₁
      exact ⟨w₂, hw₁.trans hw₂, .inl habort⟩

end Errand

/-- The attempts to make a machine: a new one, or the one that a store has under the name to resume
from, if it has run the same scroll. -/
inductive Attempt (db : Database) (resume : String) (program : Array Platter)
    (hash : Vector UInt8 32) (config : EngineConfig) : Outcome Unit × Engine → Prop
  | new (hresume : resume = "") : Attempt db resume program hash config (Engine.new program config)
  | restore {s : Snapshot} (hload : Store.load db (Utf8.encode resume) = .ok s)
      (hhash : s.hash = hash) :
      Attempt db resume program hash config (Engine.restore s.state config)

theorem Attempt.validName {db : Database} {resume : String} {program : Array Platter}
    {hash : Vector UInt8 32} {config : EngineConfig} {r : Outcome Unit × Engine}
    (h : Attempt db resume program hash config r) (hresume : resume ≠ "") :
    ValidName (Utf8.encode resume) := by
  cases h with
  | new hnone => exact absurd hnone hresume
  | restore hload _ => exact Store.validName_of_load hload

theorem start_cases (log : Log) (location : Location) (resume : String) (program : Array Platter)
    (hash : Vector UInt8 32) (config : EngineConfig) (w : World) :
    ∃ w₁, Retains w w₁ ∧
      (start log location resume program hash config w = (.error failure, w₁) ∨
        ∃ r, Attempt (w.store location) resume program hash config r ∧
          start log location resume program hash config w = (.ok r, w₁)) := by
  unfold start
  by_cases hresume : resume.isEmpty = true
  · rw [if_pos hresume]
    exact ⟨w, .refl w, .inr ⟨_, .new (String.isEmpty_iff.mp hresume), rfl⟩⟩
  · rw [if_neg hresume, store_bind]
    cases hload : Store.load (w.store location) (Utf8.encode resume) with
    | error fault =>
      obtain ⟨w₁, habort, hw₁⟩ := exists_abort failure (complaint fault.toFault.message) w
      exact ⟨w₁, hw₁, .inl habort⟩
    | ok snapshot =>
      dsimp only
      by_cases hhash : snapshot.hash = hash
      · rw [if_neg (not_not.mpr hhash), get_bind]
        obtain ⟨w₁, hwrite, hw₁⟩ := log.exists_write [⟨.info, "resuming machine",
          [("name", .text resume), ("finger", .number snapshot.state.finger.toNat),
            ("created", .text (w.showTime snapshot.created))]⟩] w
        exact ⟨w₁, hw₁, .inr ⟨_, .restore hload hhash, bind_ok hwrite⟩⟩
      · rw [if_pos hhash]
        obtain ⟨w₁, habort, hw₁⟩ := exists_abort (α := Unit) failure
          (complaint (s!"{Snapshot.subject (Utf8.encode resume)} was taken from scroll " ++
            s!"{Hex.ofBytes snapshot.hash.toList}, not {Hex.ofBytes hash.toList}")) w
        exact ⟨w₁, hw₁, .inl (bind_error habort)⟩

namespace Errand

variable (m : Errand) (program : Array Platter) (config : EngineConfig) (w : World)

theorem ready_cases :
    ∃ w₁, Retains w w₁ ∧
      (m.ready program config w = (.error failure, w₁) ∨
        ∃ r, Attempt (w.store (m.site w)) m.resume program m.hash config r ∧
          m.ready program config w = (.ok (r.1, m.job w r.2), w₁)) := by
  obtain ⟨w₁, hw₁, hopen | hopen⟩ := m.openAt_cases w
  · exact ⟨w₁, hw₁, .inl (bind_error hopen)⟩
  · obtain ⟨w₂, hw₂, hstart | ⟨r, hr, hstart⟩⟩ :=
      start_cases m.log (m.site w) m.resume program m.hash config w₁
    · exact ⟨w₂, hw₁.trans hw₂, .inl ((bind_ok hopen).trans (bind_error hstart))⟩
    · obtain ⟨w₃, hwrite, hw₃⟩ := m.log.exists_write (r.2.drainEvents.1.map EngineEvent.record) w₂
      rw [hw₁.store_eq] at hr
      refine ⟨w₃, (hw₁.trans hw₂).trans hw₃, .inr ⟨r, hr, ?_⟩⟩
      exact (bind_ok hopen).trans ((bind_ok hstart).trans (bind_ok hwrite))

variable {m program config w}

theorem ready_error {code : UInt32} {w₁ : World} (h : m.ready program config w = (.error code, w₁)) :
    code = failure ∧ Retains w w₁ := by
  obtain ⟨w₀, hw₀, hrefused | ⟨r, -, hmade⟩⟩ := m.ready_cases program config w
  · obtain ⟨hcode, rfl⟩ := Prod.mk.inj (h.symm.trans hrefused)
    exact ⟨Except.error.inj hcode, hw₀⟩
  · cases (Prod.mk.inj (h.symm.trans hmade)).1

theorem ready_ok {o : Outcome Unit} {job : Job} {w₁ : World}
    (h : m.ready program config w = (.ok (o, job), w₁)) :
    Retains w w₁ ∧ ∃ e, job = m.job w e ∧
      Attempt (w.store (m.site w)) m.resume program m.hash config (o, e) := by
  obtain ⟨w₀, hw₀, hrefused | ⟨⟨o, e⟩, hattempt, hmade⟩⟩ := m.ready_cases program config w
  · cases (Prod.mk.inj (h.symm.trans hrefused)).1
  · obtain ⟨heq, rfl⟩ := Prod.mk.inj (h.symm.trans hmade)
    obtain ⟨rfl, rfl⟩ := Prod.mk.inj (Except.ok.inj heq)
    exact ⟨hw₀, e, rfl, hattempt⟩

/-- A job goes on only if its machine has been made. -/
theorem ready_of_proceed {job : Job} {w₁ : World}
    (h : (m.ready program config >>= proceed) w = (.ok job, w₁)) :
    m.ready program config w = (.ok (.done (), job), w₁) := by
  rcases hready : m.ready program config w with ⟨code | ⟨o, job'⟩, w₀⟩
  · rw [bind_error hready] at h
    cases (Prod.mk.inj h).1
  · rw [bind_ok hready] at h
    cases o with
    | done _ =>
      obtain ⟨hjob, rfl⟩ := Prod.mk.inj h
      rw [Except.ok.inj hjob]
    | failed f => cases (Prod.mk.inj h).1
    | crashed crash => cases (Prod.mk.inj h).1

end Errand

inductive Fate where
  /-- There was none to be had: no store, no snapshot, or one of another scroll. -/
  | refused
  | unmade (o : Outcome Unit)
  | ran (o : Outcome Unit) (e : Engine)

namespace Fate

def Halted : Fate → Prop
  | ran (.done ()) _ => True
  | _ => False

def waiting? : Fate → Option Engine
  | ran (.failed f) e => if f.isSuspended then some e else none
  | _ => none

def Crashed : Fate → Prop
  | unmade (.crashed _) | ran (.crashed _) _ => True
  | _ => False

end Fate

namespace Errand

inductive Ends (m : Errand) (program : Array Platter) (config : EngineConfig) (signals : Signals)
    (cancelled : Bool) (w : World) : Fate → UInt32 → World → Prop
  | refused {code : UInt32} {w' : World} (hready : m.ready program config w = (.error code, w')) :
      Ends m program config signals cancelled w .refused code w'
  | unmade {o : Outcome Unit} {job : Job} {w₁ w' : World} {code : UInt32}
      (hready : m.ready program config w = (.ok (o, job), w₁))
      (hproceed : proceed (o, job) w₁ = (.error code, w')) :
      Ends m program config signals cancelled w (.unmade o) code w'
  | ran {job : Job} {w₁ w' : World} {fuel : Nat} {o : Outcome Unit} {e : Engine} {code : UInt32}
      (hready : m.ready program config w = (.ok (.done (), job), w₁))
      (hrun : job.engine.run signals cancelled fuel = (some o, e))
      (hconclude : (conclude job o e).execute w₁ = (code, w')) :
      Ends m program config signals cancelled w (.ran o e) code w'

def Makes (m : Errand) (program : Array Platter) (config : EngineConfig) (w : World) : Prop :=
  ∃ e, Attempt (w.store (m.site w)) m.resume program m.hash config (.done (), e)

def Accepts (m : Errand) (e : Engine) : Prop :=
  ValidName (Utf8.encode m.suspend) ∧ (e.state.array? 0).isSome = true

def Saves (m : Errand) (fate : Fate) : Prop := ∃ e, fate.waiting? = some e ∧ m.Accepts e

theorem not_saves_of_waiting? {m : Errand} {fate : Fate} (h : fate.waiting? = none) :
    ¬ m.Saves fate := by
  rintro ⟨e, he, -⟩
  exact Option.some_ne_none e (he.symm.trans h)

theorem waiting?_of_isSuspended {f : Fault} (hf : f.isSuspended = true) (e : Engine) :
    Fate.waiting? (.ran (.failed f) e) = some e :=
  if_pos hf

theorem saves_iff {m : Errand} {f : Fault} (hf : f.isSuspended = true) {e : Engine} :
    m.Saves (.ran (.failed f) e) ↔ m.Accepts e := by
  rw [Saves, waiting?_of_isSuspended hf]
  constructor
  · rintro ⟨e', he', haccepts⟩
    cases he'
    exact haccepts
  · intro haccepts
    exact ⟨e, rfl, haccepts⟩

/-- What has become of the machine accounts for the exit code and for everything that has happened to
the stores. -/
structure Settles (m : Errand) (program : Array Platter) (config : EngineConfig) (w : World)
    (fate : Fate) (code : UInt32) (w' : World) : Prop where
  made : ∀ o e, fate = .ran o e → m.Makes program config w
  halted : fate.Halted → m.resume ≠ "" →
    (w.store (m.site w)).Loses (Utf8.encode m.resume) (w'.store (m.site w))
  saved : ∀ e, fate.waiting? = some e → m.Accepts e →
    (w.store (m.site w)).Gains ⟨Utf8.encode m.suspend, m.hash, w.clock, e.state⟩
      (w'.store (m.site w))
  loads : ∀ e, fate.waiting? = some e → m.Accepts e →
    e.state.arrays.length ≤ Cbor.maxElements →
      Store.load (w'.store (m.site w)) (Utf8.encode m.suspend) =
        .ok ⟨Utf8.encode m.suspend, m.hash, w.clock, e.state⟩
  kept : ¬ (fate.Halted ∧ m.resume ≠ "") → ¬ m.Saves fate → w'.stores = w.stores
  names : ∀ name, name ≠ Utf8.encode m.suspend → name ≠ Utf8.encode m.resume →
    Store.load (w'.store (m.site w)) name = Store.load (w.store (m.site w)) name
  others : ∀ location, location ≠ m.site w → w'.store location = w.store location
  code_eq_zero_iff : code = 0 ↔ fate.Halted ∨ m.Saves fate
  code_eq_failure : ¬ fate.Halted → ¬ m.Saves fate → ¬ fate.Crashed → code = failure

variable {m : Errand} {program : Array Platter} {config : EngineConfig} {w w' : World} {fate : Fate}
  {code : UInt32}

theorem Settles.of_stores_eq (hstores : w'.stores = w.stores)
    (hmade : ∀ o e, fate = .ran o e → m.Makes program config w)
    (hhalted : fate.Halted → m.resume = "") (hsaves : ¬ m.Saves fate)
    (hzero : code = 0 ↔ fate.Halted) (hfailure : ¬ fate.Halted → ¬ fate.Crashed → code = failure) :
    m.Settles program config w fate code w' where
  made := hmade
  halted h hresume := absurd (hhalted h) hresume
  saved e he haccepts := absurd ⟨e, he, haccepts⟩ hsaves
  loads e he haccepts := absurd ⟨e, he, haccepts⟩ hsaves
  kept _ _ := hstores
  names _ _ _ := by rw [World.store_congr hstores]
  others location _ := World.store_congr hstores location
  code_eq_zero_iff := hzero.trans (or_iff_left hsaves).symm
  code_eq_failure h _ := hfailure h

theorem Settles.of_failed (hstores : w'.stores = w.stores)
    (hmade : ∀ o e, fate = .ran o e → m.Makes program config w) (hhalted : ¬ fate.Halted)
    (hsaves : ¬ m.Saves fate) : m.Settles program config w fate failure w' :=
  .of_stores_eq hstores hmade (fun h => absurd h hhalted) hsaves (iff_of_false (by decide) hhalted)
    fun _ _ => rfl

/-- A machine that is saved leaves the names alone that are not its own. -/
theorem Settles.of_saved {f : Fault} {e : Engine} {db : Database}
    (hmade : m.Makes program config w) (hf : f.isSuspended = true)
    (hsave : Store.save (w.store (m.site w)) (Utf8.encode m.suspend) m.hash w.clock e.state = .ok db)
    (hputs : w.Puts (m.site w) db w') :
    m.Settles program config w (.ran (.failed f) e) 0 w' := by
  have haccepts : m.Accepts e := Store.exists_save_iff.mp ⟨db, hsave⟩
  have hsaves := (saves_iff hf).mpr haccepts
  have hgains := Store.gains_of_save hsave
  have hwaiting (e' : Engine) (he' : Fate.waiting? (.ran (.failed f) e) = some e') : e' = e :=
    Option.some.inj (he'.symm.trans (waiting?_of_isSuspended hf e))
  refine
    { made := fun _ _ _ => hmade
      halted := False.elim
      saved := fun e' he' _ => ?_
      loads := fun e' he' _ hcount => ?_
      kept := fun _ h => absurd hsaves h
      names := fun name hname _ => ?_
      others := hputs.store_of_ne
      code_eq_zero_iff := iff_of_true rfl (.inr hsaves)
      code_eq_failure := fun _ h => absurd hsaves h }
  · rw [hwaiting e' he', hputs.store_eq]
    exact hgains
  · obtain rfl := hwaiting e' he'
    rw [hputs.store_eq]
    exact Store.load_of_save hsave hcount
  · rw [hputs.store_eq]
    exact Store.load_of_sameBeside hgains.beside haccepts.1 hname

theorem Settles.of_deleted {e : Engine} {db : Database} (hmade : m.Makes program config w)
    (hresume : m.resume ≠ "")
    (hdelete : Store.delete (w.store (m.site w)) (Utf8.encode m.resume) = .ok db)
    (hputs : w.Puts (m.site w) db w') :
    m.Settles program config w (.ran (.done ()) e) 0 w' := by
  have hloses := Store.loses_of_delete hdelete
  have hwaiting (e' : Engine) : Fate.waiting? (.ran (.done ()) e) ≠ some e' :=
    (Option.some_ne_none e').symm
  refine
    { made := fun _ _ _ => hmade
      halted := fun _ _ => ?_
      saved := fun e' he' => absurd he' (hwaiting e')
      loads := fun e' he' => absurd he' (hwaiting e')
      kept := fun h => absurd ⟨trivial, hresume⟩ h
      names := fun name _ hname => ?_
      others := hputs.store_of_ne
      code_eq_zero_iff := iff_of_true rfl (.inl trivial)
      code_eq_failure := fun h => absurd trivial h }
  · rw [hputs.store_eq]
    exact hloses
  · rw [hputs.store_eq]
    exact Store.load_of_sameBeside hloses.beside (Store.validName_of_delete hdelete) hname

/-- What a job does about its machine when the machine has run. -/
theorem settles_conclude {w₁ : World} {e₀ e : Engine} (hw₁ : Retains w w₁)
    (hattempt : Attempt (w.store (m.site w)) m.resume program m.hash config (.done (), e₀))
    {o : Outcome Unit} (h : (conclude (m.job w e₀) o e).execute w₁ = (code, w')) :
    m.Settles program config w (.ran o e) code w' := by
  have hmakes : m.Makes program config w := ⟨e₀, hattempt⟩
  cases o with
  | done _ =>
    obtain ⟨w₂, hexit, -, hdelete, hkept⟩ := conclude_done (m.job w e₀) e w₁
    obtain ⟨rfl, rfl⟩ := Prod.mk.inj (h.symm.trans hexit)
    by_cases hresume : m.resume = ""
    · have hstores := hkept fun hvalid => ne_empty_of_validName hvalid hresume
      exact .of_stores_eq (hstores.trans hw₁.stores_eq) (fun _ _ _ => hmakes) (fun _ => hresume)
        (not_saves_of_waiting? rfl) (iff_of_true rfl trivial) fun hne => absurd trivial hne
    · -- the machine was loaded from this name, so the name can be deleted
      obtain ⟨db, hdeleted, hputs⟩ := hdelete (hattempt.validName hresume)
      rw [hw₁.store_eq] at hdeleted
      exact .of_deleted hmakes hresume hdeleted (hputs.congr hw₁.stores_eq rfl)
  | failed f =>
    cases hf : f.isSuspended with
    | true =>
      cases hsave : Store.save (w₁.store (m.site w)) (Utf8.encode m.suspend) m.hash w₁.clock
          e.state with
      | ok db =>
        obtain ⟨w₂, hexit, -, hputs⟩ := conclude_saved (m.job w e₀) hf hsave
        obtain ⟨rfl, rfl⟩ := Prod.mk.inj (h.symm.trans hexit)
        rw [hw₁.store_eq, hw₁.clock_eq] at hsave
        exact .of_saved hmakes hf hsave (hputs.congr hw₁.stores_eq rfl)
      | error fault =>
        obtain ⟨w₂, hexit, -, hstores⟩ := conclude_unsaved (m.job w e₀) hf hsave
        obtain ⟨rfl, rfl⟩ := Prod.mk.inj (h.symm.trans hexit)
        have hsaves : ¬ m.Saves (.ran (.failed f) e) := by
          intro hsaves
          obtain ⟨db, hsaved⟩ := Store.exists_save_iff.mpr ((saves_iff hf).mp hsaves)
          cases hsave.symm.trans hsaved
        exact .of_failed (hstores.trans hw₁.stores_eq) (fun _ _ _ => hmakes) id hsaves
    | false =>
      obtain ⟨w₂, hexit, -, hstores⟩ := conclude_failed (m.job w e₀) e w₁ hf
      obtain ⟨rfl, rfl⟩ := Prod.mk.inj (h.symm.trans hexit)
      exact .of_failed (hstores.trans hw₁.stores_eq) (fun _ _ _ => hmakes) id
        (not_saves_of_waiting? (if_neg (by rw [hf]; exact Bool.false_ne_true)))
  | crashed crash =>
    obtain ⟨w₂, hexit, hstores⟩ := conclude_crashed (m.job w e₀) e w₁ crash
    obtain ⟨rfl, rfl⟩ := Prod.mk.inj (h.symm.trans hexit)
    exact .of_stores_eq (hstores.trans hw₁.stores_eq) (fun _ _ _ => hmakes) False.elim
      (not_saves_of_waiting? rfl) (iff_of_false (by decide) id) fun _ hne => absurd trivial hne

theorem settles_unmade {w₁ : World} (hw₁ : Retains w w₁) {o : Outcome Unit} {job : Job}
    (h : proceed (o, job) w₁ = (.error code, w')) :
    m.Settles program config w (.unmade o) code w' := by
  have hran : ∀ o' e', Fate.unmade o = .ran o' e' → m.Makes program config w :=
    fun _ _ h => Fate.noConfusion h
  cases o with
  | done _ => cases (Prod.mk.inj h).1
  | failed f =>
    obtain ⟨w₂, habort, hw₂⟩ := exists_abort (α := Job) failure (complaint f.message) w₁
    obtain ⟨hcode, rfl⟩ := Prod.mk.inj (h.symm.trans habort)
    obtain rfl := Except.error.inj hcode
    exact .of_failed (hw₂.stores_eq.trans hw₁.stores_eq) hran id (not_saves_of_waiting? rfl)
  | crashed crash =>
    obtain ⟨hcode, rfl⟩ := Prod.mk.inj h
    obtain rfl := Except.error.inj hcode
    exact .of_stores_eq hw₁.stores_eq hran False.elim (not_saves_of_waiting? rfl)
      (iff_of_false (by decide) id) fun _ hne => absurd trivial hne

/-- An errand ends, unless its machine runs for ever. -/
theorem exists_ends_or (m : Errand) (program : Array Platter) (config : EngineConfig)
    (signals : Signals) (cancelled : Bool) (w : World) :
    (∃ fate code w', m.Ends program config signals cancelled w fate code w') ∨
      ∃ job w₁, m.ready program config w = (.ok (.done (), job), w₁) ∧
        ∀ fuel, (job.engine.run signals cancelled fuel).1 = none := by
  rcases hready : m.ready program config w with ⟨code | ⟨o, job⟩, w₁⟩
  · exact .inl ⟨_, _, _, .refused hready⟩
  · cases o with
    | done _ =>
      by_cases hends : ∃ fuel, (job.engine.run signals cancelled fuel).1 ≠ none
      · obtain ⟨fuel, hfuel⟩ := hends
        obtain ⟨o, ho⟩ := Option.ne_none_iff_exists'.mp hfuel
        exact .inl ⟨_, _, _, .ran hready (Prod.ext ho rfl) rfl⟩
      · exact .inr ⟨job, w₁, rfl, by simpa using hends⟩
    | failed f =>
      obtain ⟨w₂, habort, -⟩ := exists_abort (α := Job) failure (complaint f.message) w₁
      exact .inl ⟨_, _, _, .unmade hready habort⟩
    | crashed crash => exact .inl ⟨_, _, _, .unmade hready rfl⟩

end Errand

theorem spares_list (dir : String) : Spares (list dir) := by
  refine (spares_openStore dir).bind fun r => ?_
  cases r with
  | ok location => exact (spares_store location).bind fun _ => spares_write _
  | error f => exact spares_abort failure (complaint f.message)

theorem spares_ready (m : Errand) (program : Array Platter) (config : EngineConfig) :
    Spares (m.ready program config) := by
  intro w
  obtain ⟨w₁, hw₁, hrefused | ⟨r, -, hmade⟩⟩ := m.ready_cases program config w
  · rw [hrefused]
    exact hw₁.spared
  · rw [hmade]
    exact hw₁.spared

theorem spares_proceed (r : Outcome Unit × Job) : Spares (proceed r) := by
  obtain ⟨o, job⟩ := r
  cases o with
  | done _ => exact fun _ => ⟨rfl, rfl⟩
  | failed f => exact spares_abort failure (complaint f.message)
  | crashed crash => exact spares_exit misuse

/-- The arguments ask for the errand: they name the scroll that the machine has, and by which its
snapshots are known, and the names to suspend under and to resume from. -/
def Errand.AskedBy (m : Errand) (program : Array Platter) (config : EngineConfig)
    (arguments : List String) (w : World) : Prop :=
  ∃ a s log path memory, Arguments.parse flags arguments = .ok a ∧ a.rest = [path] ∧
    Settings.load w.files w.env (a.text "config") = .ok s ∧
    readScroll (openLog (applyFlags s a) w).2.files path .mapped = (.done program, memory) ∧
    m = ⟨log, mark program, (applyFlags s a).snapshotDir, a.text "suspend", a.text "resume"⟩ ∧
    config = { input := ⟨w.input, []⟩, output := {}, memory := some memory,
               suspendOnEnd := !m.suspend.isEmpty, logs := log.level ≤ LogLevel.debug }

structure Reaches (P : Errand → Array Platter → EngineConfig → Prop) (c : Command Job)
    (w : World) : Prop where
  spared : Spared w (c w).2
  ready : ∀ job, (c w).1 = .ok job → ∃ m program config w₀, P m program config ∧ Spared w w₀ ∧
    m.ready program config w₀ = (.ok (.done (), job), (c w).2)

section Reaching

variable {α : Type} {P : Errand → Array Platter → EngineConfig → Prop} {w : World}

theorem Reaches.of_error {c : Command Job} {code : UInt32} {w₁ : World}
    (h : c w = (.error code, w₁)) (hw₁ : Spared w w₁) : Reaches P c w where
  spared := by rwa [h]
  ready job hjob := by
    rw [h] at hjob
    cases hjob

theorem Reaches.bind {x : Command α} {f : α → Command Job} (hx : Spares x)
    (hf : ∀ a w₁, x w = (.ok a, w₁) → Reaches P (f a) w₁) : Reaches P (x >>= f) w := by
  have hw := hx w
  rcases hxw : x w with ⟨code | a, w₁⟩
  · rw [hxw] at hw
    exact .of_error (bind_error hxw) hw
  · rw [hxw] at hw
    have hreaches := hf a w₁ hxw
    refine ⟨?_, fun job hjob => ?_⟩
    · rw [bind_ok hxw]
      exact hw.trans hreaches.spared
    · rw [bind_ok hxw] at hjob ⊢
      obtain ⟨m, program, config, w₀, hP, hw₀, hready⟩ := hreaches.ready job hjob
      exact ⟨m, program, config, w₀, hP, hw.trans hw₀, hready⟩

theorem reaches_exit_bind (code : UInt32) (f : α → Command Job) :
    Reaches P ((exit code : Command α) >>= f) w :=
  .of_error (bind_error (show exit code w = (.error code, w) from rfl)) ⟨rfl, rfl⟩

theorem reaches_abort_bind (code : UInt32) (reason : String) (f : α → Command Job) :
    Reaches P ((abort code reason : Command α) >>= f) w := by
  obtain ⟨w₁, habort, hw₁⟩ := exists_abort (α := α) code reason w
  exact .of_error (bind_error habort) hw₁.spared

theorem reaches_makeJob {a : Arguments} {s : Settings} {log : Log} {program : Array Platter}
    {hash : Vector UInt8 32} {memory : Memory}
    (hP : P ⟨log, hash, s.snapshotDir, a.text "suspend", a.text "resume"⟩ program
      { input := ⟨w.input, []⟩, output := {}, memory := some memory,
        suspendOnEnd := !(a.text "suspend").isEmpty, logs := log.level ≤ LogLevel.debug }) :
    Reaches P (makeJob a s log program hash memory) w := by
  have hmake := makeJob_eq a s log program hash memory w
  refine ⟨?_, fun job hjob => ?_⟩
  · rw [hmake]
    exact Spares.bind (spares_ready _ _ _) spares_proceed w
  · have hjob' : makeJob a s log program hash memory w =
        (.ok job, (makeJob a s log program hash memory w).2) := Prod.ext hjob rfl
    exact ⟨_, _, _, w, hP, ⟨rfl, rfl⟩, Errand.ready_of_proceed (hmake.symm.trans hjob')⟩

theorem reaches_prepare (arguments : List String) (w : World) :
    Reaches (fun m program config => m.AskedBy program config arguments w) (prepare arguments)
      w := by
  unfold prepare
  dsimp only
  -- one question after the other: either answer leaves the stores alone, and one of them goes on
  cases ha : Arguments.parse flags arguments with
  | error e => exact .bind (spares_say _) fun _ _ _ => reaches_exit_bind misuse _
  | ok a =>
    dsimp only
    rw [pure_bind]
    refine .bind spares_get fun found _ hfound => ?_
    cases hfound
    cases hs : Settings.load w.files w.env (a.text "config") with
    | error e => exact reaches_abort_bind ..
    | ok s =>
      dsimp only
      rw [pure_bind]
      refine .bind (spares_openLog _) fun opened w₁ hopened => ?_
      have hw₁ := retains_openLog (applyFlags s a) w
      have hfiles := congrArg (fun r => r.2.files) hopened
      rw [hopened] at hw₁
      cases opened with
      | error f => exact reaches_abort_bind ..
      | ok log =>
        dsimp only
        rw [pure_bind]
        split
        · exact .bind (spares_list _) fun _ _ _ => reaches_exit_bind 0 _
        · split
          · rename_i path hpath
            rw [pure_bind]
            refine .bind spares_get fun found _ hfound => ?_
            cases hfound
            split
            · rename_i program hprogram
              rw [pure_bind]
              refine .bind (spares_logWrite _ _) fun _ w₂ hwritten => ?_
              obtain ⟨w₂', hwrite, hw₂⟩ := log.exists_write
                [⟨.info, "loaded scroll", [("path", .text path), ("platters", .number program.size),
                  ("hash", .text (Hex.ofBytes (mark program).toList))]⟩] w₁
              cases hwrite.symm.trans hwritten
              split
              · exact reaches_abort_bind ..
              · refine reaches_makeJob ⟨a, s, log, path, (readScroll w₁.files path .mapped).2, ha,
                  hpath, hs, ?_, rfl, ?_⟩
                · rw [hfiles]
                  exact Prod.ext hprogram rfl
                · rw [hw₂.input_eq, hw₁.input_eq]
            · exact .bind (spares_say _) fun _ _ _ => reaches_exit_bind misuse _
            · exact reaches_exit_bind ..
          · exact .bind (spares_say _) fun _ _ _ => reaches_exit_bind misuse _

end Reaching

/-- A process that has touched a store was on the errand that its arguments ask for. -/
theorem Exits.stores_eq_or_ends {arguments : List String} {w w' : World} {code : UInt32}
    (h : Exits arguments w code w') :
    w'.stores = w.stores ∨ ∃ (m : Errand) (program : Array Platter) (config : EngineConfig)
      (w₀ : World) (fate : Fate), m.AskedBy program config arguments w ∧ Spared w w₀ ∧
        m.Ends program config .none false w₀ fate code w' := by
  have hreaches := reaches_prepare arguments w
  cases h with
  | refused hprepare =>
    have hspared := hreaches.spared
    rw [hprepare] at hspared
    exact .inl hspared.stores_eq
  | ended hprepare hrun hconclude =>
    obtain ⟨m, program, config, w₀, hasked, hw₀, hready⟩ :=
      hreaches.ready _ (congrArg Prod.fst hprepare)
    rw [hprepare] at hready
    exact .inr ⟨m, program, config, w₀, _, hasked, hw₀, .ran hready hrun hconclude⟩

/-- However an errand ends, what has become of its machine accounts for the exit code and the stores:
only a machine that has halted loses the snapshot that it was resumed from, only one that waits for
input is saved, and otherwise nothing has changed and the exit code is that of a failure. An errand
ends unless its machine runs for ever, and nothing but the errand that the arguments of a process ask
for changes a store. -/
theorem snapshots_survive_failed_runs (m : Errand) (program : Array Platter) (config : EngineConfig)
    (signals : Signals) (cancelled : Bool) (w : World) :
    (∀ fate code w', m.Ends program config signals cancelled w fate code w' →
      m.Settles program config w fate code w') ∧
    ((∃ fate code w', m.Ends program config signals cancelled w fate code w') ∨
      ∃ job w₁, m.ready program config w = (.ok (.done (), job), w₁) ∧
        ∀ fuel, (job.engine.run signals cancelled fuel).1 = none) ∧
    ∀ arguments code w', Exits arguments w code w' →
      w'.stores = w.stores ∨ ∃ (m : Errand) (program : Array Platter) (config : EngineConfig)
        (w₀ : World) (fate : Fate), m.AskedBy program config arguments w ∧ Spared w w₀ ∧
          m.Ends program config .none false w₀ fate code w' := by
  refine ⟨fun fate code w' hends => ?_, m.exists_ends_or program config signals cancelled w,
    fun _ _ _ => Exits.stores_eq_or_ends⟩
  cases hends with
  | refused hready =>
    obtain ⟨rfl, hw'⟩ := Errand.ready_error hready
    exact .of_failed hw'.stores_eq (fun _ _ h => Fate.noConfusion h) id
      (Errand.not_saves_of_waiting? rfl)
  | unmade hready hproceed => exact Errand.settles_unmade (Errand.ready_ok hready).1 hproceed
  | ran hready hrun hconclude =>
    obtain ⟨hw₁, e₀, rfl, hattempt⟩ := Errand.ready_ok hready
    exact Errand.settles_conclude hw₁ hattempt hconclude

def Invocation.errand {program : Array Platter} (i : Invocation program) : Errand :=
  ⟨i.log, mark program, i.settings.snapshotDir, i.suspend, i.resume⟩

theorem Invocation.exists_ready {program : Array Platter} {i : Invocation program} {job : Job}
    {w : World} (hsize : program.size < Layout.limit)
    (h : prepare i.arguments i.world = (.ok job, w)) :
    ∃ config, Retains i.world i.loaded ∧
      i.errand.ready program config i.loaded = (.ok (.done (), job), w) := by
  obtain ⟨memory, -, hloaded, hprepare⟩ := i.prepare_eq hsize
  have hmake := makeJob_eq i.options i.settings i.log program (mark program) memory i.loaded
  exact ⟨_, hloaded, Errand.ready_of_proceed (hmake.symm.trans (hprepare.symm.trans h))⟩

open Engine (patientEcho)

def shelved : Database :=
  ((∅ : Database).insert (recordKey (Utf8.encode "m")) [1]).insert
  (recordKey (Utf8.encode "n")) [2]

/-- The machine is saved under `m`, and whatever is under `n` is still there. -/
theorem snapshots_survive_failed_runs_patientEcho :
    ∃ (m : Errand) (config : EngineConfig) (w w' : World) (e : Engine),
      m.Ends patientEcho config .none false w (.ran (.failed .suspended) e) 0 w' ∧
      m.suspend = "m" ∧ w.store ["d"] = shelved ∧
      Store.load (w'.store ["d"]) (Utf8.encode "m") =
        .ok ⟨Utf8.encode "m", mark patientEcho, w.clock, e.state⟩ ∧
      Store.load (w'.store ["d"]) (Utf8.encode "n") = Store.load shelved (Utf8.encode "n") := by
  have hsize : Layout.size patientEcho.toList < Layout.limit := by decide +kernel
  have hplain : (Interpreter.start patientEcho [104] true).run 4 =
      (some (.error .suspended), echoed) := rfl
  let i := sample patientEcho true false [(["d"], shelved)] [104]
  have hkeeps : i.Keeps ["d"] := keeps_sample patientEcho true false _ [104] (.inl rfl)
  obtain ⟨job, w₁, hready⟩ := Invocation.readies_new hkeeps rfl hsize
  obtain ⟨e, w', hsuspends, hp, -⟩ := hready.exists_suspends
    (Interpreter.addressable_of_run hplain (by decide +kernel)) validName_m hplain
  obtain ⟨hprepare, hrun, hconclude⟩ := hsuspends
  obtain ⟨config, hloaded, hmade⟩ := Invocation.exists_ready (Layout.words_lt_limit hsize) hprepare
  have hends : i.errand.Ends patientEcho config .none false i.loaded (.ran (.failed .suspended) e) 0
    w' := .ran hmade hrun hconclude
  have hsettles :=
    (snapshots_survive_failed_runs i.errand patientEcho config .none false i.loaded).1 _ _ _ hends
  have hsite : i.errand.site i.loaded = ["d"] := by
    cases hready.prepared.symm.trans hprepare
    obtain ⟨-, _, hjob, -⟩ := Errand.ready_ok hmade
    exact (congrArg Job.store hjob).symm.trans hready.store_eq
  have haccepts : i.errand.Accepts e :=
    (Errand.saves_iff rfl).mp ((hsettles.code_eq_zero_iff.mp rfl).resolve_left id)
  have hcount : e.state.arrays.length ≤ Cbor.maxElements := by
    rw [hp.state_arrays (Engine.succ_lt_of_size (by decide +kernel))]
    decide +kernel
  have hstore : i.loaded.store ["d"] = shelved := hloaded.store_eq ["d"]
  have hload := hsettles.loads e rfl haccepts hcount
  have hother := hsettles.names (Utf8.encode "n")
    (show Utf8.encode "n" ≠ Utf8.encode "m" by rw [Utf8.encode_eq, Utf8.encode_eq]; decide)
    (show Utf8.encode "n" ≠ Utf8.encode "" by rw [Utf8.encode_eq, Utf8.encode_eq]; decide)
  rw [hsite] at hload hother
  rw [hstore] at hother
  exact ⟨i.errand, config, i.loaded, w', e, hends, rfl, hstore, hload, hother⟩

end Command.Run

end PlatterMachine
