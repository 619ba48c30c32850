import PlatterMachine.Command.Flags
import PlatterMachine.Command.World
import PlatterMachine.Console.Address
import PlatterMachine.Engine.State

/-!
# Running scrolls and connecting to consoles

The command that runs a scroll, saves its machine when input runs out, resumes a saved one, and
lists those saved. What comes before the machine runs and what comes after are separate, so that
between the two the machine may run over any input. The command that connects the terminal to a
machine served elsewhere goes up to the point where it needs the network.
-/

namespace PlatterMachine.Command.Run

def flags : List Flag :=
  [{ name := "config", kind := .text, argument := "string",
     help := "Path to a TOML configuration file" },
   { name := "list", kind := .switch, help := "List saved snapshots and exit" },
   { name := "listen", kind := .text, argument := "string",
     help := "Address to serve on (implies -serve)" },
   { name := "log-file", kind := .text, argument := "string",
     help := "Append JSON log records to this file" },
   { name := "log-level", kind := .text, argument := "string",
     help := "Log level: debug, info, warn or error" },
   { name := "resume", kind := .text, argument := "NAME",
     help := "Resume the machine saved under NAME" },
   { name := "serve", kind := .switch,
     help := "Serve the scroll over QUIC instead of running it" },
   { name := "snapshot-dir", kind := .text, argument := "string",
     help := "Directory of the snapshot store" },
   { name := "suspend", kind := .text, argument := "NAME",
     help := "Save the machine under NAME when input runs out" }]

def usage : String :=
  "usage: um [flags] SCROLL\n       um -list\n\nflags:\n" ++ Flag.usageAll flags

def failure : UInt32 := 1

def misuse : UInt32 := 2

def complaint (reason : String) : String := "um: " ++ reason

def applyFlags (s : Settings) (a : Arguments) : Settings :=
  let pick := fun name old => if (a.text name).isEmpty then old else a.text name
  { s with
    logLevel := pick "log-level" s.logLevel
    logFile := pick "log-file" s.logFile
    snapshotDir := pick "snapshot-dir" s.snapshotDir
    listen := pick "listen" s.listen }

def readScroll (files : FileSystem) (path : String) (memory : Memory) :
    Outcome (Array Platter) × Memory :=
  match files.find path with
  | .error r => (.failed (FileError.fault ⟨"stat", path, r⟩), memory)
  | .ok (.file content) =>
    let (o, memory) := Memory.inPlatters
      ((Scroll.read (.ofBytes content) content.length).during path) memory
    (do pure (← o).1, memory)
  | .ok _ => (.failed (.plain s!"{path} is not a regular file"), memory)

structure Job where
  engine : Engine
  log : Log
  hash : Vector UInt8 32
  store : Location
  suspend : String
  resume : String

def list (dir : String) : Command Unit := do
  match ← openStore dir with
  | .error f => abort failure (complaint f.message)
  | .ok location =>
    write ((Store.names (← store location)).flatMap (· ++ [10]))

def start (log : Log) (location : Location) (resume : String) (program : Array Platter)
    (hash : Vector UInt8 32) (config : EngineConfig) : Command (Outcome Unit × Engine) := do
  if resume.isEmpty then return Engine.new program config
  match Store.load (← store location) (Utf8.encode resume) with
  | .error e => abort failure (complaint e.toFault.message)
  | .ok snapshot =>
    if snapshot.hash ≠ hash then
      abort failure (complaint (s!"{Snapshot.subject (Utf8.encode resume)} was taken from scroll " ++
        s!"{Hex.ofBytes snapshot.hash.toList}, not {Hex.ofBytes hash.toList}"))
    log.write [⟨.info, "resuming machine", [("name", .text resume),
      ("finger", .number snapshot.state.finger.toNat),
      ("created", .text ((← get).showTime snapshot.created))]⟩]
    return Engine.restore snapshot.state config

def makeJob (a : Arguments) (s : Settings) (log : Log) (program : Array Platter)
    (hash : Vector UInt8 32) (memory : Memory) : Command Job := do
  let suspend := a.text "suspend"
  let resume := a.text "resume"
  let location ←
    if suspend.isEmpty && resume.isEmpty then pure []
    else
      match ← openStore s.snapshotDir with
      | .ok location => pure location
      | .error f => abort failure (complaint f.message)
  let config : EngineConfig :=
    { input := ⟨(← get).input, []⟩, output := {}, memory := some memory,
      suspendOnEnd := !suspend.isEmpty, logs := log.level ≤ LogLevel.debug }
  let (o, engine) ← start log location resume program hash config
  let (events, engine) := engine.drainEvents
  log.write (events.map EngineEvent.record)
  match o with
  | .done () => return ⟨engine, log, hash, location, suspend, resume⟩
  | .failed f => abort failure (complaint f.message)
  | .crashed _ => exit misuse

def prepare (arguments : List String) : Command Job := do
  let a ←
    match Arguments.parse flags arguments with
    | .ok a => pure a
    | .error e =>
      say ((e.message?.elim "" (· ++ "\n")) ++ usage)
      exit misuse
  let w ← get
  let s ←
    match Settings.load w.files w.env (a.text "config") with
    | .ok s => pure (applyFlags s a)
    | .error e => abort misuse (complaint e.message)
  let log ←
    match ← openLog s with
    | .ok log => pure log
    | .error f => abort misuse (complaint f.message)
  if a.isOn "list" then
    list s.snapshotDir
    exit 0
  let path ←
    match a.rest with
    | [path] => pure path
    | rest =>
      say (complaint s!"expected exactly one scroll, got {rest.length} arguments" ++ "\n" ++ usage)
      exit misuse
  let (o, memory) := readScroll (← get).files path Memory.mapped
  let program ←
    match o with
    | .done program => pure program
    | .failed f =>
      say (complaint f.message ++ "\n" ++ usage)
      exit misuse
    | .crashed _ => exit misuse
  let hash := SnapshotRecord.fitTo 32 0 (Scroll.hash program.toList)
  log.write [⟨.info, "loaded scroll", [("path", .text path), ("platters", .number program.size),
    ("hash", .text (Hex.ofBytes hash.toList))]⟩]
  if a.isOn "serve" || !(a.text "listen").isEmpty then
    let fault := (Address.listenFault? s.listen).getD
      (.plain s!"failed to listen on {s.listen}: network unavailable")
    abort failure (complaint fault.message)
  makeJob a s log program hash memory

def conclude (job : Job) (o : Outcome Unit) (e : Engine) : Command UInt32 := do
  let (events, e) := e.drainEvents
  write e.host.output.sink.accepted.toList.flatten
  job.log.write (events.map EngineEvent.record ++
    [⟨.debug, "machine stopped", [("stats", .counters e.host.stats.fields)]⟩])
  match o with
  | .done () =>
    if !job.resume.isEmpty then
      match Store.delete (← store job.store) (Utf8.encode job.resume) with
      | .ok db => putStore job.store db
      | .error f =>
        job.log.write [⟨.warn, "failed to delete resumed snapshot",
          [("name", .text job.resume), ("error", .text f.message)]⟩]
    return 0
  | .failed f =>
    if f.isSuspended then
      match Store.save (← store job.store) (Utf8.encode job.suspend) job.hash (← get).clock
          e.state with
      | .ok db =>
        putStore job.store db
        job.log.write [⟨.info, "machine suspended", [("name", .text job.suspend)]⟩]
        return 0
      | .error f => abort failure (complaint s!"saving snapshot: {f.message}")
    else if f.halt?.isSome then return failure
    else abort failure (complaint f.message)
  | .crashed _ => return misuse

/-- The whole command; `fuel` bounds the run of the machine. -/
def command (arguments : List String) (fuel : Nat) : Command UInt32 := do
  let job ← prepare arguments
  match job.engine.run .none false fuel with
  | (some o, e) => conclude job o e
  | (none, _) => return misuse

end PlatterMachine.Command.Run

namespace PlatterMachine.Command.Connect

def flags : List Flag :=
  [{ name := "config", kind := .text, argument := "string",
     help := "Path to a TOML configuration file" },
   { name := "fingerprint", kind := .text, argument := "string",
     help := "Expected server certificate fingerprint (hex)" },
   { name := "timeout", kind := .duration, argument := "duration", help := "Connection timeout",
     default := "10s" }]

def usage : String := "usage: umconsole [flags] [ADDR]\n\nflags:\n" ++ Flag.usageAll flags

def command (arguments : List String) : Command UInt32 := do
  let a ←
    match Arguments.parse flags arguments with
    | .ok a => pure a
    | .error e =>
      say ((e.message?.elim "" (· ++ "\n")) ++ usage)
      exit (if e = .help then 0 else 2)
  if 1 < a.rest.length then
    say usage
    exit 2
  let w ← get
  let s ←
    match Settings.load w.files w.env (a.text "config") with
    | .ok s => pure s
    | .error e => abort 1 ("Failed to load config: " ++ e.message)
  let address := a.rest.head?.getD s.listen
  if (a.text "fingerprint").isEmpty && s.fingerprint.isEmpty then
    say "Warning: server certificate is not pinned\n"
  let fault := (Address.dialFault? address).getD
    (.plain s!"failed to dial {address}: network unavailable")
  abort 1 ("Failed to connect: " ++ fault.message)

end PlatterMachine.Command.Connect
