import PlatterMachine.Command.Run
import PlatterMachine.Calendar
import PlatterMachine.Snapshot.Store
import Std.Time

/-!
# The command line

Builds the world of a command from the files it names, lets a machine run between the two halves of
the command, and writes back what has changed. Under the name `umconsole` it is the command that
connects to a console.
-/

namespace PlatterMachine.CommandLine

def now : IO Int := do
  return (← Std.Time.Timestamp.now).toNanosecondsSinceUnixEpoch.toInt

def settingNames : List String :=
  ["UM_LOG_LEVEL", "UM_LOG_FILE", "UM_LOG_JOURNAL", "UM_SNAPSHOT_DIR", "UM_LISTEN",
    "UM_FINGERPRINT"]

def environment : IO Settings.Environment := do
  let mut env := []
  for name in settingNames do
    if let some value ← IO.getEnv name then
      env := (name, value) :: env
  return env

def look (path : String) : IO (Option FileEntry) := do
  try
    return some (.file (← IO.FS.readBinFile path).toList)
  catch
    | .noFileOrDirectory .. => return none
    | .inappropriateType .. => return some .directory
    | _ => return none

def survey (files : FileSystem) (path : String) : IO FileSystem := do
  let mut files := files
  let mut location := FileSystem.origin path
  let mut passed := ""
  for name in path.splitOn "/" do
    passed := passed ++ name
    location := FileSystem.descend location name
    unless passed.isEmpty || (FileSystem.outside? location).isSome do
      if let some entry ← look passed then
        files := files.set location entry
    passed := passed ++ "/"
  return files

def storeFile (dir : String) : String := dir ++ "/snapshots"

def settings (w : World) (a : Arguments) : Settings :=
  match Settings.load w.files w.env (a.text "config") with
  | .ok s => Command.Run.applyFlags s a
  | .error _ => {}

def world (a : Arguments) : IO World := do
  let w : World :=
    { files := ← survey {} (a.text "config"), env := ← environment,
      clock := Int64.ofInt (← now), showTime := fun t => Timestamp.text t.toInt }
  let s := settings w a
  let mut files := w.files
  for path in s.logFile :: s.snapshotDir :: a.rest do
    files ← survey files path
  let stores ←
    match files.locate s.snapshotDir, ← look (storeFile s.snapshotDir) with
    | .ok location, some (.file bytes) => pure [(location, (Database.ofImage? bytes).getD ∅)]
    | _, _ => pure []
  return { w with files, stores }

def stamp (time line : String) : String :=
  if line.startsWith "level=" then s!"time={time} {line}"
  else if line.startsWith "\x7b\"level\":" then
    s!"\x7b\"time\":\"{time}\"," ++ (line.drop 1).toString
  else line

def stampAll (time text : String) : String :=
  "\n".intercalate ((text.splitOn "\n").map (stamp time))

/-- Prints what was written, which is then forgotten. -/
def report (w : World) : IO World := do
  let out ← IO.getStdout
  out.write (ByteArray.mk w.output.toArray)
  out.flush
  (← IO.getStderr).putStr (stampAll (Timestamp.text (← now)) w.errors)
  return { w with output := [], errors := "" }

def keep (w : World) (s : Settings) : IO Unit := do
  unless s.logFile.isEmpty do
    if let .ok bytes := w.files.read s.logFile then
      IO.FS.writeFile s.logFile (stampAll (Timestamp.text (← now)) (Utf8.decode bytes))
  if let .ok location := w.files.locate s.snapshotDir then
    if let some db := w.stores.lookup location then
      IO.FS.createDirAll s.snapshotDir
      IO.FS.writeBinFile (storeFile s.snapshotDir) (ByteArray.mk db.image.toArray)

def ticks : Nat := 1 <<< 62

/-- Runs a machine over the standard input, which is read when the machine asks for it. -/
partial def interact (suspends : Bool) (e : Engine) : IO (Outcome Unit × Engine) := do
  let waiting : Engine := { e with host := { e.host with suspendOnEnd := true } }
  match waiting.run .none false ticks with
  | (some (.failed f), paused) =>
    if f.isSuspended then
      let (written, sink) := paused.host.output.sink.drain
      let out ← IO.getStdout
      out.write (ByteArray.mk written.flatten.toArray)
      out.flush
      let more ← (← IO.getStdin).read 4096
      let e : Engine :=
        { paused with host := { paused.host with
            output := { paused.host.output with sink }
            events := paused.host.events.pop
            input := { paused.host.input with
              source := paused.host.input.source.feed [.data more.toList] } } }
      if more.isEmpty then
        let last : Engine := { e with host := { e.host with suspendOnEnd := suspends } }
        let (o, e) := last.run .none false ticks
        return (o.getD (.done ()), e)
      else interact suspends e
    else return (.failed f, paused)
  | (o, e) => return (o.getD (.done ()), e)

def runScroll (arguments : List String) : IO UInt32 := do
  let parsed := Arguments.parse Command.Run.flags arguments
  let a := parsed.toOption.getD {}
  let w ← world a
  let s := settings w a
  match Command.Run.prepare arguments w with
  | (.error code, w) =>
    keep (← report w) s
    return if parsed matches .error .help then 0 else code
  | (.ok job, w) =>
    let w ← report w
    let (o, e) ← interact (!job.suspend.isEmpty) job.engine
    let (code, w) := (Command.Run.conclude job o e).execute w
    keep (← report w) s
    return code

def connect (arguments : List String) : IO UInt32 := do
  let a := (Arguments.parse Command.Connect.flags arguments).toOption.getD {}
  let (code, w) := (Command.Connect.command arguments).execute (← world a)
  discard (report w)
  return code

end PlatterMachine.CommandLine

def main (arguments : List String) : IO UInt32 := do
  if (← IO.appPath).fileName = some "umconsole" then
    PlatterMachine.CommandLine.connect arguments
  else PlatterMachine.CommandLine.runScroll arguments
