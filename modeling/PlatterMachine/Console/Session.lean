import PlatterMachine.Engine.Basic
import PlatterMachine.Engine.Run

/-!
# Console sessions

A client opens a stream, on which its first byte names the protocol version. The server then runs a
fresh machine over its program, with the stream as input and output, and closes the stream when the
machine stops. All sessions of a server start from one program, which lies in the same memory as the
arrays of their machines.
-/

namespace PlatterMachine

structure Stream where
  source : Source
  sink : Sink
  closes : Nat := 0

namespace Stream

def close (s : Stream) : Stream := { s with closes := s.closes + 1 }

end Stream

structure Served where
  stream : Stream
  records : List LogRecord
  ended : Bool

namespace Session

def protocolVersion : UInt8 := 1

def mark (id : String) (r : LogRecord) : LogRecord :=
  { r with attrs := ("session", .text id) :: r.attrs }

def verdict (outcome : Outcome Unit) (stats : EngineStats) : List LogRecord :=
  match outcome with
  | .done () => [⟨.info, "machine halted", [("stats", .counters stats.fields)]⟩]
  | .failed fault =>
    match fault.halt? with
    | some (reason, word) =>
      [⟨.info, "machine halted abnormally", [("reason", .text (Halt.message reason word))]⟩]
    | none => [⟨.warn, "machine failed", [("error", .text fault.message)]⟩]
  | .crashed _ => []

def machine (program : Array Platter) (s : Stream) : Outcome Unit × Engine :=
  Engine.new program { input := ⟨s.source, []⟩, output := s.sink, logs := true }

def runMachine (program : Array Platter) (ticks : Nat) (s : Stream) : Served :=
  match machine program s with
  | (.done (), e) =>
    let started : LogRecord := ⟨.info, "session started", [("platters", .number program.size)]⟩
    let (outcome, e) := e.run .none s.source.cancelled ticks
    let e := if outcome.isSome then e.close.2 else e
    let events := e.host.events.toList.map EngineEvent.record
    { stream := { s with source := e.host.input.source, sink := e.host.output.sink }
      records := started :: events ++ outcome.elim [] (verdict · e.host.stats)
      ended := outcome.isSome }
  | (.failed fault, _) =>
    ⟨s, [⟨.error, "failed to create machine", [("error", .text fault.message)]⟩], true⟩
  | (.crashed _, _) => ⟨s, [], true⟩

def serve (program : Array Platter) (id : String) (ticks : Nat) (s : Stream) : Served :=
  let (version, source) := s.source.await 1
  let s := { s with source }
  let served : Served :=
    match version with
    | .ok [v] =>
      if v = protocolVersion then runMachine program ticks s
      else ⟨s, [⟨.warn, "unsupported protocol version", [("version", .number v.toNat)]⟩], true⟩
    | .ok _ => ⟨s, [], true⟩
    | .error fault =>
      ⟨s, [⟨.warn, "failed to read protocol version", [("error", .text fault.message)]⟩], true⟩
  { served with
    stream := if served.ended then served.stream.close else served.stream
    records := served.records.map (mark id) }

def stages (program : Array Platter) (ticks : Nat) (s : Stream) : List Engine :=
  match s.source.await 1 with
  | (.ok [v], source) =>
    if v = protocolVersion then
      match machine program { s with source } with
      | (.done (), e) =>
        e :: (List.range (ticks + 1)).map fun k => (e.run .none source.cancelled k).2
      | _ => []
    else []
  | _ => []

end Session

/-- The word that the array has at an index of a region of the process, if it lies there; `place` says
where the regions of its machine's memory lie. -/
def PlatterArray.wordAt? (place : Nat → Nat) (region i : Nat) (a : PlatterArray) : Option Platter :=
  if place a.buffer.region = region ∧ a.buffer.offset ≤ i then a.words[i - a.buffer.offset]?
  else none

/-- One session of a server. -/
structure Visit where
  id : String
  stream : Stream
  /-- The ticks that its machine gets before the next session starts. -/
  ticks : Nat
  /-- Where the regions of its machine's memory lie in that of the process. -/
  place : Nat → Nat

/-- A server's program, which lies in a region of the process from an index on. -/
structure Server where
  program : Array Platter
  region : Nat
  offset : Nat := 0

namespace Server

def under (server : Server) (place : Nat → Nat) (e : Engine) : Server :=
  { server with
    program := server.program.mapIdx fun i word =>
      (e.arrays.findSome? (·.wordAt? place server.region (server.offset + i))).getD word }

def serve (server : Server) (v : Visit) : Served × Server :=
  (Session.serve server.program v.id v.ticks v.stream,
    (Session.stages server.program v.ticks v.stream).foldl (·.under v.place) server)

def serveAll (server : Server) : List Visit → List Served × Server
  | [] => ([], server)
  | v :: visits =>
    let (served, server) := server.serve v
    let (rest, server) := server.serveAll visits
    (served :: rest, server)

end Server

structure Client where
  stream : Stream
  connectionCloses : List String := []

namespace Client

def read (c : Client) (n : Nat) : Except Fault (List UInt8) × Client :=
  let (bytes, source) := c.stream.source.read n
  (bytes, { c with stream := { c.stream with source } })

def write (c : Client) (bytes : List UInt8) : (Nat × Option Fault) × Client :=
  let (r, sink) := c.stream.sink.write bytes
  (r, { c with stream := { c.stream with sink } })

def closeWrite (c : Client) : Client := { c with stream := c.stream.close }

def close (c : Client) : Client :=
  { c with connectionCloses := c.connectionCloses ++ ["0 normal close"] }

end Client

end PlatterMachine
