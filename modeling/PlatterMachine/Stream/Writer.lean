import PlatterMachine.Stream.Reader
import PlatterMachine.Stream.Sink

/-!
# Buffered writing

A writer gathers bytes and passes them to its sink when the buffer is full or flushed. After a fault
every later write or flush meets the same fault.
-/

namespace PlatterMachine

structure Writer where
  sink : Sink
  buffer : Array UInt8 := #[]
  fault : Option Fault := none

namespace Writer

def shortWrite : Fault := .plain "short write"

def flush (w : Writer) : Option Fault × Writer :=
  match w.fault with
  | some fault => (some fault, w)
  | none =>
    if w.buffer.isEmpty then (none, w)
    else
      let ((accepted, fault), sink) := w.sink.write w.buffer.toList
      let fault := fault.or (if accepted < w.buffer.size then some shortWrite else none)
      match fault with
      | some fault => (some fault, ⟨sink, w.buffer.extract accepted, some fault⟩)
      | none => (none, ⟨sink, #[], none⟩)

def writeByte (w : Writer) (b : UInt8) : Option Fault × Writer :=
  match w.fault with
  | some fault => (some fault, w)
  | none =>
    if w.buffer.size < bufferSize then (none, { w with buffer := w.buffer.push b })
    else
      match w.flush with
      | (some fault, w) => (some fault, w)
      | (none, w) => (none, { w with buffer := w.buffer.push b })

def write : List UInt8 → Writer → Option Fault × Writer
  | [], w => (w.fault, w)
  | b :: bytes, w =>
    match w.writeByte b with
    | (some fault, w) => (some fault, w)
    | (none, w) => write bytes w

end Writer

end PlatterMachine
