import PlatterMachine.Stream.Source

/-!
# Buffered reading

A reader fills a buffer from its source when the buffer is empty and hands bytes out from it.
-/

namespace PlatterMachine

def bufferSize : Nat := 4096

/-- Reads without bytes or fault after which filling a buffer gives up. -/
def maxIdleReads : Nat := 100

def noProgress : Fault := .plain "multiple Read calls return no data or error"

structure Reader where
  source : Source
  buffer : List UInt8 := []

namespace Reader

/-- Reads until there is a byte, at most `tries` times. -/
def fill : (tries : Nat) → Source → Except Fault (List UInt8) × Source
  | 0, s => (.error noProgress, s)
  | tries + 1, s =>
    match s.read bufferSize with
    | (.ok [], s) => fill tries s
    | r => r

def readByte (r : Reader) : Except Fault UInt8 × Reader :=
  match r.buffer with
  | b :: rest => (.ok b, { r with buffer := rest })
  | [] =>
    match fill maxIdleReads r.source with
    | (.ok (b :: rest), s) => (.ok b, ⟨s, rest⟩)
    | (.ok [], s) => (.error noProgress, ⟨s, []⟩)
    | (.error fault, s) => (.error fault, ⟨s, []⟩)

/-- The next byte, however many reads without bytes come before it. -/
def awaitByte (r : Reader) : Except Fault UInt8 × Reader :=
  match r.buffer with
  | b :: rest => (.ok b, { r with buffer := rest })
  | [] =>
    match r.source.await bufferSize with
    | (.ok (b :: rest), s) => (.ok b, ⟨s, rest⟩)
    | (.ok [], s) => (.error noProgress, ⟨s, []⟩)
    | (.error fault, s) => (.error fault, ⟨s, []⟩)

/-- Exactly `n` bytes. Input that ends behind the first of them has ended unexpectedly. -/
def readFull : (n : Nat) → Reader → Except Fault (List UInt8) × Reader
  | 0, r => (.ok [], r)
  | n + 1, r =>
    match r.awaitByte with
    | (.error fault, r) => (.error fault, r)
    | (.ok b, r) =>
      match readFull n r with
      | (.error fault, r) => (.error fault.midway, r)
      | (.ok bytes, r) => (.ok (b :: bytes), r)

end Reader

end PlatterMachine
