import PlatterMachine.Fault

/-!
# Byte sources

A source delivers bytes in segments. One read takes from one segment at most what was asked for; a
segment may also report a fault, such as an end of input that later reads get past, or nothing at
all, and may cancel the run that reads it. A source that has run out reports the end of input.
-/

namespace PlatterMachine

inductive Segment where
  | data (bytes : List UInt8)
  | fault (fault : Fault)
  /-- That many reads without bytes or fault. -/
  | idle (count : Nat)
  | cancel
  deriving DecidableEq, Repr

structure Source where
  segments : List Segment
  cancelled : Bool := false

namespace Source

def ofBytes (bytes : List UInt8) : Source := ⟨[.data bytes], false⟩

def feed (s : Source) (segments : List Segment) : Source :=
  { s with segments := s.segments ++ segments }

def readSegments (n : Nat) (cancelled : Bool) : List Segment → Except Fault (List UInt8) × Source
  | [] => (.error .endOfInput, ⟨[], cancelled⟩)
  | .data [] :: rest => readSegments n cancelled rest
  | .data (b :: bs) :: rest =>
    let bytes := b :: bs
    match bytes.drop n with
    | [] => (.ok bytes, ⟨rest, cancelled⟩)
    | left => (.ok (bytes.take n), ⟨.data left :: rest, cancelled⟩)
  | .fault fault :: rest => (.error fault, ⟨rest, cancelled⟩)
  | .idle 0 :: rest => readSegments n cancelled rest
  | .idle (k + 1) :: rest =>
    (.ok [], ⟨if k = 0 then rest else .idle k :: rest, cancelled⟩)
  | .cancel :: rest => readSegments n true rest

/-- One read of at most `n` bytes. -/
def read (s : Source) (n : Nat) : Except Fault (List UInt8) × Source :=
  readSegments n s.cancelled s.segments

def awaitSegments (n : Nat) (cancelled : Bool) :
    List Segment → Except Fault (List UInt8) × Source
  | .idle _ :: rest => awaitSegments n cancelled rest
  | .cancel :: rest => awaitSegments n true rest
  | .data [] :: rest => awaitSegments n cancelled rest
  | segments => readSegments n cancelled segments

/-- Reads of at most `n` bytes until one brings bytes or a fault. -/
def await (s : Source) (n : Nat) : Except Fault (List UInt8) × Source :=
  awaitSegments n s.cancelled s.segments

end Source

end PlatterMachine
