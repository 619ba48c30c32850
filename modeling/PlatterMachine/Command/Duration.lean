/-!
# Durations

A duration is written as numbers with units, such as `1m30s`, behind an optional sign. Its value is
a number of nanoseconds that fits 64 bits.
-/

namespace PlatterMachine.Duration

def unit? (name : String) : Option UInt64 :=
  match name with
  | "ns" => some 1
  | "us" | "µs" | "μs" => some 1000
  | "ms" => some 1000000
  | "s" => some 1000000000
  | "m" => some 60000000000
  | "h" => some 3600000000000
  | _ => none

def limit : UInt64 := 0x8000000000000000

def digit (c : Char) : UInt64 := UInt64.ofNat (c.toNat - 48)

def whole? (n : UInt64) : List Char → Option UInt64
  | [] => some n
  | c :: cs =>
    if limit / 10 < n then none
    else
      let next := 10 * n + digit c
      if limit < next then none else whole? next cs

/-- The digits behind a point, as a number and a power of ten to divide it by. Digits from the first
on that takes the number past the limit are dropped. -/
def fraction (n : UInt64) (scale : Float) : List Char → UInt64 × Float
  | [] => (n, scale)
  | c :: cs =>
    if (limit - 1) / 10 < n then (n, scale)
    else
      let next := 10 * n + digit c
      if limit < next then (n, scale) else fraction next (10 * scale) cs

/-- Nanoseconds in so many units. The part behind the point is computed in floating point and cut
off to a whole number. -/
def part? (whole : List Char) (behind : List Char) (unit : UInt64) : Option UInt64 := do
  let n ← whole? 0 whole
  guard (n ≤ limit / unit)
  let (f, scale) := fraction 0 1 behind
  if f = 0 then some (n * unit)
  else
    let value := n * unit + (f.toFloat * (unit.toFloat / scale)).toUInt64
    if limit < value then none else some value

def isUnitChar (c : Char) : Bool := !(c.isDigit || c = '.')

/-- Adds up numbers with units; every one takes characters of `fuel`. Two parts at the limit make a
sum of nothing in 64 bits, which is let pass. -/
def sum (total : UInt64) : (fuel : Nat) → List Char → Option UInt64
  | _, [] => some total
  | 0, _ => none
  | fuel + 1, cs =>
    let whole := cs.takeWhile Char.isDigit
    let rest := cs.dropWhile Char.isDigit
    let (behind, rest) :=
      match rest with
      | '.' :: rest => (rest.takeWhile Char.isDigit, rest.dropWhile Char.isDigit)
      | rest => ([], rest)
    if whole.isEmpty && behind.isEmpty then none
    else
      match unit? (String.ofList (rest.takeWhile isUnitChar)) with
      | none => none
      | some unit =>
        match part? whole behind unit with
        | none => none
        | some value =>
          if limit < total + value then none
          else sum (total + value) fuel (rest.dropWhile isUnitChar)

def parse? (text : String) : Option Int :=
  let (negative, cs) :=
    match text.toList with
    | '-' :: cs => (true, cs)
    | '+' :: cs => (false, cs)
    | cs => (false, cs)
  if cs.isEmpty then none
  else if cs = ['0'] then some 0
  else
    match sum 0 cs.length cs with
    | none => none
    | some n => if negative then some (-n.toNat) else if n < limit then some n.toNat else none

end PlatterMachine.Duration
