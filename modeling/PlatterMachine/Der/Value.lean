import PlatterMachine.Calendar
import PlatterMachine.Der.Element
import PlatterMachine.Text.Utf8

/-!
# Times, texts, names and algorithms in DER
-/

namespace PlatterMachine.Der

def digits (count : Nat) (cs : List UInt8) : Option (Nat × List UInt8) :=
  let ds := cs.take count
  if ds.length = count ∧ ds.all (fun d => 0x30 ≤ d && d ≤ 0x39) then
    some (ds.foldl (fun n d => 10 * n + (d.toNat - 0x30)) 0, cs.drop count)
  else none

/-- Two digits of at most `most`. -/
def pair (most : Nat) (cs : List UInt8) : Option (Nat × List UInt8) := do
  let (n, rest) ← digits 2 cs
  guard (n ≤ most)
  some (n, rest)

/-- The zone at the end of a time: a `Z`, or a distance from it in hours and minutes. -/
def isZone (cs : List UInt8) : Bool :=
  match cs with
  | [0x5A] => true
  | sign :: cs =>
    match digits 4 cs with
    | some (n, []) =>
      (sign = 0x2B || sign = 0x2D) && 0 < n && n / 100 ≤ 24 && n % 100 < 60
    | _ => false
  | [] => false

/-- Seconds and the zone; where seconds may be missing, `short` is set. -/
def isRestOfMoment (short : Bool) (cs : List UInt8) : Bool :=
  (short && isZone cs) || (pair 59 cs).any fun (_, rest) => isZone rest

def isMoment (short : Bool) (year : Nat) (cs : List UInt8) : Bool :=
  (do
    let (month, rest) ← pair 12 cs
    let (day, rest) ← pair 31 rest
    guard (1 ≤ month && 1 ≤ day && day ≤ Calendar.daysIn year month)
    let (_, rest) ← pair 23 rest
    let (_, rest) ← pair 59 rest
    guard (isRestOfMoment short rest)).isSome

/-- A time with two digits for the year, which from 69 on are of the last century. -/
def isUtcTime (contents : List UInt8) : Bool :=
  (digits 2 contents).any fun (n, cs) =>
    isMoment true (if 69 ≤ n then 1900 + n else 2000 + n) cs

def isGeneralizedTime (contents : List UInt8) : Bool :=
  (digits 4 contents).any fun (n, cs) => isMoment false n cs

def utcTimeTag : UInt8 := 0x17

def generalizedTimeTag : UInt8 := 0x18

def time : Reading Unit := fun bytes => do
  let (e, rest) ← element bytes
  guard ((e.tag = utcTimeTag && isUtcTime e.contents) ||
    (e.tag = generalizedTimeTag && isGeneralizedTime e.contents))
  some ((), rest)

/-- Characters that are written in a printable text, with two that are not but occur. -/
def isPrintable (b : UInt8) : Bool :=
  let n := b.toNat
  (0x61 ≤ n && n ≤ 0x7A) || (0x41 ≤ n && n ≤ 0x5A) || (0x30 ≤ n && n ≤ 0x39) ||
    (0x27 ≤ n && n ≤ 0x29) || (0x2B ≤ n && n ≤ 0x2F) ||
    [0x20, 0x3A, 0x3D, 0x3F, 0x2A, 0x26].contains n

def isNumeric (b : UInt8) : Bool := (0x30 ≤ b && b ≤ 0x39) || b = 0x20

def isAscii (b : UInt8) : Bool := b < 0x80

def isWide : List UInt8 → Bool
  | [] => true
  | [_] => false
  | a :: b :: rest =>
    let n := 256 * a.toNat + b.toNat
    n < 0xFFFE && !(0xFDD0 ≤ n && n ≤ 0xFDEF) && !(0xD800 ≤ n && n ≤ 0xDFFF) && isWide rest

/-- Whether the contents of an element, which may be any, are as its tag says. Nothing is asked of
those of unknown kinds. -/
def isAny (e : Element) : Bool :=
  match e.tag.toNat with
  | 0x01 => (booleanOf e.contents).isSome
  | 0x02 => (integerOf e.contents).any fitsInt64
  | 0x03 => (bitsOf e.contents).isSome
  | 0x06 => (objectIdOf e.contents).isSome
  | 0x0C => Utf8.isValid e.contents.length e.contents
  | 0x12 => e.contents.all isNumeric
  | 0x13 => e.contents.all isPrintable
  | 0x16 => e.contents.all isAscii
  | 0x17 => isUtcTime e.contents
  | 0x18 => isGeneralizedTime e.contents
  | 0x1E => isWide e.contents
  | _ => true

/-- One attribute of a name: what it says and a value, in general a text. -/
def nameAttribute : Reading Unit := fun bytes => do
  let (body, rest) ← sequence bytes
  let (_, body) ← objectId body
  let (value, _) ← element body
  guard (isAny value)
  some ((), rest)

def name : Reading Unit := fun bytes => do
  let (_, rest) ← sequenceOf (fun bytes => do
    let (body, rest) ← set bytes
    let _ ← all nameAttribute body
    some ((), rest)) bytes
  some ((), rest)

def algorithm (body : List UInt8) : Option (List Nat × Option Element) := do
  let (id, rest) ← objectId body
  if rest.isEmpty then some (id, none)
  else
    let (e, _) ← element rest
    some (id, some e)

end PlatterMachine.Der
