/-!
# DER elements

An element is a tag, a length in the fewest bytes, and contents. The readings here take one element
off the front of a byte string and fail unless its contents have their only form.
-/

namespace PlatterMachine.Der

abbrev Reading (α : Type) := List UInt8 → Option (α × List UInt8)

/-- A length of at most four bytes. -/
def length : Reading Nat
  | [] => none
  | b :: rest =>
    if b < 0x80 then some (b.toNat, rest)
    else
      let count := b.toNat - 0x80
      let digits := rest.take count
      let n := digits.foldl (fun n d => 256 * n + d.toNat) 0
      if count = 0 ∨ 4 < count ∨ digits.length < count then none
      else if n < 0x80 ∨ n < 1 <<< (8 * (count - 1)) then none
      else some (n, rest.drop count)

structure Element where
  tag : UInt8
  contents : List UInt8
  deriving DecidableEq, Repr

/-- An element of any kind, but that its tag has a byte only. -/
def element : Reading Element
  | [] => none
  | tag :: rest =>
    if tag &&& 0x1F = 0x1F then none
    else
      match length rest with
      | none => none
      | some (n, rest) =>
        if rest.length < n then none else some (⟨tag, rest.take n⟩, rest.drop n)

def startsWith (tag : UInt8) (bytes : List UInt8) : Bool := bytes.head? = some tag

def tagged (tag : UInt8) : Reading (List UInt8) := fun bytes =>
  if startsWith tag bytes then (element bytes).map fun (e, rest) => (e.contents, rest) else none

/-- An element that may be missing, which its tag decides. -/
def optional {α : Type} (tag : UInt8) (read : Reading α) : Reading (Option α) := fun bytes =>
  if startsWith tag bytes then (read bytes).map fun (a, rest) => (some a, rest)
  else some (none, bytes)

/-- As many elements as there are; every one takes a byte of `fuel`. -/
def many {α : Type} (read : Reading α) : (fuel : Nat) → List UInt8 → Option (List α)
  | _, [] => some []
  | 0, _ => none
  | fuel + 1, bytes =>
    match read bytes with
    | none => none
    | some (a, rest) => (many read fuel rest).map (a :: ·)

def all {α : Type} (read : Reading α) (bytes : List UInt8) : Option (List α) :=
  many read bytes.length bytes

def booleanTag : UInt8 := 0x01

def integerTag : UInt8 := 0x02

def bitStringTag : UInt8 := 0x03

def octetStringTag : UInt8 := 0x04

def nullTag : UInt8 := 0x05

def objectIdTag : UInt8 := 0x06

def sequenceTag : UInt8 := 0x30

def sequence : Reading (List UInt8) := tagged sequenceTag

def set : Reading (List UInt8) := tagged 0x31

def octetString : Reading (List UInt8) := tagged octetStringTag

def sequenceOf {α : Type} (read : Reading α) : Reading (List α) := fun bytes => do
  let (body, rest) ← sequence bytes
  some (← all read body, rest)

def taggedAs {α : Type} (tag : UInt8) (meaning : List UInt8 → Option α) : Reading α := fun bytes =>
  do
    let (contents, rest) ← tagged tag bytes
    some (← meaning contents, rest)

def booleanOf : List UInt8 → Option Bool
  | [0] => some false
  | [0xFF] => some true
  | _ => none

def boolean : Reading Bool := taggedAs booleanTag booleanOf

def isMinimal : List UInt8 → Bool
  | [] => false
  | [_] => true
  | a :: b :: _ => !((a = 0 && b < 0x80) || (a = 0xFF && 0x80 ≤ b))

def integerOf (contents : List UInt8) : Option Int := do
  guard (isMinimal contents)
  let n : Int := contents.foldl (fun n b => 256 * n + b.toNat) 0
  let negative := contents.head?.any (0x80 ≤ ·)
  some (if negative then n - Nat.pow 256 contents.length else n)

def integerAs (tag : UInt8) : Reading Int := taggedAs tag integerOf

def integer : Reading Int := integerAs integerTag

def fitsInt64 (n : Int) : Bool := -0x8000000000000000 ≤ n && n < 0x8000000000000000

/-- The bits of a bit string, moved to the end of its bytes. Its last byte is filled up with
zeros, of which the first byte tells the number. -/
def bitsOf : List UInt8 → Option (List UInt8)
  | [] => none
  | padding :: bytes => do
    let filled := (bytes.getLast?.map UInt8.toNat).getD 1
    guard (padding ≤ 7 && filled % (1 <<< padding.toNat) = 0)
    some (List.zipWith (fun a b => UInt8.ofNat ((256 * a.toNat + b.toNat) >>> padding.toNat))
      (0 :: bytes) bytes)

def bitString : Reading (List UInt8) := taggedAs bitStringTag bitsOf

/-- Numbers in seven bits a byte, each within 31 bits and without leading zeros. -/
def subidentifiers (count n : Nat) : List UInt8 → Option (List Nat)
  | [] => if count = 0 then some [] else none
  | b :: rest =>
    if count = 5 ∨ 0x1000000 ≤ n ∨ (count = 0 ∧ b = 0x80) then none
    else
      let n := 128 * n + b.toNat % 128
      if b < 0x80 then (subidentifiers 0 0 rest).map (n :: ·) else subidentifiers (count + 1) n rest

/-- The numbers of an object identifier; the first two are given as one. -/
def objectIdOf (contents : List UInt8) : Option (List Nat) := do
  match ← subidentifiers 0 0 contents with
  | [] => none
  | n :: ns => some ((if n < 80 then [n / 40, n % 40] else [2, n - 80]) ++ ns)

def objectId : Reading (List Nat) := taggedAs objectIdTag objectIdOf

end PlatterMachine.Der
