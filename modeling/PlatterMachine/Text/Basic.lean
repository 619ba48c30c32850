/-!
# Fields and hexadecimal digits

A text is taken apart at a separator, either at every one or at the first or last only. Numbers are
written in upper-case hexadecimal digits, padded with zeros to a least width; byte strings are
written in lower case, two digits a byte, and read back in either case.
-/

namespace PlatterMachine.Fields

/-- What stands between separators; one field more than there are separators. -/
def split (separator : Char) : List Char → List (List Char)
  | [] => [[]]
  | c :: cs =>
    if c = separator then [] :: split separator cs
    else
      match split separator cs with
      | [] => [[c]]
      | field :: fields => (c :: field) :: fields

def cut? (separator : Char) (cs : List Char) : Option (List Char × List Char) :=
  match cs.dropWhile (· ≠ separator) with
  | [] => none
  | _ :: behind => some (cs.takeWhile (· ≠ separator), behind)

def cutLast? (separator : Char) (cs : List Char) : Option (List Char × List Char) :=
  (cut? separator cs.reverse).map fun (behind, before) => (before.reverse, behind.reverse)

def before (separator : Char) (cs : List Char) : List Char := cs.takeWhile (· ≠ separator)

end PlatterMachine.Fields

namespace PlatterMachine.Hex

/-- `n` in upper-case digits, at least `width` of them. -/
def number (width n : Nat) : String :=
  let digits := (Nat.toDigits 16 n).map Char.toUpper
  String.ofList (List.replicate (width - digits.length) '0' ++ digits)

def digit (n : Nat) : Char :=
  if n < 10 then Char.ofNat (48 + n) else Char.ofNat (87 + n)

def ofBytes (bytes : List UInt8) : String :=
  String.ofList (bytes.flatMap fun b => [digit (b.toNat / 16), digit (b.toNat % 16)])

def value? (c : Char) : Option Nat :=
  if '0' ≤ c ∧ c ≤ '9' then some (c.toNat - 48)
  else if 'a' ≤ c ∧ c ≤ 'f' then some (c.toNat - 87)
  else if 'A' ≤ c ∧ c ≤ 'F' then some (c.toNat - 55)
  else none

def pairs? (read : Array UInt8) : List Char → Option (Array UInt8)
  | [] => some read
  | [_] => none
  | hi :: lo :: rest =>
    match value? hi, value? lo with
    | some h, some l => pairs? (read.push (UInt8.ofNat (16 * h + l))) rest
    | _, _ => none

def toBytes? (text : String) : Option (List UInt8) :=
  (pairs? #[] text.toList).map Array.toList

end PlatterMachine.Hex
