import PlatterMachine.Text.Basic

/-!
# Network addresses in numbers

The texts of addresses of four bytes, such as `10.0.0.1`, and of sixteen, such as `fe80::1%eth0`,
and masks, which tell how many bits of an address matter.
-/

namespace PlatterMachine.IpAddress

/-- A byte in decimal digits, without leading zeros. -/
def isByte (cs : List Char) : Bool :=
  cs.all Char.isDigit && 1 ≤ cs.length && cs.length ≤ 3 &&
    (cs.length = 1 || cs.head? ≠ some '0') &&
    cs.foldl (fun n c => 10 * n + (c.toNat - 48)) 0 ≤ 255

def isV4 (cs : List Char) : Bool :=
  let fields := Fields.split '.' cs
  fields.length = 4 && fields.all isByte

def isGroup (cs : List Char) : Bool :=
  1 ≤ cs.length && cs.length ≤ 4 && cs.all fun c => (Hex.value? c).isSome

/-- How many groups of sixteen bits the fields make; the last may be an address of four bytes. -/
def groups? : List (List Char) → Option Nat
  | [] => some 0
  | [field] => if isGroup field then some 1 else if isV4 field then some 2 else none
  | field :: fields => if isGroup field then (groups? fields).map (· + 1) else none

def cutEllipsis? : List Char → Option (List Char × List Char)
  | ':' :: ':' :: behind => some ([], behind)
  | c :: cs => (cutEllipsis? cs).map fun (before, behind) => (c :: before, behind)
  | [] => none

/-- The fields between colons, of which an empty text has none. -/
def colonFields (cs : List Char) : List (List Char) :=
  if cs.isEmpty then [] else Fields.split ':' cs

/-- Eight groups between colons. Two colons in a row stand, once, for a group of zeros or more. -/
def isV6 (cs : List Char) : Bool :=
  match cutEllipsis? cs with
  | none => groups? (colonFields cs) = some 8
  | some (before, behind) =>
    (colonFields before).all isGroup &&
      (groups? (colonFields behind)).any fun n => (colonFields before).length + n ≤ 7

/-- An address of sixteen bytes, perhaps with a zone behind a percent sign. -/
def isScopedV6 (cs : List Char) : Bool :=
  match Fields.cut? '%' cs with
  | none => isV6 cs
  | some (address, zone) => !zone.isEmpty && isV6 address

def isMappedV4 (bytes : List UInt8) : Bool :=
  bytes.length = 16 && bytes.take 12 = List.replicate 10 0 ++ [0xFF, 0xFF]

def isMask (bytes : List UInt8) : Bool :=
  match bytes.dropWhile (· = 0xFF) with
  | [] => true
  | b :: rest => [0, 0x80, 0xC0, 0xE0, 0xF0, 0xF8, 0xFC, 0xFE].contains b && rest.all (· = 0)

end PlatterMachine.IpAddress
