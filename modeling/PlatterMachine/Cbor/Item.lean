import PlatterMachine.Text.Utf8

/-!
# CBOR data items

A data item starts with a byte that holds its major type and either a small argument or the width of
the argument that follows. Strings, arrays and maps may also come in pieces up to a break.
`Item.decode` reads one well-formed item; nesting and the sizes of arrays and maps are limited.
-/

namespace PlatterMachine.Cbor

inductive Item where
  | unsigned (n : Nat)
  /-- The number `-1 - n`. -/
  | negative (n : Nat)
  | bytes (value : List UInt8)
  /-- A text, in the pieces it came in. -/
  | text (pieces : List (List UInt8))
  | array (items : List Item)
  /-- Keys and values, in turn. -/
  | map (items : List Item)
  | tagged (number : Nat) (content : Item)
  | simple (n : Nat)
  | float
  deriving Repr

inductive Major where
  | unsigned
  | negative
  | bytes
  | text
  | array
  | map
  | tagged
  | simple
  deriving DecidableEq, Repr

def Major.ofNumber (n : Nat) : Major :=
  match n with
  | 0 => unsigned
  | 1 => negative
  | 2 => bytes
  | 3 => text
  | 4 => array
  | 5 => map
  | 6 => tagged
  | _ => simple

def Major.number : Major → Nat
  | unsigned => 0
  | negative => 1
  | bytes => 2
  | text => 3
  | array => 4
  | map => 5
  | tagged => 6
  | simple => 7

structure Head where
  major : Major
  /-- The low five bits of the first byte. -/
  info : Nat
  argument : Nat

/-- The value that marks an item which comes in pieces, or their end. -/
def indefinite : Nat := 31

def breakByte : UInt8 := 0xFF

inductive Flaw where
  | malformed
  | tooManyElements
  | tooManyPairs
  | tooDeep
  | wrongType
  deriving DecidableEq, Repr

def maxElements : Nat := 131072

def maxDepth : Nat := 32

def Flaw.message : Flaw → String
  | malformed => "cbor: malformed data item"
  | tooManyElements => s!"cbor: exceeded max number of elements {maxElements} for CBOR array"
  | tooManyPairs => s!"cbor: exceeded max number of key-value pairs {maxElements} for CBOR map"
  | tooDeep => s!"cbor: exceeded max nested level {maxDepth}"
  | wrongType => "cbor: data item of an unexpected type"

def argument (width : Nat) (bytes : List UInt8) : Except Flaw (Nat × List UInt8) :=
  let digits := bytes.take width
  if digits.length < width then .error .malformed
  else .ok (digits.foldl (fun n b => 256 * n + b.toNat) 0, bytes.drop width)

def readHead : List UInt8 → Except Flaw (Head × List UInt8)
  | [] => .error .malformed
  | b :: rest =>
    let major := Major.ofNumber (b.toNat / 32)
    let info := b.toNat % 32
    if info < 24 then .ok (⟨major, info, info⟩, rest)
    else if info < 28 then do
      let (n, rest) ← argument (1 <<< (info - 24)) rest
      .ok (⟨major, info, n⟩, rest)
    else if info = indefinite ∧ major ∈ [Major.bytes, .text, .array, .map] then
      .ok (⟨major, info, 0⟩, rest)
    else .error .malformed

abbrev Reading := List UInt8 → Except Flaw (Item × List UInt8)

def readCount (read : Reading) : (n : Nat) → List UInt8 → Array Item →
    Except Flaw (List Item × List UInt8)
  | 0, bytes, items => .ok (items.toList, bytes)
  | n + 1, bytes, items =>
    match read bytes with
    | .ok (item, rest) => readCount read n rest (items.push item)
    | .error flaw => .error flaw

/-- Items up to a break, at most `limit` of them; every item takes a byte of `fuel`. -/
def readToBreak (read : Reading) (limit : Nat) (excess : Flaw) : (fuel : Nat) → List UInt8 →
    Array Item → Except Flaw (List Item × List UInt8)
  | 0, _, _ => .error .malformed
  | _, [], _ => .error .malformed
  | fuel + 1, b :: rest, items =>
    if b = breakByte then .ok (items.toList, rest)
    else
      match read (b :: rest) with
      | .ok (item, rest) =>
        if items.size < limit then readToBreak read limit excess fuel rest (items.push item)
        else .error excess
      | .error flaw => .error flaw

def readString (length : Nat) (bytes : List UInt8) : Except Flaw (List UInt8 × List UInt8) :=
  let value := bytes.take length
  if value.length < length then .error .malformed else .ok (value, bytes.drop length)

def readPieces (major : Major) : (fuel : Nat) → List UInt8 → Array (List UInt8) →
    Except Flaw (List (List UInt8) × List UInt8)
  | 0, _, _ => .error .malformed
  | _, [], _ => .error .malformed
  | fuel + 1, b :: rest, pieces =>
    if b = breakByte then .ok (pieces.toList, rest)
    else
      match readHead (b :: rest) with
      | .ok (h, rest) =>
        if h.major = major ∧ h.info ≠ indefinite then
          match readString h.argument rest with
          | .ok (value, rest) => readPieces major fuel rest (pieces.push value)
          | .error flaw => .error flaw
        else .error .malformed
      | .error flaw => .error flaw

def stringPieces (h : Head) (bytes : List UInt8) :
    Except Flaw (List (List UInt8) × List UInt8) := do
  if h.info = indefinite then readPieces h.major (bytes.length + 1) bytes #[]
  else
    let (value, rest) ← readString h.argument bytes
    .ok ([value], rest)

def readElements (inner : Option Reading) (h : Head) (per : Nat) (excess : Flaw)
    (bytes : List UInt8) : Except Flaw (List Item × List UInt8) :=
  match inner with
  | none => .error .tooDeep
  | some read =>
    if h.info = indefinite then do
      let (items, rest) ←
        readToBreak read (per * maxElements) excess (bytes.length + 1) bytes #[]
      if items.length % per = 0 then .ok (items, rest) else .error .malformed
    else if maxElements < h.argument then .error excess
    else readCount read (per * h.argument) bytes #[]

/-- An item behind its head; nested items are read by `inner`, if there may be any. -/
def readBody (inner : Option Reading) (h : Head) (bytes : List UInt8) :
    Except Flaw (Item × List UInt8) :=
  match h.major with
  | .unsigned => .ok (.unsigned h.argument, bytes)
  | .negative => .ok (.negative h.argument, bytes)
  | .bytes => do
    let (pieces, rest) ← stringPieces h bytes
    .ok (.bytes pieces.flatten, rest)
  | .text => do
    let (pieces, rest) ← stringPieces h bytes
    .ok (.text pieces, rest)
  | .array => do
    let (items, rest) ← readElements inner h 1 .tooManyElements bytes
    .ok (.array items, rest)
  | .map => do
    let (items, rest) ← readElements inner h 2 .tooManyPairs bytes
    .ok (.map items, rest)
  | .simple =>
    if h.info = 24 ∧ h.argument < 32 then .error .malformed
    else if 25 ≤ h.info then .ok (.float, bytes)
    else .ok (.simple h.argument, bytes)
  | .tagged => .error .malformed

/-- An item that may be tagged. The first of several tags around one item does not count as a level
of nesting. -/
def readTagged (inner : Option Reading) (bytes : List UInt8) :
    Except Flaw (Item × List UInt8) := do
  let (h, rest) ← readHead bytes
  if h.major = .tagged then
    let (h', rest') ← readHead rest
    let (item, rest) ←
      if h'.major = .tagged then
        match inner with
        | some read => read rest
        | none => .error .tooDeep
      else readBody inner h' rest'
    .ok (.tagged h.argument item, rest)
  else readBody inner h rest

/-- One item with at most `depth` levels of nesting. -/
def readDepth : (depth : Nat) → Reading
  | 0 => readTagged none
  | depth + 1 => readTagged (some (readDepth depth))

/-- The only item in `bytes`. -/
def Item.decode (bytes : List UInt8) : Except Flaw Item := do
  let (item, rest) ← readDepth maxDepth bytes
  if rest.isEmpty then .ok item else .error .malformed

def bigEndian : (width n : Nat) → List UInt8
  | 0, _ => []
  | width + 1, n => UInt8.ofNat (n >>> (8 * width)) :: bigEndian width n

def encodeHead (major : Major) (n : Nat) : List UInt8 :=
  let start := fun info => UInt8.ofNat (32 * major.number + info)
  if n < 24 then [start n]
  else if n < 0x100 then start 24 :: bigEndian 1 n
  else if n < 0x10000 then start 25 :: bigEndian 2 n
  else if n < 0x100000000 then start 26 :: bigEndian 4 n
  else start 27 :: bigEndian 8 n

def encodeInt (n : Int) : List UInt8 :=
  if 0 ≤ n then encodeHead .unsigned n.toNat else encodeHead .negative (-1 - n).toNat

def encodeBytes (value : List UInt8) : List UInt8 := encodeHead .bytes value.length ++ value

def encodeArray (items : List (List UInt8)) : List UInt8 :=
  encodeHead .array items.length ++ items.flatten

def encodeNull : List UInt8 := encodeHead .simple 22

end PlatterMachine.Cbor
