import PlatterMachine.Calendar
import PlatterMachine.Text.Basic

/-!
# Numbers, dates and times in TOML

Only whether such a value is well formed matters here. A scan takes the longest run of characters
that may belong to the value, checks it, and leaves the rest.
-/

namespace PlatterMachine.Toml

def isHexDigit (c : Char) : Bool := c.isDigit || ('a' ≤ c && c ≤ 'f') || ('A' ≤ c && c ≤ 'F')

def digitValue (c : Char) : Nat :=
  if c.isDigit then c.toNat - 48 else if c.isLower then c.toNat - 87 else c.toNat - 55

def natOf (base : Nat) (digits : List Char) : Nat :=
  digits.foldl (fun n c => base * n + digitValue c) 0

/-- Whether every underscore stands between digits; `accept` says that a digit stands before. -/
def underscoresFit (accept : Bool) : List Char → Bool
  | [] => accept
  | c :: cs =>
    if c = '_' then accept && underscoresFit false cs else underscoresFit (isHexDigit c) cs

def isSign (c : Char) : Bool := c = '+' || c = '-'

def hasLeadingZero : List Char → Bool
  | '0' :: c :: _ => !(c = 'b' || c = 'o' || c = 'x')
  | s :: '0' :: _ :: _ => isSign s
  | _ => false

/-- Splits off a sign; a number without one is not negative. -/
def splitSign : List Char → Bool × List Char
  | c :: cs => if isSign c then (c = '-', cs) else (false, c :: cs)
  | [] => (false, [])

/-- An integer is written without leading zeros and fits 64 bits. -/
def isInteger (lexeme : List Char) : Bool :=
  let (negative, body) := splitSign lexeme
  let digits := body.filter (· ≠ '_')
  let n :=
    match digits with
    | '0' :: 'x' :: ds => natOf 16 ds
    | '0' :: 'o' :: ds => natOf 8 ds
    | '0' :: 'b' :: ds => natOf 2 ds
    | ds => natOf 10 ds
  underscoresFit false lexeme && !hasLeadingZero lexeme &&
    if negative then n ≤ 0x8000000000000000 else n < 0x8000000000000000

def isPoint (c : Char) : Bool := c = '.' || c = 'e' || c = 'E'

/-- The least number that is too large to be rounded to a double. -/
def overflow : Nat := 1 <<< 1024 - 1 <<< 970

def fitsDouble (mantissa : Nat) (exponent : Int) : Bool :=
  let magnitude := (Nat.toDigits 10 mantissa).length + exponent
  mantissa = 0 || magnitude < 300 ||
    (magnitude < 320 &&
      if 0 ≤ exponent then mantissa * Nat.pow 10 exponent.toNat < overflow
      else mantissa < overflow * Nat.pow 10 (-exponent).toNat)

/-- The exponent that digits give; those behind five figures do not count. -/
def exponentOf (digits : List Char) : Nat :=
  digits.foldl (fun n c => if n < 10000 then 10 * n + digitValue c else n) 0

def isDecimal (body : List Char) : Bool :=
  let whole := body.takeWhile Char.isDigit
  let rest := body.dropWhile Char.isDigit
  let (fraction, rest) :=
    match rest with
    | '.' :: cs => (cs.takeWhile Char.isDigit, cs.dropWhile Char.isDigit)
    | cs => ([], cs)
  let (exponent, rest, complete) : Int × List Char × Bool :=
    match rest with
    | c :: cs =>
      if c = 'e' || c = 'E' then
        let (negative, cs) := splitSign cs
        let digits := cs.takeWhile Char.isDigit
        let n : Int := exponentOf digits
        (if negative then -n else n, cs.dropWhile Char.isDigit, !digits.isEmpty)
      else (0, c :: cs, true)
    | [] => (0, [], true)
  !whole.isEmpty && rest.isEmpty && complete &&
    fitsDouble (natOf 10 (whole ++ fraction)) (exponent - fraction.length)

def pointsFit : List Char → Bool
  | '.' :: c :: cs => c.isDigit && pointsFit cs
  | ['.'] => false
  | _ :: cs => pointsFit cs
  | [] => true

def isFloat (lexeme : List Char) : Bool :=
  let parts := (lexeme.splitOnP isPoint).filter (!·.isEmpty)
  parts.all (underscoresFit false) && !(parts.head?.any hasLeadingZero) && pointsFit lexeme &&
    isDecimal (splitSign (lexeme.filter (· ≠ '_'))).2

/-- Two digits with a value of at most `most`. -/
def twoDigits (most : Nat) : List Char → Option (Nat × List Char)
  | a :: b :: rest =>
    if a.isDigit && b.isDigit && natOf 10 [a, b] ≤ most then some (natOf 10 [a, b], rest) else none
  | _ => none

def skipChar (c : Char) : List Char → Option (List Char)
  | d :: rest => if d = c then some rest else none
  | [] => none

def skipDate (cs : List Char) : Option (List Char) := do
  let year := cs.take 4
  if year.length < 4 || !year.all Char.isDigit then none
  let (month, rest) ← twoDigits 12 (← skipChar '-' (cs.drop 4))
  let (day, rest) ← twoDigits 31 (← skipChar '-' rest)
  if 1 ≤ month ∧ 1 ≤ day ∧ day ≤ Calendar.daysIn (natOf 10 year) month then some rest else none

/-- Takes a time of day, with or without seconds, and gives the rest. -/
def skipTime (cs : List Char) : Option (List Char) := do
  let (_, rest) ← twoDigits 23 cs
  let (_, rest) ← twoDigits 59 (← skipChar ':' rest)
  match rest with
  | ':' :: rest =>
    let (_, rest) ← twoDigits 59 rest
    match rest with
    | '.' :: c :: rest =>
      if c.isDigit then some (rest.dropWhile Char.isDigit) else none
    | rest => some rest
  | rest => some rest

def skipOffset : List Char → Option (List Char)
  | 'Z' :: rest => some rest
  | s :: rest => do
    if !isSign s then none
    let (_, rest) ← twoDigits 24 rest
    let (_, rest) ← twoDigits 60 (← skipChar ':' rest)
    some rest
  | [] => none

/-- A date, a time, or both with or without an offset. -/
def isDatetime (lexeme : List Char) : Bool :=
  let cs := lexeme.map fun c => if c = 'z' then 'Z' else if c = 't' ∨ c = ' ' then 'T' else c
  match skipDate cs with
  | none => skipTime cs == some []
  | some [] => true
  | some ('T' :: rest) =>
    match skipTime rest with
    | none => false
    | some [] => true
    | some rest => skipOffset rest == some []
  | some _ => false

def isDatetimeChar (c : Char) : Bool :=
  c.isDigit || c ∈ ['-', ':', 'T', 't', ' ', '.', 'Z', 'z', '+']

def isFloatChar (c : Char) : Bool := c.isDigit || isPoint c || isSign c || c = '_'

def trimRight (cs : List Char) : List Char := (cs.reverse.dropWhile (· = ' ')).reverse

def skipDecimal (scanned cs : List Char) : Option (List Char) :=
  let part := fun c : Char => c.isDigit || c = '_'
  let body := scanned ++ cs.takeWhile part
  let rest := cs.dropWhile part
  if rest.head?.any isPoint then
    if isFloat (body ++ rest.takeWhile isFloatChar) then some (rest.dropWhile isFloatChar) else none
  else if isInteger body then some rest
  else none

def skipBased (mark : List Char) (isBaseDigit : Char → Bool) (cs : List Char) :
    Option (List Char) :=
  let part := fun c => isBaseDigit c || c = '_'
  if cs.head?.any isBaseDigit && isInteger (mark ++ cs.takeWhile part) then
    some (cs.dropWhile part)
  else none

def skipNumber : List Char → Option (List Char)
  | '0' :: 'x' :: cs => skipBased ['0', 'x'] isHexDigit cs
  | '0' :: 'o' :: cs => skipBased ['0', 'o'] (fun c => c.isDigit && c < '8') cs
  | '0' :: 'b' :: cs => skipBased ['0', 'b'] (fun c => c = '0' || c = '1') cs
  | 'i' :: 'n' :: 'f' :: cs => some cs
  | 'n' :: 'a' :: 'n' :: cs => some cs
  | c :: cs =>
    if isSign c then
      match cs with
      | 'i' :: 'n' :: 'f' :: rest => some rest
      | 'n' :: 'a' :: 'n' :: rest => some rest
      | '0' :: 'x' :: _ | '0' :: 'o' :: _ | '0' :: 'b' :: _ => none
      | d :: _ => if d.isDigit then skipDecimal [c] cs else none
      | [] => none
    else if c.isDigit then
      match (c :: cs).dropWhile Char.isDigit with
      | d :: _ =>
        if d = '-' || d = ':' then
          if isDatetime (trimRight ((c :: cs).takeWhile isDatetimeChar)) then
            some ((c :: cs).dropWhile isDatetimeChar)
          else none
        else skipDecimal [] (c :: cs)
      | [] => skipDecimal [] (c :: cs)
    else none
  | [] => none

end PlatterMachine.Toml
