import PlatterMachine.Toml.Scalar

/-!
# Texts and keys in TOML

Texts stand between double quotes, where a backslash starts an escape sequence, or between single
quotes, where it does not. Three quotes enclose a text of several lines; such a text may end in up
to two further quotes.
-/

namespace PlatterMachine.Toml

def doubleQuote : Char := '\x22'

def singleQuote : Char := '\x27'

def isBlank (c : Char) : Bool := c = ' ' || c = '\t'

def isLineEnd (c : Char) : Bool := c = '\n' || c = '\r'

def skipBlanks (cs : List Char) : List Char := cs.dropWhile isBlank

def isBareKeyChar (c : Char) : Bool := c.isAlphanum || c = '_' || c = '-'

abbrev Scanned (α : Type) := Option (α × List Char)

def coded (n : Nat) (cs : List Char) : Scanned Char :=
  let digits := cs.take n
  let code := natOf 16 digits
  if digits.length = n ∧ digits.all isHexDigit ∧ code.isValidChar then
    some (Char.ofNat code, cs.drop n)
  else none

def escaped : List Char → Scanned Char
  | 'b' :: cs => some ('\x08', cs)
  | 't' :: cs => some ('\t', cs)
  | 'n' :: cs => some ('\n', cs)
  | 'f' :: cs => some ('\x0c', cs)
  | 'r' :: cs => some ('\r', cs)
  | 'e' :: cs => some ('\x1b', cs)
  | 'x' :: cs => coded 2 cs
  | 'u' :: cs => coded 4 cs
  | 'U' :: cs => coded 8 cs
  | c :: cs => if c = doubleQuote || c = '\\' then some (c, cs) else none
  | [] => none

/-- A text of one line, behind its opening quote. Every step takes a character. -/
def basicText : (fuel : Nat) → List Char → Array Char → Scanned String
  | 0, _, _ => none
  | _, [], _ => none
  | fuel + 1, c :: cs, read =>
    if c = doubleQuote then some (String.ofList read.toList, cs)
    else if c = '\\' then
      match escaped cs with
      | some (d, rest) => basicText fuel rest (read.push d)
      | none => none
    else if isLineEnd c then none
    else basicText fuel cs (read.push c)

/-- A text of one line without escape sequences, behind its opening quote. -/
def literalText (cs : List Char) : Scanned String :=
  let part := fun c => c ≠ singleQuote && !isLineEnd c
  match cs.dropWhile part with
  | c :: rest => if c = singleQuote then some (String.ofList (cs.takeWhile part), rest) else none
  | [] => none

/-- A first line that is empty does not count. -/
def skipFirstLineEnd : List Char → List Char
  | '\n' :: cs => cs
  | '\r' :: '\n' :: cs => cs
  | cs => cs

/-- A text of several lines. A run of three quotes ends it, where up to `spare` further quotes of
the run belong to the text. A backslash at the end of a line, if `escapes`, takes the blanks and
line ends that follow. Behind an escaped backslash one more quote is let pass. -/
def multilineText (quote : Char) (escapes : Bool) : (fuel : Nat) → (spare : Nat) → List Char →
    Array Char → Scanned String
  | 0, _, _, _ => none
  | _, _, [], _ => none
  | fuel + 1, spare, c :: cs, read =>
    if c = quote then
      let run := (c :: cs).takeWhile (· = quote)
      let rest := (c :: cs).dropWhile (· = quote)
      if run.length < 3 then multilineText quote escapes fuel 2 rest (read ++ run)
      else if run.length ≤ 3 + spare then
        some (String.ofList (read.toList ++ run.drop 3), rest)
      else none
    else if escapes && c = '\\' then
      let blanks := cs.takeWhile fun d => isBlank d || isLineEnd d
      if blanks.contains '\n' then
        multilineText quote escapes fuel 2 (cs.drop blanks.length) read
      else
        match escaped cs with
        | some (d, rest) =>
          let spare := if cs.head? = some '\\' then 3 else 2
          multilineText quote escapes fuel spare rest (read.push d)
        | none => none
    else multilineText quote escapes fuel 2 cs (read.push c)

def quotedText (quote : Char) (cs : List Char) : Scanned String :=
  match cs with
  | a :: b :: rest =>
    if a = quote ∧ b = quote then
      let rest := skipFirstLineEnd rest
      multilineText quote (quote = doubleQuote) (rest.length + 1) 2 rest #[]
    else if quote = doubleQuote then basicText (cs.length + 1) cs #[]
    else literalText cs
  | _ => if quote = doubleQuote then basicText (cs.length + 1) cs #[] else literalText cs

abbrev Key := List String

def keyPart : List Char → Scanned String
  | [] => none
  | c :: cs =>
    if c = doubleQuote then basicText (cs.length + 1) cs #[]
    else if c = singleQuote then literalText cs
    else
      let name := (c :: cs).takeWhile isBareKeyChar
      if name.isEmpty then none
      else some (String.ofList name, (c :: cs).dropWhile isBareKeyChar)

def keyUpTo (stop : Char) : (fuel : Nat) → List Char → Array String → Scanned Key
  | 0, _, _ => none
  | fuel + 1, cs, parts =>
    match keyPart (skipBlanks cs) with
    | none => none
    | some (part, rest) =>
      match skipBlanks rest with
      | [] => none
      | c :: rest =>
        if c = '.' then keyUpTo stop fuel rest (parts.push part)
        else if c = stop then some ((parts.push part).toList, rest)
        else none

def escapeInKey (c : Char) : List Char :=
  if c = doubleQuote ∨ c = '\\' then ['\\', c]
  else
    match c.toNat with
    | 8 => ['\\', 'b']
    | 9 => ['\\', 't']
    | 10 => ['\\', 'n']
    | 12 => ['\\', 'f']
    | 13 => ['\\', 'r']
    | n =>
      if n < 0x20 ∨ n = 0x7f then
        ['\\', 'u', '0', '0'] ++ List.replicate (2 - (Nat.toDigits 16 n).length) '0' ++
          Nat.toDigits 16 n
      else [c]

def showPart (part : String) : String :=
  if !part.isEmpty && part.all isBareKeyChar then part
  else String.ofList (doubleQuote :: part.toList.flatMap escapeInKey ++ [doubleQuote])

def showKey (key : Key) : String := ".".intercalate (key.map showPart)

end PlatterMachine.Toml
