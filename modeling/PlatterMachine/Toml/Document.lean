import PlatterMachine.Text.Utf8
import PlatterMachine.Toml.Table

/-!
# TOML documents

Reading a document gives its tree of tables and all keys in the order of the file.
-/

namespace PlatterMachine.Toml

/-- Blanks, line ends and comments; `inComment` says that a comment has begun. -/
def skipVoid (inComment : Bool) : List Char → List Char
  | [] => []
  | c :: cs =>
    if isLineEnd c then skipVoid false cs
    else if inComment then skipVoid true cs
    else if c = '#' then skipVoid true cs
    else if isBlank c then skipVoid false cs
    else c :: cs

/-- The end of a line, with or without a comment. -/
def skipLine (cs : List Char) : Option (List Char) :=
  match skipBlanks cs with
  | [] => some []
  | c :: cs =>
    if c = '#' then some (cs.dropWhile (!isLineEnd ·))
    else if isLineEnd c then some cs
    else none

def Node.isArray : Node → Bool
  | array => true
  | _ => false

mutual

def readValue (key : String) (inArray : Bool) (d : Draft) : (fuel : Nat) → List Char →
    Option (Node × Draft × List Char)
  | 0, _ => none
  | fuel + 1, cs =>
    match skipBlanks cs with
    | [] => none
    | c :: rest =>
      if c = '[' then readArray key (d.note key true) fuel rest
      else if c = '\x7b' then
        let context := d.context ++ [key]
        match (d.imply context).openTable context inArray with
        | none => none
        | some inner =>
          match readInline context [] inner fuel rest with
          | none => none
          | some (entries, inner, rest) =>
            some (.table entries, { inner with context := d.context }, rest)
      else if c = doubleQuote || c = singleQuote then
        (quotedText c rest).map fun (s, rest) => (.text s, d, rest)
      else
        match c :: rest with
        | 't' :: 'r' :: 'u' :: 'e' :: rest => some (.bool true, d, rest)
        | 'f' :: 'a' :: 'l' :: 's' :: 'e' :: rest => some (.bool false, d, rest)
        | cs => (skipNumber cs).map fun rest => (.scalar, d, rest)

def readArray (key : String) (d : Draft) : (fuel : Nat) → List Char →
    Option (Node × Draft × List Char)
  | 0, _ => none
  | fuel + 1, cs =>
    match skipVoid false cs with
    | [] => none
    | c :: rest =>
      if c = ']' then some (.array, d, rest)
      else
        match readValue key true d fuel (c :: rest) with
        | none => none
        | some (_, d, rest) =>
          match skipVoid false rest with
          | [] => none
          | c :: rest =>
            if c = ',' then readArray key d fuel rest
            else if c = ']' then some (.array, d, rest)
            else none

def readInline (context : Key) (entries : Entries) (d : Draft) : (fuel : Nat) → List Char →
    Option (Entries × Draft × List Char)
  | 0, _ => none
  | fuel + 1, cs =>
    match skipVoid false cs with
    | [] => none
    | c :: rest =>
      if c = '\x7d' then some (entries, d, rest)
      else
        match keyUpTo '=' (rest.length + 2) (c :: rest) #[] with
        | none => none
        | some (key, rest) =>
          match d.openDotted key.dropLast with
          | none => none
          | some d =>
            let name := key.getLastD ""
            let d := { d with keys := d.keys.push (d.context ++ [name]) }
            match readValue name false d fuel rest with
            | none => none
            | some (node, d, rest) =>
              match d.define name node, entries.setDotted node key with
              | some d, some entries =>
                let d := { d.note name node.isArray with context := context }
                match skipVoid false rest with
                | [] => none
                | c :: rest =>
                  if c = ',' then readInline context entries d fuel rest
                  else if c = '\x7d' then some (entries, d, rest)
                  else none
              | _, _ => none

end

def readPair (d : Draft) (cs : List Char) : Option (Draft × List Char) := do
  let (key, rest) ← keyUpTo '=' (cs.length + 1) cs #[]
  let name := key.getLastD ""
  let inner ← d.openDotted key.dropLast
  let inner := { inner with keys := inner.keys.push (inner.context ++ [name]) }
  let (node, inner, rest) ← readValue name false inner (2 * rest.length + 2) rest
  let inner ← inner.define name node
  some ({ inner.note name node.isArray with context := d.context }, rest)

def readHeader (d : Draft) (cs : List Char) : Option (Draft × List Char) := do
  let another := cs.head? = some '['
  let (key, rest) ← keyUpTo ']' (cs.length + 1) (if another then cs.drop 1 else cs) #[]
  let rest ← if another then skipChar ']' rest else some rest
  let d ← d.openTable key another
  let d := d.note "" false
  some ({ d with keys := d.keys.push key }, rest)

/-- Reads line after line; every line takes a character of `fuel`. -/
def readLines (d : Draft) : (fuel : Nat) → List Char → Option Draft
  | 0, _ => none
  | fuel + 1, cs =>
    match skipVoid false cs with
    | [] => some d
    | c :: rest =>
      match if c = '[' then readHeader d rest else readPair d (c :: rest) with
      | none => none
      | some (d, rest) =>
        match skipLine rest with
        | none => none
        | some rest => readLines d fuel rest

/-- Whether no control characters occur but tabs and the ends of lines. -/
def isClean : List Char → Bool
  | [] => true
  | '\r' :: '\n' :: cs => isClean cs
  | c :: cs =>
    (c = '\t' || c = '\n' || (0x20 ≤ c.toNat && c.toNat ≠ 0x7f)) && isClean cs

def skipMark : List UInt8 → List UInt8
  | 0xFF :: 0xFE :: rest => rest
  | 0xFE :: 0xFF :: rest => rest
  | 0xEF :: 0xBB :: 0xBF :: rest => rest
  | bytes => bytes

structure Document where
  root : Entries
  keys : List Key

def Document.parse (bytes : List UInt8) : Option Document :=
  let bytes := skipMark bytes
  let cs := (Utf8.chars bytes.length bytes #[]).toList
  if Utf8.isValid bytes.length bytes && isClean cs then
    (readLines {} (cs.length + 1) cs).map fun d => ⟨d.root, d.keys.toList⟩
  else none

end PlatterMachine.Toml
