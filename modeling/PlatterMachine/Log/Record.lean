import PlatterMachine.Log.Level

/-!
# Log records

A record is written as a line of text or as a JSON object, without its time. In text, keys and
values are quoted when they are empty or hold something that would make the line ambiguous.
-/

namespace PlatterMachine

inductive LogValue where
  | text (s : String)
  | number (n : Int)
  | bool (b : Bool)
  | nothing
  | counters (fields : List (String × Nat))
  deriving DecidableEq, Repr

structure LogRecord where
  level : LogLevel
  message : String
  attrs : List (String × LogValue) := []
  deriving DecidableEq, Repr

namespace LogRecord

/-- Whether a character makes quotes necessary. A backslash alone does not. -/
def forcesQuotes (c : Char) : Bool :=
  let n := c.toNat
  if n < 0x80 then n ≤ 0x20 || c = '=' || c = '"'
  else n = 0xFFFD || !Printable.isPrintable c

def plain (s : String) : String :=
  if s.isEmpty || s.toList.any forcesQuotes then Quoted.quote s else s

def valueText : LogValue → String
  | .text s => plain s
  | .number n => toString n
  | .bool b => if b then "true" else "false"
  | .nothing => "<nil>"
  | .counters fields =>
    plain ("\x7b" ++ " ".intercalate (fields.map fun (k, n) => k ++ ":" ++ toString n) ++ "\x7d")

/-- An attribute without key and value is left out. -/
def shown (attr : String × LogValue) : Bool :=
  !(attr.1.isEmpty && attr.2 == .nothing)

def textLine (r : LogRecord) : String :=
  let attrs := r.attrs.filter shown |>.map fun (k, v) => plain k ++ "=" ++ valueText v
  " ".intercalate (("level=" ++ plain r.level.name) :: ("msg=" ++ plain r.message) :: attrs)

def jsonEscape (c : Char) : List Char :=
  match c with
  | '"' => ['\\', '"']
  | '\\' => ['\\', '\\']
  | '\n' => ['\\', 'n']
  | '\r' => ['\\', 'r']
  | '\t' => ['\\', 't']
  | c =>
    let n := c.toNat
    if n < 0x20 ∨ n = 0x2028 ∨ n = 0x2029 then '\\' :: 'u' :: Quoted.code 4 n else [c]

def jsonString (s : String) : String :=
  String.ofList ('"' :: s.toList.flatMap jsonEscape ++ ['"'])

def jsonObject (members : List (String × String)) : String :=
  "\x7b" ++ ",".intercalate (members.map fun (k, v) => jsonString k ++ ":" ++ v) ++ "\x7d"

def valueJson : LogValue → String
  | .text s => jsonString s
  | .number n => toString n
  | .bool b => if b then "true" else "false"
  | .nothing => "null"
  | .counters fields => jsonObject (fields.map fun (k, n) => (k, toString n))

/-- Members in order; members of one name are all kept. -/
def jsonLine (r : LogRecord) : String :=
  jsonObject (("level", jsonString r.level.name) :: ("msg", jsonString r.message) ::
    (r.attrs.filter shown).map fun (k, v) => (k, valueJson v))

/-- A key as the system journal wants it: upper-case letters, digits and underscores. -/
def journalKey (key : String) : String :=
  String.ofList (key.toList.map fun c =>
    let c := LogLevel.upper c
    if c.isUpper || c.isDigit then c else '_')

end LogRecord

/-- The least level that is written, and the records that were, oldest first. -/
structure Logger where
  level : LogLevel := .info
  records : Array LogRecord := #[]

namespace Logger

def log (l : Logger) (r : LogRecord) : Logger :=
  if l.level ≤ r.level then { l with records := l.records.push r } else l

def logAll (l : Logger) (rs : List LogRecord) : Logger := rs.foldl log l

/-- A logger with the level of the given name, which is info if it is empty. -/
def ofName (name : String) : Except Fault Logger :=
  if name.isEmpty then .ok {} else (LogLevel.parse name).map fun level => { level }

def textLines (l : Logger) : List String := l.records.toList.map LogRecord.textLine

def jsonLines (l : Logger) : List String := l.records.toList.map LogRecord.jsonLine

end Logger

end PlatterMachine
