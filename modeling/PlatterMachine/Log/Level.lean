import PlatterMachine.Fault
import PlatterMachine.Text.Printable

/-!
# Log levels

A level is a 64-bit number. Four levels have names; any other is written as a distance from one.
-/

namespace PlatterMachine

abbrev LogLevel := Int

namespace LogLevel

def debug : LogLevel := -4

def info : LogLevel := 0

def warn : LogLevel := 4

def error : LogLevel := 8

def upper (c : Char) : Char :=
  if c = 'ı' then 'I' else if c = 'ſ' then 'S' else c.toUpper

def offset? (text : List Char) : Option Int :=
  let (negative, digits) :=
    match text with
    | '-' :: rest => (true, rest)
    | '+' :: rest => (false, rest)
    | rest => (false, rest)
  if digits.isEmpty || !digits.all Char.isDigit then none
  else
    let n : Int := digits.foldl (fun n c => 10 * n + (c.toNat - 48)) 0
    let n := if negative then -n else n
    if -0x8000000000000000 ≤ n ∧ n < 0x8000000000000000 then some n else none

def named? (text : List Char) : Option LogLevel :=
  match String.ofList (text.map upper) with
  | "DEBUG" => some debug
  | "INFO" => some info
  | "WARN" => some warn
  | "ERROR" => some error
  | _ => none

def isSign (c : Char) : Bool := c = '+' || c = '-'

/-- A name in any case, perhaps followed by a signed distance. -/
def parse? (text : String) : Option LogLevel := do
  let cs := text.toList
  let rest := cs.dropWhile (!isSign ·)
  let offset ← if rest.isEmpty then some 0 else offset? rest
  let level ← named? (cs.takeWhile (!isSign ·))
  pure ((level + offset).bmod 0x10000000000000000)

def parse (text : String) : Except Fault LogLevel :=
  match parse? text with
  | some level => .ok level
  | none => .error (.plain ("invalid log level " ++ Quoted.quote text))

def distance (name : String) (n : Int) : String :=
  if n = 0 then name else if 0 < n then s!"{name}+{n}" else s!"{name}{n}"

def name (level : LogLevel) : String :=
  if level < info then distance "DEBUG" (level - debug)
  else if level < warn then distance "INFO" (level - info)
  else if level < error then distance "WARN" (level - warn)
  else distance "ERROR" (level - error)

end LogLevel

end PlatterMachine
