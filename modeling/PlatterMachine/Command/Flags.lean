import PlatterMachine.Command.Duration
import PlatterMachine.Text.Printable

/-!
# Flags

Arguments that start with one or two minus signs are flags, up to the first that does not or to
`--`. A flag takes its value from behind an equals sign or from the next argument; a switch needs
none.
-/

namespace PlatterMachine

inductive FlagKind where
  | text
  | switch
  | duration
  deriving DecidableEq, Repr

structure Flag where
  name : String
  kind : FlagKind
  /-- What usage calls the value; empty for a switch. -/
  argument : String := ""
  help : String
  /-- What usage says of the value without the flag. -/
  default : String := ""

inductive FlagError where
  | help
  | badForm (argument : String)
  | undefined (name : String)
  | badSwitch (name value : String)
  | missingValue (name : String)
  | badValue (name value : String)
  deriving DecidableEq, Repr

def FlagError.message? : FlagError → Option String
  | help => none
  | badForm argument => some s!"bad flag syntax: {argument}"
  | undefined name => some s!"flag provided but not defined: -{name}"
  | badSwitch name value =>
    some s!"invalid boolean value {Quoted.quote value} for -{name}: parse error"
  | missingValue name => some s!"flag needs an argument: -{name}"
  | badValue name value =>
    some s!"invalid value {Quoted.quote value} for flag -{name}: parse error"

structure Arguments where
  values : List (String × String) := []
  rest : List String := []

namespace Arguments

/-- The text of a flag, empty without it. -/
def text (a : Arguments) (name : String) : String := (a.values.lookup name).getD ""

def isOn (a : Arguments) (name : String) : Bool := a.text name = "true"

def truth? (value : String) : Option Bool :=
  if value ∈ ["1", "t", "T", "true", "TRUE", "True"] then some true
  else if value ∈ ["0", "f", "F", "false", "FALSE", "False"] then some false
  else none

inductive Form where
  | plain
  | stop
  | bad
  | flag (name : String) (value : Option String)

def form (argument : String) : Form :=
  match argument.toList with
  | '-' :: '-' :: [] => .stop
  | '-' :: c :: cs =>
    let body := if c = '-' then cs else c :: cs
    match body with
    | [] => .bad
    | c :: cs =>
      if c = '-' || c = '=' then .bad
      else
        let name := String.ofList (c :: cs.takeWhile (· ≠ '='))
        match cs.dropWhile (· ≠ '=') with
        | [] => .flag name none
        | _ :: value => .flag name (some (String.ofList value))
  | _ => .plain

def put (a : Arguments) (flag : Flag) (value : String) : Except FlagError Arguments :=
  match flag.kind with
  | .text => .ok { a with values := (flag.name, value) :: a.values }
  | .switch =>
    match truth? value with
    | some b =>
      .ok { a with values := (flag.name, if b then "true" else "false") :: a.values }
    | none => .error (.badSwitch flag.name value)
  | .duration =>
    match Duration.parse? value with
    | some _ => .ok { a with values := (flag.name, value) :: a.values }
    | none => .error (.badValue flag.name value)

def parseAfter (flags : List Flag) (a : Arguments) : List String → Except FlagError Arguments
  | [] => .ok a
  | argument :: rest =>
    match form argument with
    | .plain => .ok { a with rest := argument :: rest }
    | .stop => .ok { a with rest := rest }
    | .bad => .error (.badForm argument)
    | .flag name value =>
      match flags.find? (·.name = name) with
      | none =>
        .error (if name = "help" ∨ name = "h" then .help else .undefined name)
      | some flag =>
        match value with
        | some value =>
          match a.put flag value with
          | .ok a => parseAfter flags a rest
          | .error e => .error e
        | none =>
          if flag.kind = .switch then
            match a.put flag "true" with
            | .ok a => parseAfter flags a rest
            | .error e => .error e
          else
            match rest with
            | [] => .error (.missingValue name)
            | value :: rest =>
              match a.put flag value with
              | .ok a => parseAfter flags a rest
              | .error e => .error e

def parse (flags : List Flag) (arguments : List String) : Except FlagError Arguments :=
  parseAfter flags {} arguments

end Arguments

def Flag.usage (f : Flag) : String :=
  "  -" ++ f.name ++ (if f.argument.isEmpty then "" else " " ++ f.argument) ++ "\n    \t" ++
    f.help ++ (if f.default.isEmpty then "" else s!" (default {f.default})") ++ "\n"

/-- The lines of usage on all flags, which are listed in the order of their names. -/
def Flag.usageAll (flags : List Flag) : String := String.join (flags.map Flag.usage)

end PlatterMachine
