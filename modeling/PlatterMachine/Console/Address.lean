import PlatterMachine.Fault
import PlatterMachine.Text.Basic

/-!
# Network addresses

An address is a host and a port with a colon between them; a host that holds colons itself stands in
brackets. This module tells what is wrong with an address that cannot be used.
-/

namespace PlatterMachine.Address

inductive Flaw where
  | missingPort
  | tooManyColons
  | missingBracket
  | unexpectedOpen
  | unexpectedClose
  deriving DecidableEq, Repr

def Flaw.message : Flaw → String
  | missingPort => "missing port in address"
  | tooManyColons => "too many colons in address"
  | missingBracket => "missing ']' in address"
  | unexpectedOpen => "unexpected '[' in address"
  | unexpectedClose => "unexpected ']' in address"

def split (cs : List Char) : Except Flaw (List Char × List Char) :=
  match Fields.cutLast? ':' cs with
  | none => .error .missingPort
  | some (before, port) =>
    match cs with
    | '[' :: inner =>
      let host := inner.takeWhile (· ≠ ']')
      match inner.dropWhile (· ≠ ']') with
      | [] => .error .missingBracket
      | _ :: [] => .error .missingPort
      | _ :: c :: behind =>
        if c = ':' then
          if behind.contains ':' then .error .tooManyColons
          else if inner.contains '[' then .error .unexpectedOpen
          else if behind.contains ']' then .error .unexpectedClose
          else .ok (host, port)
        else .error .missingPort
    | _ =>
      if before.contains ':' then .error .tooManyColons
      else if cs.contains '[' then .error .unexpectedOpen
      else if cs.contains ']' then .error .unexpectedClose
      else .ok (before, port)

def cutoff : UInt32 := 0x40000000

/-- Reads digits into 32 bits. A further digit behind a number at the cutoff ends the reading, and
so does one whose addition does not fit; multiplication by ten drops what does not fit. -/
def portDigits? (n : UInt32) : List Char → Option UInt32
  | [] => some n
  | c :: cs =>
    if !c.isDigit then none
    else if cutoff ≤ n then some n
    else
      let shifted := 10 * n
      let next := shifted + UInt32.ofNat (c.toNat - 48)
      if next < shifted then some 0xFFFFFFFF else portDigits? next cs

/-- A port number, perhaps signed; `none` for a name. No text means port 0. -/
def portNumber? (port : List Char) : Option Int :=
  match port with
  | '+' :: digits => (portDigits? 0 digits).map fun n => n.toNat
  | '-' :: digits => (portDigits? 0 digits).map fun n => -n.toNat
  | digits => (portDigits? 0 digits).map fun n => n.toNat

def flaw? (address : String) : Option Fault :=
  if address.isEmpty then none
  else
    match split address.toList with
    | .error flaw => some (.plain ("address " ++ address ++ ": " ++ flaw.message))
    | .ok (_, port) =>
      let name := String.ofList port
      match portNumber? port with
      | none => some (.plain ("lookup udp/" ++ name ++ ": unknown port"))
      | some n =>
        if 0 ≤ n ∧ n ≤ 65535 then none else some (.plain ("address " ++ name ++ ": invalid port"))

/-- Why a server cannot listen on an address. -/
def listenFault? (address : String) : Option Fault :=
  (flaw? address).map (·.during ("failed to listen on " ++ address))

/-- Why a client cannot dial an address. -/
def dialFault? (address : String) : Option Fault :=
  (flaw? address).map (·.during ("failed to dial " ++ address))

end PlatterMachine.Address
