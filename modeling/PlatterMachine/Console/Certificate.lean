import PlatterMachine.Console.Extension
import PlatterMachine.Console.PublicKey
import PlatterMachine.Digest.Blake2b
import PlatterMachine.Fault
import PlatterMachine.Text.Basic

/-!
# Server certificates

A server shows a certificate of its own making; what identifies the server is the digest of the
certificate, its fingerprint, which a client can pin. A certificate has to have the form of an X.509
certificate in DER; its signature and its times are not checked.
-/

namespace PlatterMachine.Certificate

open Der

def fingerprint (der : List UInt8) : String := Hex.ofBytes (Blake2b.digest der)

def extensions (bytes : List UInt8) : Option Unit := do
  let (found, _) ← sequenceOf Extension.read bytes
  let ids := found.map Extension.id
  guard (ids.eraseDups.length = ids.length && found.all Extension.isValid)

/-- The version at the start of the signed part, which is written one less, in 64 bits. Counting up
from the largest number there is wraps around, and what comes out is let pass as an old version. -/
def version : Reading Int64 := fun bytes => do
  match ← optional 0xA0 (tagged 0xA0) bytes with
  | (none, rest) => some (1, rest)
  | (some contents, rest) =>
    let (n, left) ← integer contents
    guard (left.isEmpty && 0 ≤ n && fitsInt64 n)
    let version := Int64.ofInt n + 1
    guard (version ≤ 3)
    some (version, rest)

/-- What a certificate says, which is what was signed; the contents of its algorithm are given. -/
def signedPart (algorithm bytes : List UInt8) : Option Unit := do
  let (version, rest) ← version bytes
  let (serial, rest) ← integer rest
  guard (0 ≤ serial)
  let (inner, rest) ← sequence rest
  guard (inner = algorithm)
  let _ ← Der.algorithm inner
  let (_, rest) ← name rest
  let (validity, rest) ← sequence rest
  let (_, validity) ← time validity
  let _ ← time validity
  let (_, rest) ← name rest
  let (_, rest) ← PublicKey.read rest
  if 1 < version then
    let (_, rest) ← optional 0x81 (tagged 0x81) rest
    let (_, rest) ← optional 0x82 (tagged 0x82) rest
    if version = 3 then
      match ← optional 0xA3 (tagged 0xA3) rest with
      | (some found, _) => extensions found
      | (none, _) => some ()

/-- Whether all of `bytes` is one certificate: the signed part, the algorithm, which the signed part
repeats, and the signature. -/
def isWellFormed (der : List UInt8) : Bool :=
  (do
    let (body, rest) ← sequence der
    guard rest.isEmpty
    let (signed, body) ← sequence body
    let (algorithm, body) ← sequence body
    signedPart algorithm signed
    let _ ← bitString body).isSome

inductive Rejection where
  | noCertificate
  | malformed
  | mismatch (got wanted : String)
  deriving DecidableEq, Repr

def Rejection.fault : Rejection → Fault
  | noCertificate => .plain "no certificate provided by peer"
  | malformed =>
    .wrapped .context "failed to parse peer certificate" (.plain "malformed certificate")
  | mismatch got wanted =>
    .plain ("peer certificate fingerprint " ++ got ++ " does not match " ++ wanted)

/-- Checks a peer's first certificate against a pinned fingerprint, in any case; without a pin every
certificate will do. -/
def verify (certificates : List (List UInt8)) (pin : String) : Except Rejection Unit :=
  match certificates with
  | [] => .error .noCertificate
  | first :: _ =>
    if !isWellFormed first then .error .malformed
    else if pin.isEmpty then .ok ()
    else
      let got := fingerprint first
      if got = String.ofList (pin.toList.map Char.toLower) then .ok ()
      else .error (.mismatch got pin)

structure ClientSettings where
  protocols : List String
  /-- The least version of the transport security protocol, by its number there. -/
  minVersion : Nat
  pin : String

def protocolName : String := "um-console/1"

def clientSettings (pin : String) : ClientSettings := ⟨[protocolName], 0x0304, pin⟩

def ClientSettings.verify (s : ClientSettings) (certificates : List (List UInt8)) :
    Except Rejection Unit :=
  Certificate.verify certificates s.pin

end PlatterMachine.Certificate
