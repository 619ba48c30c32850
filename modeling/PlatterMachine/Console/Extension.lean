import PlatterMachine.Der.Element
import PlatterMachine.Network.Mailbox
import PlatterMachine.Network.Uri

/-!
# Certificate extensions

An extension is an identifier, a mark that it is critical, and a value, whose form depends on the
identifier. Values of unknown extensions may be anything.
-/

namespace PlatterMachine.Certificate

open Der

structure Extension where
  id : List Nat
  critical : Bool
  value : List UInt8

namespace Extension

def read : Reading Extension := fun bytes => do
  let (body, rest) ← sequence bytes
  let (id, body) ← objectId body
  let (critical, body) ← optional booleanTag boolean body
  let (value, _) ← octetString body
  some (⟨id, critical.getD false, value⟩, rest)

def isBasicConstraints (value : List UInt8) : Bool :=
  (do
    let (body, _) ← sequence value
    let (_, body) ← optional booleanTag boolean body
    let (limit, _) ← optional integerTag integer body
    guard (limit.all fun n => 0 ≤ n && fitsInt64 n)).isSome

def ascii? (contents : List UInt8) : Option (List Char) :=
  if contents.all (· < 0x80) then some (contents.map fun b => Char.ofNat b.toNat) else none

/-- Another name of the subject. Mail addresses, hosts and locations are ASCII, the host of a
location is a domain name, and a network address has four bytes, or sixteen that are not four in
disguise. -/
def isOtherName (e : Der.Element) : Bool :=
  match e.tag.toNat with
  | 0x81 | 0x82 => (ascii? e.contents).isSome
  | 0x86 => ((ascii? e.contents).bind Uri.host?).any Domain.isName
  | 0x87 =>
    e.contents.length = 4 || (e.contents.length = 16 && !IpAddress.isMappedV4 e.contents)
  | _ => true

def isOtherNames (value : List UInt8) : Bool :=
  (sequenceOf element value).any fun (names, _) => names.all isOtherName

/-- What names are compared with. A mail address may be given whole or by its domain, a location is
given by a domain that is no network address, and a network address, of four bytes or of sixteen
that are not four in disguise, comes with a mask. -/
def isNamePattern (e : Der.Element) : Bool :=
  match e.tag.toNat with
  | 0x81 =>
    (ascii? e.contents).any fun cs =>
      if cs.contains '@' then Mailbox.isMailbox cs else Domain.isConstraint cs
  | 0x82 => (ascii? e.contents).any Domain.isConstraint
  | 0x86 =>
    (ascii? e.contents).any fun cs =>
      !IpAddress.isV4 cs && !IpAddress.isV6 cs && Domain.isConstraint cs
  | 0x87 =>
    let n := e.contents.length
    (n = 8 || n = 32) && !IpAddress.isMappedV4 (e.contents.take (n / 2)) &&
      IpAddress.isMask (e.contents.drop (n / 2))
  | _ => true

def subtree : Reading Unit := fun bytes => do
  let (body, rest) ← sequence bytes
  let (pattern, _) ← element body
  guard (isNamePattern pattern)
  some ((), rest)

def isNameConstraints (value : List UInt8) : Bool :=
  (do
    let (body, rest) ← sequence value
    let (permitted, body) ← optional 0xA0 (tagged 0xA0) body
    let (excluded, body) ← optional 0xA1 (tagged 0xA1) body
    guard (rest.isEmpty && body.isEmpty)
    let subtrees := permitted.getD [] ++ excluded.getD []
    guard (!subtrees.isEmpty)
    let _ ← all subtree (permitted.getD [])
    let _ ← all subtree (excluded.getD [])).isSome

def locations : (fuel : Nat) → List UInt8 → Option Unit
  | 0, _ => some ()
  | fuel + 1, bytes =>
    if startsWith 0x86 bytes then
      match tagged 0x86 bytes with
      | some (_, rest) => locations fuel rest
      | none => none
    else some ()

def distributionPoint : Reading Unit := fun bytes => do
  let (body, rest) ← sequence bytes
  match ← optional 0xA0 (tagged 0xA0) body with
  | (none, _) => some ((), rest)
  | (some point, _) =>
    let (names, _) ← tagged 0xA0 point
    locations names.length names
    some ((), rest)

def isObjectId (contents : List UInt8) : Bool :=
  contents.getLast?.any (· < 0x80) && starts true contents
where
  starts (first : Bool) : List UInt8 → Bool
    | [] => true
    | b :: rest => !(first && b = 0x80) && starts (b < 0x80) rest

def policy : Reading (List UInt8) := fun bytes => do
  let (body, rest) ← sequence bytes
  let (id, _) ← tagged objectIdTag body
  guard (isObjectId id)
  some (id, rest)

def isPolicies (value : List UInt8) : Bool :=
  (sequenceOf policy value).any fun (ids, _) => ids.eraseDups.length = ids.length

def policyMapping : Reading Unit := fun bytes => do
  let (body, rest) ← sequence bytes
  let (_, body) ← tagged objectIdTag body
  let _ ← tagged objectIdTag body
  some ((), rest)

def isAuthorityKey (value : List UInt8) : Bool :=
  (do
    let (body, _) ← sequence value
    let _ ← optional 0x80 (tagged 0x80) body).isSome

def isPolicyConstraints (value : List UInt8) : Bool :=
  (do
    let (body, _) ← sequence value
    let (require, body) ← optional 0x80 (integerAs 0x80) body
    let (inhibit, _) ← optional 0x81 (integerAs 0x81) body
    guard (require.all fitsInt64 && inhibit.all fitsInt64)).isSome

/-- A way to learn more about the authority, and perhaps where. -/
def access : Reading Unit := fun bytes => do
  let (body, rest) ← sequence bytes
  let (_, body) ← objectId body
  let _ ← optional 0x86 (tagged 0x86) body
  some ((), rest)

/-- Whether the value has the form that the identifier asks for. Some must not be critical. -/
def isValid (e : Extension) : Bool :=
  match e.id with
  | [2, 5, 29, 14] => !e.critical && (octetString e.value).isSome
  | [2, 5, 29, 15] => (bitString e.value).isSome
  | [2, 5, 29, 17] => isOtherNames e.value
  | [2, 5, 29, 19] => isBasicConstraints e.value
  | [2, 5, 29, 30] => isNameConstraints e.value
  | [2, 5, 29, 31] => (sequenceOf distributionPoint e.value).isSome
  | [2, 5, 29, 32] => isPolicies e.value
  | [2, 5, 29, 33] => (sequenceOf policyMapping e.value).isSome
  | [2, 5, 29, 35] => !e.critical && isAuthorityKey e.value
  | [2, 5, 29, 36] => isPolicyConstraints e.value
  | [2, 5, 29, 37] => (sequenceOf objectId e.value).isSome
  | [2, 5, 29, 54] => (integer e.value).any fun (n, _) => fitsInt64 n
  | [1, 3, 6, 1, 5, 5, 7, 1, 1] => !e.critical && (sequenceOf access e.value).isSome
  | _ => true

end Extension

end PlatterMachine.Certificate
