import PlatterMachine.Console.Curve
import PlatterMachine.Der.Value

/-!
# Public keys in certificates

A key comes with the algorithm that it is for and the parameters of that. Keys for algorithms that
are not known may be anything.
-/

namespace PlatterMachine.PublicKey

open Der

inductive Algorithm where
  | rsa
  | dsa
  | ecdsa
  | ed25519
  | mldsa (size : Nat)
  deriving DecidableEq, Repr

def Algorithm.ofId? : List Nat → Option Algorithm
  | [1, 2, 840, 113549, 1, 1, 1] => some .rsa
  | [1, 2, 840, 10040, 4, 1] => some .dsa
  | [1, 2, 840, 10045, 2, 1] => some .ecdsa
  | [1, 3, 101, 112] => some .ed25519
  | [2, 16, 840, 1, 101, 3, 4, 3, 17] => some (.mldsa 1312)
  | [2, 16, 840, 1, 101, 3, 4, 3, 18] => some (.mldsa 1952)
  | [2, 16, 840, 1, 101, 3, 4, 3, 19] => some (.mldsa 2592)
  | _ => none

def isRsaKey (key : List UInt8) : Bool :=
  (do
    let (body, _) ← sequence key
    let (modulus, body) ← integer body
    let (exponent, _) ← integer body
    guard (0 < modulus && 0 < exponent && fitsInt64 exponent)).isSome

def isDsaGroup (parameters : Der.Element) : Bool :=
  (do
    guard (parameters.tag = sequenceTag)
    let (p, body) ← integer parameters.contents
    let (q, body) ← integer body
    let (g, _) ← integer body
    guard (0 < p && 0 < q && 0 < g)).isSome

def isDsaKey (key : List UInt8) : Bool := (integer key).any fun (y, _) => 0 < y

def isCurveKey (parameters : Der.Element) (key : List UInt8) : Bool :=
  parameters.tag = objectIdTag &&
    ((objectIdOf parameters.contents).bind Curve.ofId?).any (·.encodesPoint key)

def isValid (algorithm : Algorithm) (parameters : Option Der.Element) (key : List UInt8) : Bool :=
  match algorithm with
  | .rsa => parameters = some ⟨nullTag, []⟩ && isRsaKey key
  | .dsa => parameters.any isDsaGroup && isDsaKey key
  | .ecdsa => parameters.any (isCurveKey · key)
  | .ed25519 => parameters.isNone && key.length = 32
  | .mldsa size => parameters.isNone && key.length = size

def read : Reading Unit := fun bytes => do
  let (body, rest) ← sequence bytes
  let (algorithm, body) ← sequence body
  let (id, parameters) ← Der.algorithm algorithm
  let (key, _) ← bitString body
  guard ((Algorithm.ofId? id).all fun a => isValid a parameters key)
  some ((), rest)

end PlatterMachine.PublicKey
