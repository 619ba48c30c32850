/-!
# Elliptic curves

The curves `y² = x³ - 3x + b` over the integers modulo a prime that public keys are points of.
-/

namespace PlatterMachine

structure Curve where
  size : Nat
  modulus : Nat
  b : Nat

namespace Curve

def ofWords (words : List UInt64) : Nat := words.foldl (fun n w => n <<< 64 + w.toNat) 0

def p224 : Curve where
  size := 28
  modulus := 0xffffffffffffffffffffffffffffffff000000000000000000000001
  b := 0xb4050a850c04b3abf54132565044b0b7d7bfd8ba270b39432355ffb4

def p256 : Curve where
  size := 32
  modulus := 0xffffffff00000001000000000000000000000000ffffffffffffffffffffffff
  b := 0x5ac635d8aa3a93e7b3ebbd55769886bc651d06b0cc53b0f63bce3c3e27d2604b

def p384 : Curve where
  size := 48
  modulus := ofWords
    [0xffffffffffffffff, 0xffffffffffffffff, 0xffffffffffffffff, 0xfffffffffffffffe,
     0xffffffff00000000, 0xffffffff]
  b := ofWords
    [0xb3312fa7e23ee7e4, 0x988e056be3f82d19, 0x181d9c6efe814112, 0x314088f5013875a,
     0xc656398d8a2ed19d, 0x2a85c8edd3ec2aef]

def p521 : Curve where
  size := 66
  modulus := Nat.pow 2 521 - 1
  b := ofWords
    [0x51, 0x953eb9618e1c9a1f, 0x929a21a0b68540ee, 0xa2da725b99b315f3,
     0xb8b489918ef109e1, 0x56193951ec7e937b, 0x1652c0bd3bb1bf07, 0x3573df883d2c34f1,
     0xef451fd46b503f00]

def ofId? : List Nat → Option Curve
  | [1, 3, 132, 0, 33] => some p224
  | [1, 2, 840, 10045, 3, 1, 7] => some p256
  | [1, 3, 132, 0, 34] => some p384
  | [1, 3, 132, 0, 35] => some p521
  | _ => none

def contains (c : Curve) (x y : Nat) : Bool :=
  x < c.modulus && y < c.modulus &&
    (y * y + 3 * x) % c.modulus = (x * x * x + c.b) % c.modulus

def encodesPoint (c : Curve) (bytes : List UInt8) : Bool :=
  match bytes with
  | 4 :: coordinates =>
    let number := fun (bytes : List UInt8) => bytes.foldl (fun n b => 256 * n + b.toNat) 0
    coordinates.length = 2 * c.size &&
      c.contains (number (coordinates.take c.size)) (number (coordinates.drop c.size))
  | _ => false

end Curve

end PlatterMachine
