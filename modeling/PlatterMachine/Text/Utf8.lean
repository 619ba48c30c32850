/-!
# UTF-8

Text from bytes that may not be text: every byte that is no part of a well-formed character is read
as the replacement character.
-/

namespace PlatterMachine.Utf8

def encode (text : String) : List UInt8 := text.toUTF8.toList

def replacement : Char := Char.ofNat 0xFFFD

/-- The least code point that needs `extra` continuation bytes. -/
def least (extra : Nat) : Nat :=
  match extra with
  | 1 => 0x80
  | 2 => 0x800
  | _ => 0x10000

def char? : List UInt8 → Option (Char × Nat)
  | [] => none
  | b :: rest =>
    let n := b.toNat
    if n < 0x80 then some (Char.ofNat n, 1)
    else
      let extra := if n < 0xC0 then 0 else if n < 0xE0 then 1 else if n < 0xF0 then 2
        else if n < 0xF8 then 3 else 0
      let tail := rest.take extra
      if extra = 0 ∨ tail.length < extra ∨ tail.any (fun c => c.toNat / 64 ≠ 2) then none
      else
        let code := tail.foldl (fun code c => 64 * code + c.toNat % 64) (n % 1 <<< (6 - extra))
        if code < least extra ∨ 0x110000 ≤ code ∨ (0xD800 ≤ code ∧ code < 0xE000) then none
        else some (Char.ofNat code, extra + 1)

/-- Reads characters until `fuel`, which is at least the number of bytes, runs out. -/
def chars : (fuel : Nat) → List UInt8 → Array Char → Array Char
  | 0, _, read => read
  | _, [], read => read
  | fuel + 1, bytes, read =>
    match char? bytes with
    | some (c, n) => chars fuel (bytes.drop n) (read.push c)
    | none => chars fuel (bytes.drop 1) (read.push replacement)

def decode (bytes : List UInt8) : String :=
  String.ofList (chars bytes.length bytes #[]).toList

def isValid : (fuel : Nat) → List UInt8 → Bool
  | _, [] => true
  | 0, _ => false
  | fuel + 1, bytes =>
    match char? bytes with
    | some (_, n) => isValid fuel (bytes.drop n)
    | none => false

end PlatterMachine.Utf8
