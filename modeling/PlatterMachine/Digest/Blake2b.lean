/-!
# The BLAKE2b-256 digest

The state is kept as four rows of four 64-bit lanes. A round mixes the columns, then, with the lower
rows rotated against the first, the diagonals.
-/

namespace PlatterMachine.Blake2b

structure Row where
  l₀ : UInt64
  l₁ : UInt64
  l₂ : UInt64
  l₃ : UInt64
  deriving DecidableEq, Repr

namespace Row

@[inline] def map₂ (f : UInt64 → UInt64 → UInt64) (x y : Row) : Row :=
  ⟨f x.l₀ y.l₀, f x.l₁ y.l₁, f x.l₂ y.l₂, f x.l₃ y.l₃⟩

def add (x y : Row) : Row := map₂ (· + ·) x y

def xor (x y : Row) : Row := map₂ (· ^^^ ·) x y

def xorRotate (n : UInt64) (x y : Row) : Row :=
  map₂ (fun a b => let c := a ^^^ b; c >>> n ||| c <<< (64 - n)) x y

def shift (x : Row) : Row := ⟨x.l₁, x.l₂, x.l₃, x.l₀⟩

end Row

structure State where
  a : Row
  b : Row
  c : Row
  d : Row

def mix (s : State) (x y : Row) : State :=
  let a := (s.a.add s.b).add x
  let d := s.d.xorRotate 32 a
  let c := s.c.add d
  let b := s.b.xorRotate 24 c
  let a := (a.add b).add y
  let d := d.xorRotate 16 a
  let c := c.add d
  let b := b.xorRotate 63 c
  ⟨a, b, c, d⟩

def schedule : List (List Nat) :=
  [[0, 1, 2, 3, 4, 5, 6, 7, 8, 9, 10, 11, 12, 13, 14, 15],
   [14, 10, 4, 8, 9, 15, 13, 6, 1, 12, 0, 2, 11, 7, 5, 3],
   [11, 8, 12, 0, 5, 2, 15, 13, 10, 14, 3, 6, 7, 1, 9, 4],
   [7, 9, 3, 1, 13, 12, 11, 14, 2, 6, 5, 10, 4, 0, 15, 8],
   [9, 0, 5, 7, 2, 4, 10, 15, 14, 1, 11, 12, 6, 8, 3, 13],
   [2, 12, 6, 10, 0, 11, 8, 3, 4, 13, 7, 5, 15, 14, 1, 9],
   [12, 5, 1, 15, 14, 13, 4, 10, 0, 7, 6, 3, 9, 2, 8, 11],
   [13, 11, 7, 14, 12, 1, 3, 9, 5, 0, 15, 4, 8, 6, 2, 10],
   [6, 15, 14, 9, 11, 3, 0, 8, 12, 2, 13, 7, 1, 4, 10, 5],
   [10, 2, 8, 4, 7, 6, 1, 5, 15, 11, 9, 14, 3, 12, 13, 0],
   [0, 1, 2, 3, 4, 5, 6, 7, 8, 9, 10, 11, 12, 13, 14, 15],
   [14, 10, 4, 8, 9, 15, 13, 6, 1, 12, 0, 2, 11, 7, 5, 3]]

def round (m : Array UInt64) (s : State) (order : List Nat) : State :=
  match order.map (m.getD · 0) with
  | [m₀, m₁, m₂, m₃, m₄, m₅, m₆, m₇, m₈, m₉, m₁₀, m₁₁, m₁₂, m₁₃, m₁₄, m₁₅] =>
    let s := mix s ⟨m₀, m₂, m₄, m₆⟩ ⟨m₁, m₃, m₅, m₇⟩
    let s := mix ⟨s.a, s.b.shift, s.c.shift.shift, s.d.shift.shift.shift⟩
      ⟨m₈, m₁₀, m₁₂, m₁₄⟩ ⟨m₉, m₁₁, m₁₃, m₁₅⟩
    ⟨s.a, s.b.shift.shift.shift, s.c.shift.shift, s.d.shift⟩
  | _ => s

def iv₀ : Row :=
  ⟨0x6a09e667f3bcc908, 0xbb67ae8584caa73b, 0x3c6ef372fe94f82b, 0xa54ff53a5f1d36f1⟩

def iv₁ : Row :=
  ⟨0x510e527fade682d1, 0x9b05688c2b3e6c1f, 0x1f83d9abfb41bd6b, 0x5be0cd19137e2179⟩

/-- The chaining value of a digest of 32 bytes without key. -/
def initial : Row × Row := (iv₀.xor ⟨0x01010020, 0, 0, 0⟩, iv₁)

/-- Takes in one block, of which `count` bytes of input end. -/
def compress (h : Row × Row) (m : Array UInt64) (count : Nat) (final : Bool) : Row × Row :=
  let tail := iv₁.xor ⟨UInt64.ofNat count, 0, if final then 0xFFFFFFFFFFFFFFFF else 0, 0⟩
  let s := schedule.foldl (round m) ⟨h.1, h.2, iv₀, tail⟩
  ((h.1.xor s.a).xor s.c, (h.2.xor s.b).xor s.d)

def words : List UInt8 → Array UInt64 → Array UInt64
  | b₀ :: b₁ :: b₂ :: b₃ :: b₄ :: b₅ :: b₆ :: b₇ :: rest, out =>
    words rest (out.push (b₀.toUInt64 ||| b₁.toUInt64 <<< 8 ||| b₂.toUInt64 <<< 16 |||
      b₃.toUInt64 <<< 24 ||| b₄.toUInt64 <<< 32 ||| b₅.toUInt64 <<< 40 ||| b₆.toUInt64 <<< 48 |||
      b₇.toUInt64 <<< 56))
  | [], out => out
  | rest, out => out.push (rest.foldr (fun b w => w <<< 8 ||| b.toUInt64) 0)

def blockSize : Nat := 128

/-- Takes in all blocks; the last one, which may be short, counts as final. -/
def absorb : (fuel : Nat) → Row × Row → (count : Nat) → List UInt8 → Row × Row
  | 0, h, _, _ => h
  | fuel + 1, h, count, bytes =>
    let block := bytes.take blockSize
    let rest := bytes.drop blockSize
    let count := count + block.length
    let m := words block #[]
    if rest.isEmpty then compress h m count true
    else absorb fuel (compress h m count false) count rest

def rowBytes (r : Row) : List UInt8 :=
  [r.l₀, r.l₁, r.l₂, r.l₃].flatMap fun w =>
    [0, 8, 16, 24, 32, 40, 48, 56].map fun n => (w >>> n).toUInt8

/-- The digest of `bytes`: 32 bytes. -/
def digest (bytes : List UInt8) : List UInt8 :=
  rowBytes (absorb (bytes.length / blockSize + 1) initial 0 bytes).1

end PlatterMachine.Blake2b
