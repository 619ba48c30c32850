import PlatterMachine.Arena.Source

/-!
# Arenas

An arena hands out buffers of equal elements. Requests are rounded up to a power-of-two size class;
each class keeps a free list, refilled by carving a whole block obtained from the source. Requests
larger than a block bypass the lists.

Memory is a list of regions, one for each block or large buffer ever obtained, and a buffer is a
window of a region. Two buffers share memory exactly when their windows in one region overlap.
-/

namespace PlatterMachine

class Element (α : Type) where
  bytes : Nat
  zero : α

instance : Element UInt8 := ⟨1, 0⟩

instance : Element UInt32 := ⟨4, 0⟩

/-- Memory of `size` elements. Those past the end of `cells` were never written and are zero. -/
structure Region (α : Type) where
  size : Nat
  cells : Array α

namespace Region

variable {α : Type} [Element α]

def fresh (size : Nat) : Region α := ⟨size, #[]⟩

def get (r : Region α) (i : Nat) : α := r.cells.getD i Element.zero

def set (r : Region α) (i : Nat) (v : α) : Region α :=
  if i < r.cells.size then { r with cells := r.cells.setIfInBounds i v }
  else
    { r with cells := (r.cells ++ Array.replicate (i - r.cells.size) Element.zero).push v }

def clear (r : Region α) (start count : Nat) : Region α :=
  { r with
    cells := (List.range' start (min count (r.cells.size - start))).foldl
      (fun cells i => cells.setIfInBounds i Element.zero) r.cells }

end Region

/-- `length` elements of a region from `offset` on, which may grow to `capacity` of them. -/
structure Buffer where
  region : Nat
  offset : Nat
  length : Nat
  capacity : Nat
  deriving DecidableEq, Repr

namespace Buffer

def empty : Buffer := ⟨0, 0, 0, 0⟩

/-- Elements `start` to `stop` of the buffer; `none` when they do not lie within its capacity. -/
def slice? (b : Buffer) (start stop : Int) : Option Buffer :=
  if 0 ≤ start ∧ start ≤ stop ∧ stop ≤ b.capacity then
    some ⟨b.region, b.offset + start.toNat, (stop - start).toNat, b.capacity - start.toNat⟩
  else none

end Buffer

structure ArenaStats where
  blocks : Int := 0
  largeLive : Int := 0
  chunksLive : Int := 0
  deriving DecidableEq, Repr

structure Arena (α : Type) where
  source : BlockSource
  /-- Requests made to the source, failed ones included. -/
  requests : Nat := 0
  /-- Regions passed back to the source, failed returns included, in order. -/
  returned : Array Nat := #[]
  regions : Array (Region α) := #[]
  /-- Free chunks by size class, the next to be handed out first. -/
  free : Array (List Buffer)
  /-- Regions of the blocks held, in the order they came. -/
  blocks : Array Nat := #[]
  /-- Regions of the live large buffers. -/
  large : List Nat := []
  stats : ArenaStats := {}

namespace Arena

def minChunkBytes : Nat := 32

def blockBytes : Nat := 1024 * 1024

section Classes

variable (α : Type) [Element α]

def minShift : Nat := Nat.log2 (minChunkBytes / Element.bytes α)

def blockElems : Nat := blockBytes / Element.bytes α

def classCount : Nat := Nat.log2 (blockElems α) - minShift α + 1

def classElems (c : Nat) : Nat := 1 <<< (minShift α + c)

/-- The smallest class whose chunks hold `n` elements; `none` when `n` exceeds a block. -/
def classFor (n : Int) : Option Nat :=
  if n ≤ classElems α 0 then some 0
  else
    let c := Nat.log2 (n - 1).toNat + 1 - minShift α
    if c < classCount α then some c else none

end Classes

variable {α : Type} [Element α]

def new (source : BlockSource) : Arena α where
  source := source
  free := Array.replicate (classCount α) []

def byteSize (α : Type) [Element α] (n : Nat) : Int :=
  (n * Element.bytes α : Int).bmod 0x10000000000000000

/-- Asks the source for memory of `elems` elements; the answer is its region, which holds fewer if
their size does not fit 64 bits. -/
def obtain (elems : Nat) : Action (Arena α) Nat := fun a =>
  let bytes := byteSize α elems
  let outcome := a.source.request a.requests bytes
  let a := { a with requests := a.requests + 1 }
  match outcome with
  | .done () =>
    (.done a.regions.size,
      { a with regions := a.regions.push (.fresh (bytes.toNat / Element.bytes α)) })
  | .failed fault => (.failed fault, a)
  | .crashed crash => (.crashed crash, a)

def foreign (elems : Nat) : Action (Arena α) Buffer := fun a =>
  (.done ⟨a.regions.size, 0, elems, elems⟩, { a with regions := a.regions.push (.fresh elems) })

/-- The chunks of class `c` that tile a block, in address order. -/
def carve (α : Type) [Element α] (region c : Nat) : List Buffer :=
  let elems := classElems α c
  (List.range (blockElems α / elems)).map fun i => ⟨region, i * elems, elems, elems⟩

def wrapResource (message : String) (x : Action (Arena α) β) : Action (Arena α) β := fun a =>
  match x a with
  | (.failed fault, a) => (.failed (.wrapped .resource message fault), a)
  | r => r

def refill (c : Nat) : Action (Arena α) Unit := do
  let region ← wrapResource "arena: failed to obtain block" (obtain (blockElems α))
  Action.modify fun a => { a with
    blocks := a.blocks.push region
    free := a.free.modify c (carve α region c ++ ·)
    stats := { a.stats with blocks := a.stats.blocks + 1 } }

def take (c n : Nat) (zero : Bool) : Action (Arena α) Buffer := fun a =>
  match a.free.getD c [] with
  | [] => (.crashed .outOfRange, a)
  | chunk :: rest =>
    (.done { chunk with length := n },
      { a with
        free := a.free.setIfInBounds c rest
        regions :=
          if zero then a.regions.modify chunk.region (·.clear chunk.offset n) else a.regions
        stats := { a.stats with chunksLive := a.stats.chunksLive + 1 } })

def allocLarge (n : Nat) : Action (Arena α) Buffer := do
  let region ← wrapResource s!"arena: failed to allocate {n} elements" (obtain n)
  if (← Action.read (·.regions.getD region (.fresh 0))).size < n then Action.crash .outOfRange
  Action.modify fun a => { a with
    large := region :: a.large
    stats := { a.stats with largeLive := a.stats.largeLive + 1 } }
  pure ⟨region, 0, n, n⟩

/-- A buffer of exactly `n` elements. Unless `zero` is set its contents are whatever was left in
its memory. -/
def alloc (n : Int) (zero : Bool) : Action (Arena α) Buffer :=
  if n < 0 then Action.fail (.plain s!"arena: negative allocation size {n}")
  else if n = 0 then pure .empty
  else
    match classFor α n with
    | none => allocLarge n.toNat
    | some c => do
      if (← Action.read (·.free.getD c [])).isEmpty then refill c
      take c n.toNat zero

def giveBack (region : Nat) (a : Arena α) : Option Fault × Arena α :=
  (a.source.refusal a.returned.size, { a with returned := a.returned.push region })

/-- Takes back a buffer that `alloc` handed out. A large buffer is known by its region; anything
else goes by its capacity alone, which has to be that of a class. -/
def release (b : Buffer) : Action (Arena α) Unit := fun a =>
  if b.capacity = 0 then (.done (), a)
  else if b.offset = 0 ∧ b.region ∈ a.large then
    match { a with
      large := a.large.erase b.region
      stats := { a.stats with largeLive := a.stats.largeLive - 1 } }.giveBack b.region with
    | (none, a) => (.done (), a)
    | (some fault, a) =>
      (.crashed (.broken ("arena: failed to release large allocation: " ++ fault.message)), a)
  else
    match classFor α b.capacity with
    | some c =>
      if classElems α c = b.capacity then
        (.done (),
          { a with
            free := a.free.modify c ({ b with length := b.capacity } :: ·)
            stats := { a.stats with chunksLive := a.stats.chunksLive - 1 } })
      else (.crashed (notOwned b), a)
    | none => (.crashed (notOwned b), a)
where
  notOwned (b : Buffer) : Crash :=
    .broken s!"arena: release of a buffer with capacity {b.capacity} not owned by this arena"

/-- Returns every block and large buffer to the source and starts anew. All are returned even when
some returns fail; the first fault is reported. -/
def close (a : Arena α) : Option Fault × Arena α :=
  let step := fun (r : Option Fault × Arena α) region =>
    let (fault, a) := r.2.giveBack region
    (r.1.or fault, a)
  let (fault, a) := (a.blocks.toList ++ a.large).foldl step (none, a)
  (fault, { a with
    blocks := #[], large := [], free := Array.replicate (classCount α) [], stats := {} })

def blockOf? (a : Arena α) (b : Buffer) : Option (Nat × Nat) :=
  if b.capacity = 0 then none
  else (a.blocks.idxOf? b.region).map (·, b.offset)

def locate (b : Buffer) (i : Int) : Action (Arena α) Nat :=
  if 0 ≤ i ∧ i < b.length then pure (b.offset + i.toNat) else Action.crash .outOfRange

def readAt (b : Buffer) (i : Int) : Action (Arena α) α := do
  let place ← locate b i
  Action.read fun a => (a.regions.getD b.region (.fresh 0)).get place

def writeAt (b : Buffer) (i : Int) (v : α) : Action (Arena α) Unit := do
  let place ← locate b i
  Action.modify fun a => { a with regions := a.regions.modify b.region (·.set place v) }

def fill (b : Buffer) (v : α) : Action (Arena α) Unit :=
  Action.modify fun a => { a with
    regions := a.regions.modify b.region fun r =>
      (List.range b.length).foldl (fun r i => r.set (b.offset + i) v) r }

def contents (a : Arena α) (b : Buffer) : List α :=
  (List.range b.length).map fun i => (a.regions.getD b.region (.fresh 0)).get (b.offset + i)

end Arena

end PlatterMachine
