import PlatterMachine.Action

/-!
# Block sources

An arena asks a source for memory and gives it back. The source is known by which requests and
which returns fail; a request that succeeds yields fresh, zeroed memory of its own.
-/

namespace PlatterMachine

structure BlockSource where
  /-- What request number `k`, counted from 0, for `bytes` bytes comes to. -/
  request : (k : Nat) → (bytes : Int) → Outcome Unit
  /-- The fault of return number `k`, if it fails. -/
  refusal : (k : Nat) → Option Fault

namespace BlockSource

/-- Bytes beyond which memory cannot be addressed at all. -/
def addressable : Nat := 1 <<< 48

/-- Bytes beyond which the system maps nothing. -/
def mappable : Nat := 1 <<< 47

/-- Mapped memory; only requests for nothing or beyond any address space fail. -/
def mapped : BlockSource where
  request _ bytes :=
    let refuse := fun reason =>
      .failed (.wrapped .context s!"failed to mmap {bytes} bytes" (.plain reason))
    if bytes ≤ 0 then refuse "invalid argument"
    else if bytes < mappable then .done ()
    else refuse "cannot allocate memory"
  refusal _ := none

def heap : BlockSource where
  request _ bytes := if 0 ≤ bytes ∧ bytes ≤ addressable then .done () else .crashed .outOfRange
  refusal _ := none

/-- `source`, except that the listed requests and returns fail. -/
def failing (source : BlockSource) (requests returns : List Nat) : BlockSource where
  request k bytes :=
    if k ∈ requests then .failed (.plain "out of memory") else source.request k bytes
  refusal k := if k ∈ returns then some (.plain "unmap failed") else source.refusal k

end BlockSource

end PlatterMachine
