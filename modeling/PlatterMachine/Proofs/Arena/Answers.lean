import PlatterMachine.Proofs.Action
import PlatterMachine.Proofs.Arena.Classes

/-!
# What an arena answers

All that asking an arena for memory can come to, and all that giving something back to it can. What
holds of arenas however they are used is a case analysis of the two.
-/

namespace PlatterMachine

def Buffer.IsClassSized (α : Type) [Element α] (b : Buffer) : Prop :=
  ∃ c, c < Arena.classCount α ∧ b.capacity = Arena.classElems α c

namespace Arena

section Sizes

variable (α : Type) [Element α]

def asked (n : Nat) : Nat := max n (blockElems α)

def askedByClass (n : Nat) : Nat := ((classFor α n).map fun _ => blockElems α).getD n

theorem askedByClass_eq [WordElement α] (n : Nat) : askedByClass α n = asked α n := by
  unfold askedByClass
  cases hclass : classFor α n with
  | none =>
    have hn := (classFor_eq_none_iff α).mp hclass
    exact (Nat.max_eq_left (Nat.le_of_lt hn)).symm
  | some c =>
    obtain ⟨hc, hle⟩ := classFor_eq_some α hclass
    exact (Nat.max_eq_right (Nat.le_trans hle (classElems_le_blockElems α hc))).symm

theorem blockElems_mul_bytes_lt : blockElems α * Element.bytes α < signedLimit :=
  Nat.lt_of_le_of_lt (Nat.div_mul_le_self _ _) (by decide)

end Sizes

variable {α : Type} [Element α] {a : Arena α} {b : Buffer}

def turnedDown (a : Arena α) : Arena α := { a with requests := a.requests + 1 }

def refilled (a : Arena α) (c : Nat) : Arena α :=
  { a with
    requests := a.requests + 1
    regions := a.regions.push (.fresh (blockElems α))
    blocks := a.blocks.push a.regions.size
    free := a.free.modify c (carve α a.regions.size c ++ ·)
    stats := { a.stats with blocks := a.stats.blocks + 1 } }

def lending (a : Arena α) (c n : Nat) (zero : Bool) (chunk : Buffer) (rest : List Buffer) : Arena α :=
  { a with
    free := a.free.setIfInBounds c rest
    regions := if zero then a.regions.modify chunk.region (·.clear chunk.offset n) else a.regions
    stats := { a.stats with chunksLive := a.stats.chunksLive + 1 } }

@[simp] theorem size_lending (a : Arena α) (c n : Nat) (zero : Bool) (chunk : Buffer)
    (rest : List Buffer) :
    (a.lending c n zero chunk rest).regions.size = a.regions.size := by
  unfold lending
  split
  · exact Array.size_modify
  · rfl

def opened (a : Arena α) (n : Nat) : Arena α :=
  { a with
    requests := a.requests + 1
    regions := a.regions.push (.fresh n)
    large := a.regions.size :: a.large
    stats := { a.stats with largeLive := a.stats.largeLive + 1 } }

def response (a : Arena α) (n : Nat) : Outcome Unit :=
  a.source.request a.requests (n * Element.bytes α : Nat)

/-- All that asking for `n` elements can come to. -/
inductive Answers (a : Arena α) (n : Int) (zero : Bool) : Outcome Buffer × Arena α → Prop
  | negative (fault : Fault) (hn : n < 0) : Answers a n zero (.failed fault, a)
  | empty (hn : n = 0) : Answers a n zero (.done .empty, a)
  | failed (k : Nat) (fault fault' : Fault) (hn : n = k) (hpos : 0 < k)
      (hresponse : a.response (askedByClass α k) = .failed fault) :
      Answers a n zero (.failed fault', a.turnedDown)
  | crashed (k : Nat) (crash : Crash) (hn : n = k) (hpos : 0 < k)
      (hresponse : a.response (askedByClass α k) = .crashed crash) :
      Answers a n zero (.crashed crash, a.turnedDown)
  | large (k : Nat) (hn : n = k) (hpos : 0 < k) (hclass : classFor α k = none) :
      Answers a n zero (.done ⟨a.regions.size, 0, k, k⟩, a.opened k)
  | chunk (k c : Nat) (chunk : Buffer) (rest : List Buffer) (hn : n = k) (hpos : 0 < k)
      (hclass : classFor α k = some c) (hfree : a.free.getD c [] = chunk :: rest) :
      Answers a n zero (.done { chunk with length := k }, a.lending c k zero chunk rest)
  | carved (k c : Nat) (chunk : Buffer) (rest : List Buffer) (hn : n = k) (hpos : 0 < k)
      (hclass : classFor α k = some c) (hfree : (a.refilled c).free.getD c [] = chunk :: rest) :
      Answers a n zero (.done { chunk with length := k }, (a.refilled c).lending c k zero chunk rest)
  | unlisted (k c : Nat) (hn : n = k) (hclass : classFor α k = some c)
      (hfree : (a.refilled c).free.getD c [] = []) :
      Answers a n zero (.crashed .outOfRange, a.refilled c)

theorem wrapResource_obtain_eq [LawfulElement α] (a : Arena α) {elems : Nat}
    (hbytes : elems * Element.bytes α < signedLimit) (message : String) :
    wrapResource message (obtain elems) a =
      match a.response elems with
      | .done () => (.done a.regions.size,
          { a.turnedDown with regions := a.regions.push (.fresh elems) })
      | .failed fault => (.failed (.wrapped .resource message fault), a.turnedDown)
      | .crashed crash => (.crashed crash, a.turnedDown) := by
  have hsize := byteSize_eq α hbytes
  have hdiv : (byteSize α elems).toNat / Element.bytes α = elems := by
    rw [hsize, Int.toNat_natCast, Nat.mul_div_cancel _ LawfulElement.bytes_pos]
  have hresponse : a.source.request a.requests (byteSize α elems) = a.response elems := by
    rw [hsize, response]
  unfold wrapResource obtain
  simp only [hresponse, hdiv]
  cases a.response elems <;> rfl

theorem take_eq {c : Nat} {chunk : Buffer} {rest : List Buffer}
    (hfree : a.free.getD c [] = chunk :: rest) (n : Nat) (zero : Bool) :
    take c n zero a = (.done { chunk with length := n }, a.lending c n zero chunk rest) := by
  simp only [take, hfree]
  rfl

theorem refill_eq [LawfulElement α] (a : Arena α) (c : Nat) :
    refill c a =
      match a.response (blockElems α) with
      | .done () => (.done (), a.refilled c)
      | .failed fault =>
        (.failed (.wrapped .resource "arena: failed to obtain block" fault), a.turnedDown)
      | .crashed crash => (.crashed crash, a.turnedDown) := by
  have hobtain := a.wrapResource_obtain_eq (blockElems_mul_bytes_lt α)
    "arena: failed to obtain block"
  unfold refill
  cases hresponse : a.response (blockElems α) <;> rw [hresponse] at hobtain
  · rw [Action.bind_done hobtain]
    rfl
  · rw [Action.bind_failed hobtain]
  · rw [Action.bind_crashed hobtain]

theorem allocLarge_eq [LawfulElement α] (a : Arena α) {n : Nat}
    (hbytes : n * Element.bytes α < signedLimit) :
    allocLarge n a =
      match a.response n with
      | .done () => (.done ⟨a.regions.size, 0, n, n⟩, a.opened n)
      | .failed fault =>
        (.failed (.wrapped .resource s!"arena: failed to allocate {n} elements" fault), a.turnedDown)
      | .crashed crash => (.crashed crash, a.turnedDown) := by
  have hobtain := a.wrapResource_obtain_eq hbytes s!"arena: failed to allocate {n} elements"
  have hsize : ¬ ((a.regions.push (.fresh n)).getD a.regions.size (.fresh 0)).size < n := by
    simp [Array.getD_eq_getD_getElem?, Region.fresh]
  unfold allocLarge
  cases hresponse : a.response n <;> rw [hresponse] at hobtain
  · rw [Action.bind_done hobtain, Action.read_bind_apply]
    dsimp only
    rw [if_neg hsize]
    rfl
  · rw [Action.bind_failed hobtain]
  · rw [Action.bind_crashed hobtain]

theorem answers_alloc [LawfulElement α] (a : Arena α) {n : Int}
    (hbytes : n * Element.bytes α < signedLimit) (zero : Bool) :
    a.Answers n zero (alloc n zero a) := by
  unfold alloc
  split
  · rename_i hneg
    exact .negative _ hneg
  split
  · rename_i hzero
    exact .empty hzero
  rename_i hneg hzero
  obtain ⟨k, rfl⟩ := Int.eq_ofNat_of_zero_le (Int.not_lt.mp hneg)
  have hpos : 0 < k := by omega
  rw [Int.toNat_natCast]
  cases hclass : classFor α k with
  | none =>
    have hasked : askedByClass α k = k := by simp [askedByClass, hclass]
    dsimp only
    rw [a.allocLarge_eq (by exact_mod_cast hbytes)]
    cases hresponse : a.response k with
    | done _ => exact .large k rfl hpos hclass
    | failed fault => exact .failed k fault _ rfl hpos (by rw [hasked, hresponse])
    | crashed crash => exact .crashed k crash rfl hpos (by rw [hasked, hresponse])
  | some c =>
    have hasked : askedByClass α k = blockElems α := by simp [askedByClass, hclass]
    dsimp only
    rw [Action.read_bind_apply]
    cases hfree : a.free.getD c [] with
    | cons chunk rest =>
      change a.Answers k zero (take c k zero a)
      rw [take_eq hfree]
      exact .chunk k c chunk rest rfl hpos hclass hfree
    | nil =>
      change a.Answers k zero ((refill c >>= fun _ => take c k zero) a)
      have hrefill := a.refill_eq c
      cases hresponse : a.response (blockElems α) with
      | failed fault =>
        rw [hresponse] at hrefill
        rw [Action.bind_failed hrefill]
        exact .failed k fault _ rfl hpos (by rw [hasked, hresponse])
      | crashed crash =>
        rw [hresponse] at hrefill
        rw [Action.bind_crashed hrefill]
        exact .crashed k crash rfl hpos (by rw [hasked, hresponse])
      | done _ =>
        rw [hresponse] at hrefill
        rw [Action.bind_done hrefill]
        cases hrefilled : (a.refilled c).free.getD c [] with
        | cons chunk rest =>
          rw [take_eq hrefilled]
          exact .carved k c chunk rest rfl hpos hclass hrefilled
        | nil =>
          rw [take, hrefilled]
          exact .unlisted k c rfl hclass hrefilled

def StartsLarge (a : Arena α) (b : Buffer) : Prop := b.offset = 0 ∧ b.region ∈ a.large

def shelve (a : Arena α) (c : Nat) (b : Buffer) : Arena α :=
  { a with
    free := a.free.modify c ({ b with length := b.capacity } :: ·)
    stats := { a.stats with chunksLive := a.stats.chunksLive - 1 } }

def passBack (a : Arena α) (r : Nat) : Arena α :=
  { a with
    large := a.large.erase r
    returned := a.returned.push r
    stats := { a.stats with largeLive := a.stats.largeLive - 1 } }

inductive Taken (a : Arena α) (b : Buffer) : Outcome Unit × Arena α → Prop
  | nothing (hcap : b.capacity = 0) : Taken a b (.done (), a)
  | large (hcap : b.capacity ≠ 0) (hlarge : a.StartsLarge b)
      (hrefusal : a.source.refusal a.returned.size = none) :
      Taken a b (.done (), a.passBack b.region)
  | stuck (fault : Fault) (hcap : b.capacity ≠ 0) (hlarge : a.StartsLarge b)
      (hrefusal : a.source.refusal a.returned.size = some fault) :
      Taken a b (.crashed (.broken ("arena: failed to release large allocation: " ++
        fault.message)), a.passBack b.region)
  | chunk (c : Nat) (hnot : ¬ a.StartsLarge b) (hc : c < classCount α)
      (hsize : b.capacity = classElems α c) : Taken a b (.done (), a.shelve c b)
  | refused (hcap : b.capacity ≠ 0) (hnot : ¬ a.StartsLarge b) (hsize : ¬ b.IsClassSized α) :
      Taken a b (.crashed (release.notOwned b), a)

theorem taken_release (a : Arena α) (b : Buffer) : a.Taken b (release b a) := by
  unfold release
  split
  · rename_i hcap
    exact .nothing hcap
  rename_i hcap
  split
  · rename_i hlarge
    simp only [giveBack]
    cases hrefusal : a.source.refusal a.returned.size with
    | none => exact .large hcap hlarge hrefusal
    | some fault => exact .stuck fault hcap hlarge hrefusal
  · rename_i hnot
    split
    · rename_i c hclass
      split
      · rename_i hsize
        exact .chunk c hnot (classFor_eq_some α hclass).1 hsize.symm
      · rename_i hsize
        refine .refused hcap hnot ?_
        rintro ⟨c', hc', hcap'⟩
        apply hsize
        rw [hcap', classFor_classElems α hc', Option.some.injEq] at hclass
        rw [← hclass, hcap']
    · rename_i hclass
      refine .refused hcap hnot ?_
      rintro ⟨c', hc', hcap'⟩
      rw [hcap', classFor_classElems α hc'] at hclass
      cases hclass

end Arena

end PlatterMachine
