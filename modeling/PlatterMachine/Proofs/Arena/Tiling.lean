import Mathlib.Data.Multiset.Bind
import PlatterMachine.Proofs.Arena.Answers
import PlatterMachine.Proofs.Arena.Contents

/-!
# Chunks tile the blocks

Every element of a block lies in exactly one chunk, which is free or lent, and every element of a
large region in the one large buffer that was lent there. Allocating and releasing move chunks
between the free lists and what is lent, carve new blocks, and open and close large regions; none of
it lets two buffers overlap or loses an element.
-/

namespace PlatterMachine

namespace Buffer

def Holds (b : Buffer) (r i : Nat) : Prop :=
  b.region = r ∧ b.offset ≤ i ∧ i < b.offset + b.capacity

instance (r i : Nat) : DecidablePred fun b : Buffer => b.Holds r i := fun b =>
  inferInstanceAs (Decidable (b.region = r ∧ b.offset ≤ i ∧ i < b.offset + b.capacity))

def Apart (b b' : Buffer) : Prop := ∀ r i, b.Holds r i → ¬ b'.Holds r i

variable (α : Type) [Element α]

def IsChunk (b : Buffer) : Prop := 0 < b.capacity ∧ b.capacity ≤ Arena.blockElems α

def IsLarge (b : Buffer) : Prop := Arena.blockElems α < b.capacity

instance : DecidablePred (IsChunk α) := fun b =>
  inferInstanceAs (Decidable (0 < b.capacity ∧ b.capacity ≤ Arena.blockElems α))

instance : DecidablePred (IsLarge α) := fun b =>
  inferInstanceAs (Decidable (Arena.blockElems α < b.capacity))

theorem not_holds_of_capacity_eq_zero {b : Buffer} (h : b.capacity = 0) (r i : Nat) :
    ¬ b.Holds r i := by
  intro hi
  have hlo := hi.2.1
  have hhi := hi.2.2
  omega

variable {α}

theorem IsChunk.not_isLarge {b : Buffer} (h : b.IsChunk α) : ¬ b.IsLarge α :=
  Nat.not_lt.mpr h.2

theorem not_isChunk_of_capacity_eq_zero {b : Buffer} (h : b.capacity = 0) : ¬ b.IsChunk α :=
  fun hb => Nat.lt_irrefl 0 (h ▸ hb.1)

theorem not_isLarge_of_capacity_eq_zero {b : Buffer} (h : b.capacity = 0) : ¬ b.IsLarge α :=
  fun hb => Nat.not_lt_zero _ (h ▸ hb : Arena.blockElems α < 0)

end Buffer

namespace Arena

variable {α : Type} [Element α] {a : Arena α} {b : Buffer} {live : Multiset Buffer}

def freeChunks (a : Arena α) : Multiset Buffer := (a.free.toList.flatten : Multiset Buffer)

def Keeps (a : Arena α) (r i : Nat) : Prop :=
  (r ∈ a.blocks ∧ i < blockElems α) ∨ (r ∈ a.large ∧ i < a.regionSize r)

instance (a : Arena α) (r i : Nat) : Decidable (a.Keeps r i) :=
  inferInstanceAs (Decidable ((r ∈ a.blocks ∧ i < blockElems α) ∨
    (r ∈ a.large ∧ i < a.regionSize r)))

structure Lent (a : Arena α) (b : Buffer) : Prop where
  length_le : b.length ≤ b.capacity
  chunk : b.IsChunk α →
    b.region ∈ a.blocks ∧ ∃ c, c < classCount α ∧ b.capacity = classElems α c
  large : b.IsLarge α →
    b.region ∈ a.large ∧ b.offset = 0 ∧ b.capacity = a.regionSize b.region

theorem Lent.of_capacity_eq_zero (hcap : b.capacity = 0) (hlen : b.length = 0) : a.Lent b where
  length_le := by omega
  chunk h := absurd h (Buffer.not_isChunk_of_capacity_eq_zero hcap)
  large h := absurd h (Buffer.not_isLarge_of_capacity_eq_zero hcap)

/-- A lent buffer stays one while its block or region stays in use. -/
theorem Lent.mono {a' : Arena α} (h : a.Lent b) (hblocks : ∀ r ∈ a.blocks, r ∈ a'.blocks)
    (hlarge : b.region ∈ a.large → b.region ∈ a'.large ∧
      a'.regionSize b.region = a.regionSize b.region) : a'.Lent b where
  length_le := h.length_le
  chunk hb := ⟨hblocks _ (h.chunk hb).1, (h.chunk hb).2⟩
  large hb := by
    obtain ⟨hmem, hzero, hcap⟩ := h.large hb
    exact ⟨(hlarge hmem).1, hzero, hcap.trans (hlarge hmem).2.symm⟩

structure Tiled (a : Arena α) (live : Multiset Buffer) : Prop where
  size_free : a.free.size = classCount α
  free : ∀ c chunks, a.free[c]? = some chunks → ∀ b ∈ chunks,
    b.capacity = classElems α c ∧ b.length = b.capacity ∧ b.region ∈ a.blocks
  lent : ∀ b ∈ live, a.Lent b
  /-- No element is lost, and none is in two buffers. -/
  once : ∀ r i, (a.freeChunks + live).countP (·.Holds r i) = if a.Keeps r i then 1 else 0
  nodup_blocks : a.blocks.toList.Nodup
  nodup_large : a.large.Nodup
  disjoint : ∀ r ∈ a.blocks, ¬ r ∈ a.large
  size_block : ∀ r ∈ a.blocks, r < a.regions.size ∧ a.regionSize r = blockElems α
  size_large : ∀ r ∈ a.large, r < a.regions.size
  /-- Whatever was obtained is in use or has been passed back. -/
  obtained : ∀ r, r < a.regions.size → r ∈ a.blocks ∨ r ∈ a.large ∨ r ∈ a.returned
  stats : a.stats = ⟨a.blocks.size, live.countP (·.IsLarge α), live.countP (·.IsChunk α)⟩

theorem tiled_new (source : BlockSource) : (new source : Arena α).Tiled 0 where
  size_free := Array.size_replicate
  free c chunks hc b hb := by
    rw [new, Array.getElem?_replicate] at hc
    split at hc
    · cases hc
      cases hb
    · cases hc
  lent b hb := nomatch hb
  once r i := by
    have hchunks : (new source : Arena α).freeChunks = 0 := by simp [freeChunks, new]
    rw [hchunks, if_neg (by simp [Keeps, new])]
    rfl
  nodup_blocks := List.nodup_nil
  nodup_large := List.nodup_nil
  disjoint r hr := by simp [new] at hr
  size_block r hr := by simp [new] at hr
  size_large r hr := nomatch hr
  obtained r hr := nomatch hr
  stats := rfl

/-- What memory holds does not matter. -/
theorem Tiled.congr {a' : Arena α} (h : a.Tiled live) (hfree : a'.free = a.free)
    (hblocks : a'.blocks = a.blocks) (hlarge : a'.large = a.large)
    (hreturned : a'.returned = a.returned) (hstats : a'.stats = a.stats)
    (hsize : a'.regions.size = a.regions.size)
    (hregion : ∀ r, a'.regionSize r = a.regionSize r) : a'.Tiled live where
  size_free := hfree ▸ h.size_free
  free := by
    rw [hfree, hblocks]
    exact h.free
  lent b hb := (h.lent b hb).mono (fun _ hr => hblocks ▸ hr) fun hr => ⟨hlarge ▸ hr, hregion _⟩
  once r i := by
    have hkeeps : a'.Keeps r i ↔ a.Keeps r i := by rw [Keeps, Keeps, hblocks, hlarge, hregion]
    rw [freeChunks, hfree, ← freeChunks, h.once, if_congr hkeeps rfl rfl]
  nodup_blocks := hblocks ▸ h.nodup_blocks
  nodup_large := hlarge ▸ h.nodup_large
  disjoint := by
    rw [hblocks, hlarge]
    exact h.disjoint
  size_block r hr := by
    rw [hsize, hregion]
    exact h.size_block r (hblocks ▸ hr)
  size_large r hr := by
    rw [hsize]
    exact h.size_large r (hlarge ▸ hr)
  obtained := by
    rw [hsize, hblocks, hlarge, hreturned]
    exact h.obtained
  stats := by
    rw [hstats, hblocks]
    exact h.stats

/-- Buffers that are lent hold elements that the arena keeps. -/
theorem Tiled.keeps_of_holds (h : a.Tiled live) (hb : b ∈ live) {r i : Nat} (hi : b.Holds r i) :
    a.Keeps r i := by
  by_contra hnot
  have hzero := h.once r i
  rw [if_neg hnot, Multiset.countP_eq_zero] at hzero
  exact hzero b (Multiset.mem_add.mpr (Or.inr hb)) hi

theorem Tiled.region_lt (h : a.Tiled live) (hb : b ∈ live) {r i : Nat} (hi : b.Holds r i) :
    r < a.regions.size := by
  rcases h.keeps_of_holds hb hi with ⟨hr, -⟩ | ⟨hr, -⟩
  · exact (h.size_block r hr).1
  · exact h.size_large r hr

/-- What is lent does not overlap. -/
theorem Tiled.apart (h : a.Tiled (b ::ₘ live)) {b' : Buffer} (hb' : b' ∈ live) : b.Apart b' := by
  intro r i hi hi'
  have hone := h.once r i
  rw [Multiset.countP_add, Multiset.countP_cons, if_pos hi] at hone
  have hpos : 0 < live.countP (·.Holds r i) := Multiset.countP_pos.mpr ⟨b', hb', hi'⟩
  split at hone <;> omega

theorem Tiled.cons_empty_iff (hcap : b.capacity = 0) (hlen : b.length = 0) :
    a.Tiled (b ::ₘ live) ↔ a.Tiled live := by
  have hlent := Lent.of_capacity_eq_zero (a := a) hcap hlen
  have honce (r i : Nat) : (a.freeChunks + b ::ₘ live).countP (·.Holds r i) =
      (a.freeChunks + live).countP (·.Holds r i) := by
    rw [Multiset.add_cons, Multiset.countP_cons,
      if_neg (Buffer.not_holds_of_capacity_eq_zero hcap r i), Nat.add_zero]
  have hstats : (b ::ₘ live).countP (·.IsLarge α) = live.countP (·.IsLarge α) ∧
      (b ::ₘ live).countP (·.IsChunk α) = live.countP (·.IsChunk α) :=
    ⟨Multiset.countP_cons_of_neg _ (Buffer.not_isLarge_of_capacity_eq_zero hcap),
      Multiset.countP_cons_of_neg _ (Buffer.not_isChunk_of_capacity_eq_zero hcap)⟩
  constructor
  · intro h
    refine { h with
      lent := fun b' hb' => h.lent b' (Multiset.mem_cons_of_mem hb')
      once := fun r i => honce r i ▸ h.once r i
      stats := ?_ }
    rw [h.stats, hstats.1, hstats.2]
  · intro h
    refine { h with
      lent := Multiset.forall_mem_cons.mpr ⟨hlent, h.lent⟩
      once := fun r i => (honce r i).trans (h.once r i)
      stats := ?_ }
    rw [h.stats, hstats.1, hstats.2]

/-- Exchanging one free list for another. -/
theorem chunks_setIfInBounds {free : Array (List Buffer)} {c : Nat} (hc : c < free.size)
    (chunks : List Buffer) :
    ((free.setIfInBounds c chunks).toList.flatten : Multiset Buffer) +
        (free.getD c [] : Multiset Buffer) =
      (free.toList.flatten : Multiset Buffer) + (chunks : Multiset Buffer) := by
  have hget : free.getD c [] = free[c] := by simp [Array.getD, hc]
  have hsplit : free.toList = free.toList.take c ++ ([free[c]] ++ free.toList.drop (c + 1)) := by
    rw [List.singleton_append, ← Array.getElem_toList, List.getElem_cons_drop,
      List.take_append_drop]
  rw [Array.toList_setIfInBounds, List.set_eq_take_append_cons_drop,
    if_pos (by simpa using hc), hget]
  conv => rhs; rw [hsplit]
  simp only [List.flatten_append, List.flatten_cons, List.flatten_nil, List.append_nil,
    ← Multiset.coe_add]
  ac_rfl

/-- Putting chunks in front of one free list. -/
theorem chunks_modify {free : Array (List Buffer)} {c : Nat} (hc : c < free.size)
    (chunks : List Buffer) :
    ((free.modify c (chunks ++ ·)).toList.flatten : Multiset Buffer) =
      (chunks : Multiset Buffer) + (free.toList.flatten : Multiset Buffer) := by
  have hmodify : free.modify c (chunks ++ ·) = free.setIfInBounds c (chunks ++ free.getD c []) := by
    apply Array.ext_getElem?
    intro j
    rw [Array.getElem?_modify, Array.getElem?_setIfInBounds]
    by_cases hcj : c = j
    · subst hcj
      simp [hc, Array.getD]
    · simp [hcj]
  have hset := chunks_setIfInBounds hc (chunks ++ free.getD c [])
  rw [← hmodify, ← Multiset.coe_add, ← add_assoc] at hset
  rw [add_right_cancel hset, Multiset.add_comm]

theorem Tiled.getElem?_free (h : a.Tiled live) {c : Nat} (hc : c < classCount α) :
    a.free[c]? = some (a.free.getD c []) := by
  have hlt : c < a.free.size := h.size_free ▸ hc
  rw [Array.getD_eq_getD_getElem?, Array.getElem?_eq_getElem hlt, Option.getD_some]

/-- The first chunk of a free list is lent. -/
theorem Tiled.taken [LawfulElement α] (h : a.Tiled live) {c n : Nat} {chunk : Buffer}
    {rest : List Buffer} (hc : c < classCount α) (hfree : a.free.getD c [] = chunk :: rest)
    (hn : n ≤ classElems α c) :
    Tiled { a with
      free := a.free.setIfInBounds c rest
      stats := { a.stats with chunksLive := a.stats.chunksLive + 1 } }
      ({ chunk with length := n } ::ₘ live) := by
  have hlt : c < a.free.size := h.size_free ▸ hc
  have hget := h.getElem?_free hc
  rw [hfree] at hget
  obtain ⟨hcap, -, hblock⟩ := h.free c _ hget chunk List.mem_cons_self
  have hchunk : ({ chunk with length := n } : Buffer).IsChunk α := by
    refine ⟨?_, ?_⟩
    · exact hcap ▸ classElems_pos α c
    · exact hcap ▸ classElems_le_blockElems α hc
  have hmoved : ((a.free.setIfInBounds c rest).toList.flatten : Multiset Buffer) + {chunk} =
      a.freeChunks := by
    have hset := chunks_setIfInBounds hlt rest
    rw [hfree, ← Multiset.cons_coe, ← Multiset.singleton_add, ← add_assoc] at hset
    exact add_right_cancel hset
  refine { h with
    size_free := by simpa using h.size_free
    free := fun c' chunks hc' b hb => ?_
    lent := Multiset.forall_mem_cons.mpr ⟨⟨?_, ?_, ?_⟩, fun b hb =>
      (h.lent b hb).mono (fun _ hr => hr) fun hr => ⟨hr, rfl⟩⟩
    once := fun r i => ?_
    stats := ?_ }
  · rw [Array.getElem?_setIfInBounds] at hc'
    split at hc'
    · rename_i hcc
      subst hcc
      cases hc'
      exact h.free c _ hget b (List.mem_cons_of_mem _ hb)
    · exact h.free c' chunks hc' b hb
  · exact hcap ▸ hn
  · exact fun _ => ⟨hblock, c, hc, hcap⟩
  · exact fun hlarge => absurd hlarge hchunk.not_isLarge
  · refine Eq.trans ?_ (h.once r i)
    have hcount := congrArg (Multiset.countP fun b => b.Holds r i) hmoved
    have hsame : ({ chunk with length := n } : Buffer).Holds r i ↔ chunk.Holds r i := Iff.rfl
    rw [← Multiset.cons_zero, Multiset.countP_add, Multiset.countP_cons, Multiset.countP_zero]
      at hcount
    simp only [Multiset.countP_add, Multiset.countP_cons, freeChunks, if_congr hsame rfl rfl]
      at hcount ⊢
    omega
  · rw [Multiset.countP_cons_of_pos _ hchunk, Multiset.countP_cons_of_neg _ hchunk.not_isLarge,
      h.stats]
    simp

theorem Tiled.lending [LawfulElement α] (h : a.Tiled live) {c n : Nat} {chunk : Buffer}
    {rest : List Buffer} (hc : c < classCount α) (hfree : a.free.getD c [] = chunk :: rest)
    (hn : n ≤ classElems α c) (zero : Bool) :
    (a.lending c n zero chunk rest).Tiled ({ chunk with length := n } ::ₘ live) := by
  refine (h.taken hc hfree hn).congr rfl rfl rfl rfl rfl (a.size_lending ..) fun r => ?_
  simp only [regionSize, Arena.lending]
  cases zero with
  | false => rfl
  | true =>
    rw [if_pos rfl, getD_modify]
    split <;> rfl

/-- A chunk that was lent goes back to the list of its class. -/
theorem Tiled.putBack (h : a.Tiled (b ::ₘ live)) {c : Nat} (hchunk : b.IsChunk α)
    (hc : c < classCount α) (hcap : b.capacity = classElems α c) :
    (a.shelve c b).Tiled live := by
  have hlt : c < a.free.size := h.size_free ▸ hc
  have hblock := ((h.lent b (Multiset.mem_cons_self b live)).chunk hchunk).1
  have hmoved : ((a.free.modify c ({ b with length := b.capacity } :: ·)).toList.flatten :
      Multiset Buffer) = { b with length := b.capacity } ::ₘ a.freeChunks :=
    chunks_modify hlt [{ b with length := b.capacity }]
  unfold Arena.shelve
  refine { h with
    size_free := by simpa using h.size_free
    free := fun c' chunks hc' b' hb' => ?_
    lent := fun b' hb' => (h.lent b' (Multiset.mem_cons_of_mem hb')).mono (fun _ hr => hr)
      fun hr => ⟨hr, rfl⟩
    once := fun r i => ?_
    stats := ?_ }
  · rcases mem_of_getElem?_modify (l := [_]) hc' hb' with ⟨old, hold, hb'⟩ | ⟨rfl, hb'⟩
    · exact h.free c' old hold b' hb'
    · cases List.mem_singleton.mp hb'
      exact ⟨hcap, rfl, hblock⟩
  · refine Eq.trans ?_ (h.once r i)
    have hsame : ({ b with length := b.capacity } : Buffer).Holds r i ↔ b.Holds r i := Iff.rfl
    rw [freeChunks, hmoved]
    simp only [Multiset.countP_add, Multiset.countP_cons, if_congr hsame rfl rfl]
    omega
  · rw [h.stats, Multiset.countP_cons_of_pos _ hchunk,
      Multiset.countP_cons_of_neg _ hchunk.not_isLarge]
    simp

/-- Every element of a block lies in one of the chunks that are carved from it. -/
theorem countP_carve [WordElement α] {c : Nat} (hc : c < classCount α) (region r i : Nat) :
    (carve α region c).countP (fun b => b.Holds r i) =
      if region = r ∧ i < blockElems α then 1 else 0 := by
  have hpos := classElems_pos α c
  obtain ⟨count, hcount⟩ := classElems_dvd_blockElems α hc
  have hdiv : blockElems α / classElems α c = count := by
    rw [hcount, Nat.mul_div_cancel_left _ hpos]
  have hholds (k : Nat) :
      (Buffer.mk region (k * classElems α c) (classElems α c) (classElems α c)).Holds r i ↔
        region = r ∧ k = i / classElems α c := by
    have hk : k = i / classElems α c ↔
        k * classElems α c ≤ i ∧ i < k * classElems α c + classElems α c := by
      rw [eq_comm, Nat.div_eq_iff hpos]
      omega
    rw [hk]
    rfl
  rw [carve, hdiv, List.countP_map]
  by_cases hr : region = r
  · have hlt : i < blockElems α ↔ i / classElems α c < count := by
      rw [Nat.div_lt_iff_lt_mul hpos, hcount, Nat.mul_comm]
    have hcongr : (List.range count).countP
        ((fun b : Buffer => decide (b.Holds r i)) ∘ fun k =>
          ⟨region, k * classElems α c, classElems α c, classElems α c⟩) =
        (List.range count).count (i / classElems α c) :=
      List.countP_congr fun k _ => by simpa [hr] using hholds k
    rw [hcongr, List.nodup_range.count]
    simp [hr, hlt]
  · rw [if_neg fun h => hr h.1, List.countP_eq_zero]
    intro k _
    simpa [hr] using hholds k

omit [Element α] in
theorem regionSize_push {a' : Arena α} {region : Region α}
    (h : a'.regions = a.regions.push region) (r : Nat) :
    a'.regionSize r = if r = a.regions.size then region.size else a.regionSize r := by
  rw [regionSize, h, getD_push]
  split <;> rfl

/-- Nothing is kept of a region that has not been obtained. -/
theorem Tiled.new_region (h : a.Tiled live) :
    ¬ a.regions.size ∈ a.blocks ∧ ¬ a.regions.size ∈ a.large :=
  ⟨fun hmem => Nat.lt_irrefl _ (h.size_block _ hmem).1,
    fun hmem => Nat.lt_irrefl _ (h.size_large _ hmem)⟩

theorem Tiled.keeps_carved (h : a.Tiled live) {a' : Arena α} {r i : Nat}
    (hregions : a'.regions = a.regions.push (.fresh (blockElems α)))
    (hblocks : a'.blocks = a.blocks.push a.regions.size) (hlarge : a'.large = a.large) :
    a'.Keeps r i ↔ (a.regions.size = r ∧ i < blockElems α) ∨ a.Keeps r i := by
  obtain ⟨hblock, hnew⟩ := h.new_region
  rw [Keeps, Keeps, regionSize_push hregions, hblocks, hlarge, Array.mem_push]
  by_cases hr : r = a.regions.size
  · subst hr
    simp [hblock, hnew]
  · simp [hr, Ne.symm hr]

theorem Tiled.keeps_opened (h : a.Tiled live) {a' : Arena α} {n r i : Nat}
    (hregions : a'.regions = a.regions.push (.fresh n)) (hblocks : a'.blocks = a.blocks)
    (hlarge : a'.large = a.regions.size :: a.large) :
    a'.Keeps r i ↔ (a.regions.size = r ∧ i < n) ∨ a.Keeps r i := by
  obtain ⟨hblock, hnew⟩ := h.new_region
  rw [Keeps, Keeps, regionSize_push hregions, hblocks, hlarge, List.mem_cons]
  by_cases hr : r = a.regions.size
  · subst hr
    simp [hblock, hnew, Region.fresh]
  · simp [hr, Ne.symm hr]

theorem Tiled.keeps_closed (h : a.Tiled live) {a' : Arena α} {region r i : Nat}
    (hmem : region ∈ a.large) (hregions : a'.regions = a.regions) (hblocks : a'.blocks = a.blocks)
    (hlarge : a'.large = a.large.erase region) :
    a'.Keeps r i ↔ region ≠ r ∧ a.Keeps r i := by
  rw [Keeps, Keeps, regionSize, hregions, hblocks, hlarge, ← regionSize]
  by_cases hr : region = r
  · subst hr
    have hblock : ¬ region ∈ a.blocks := fun hb => h.disjoint _ hb hmem
    simp [hblock, h.nodup_large.not_mem_erase]
  · simp [hr, List.mem_erase_of_ne (Ne.symm hr)]

/-- What is new in an arena is counted beside what it had. -/
theorem Tiled.count_new (h : a.Tiled live) {n r i : Nat} :
    (if a.regions.size = r ∧ i < n then 1 else 0) + (if a.Keeps r i then 1 else 0) =
      if (a.regions.size = r ∧ i < n) ∨ a.Keeps r i then 1 else 0 := by
  by_cases hr : a.regions.size = r ∧ i < n
  · have hnot : ¬ a.Keeps r i := by
      rw [← hr.1]
      rintro (⟨hmem, -⟩ | ⟨hmem, -⟩)
      · exact h.new_region.1 hmem
      · exact h.new_region.2 hmem
    rw [if_pos hr, if_neg hnot, if_pos (Or.inl hr)]
  · rw [if_neg hr, Nat.zero_add, if_congr (or_iff_right hr) rfl rfl]

/-- A new block is carved into chunks of one class. -/
theorem Tiled.carved [WordElement α] (h : a.Tiled live) {c : Nat} (hc : c < classCount α) :
    (a.refilled c).Tiled live := by
  obtain ⟨hnew, hlarge⟩ := h.new_region
  have hother {r : Nat} (hr : r < a.regions.size) :
      (regionSize { a with regions := a.regions.push (.fresh (blockElems α)) } r) =
        a.regionSize r := by
    rw [regionSize_push rfl, if_neg (Nat.ne_of_lt hr)]
  unfold Arena.refilled
  refine { h with
    size_free := by simpa using h.size_free
    free := fun c' chunks hc' b hb => ?_
    lent := fun b hb => (h.lent b hb).mono (fun _ hr => Array.mem_push_of_mem _ hr)
      fun hr => ⟨hr, hother (h.size_large _ hr)⟩
    once := fun r i => ?_
    nodup_blocks := ?_
    disjoint := fun r hr => ?_
    size_block := fun r hr => ?_
    size_large := fun r hr => ?_
    obtained := fun r hr => ?_
    stats := ?_ }
  · rcases mem_of_getElem?_modify hc' hb with ⟨old, hold, hb⟩ | ⟨rfl, hb⟩
    · obtain ⟨hcap, hlen, hmem⟩ := h.free c' old hold b hb
      exact ⟨hcap, hlen, Array.mem_push_of_mem _ hmem⟩
    · obtain ⟨k, -, rfl⟩ := List.mem_map.mp hb
      exact ⟨rfl, rfl, Array.mem_push_self⟩
  · have hfree : ((a.free.modify c (carve α a.regions.size c ++ ·)).toList.flatten :
        Multiset Buffer) = carve α a.regions.size c + a.freeChunks :=
      chunks_modify (h.size_free ▸ hc) _
    rw [freeChunks, hfree, add_assoc, Multiset.countP_add, h.once, Multiset.coe_countP,
      countP_carve hc, h.count_new]
    refine if_congr (Iff.symm ?_) rfl rfl
    exact h.keeps_carved rfl rfl rfl
  · rw [Array.toList_push, List.nodup_append]
    refine ⟨h.nodup_blocks, List.nodup_singleton _, fun r hr r' hr' heq => hnew ?_⟩
    rw [List.mem_singleton.mp hr'] at heq
    exact heq ▸ Array.mem_toList_iff.mp hr
  · rcases Array.mem_push.mp hr with hr | rfl
    · exact h.disjoint r hr
    · exact hlarge
  · rw [regionSize_push rfl, Array.size_push]
    rcases Array.mem_push.mp hr with hr | rfl
    · obtain ⟨hlt, hsize⟩ := h.size_block r hr
      exact ⟨by omega, by rw [if_neg (by omega), hsize]⟩
    · exact ⟨by omega, by rw [if_pos rfl]; rfl⟩
  · have hlt := h.size_large r hr
    rw [Array.size_push]
    omega
  · rw [Array.size_push] at hr
    by_cases heq : r = a.regions.size
    · exact Or.inl (heq ▸ Array.mem_push_self)
    · rcases h.obtained r (by omega) with hb | hrest
      · exact Or.inl (Array.mem_push_of_mem _ hb)
      · exact Or.inr hrest
  · rw [h.stats]
    simp

/-- A large buffer gets a region of its own. -/
theorem Tiled.opened (h : a.Tiled live) {n : Nat} (hn : blockElems α < n) :
    (a.opened n).Tiled (⟨a.regions.size, 0, n, n⟩ ::ₘ live) := by
  obtain ⟨hblock, hnew⟩ := h.new_region
  have hholds (r i : Nat) :
      (Buffer.mk a.regions.size 0 n n).Holds r i ↔ a.regions.size = r ∧ i < n := by
    simp [Buffer.Holds]
  have hlarge : (Buffer.mk a.regions.size 0 n n).IsLarge α := hn
  have hchunk : ¬ (Buffer.mk a.regions.size 0 n n).IsChunk α := fun hc => hc.not_isLarge hlarge
  unfold Arena.opened
  refine { h with
    lent := Multiset.forall_mem_cons.mpr ⟨⟨Nat.le_refl n, fun hc => absurd hc hchunk, fun _ => ?_⟩,
      fun b hb => (h.lent b hb).mono (fun _ hr => hr) fun hr => ⟨List.mem_cons_of_mem _ hr, ?_⟩⟩
    once := fun r i => ?_
    nodup_large := List.nodup_cons.mpr ⟨hnew, h.nodup_large⟩
    disjoint := fun r hr hmem => ?_
    size_block := fun r hr => ?_
    size_large := fun r hr => ?_
    obtained := fun r hr => ?_
    stats := ?_ }
  · refine ⟨List.mem_cons_self, rfl, ?_⟩
    rw [regionSize_push rfl, if_pos rfl]
    rfl
  · rw [regionSize_push rfl, if_neg (Nat.ne_of_lt (h.size_large _ hr))]
  · rw [Multiset.add_cons, Multiset.countP_cons, Nat.add_comm, if_congr (hholds r i) rfl rfl]
    refine (congrArg (_ + ·) (h.once r i)).trans (h.count_new.trans ?_)
    refine if_congr (Iff.symm ?_) rfl rfl
    exact h.keeps_opened rfl rfl rfl
  · rcases List.mem_cons.mp hmem with rfl | hmem
    · exact hblock hr
    · exact h.disjoint r hr hmem
  · obtain ⟨hlt, hsize⟩ := h.size_block r hr
    rw [regionSize_push rfl, Array.size_push, if_neg (Nat.ne_of_lt hlt)]
    exact ⟨Nat.lt_succ_of_lt hlt, hsize⟩
  · rw [Array.size_push]
    rcases List.mem_cons.mp hr with rfl | hr
    · exact Nat.lt_succ_self _
    · exact Nat.lt_succ_of_lt (h.size_large r hr)
  · rw [Array.size_push] at hr
    by_cases heq : r = a.regions.size
    · exact Or.inr (Or.inl (heq ▸ List.mem_cons_self))
    · rcases h.obtained r (by omega) with hb | hl | hreturned
      · exact Or.inl hb
      · exact Or.inr (Or.inl (List.mem_cons_of_mem _ hl))
      · exact Or.inr (Or.inr hreturned)
  · rw [Multiset.countP_cons_of_pos _ hlarge, Multiset.countP_cons_of_neg _ hchunk, h.stats]
    simp

/-- A large buffer and its region are passed back. -/
theorem Tiled.closed (h : a.Tiled (b ::ₘ live)) (hlarge : b.IsLarge α) :
    (a.passBack b.region).Tiled live := by
  obtain ⟨hmem, hzero, hcap⟩ := (h.lent b (Multiset.mem_cons_self b live)).large hlarge
  have hchunk : ¬ b.IsChunk α := fun hc => hc.not_isLarge hlarge
  have hholds (r i : Nat) : b.Holds r i ↔ b.region = r ∧ i < a.regionSize r := by
    rw [Buffer.Holds, hzero, hcap]
    constructor
    · rintro ⟨rfl, -, hi⟩
      exact ⟨rfl, by omega⟩
    · rintro ⟨rfl, hi⟩
      exact ⟨rfl, by omega, by omega⟩
  have hsub (r : Nat) (hr : r ∈ a.large.erase b.region) : r ∈ a.large := List.mem_of_mem_erase hr
  refine { h with
    lent := fun b' hb' => ?_
    once := fun r i => ?_
    nodup_large := h.nodup_large.erase _
    disjoint := fun r hr hl => h.disjoint r hr (hsub r hl)
    size_large := fun r hr => h.size_large r (hsub r hr)
    obtained := fun r hr => ?_
    stats := ?_ }
  · obtain ⟨hle, hc, hl⟩ := h.lent b' (Multiset.mem_cons_of_mem hb')
    refine ⟨hle, hc, fun hlarge' => ?_⟩
    obtain ⟨hmem', hzero', hcap'⟩ := hl hlarge'
    refine ⟨(List.mem_erase_of_ne fun heq => ?_).mpr hmem', hzero', hcap'⟩
    -- two large buffers in one region would both hold its first element
    have hpos : 0 < b'.capacity := Nat.zero_lt_of_lt hlarge'
    refine h.apart hb' b.region 0 ((hholds _ _).mpr ⟨rfl, ?_⟩) ⟨heq, ?_, ?_⟩
    · rw [← heq, ← hcap']
      exact hpos
    · omega
    · omega
  · have hone := h.once r i
    rw [Multiset.add_cons, Multiset.countP_cons] at hone
    change (a.freeChunks + live).countP _ = _
    have hkeeps : (a.passBack b.region).Keeps r i ↔ b.region ≠ r ∧ a.Keeps r i :=
      h.keeps_closed hmem rfl rfl rfl
    rw [if_congr hkeeps rfl rfl]
    by_cases hr : b.region = r
    · have hiff : b.Holds r i ↔ a.Keeps r i := by
        rw [hholds, Keeps]
        subst hr
        constructor
        · exact fun hh => Or.inr ⟨hmem, hh.2⟩
        · rintro (⟨hblock, -⟩ | ⟨-, hi⟩)
          · exact absurd hmem (h.disjoint _ hblock)
          · exact ⟨rfl, hi⟩
      rw [if_congr hiff rfl rfl] at hone
      rw [if_neg fun hh => hh.1 hr]
      omega
    · rw [if_neg fun hh => hr hh.1, Nat.add_zero] at hone
      rw [hone, if_congr (and_iff_right hr) rfl rfl]
  · rcases h.obtained r hr with hb | hl | hreturned
    · exact Or.inl hb
    · by_cases heq : r = b.region
      · exact Or.inr (Or.inr (heq ▸ Array.mem_push_self))
      · exact Or.inr (Or.inl ((List.mem_erase_of_ne heq).mpr hl))
    · exact Or.inr (Or.inr (Array.mem_push_of_mem _ hreturned))
  · rw [passBack, h.stats, Multiset.countP_cons_of_pos _ hlarge, Multiset.countP_cons_of_neg _ hchunk]
    simp

end Arena

end PlatterMachine
