import PlatterMachine.Proofs.Arena.Tiling

/-!
# Traffic with an arena

Buffers come and go, are written, and requests to the source fail or not. Whatever the traffic,
chunks tile the blocks; a request that is granted gets the smallest chunk that will do, apart from
all that is lent, and one that is not granted leaves the arena as it was.
-/

namespace PlatterMachine

namespace Arena

def inUse {α : Type} (a : Arena α) : Int × Int := (a.stats.chunksLive, a.stats.largeLive)

section Sizes

variable (α : Type) [Element α]

structure Suits (n capacity : Nat) : Prop where
  empty : n = 0 → capacity = 0
  chunk : 0 < n → n ≤ blockElems α → ∃ c, c < classCount α ∧ capacity = classElems α c ∧ n ≤ capacity ∧
    ∀ c', n ≤ classElems α c' → capacity ≤ classElems α c'
  large : blockElems α < n → capacity = n

theorem suits_classElems [WordElement α] {n c : Nat} (hpos : 0 < n) (h : classFor α n = some c) :
    Suits α n (classElems α c) where
  empty hn := absurd hn (Nat.ne_of_gt hpos)
  chunk _ _ := by
    obtain ⟨hc, hle⟩ := classFor_eq_some α h
    refine ⟨c, hc, rfl, hle, fun c' hc' => ?_⟩
    rw [classElems_eq, classElems_eq]
    exact Nat.pow_le_pow_right (by omega) (Nat.add_le_add_left (le_of_classFor α h hc') _)
  large hn := by
    rw [(classFor_eq_none_iff α).mpr hn] at h
    cases h

end Sizes

variable {α : Type} [Element α] {a : Arena α} {b : Buffer} {live : Multiset Buffer}

def Denied (a : Arena α) (elems : Nat) (o : Outcome Unit) (a' : Arena α) : Prop :=
  a' = a.turnedDown ∧ a.response elems = o

structure Grants (a : Arena α) (n : Nat) (zero : Bool) (b : Buffer) (a' : Arena α) : Prop where
  length : b.length = n
  capacity : Suits α n b.capacity
  kept : ∀ r i, ¬ b.Holds r i → a'.cell r i = a.cell r i
  zeroed : zero → ∀ i, i < n → a'.cell b.region (b.offset + i) = Element.zero
  source : a'.source = a.source

theorem cell_push {a' : Arena α} {elems : Nat} (h : a'.regions = a.regions.push (.fresh elems))
    (r i : Nat) : a'.cell r i = a.cell r i := by
  rw [cell, cell, h, getD_push]
  split
  · rename_i hr
    rw [hr, Array.getD_eq_getD_getElem?, Array.getElem?_eq_none (Nat.le_refl _)]
    simp
  · rfl

/-- A chunk is cleared as far as it is to hold elements, and nothing else is. -/
theorem cell_lending (a : Arena α) (c n : Nat) (zero : Bool) {chunk : Buffer} (rest : List Buffer)
    (hregion : chunk.region < a.regions.size) (r i : Nat) :
    (a.lending c n zero chunk rest).cell r i =
      if zero ∧ chunk.region = r ∧ chunk.offset ≤ i ∧ i < chunk.offset + n then Element.zero
      else a.cell r i := by
  cases zero with
  | false => simp [lending, cell]
  | true =>
    simp only [cell, lending, if_true, getD_modify, true_and]
    by_cases hr : chunk.region = r
    · simp only [hr, hr ▸ hregion, and_self, if_true, Region.get_clear, true_and]
    · rw [if_neg fun h => hr h.1, if_neg fun h => hr h.1]

theorem Tiled.grants_lending [WordElement α] (h : a.Tiled live) {c n : Nat} {chunk : Buffer}
    {rest : List Buffer} (hpos : 0 < n) (hclass : classFor α n = some c)
    (hfree : a.free.getD c [] = chunk :: rest) (zero : Bool) :
    a.Grants n zero { chunk with length := n } (a.lending c n zero chunk rest) := by
  obtain ⟨hc, hle⟩ := classFor_eq_some α hclass
  have hget := h.getElem?_free hc
  rw [hfree] at hget
  obtain ⟨hcap, -, hblock⟩ := h.free c _ hget chunk List.mem_cons_self
  have hcell := a.cell_lending c n zero rest (h.size_block _ hblock).1
  refine ⟨rfl, ?_, fun r i hnot => ?_, fun hzero i hi => ?_, rfl⟩
  · change Suits α n chunk.capacity
    rw [hcap]
    exact suits_classElems α hpos hclass
  · refine (hcell r i).trans (if_neg fun hi => hnot ⟨hi.2.1, hi.2.2.1, ?_⟩)
    exact Nat.lt_of_lt_of_le hi.2.2.2 (Nat.add_le_add_left (hcap ▸ hle) _)
  · exact (hcell _ _).trans
      (if_pos ⟨hzero, rfl, Nat.le_add_right _ _, Nat.add_lt_add_left hi _⟩)

/-- A block that has just been carved looks like memory that was never there. -/
theorem Grants.of_refilled {c n : Nat} {zero : Bool} {a' : Arena α}
    (h : (a.refilled c).Grants n zero b a') : a.Grants n zero b a' where
  length := h.length
  capacity := h.capacity
  kept r i hi := (h.kept r i hi).trans (cell_push rfl r i)
  zeroed := h.zeroed
  source := h.source

theorem grants_opened (a : Arena α) {n : Nat} (hn : blockElems α < n) (zero : Bool) :
    a.Grants n zero ⟨a.regions.size, 0, n, n⟩ (a.opened n) := by
  refine ⟨rfl, ⟨fun hzero => ?_, fun _ hle => ?_, fun _ => rfl⟩, fun r i _ => cell_push rfl r i,
    fun _ i _ => ?_, rfl⟩
  · omega
  · exact absurd hle (Nat.not_le.mpr hn)
  · -- a region that was not there before reads as zeros
    refine (cell_push (a := a) rfl _ _).trans ?_
    rw [cell, Array.getD_eq_getD_getElem?, Array.getElem?_eq_none (Nat.le_refl _)]
    simp

theorem grants_empty (a : Arena α) (zero : Bool) : a.Grants 0 zero .empty a where
  length := rfl
  capacity := ⟨fun _ => rfl, fun hpos => absurd hpos (Nat.lt_irrefl 0), nofun⟩
  kept _ _ _ := rfl
  zeroed _ i hi := absurd hi (Nat.not_lt_zero i)
  source := rfl

theorem ends_alloc_of_answers [WordElement α] (hfree : a.free.size = classCount α) {n : Int}
    (hbytes : n * Element.bytes α < signedLimit) (zero : Bool) {post : Buffer → Arena α → Prop}
    (hgranted : ∀ b a', a.Answers n zero (.done b, a') → post b a') :
    (alloc n zero).ends post
      (fun _ a' => (n < 0 ∧ a' = a) ∨ ∃ fault, a.Denied (asked α n.toNat) (.failed fault) a')
      (fun crash => a.Denied (asked α n.toNat) (.crashed crash)) a := by
  have hanswers := a.answers_alloc hbytes zero
  unfold Action.ends
  rcases halloc : alloc n zero a with ⟨b | fault | crash, a'⟩ <;> rw [halloc] at hanswers
  · exact hgranted b a' hanswers
  · cases hanswers with
    | negative _ hn => exact .inl ⟨hn, rfl⟩
    | failed k fault _ hn hpos hresponse =>
      subst hn
      exact .inr ⟨fault, rfl, askedByClass_eq α k ▸ hresponse⟩
  · cases hanswers with
    | crashed k _ hn hpos hresponse =>
      subst hn
      exact ⟨rfl, askedByClass_eq α k ▸ hresponse⟩
    | unlisted k c hn hclass hnone =>
      have hc := (classFor_eq_some α hclass).1
      exact absurd hnone (getD_modify_carve_ne_nil α hc (hfree ▸ hc) _)

/-- A request for a sensible size is granted, or the source has denied it. -/
theorem Tiled.ends_alloc [WordElement α] (h : a.Tiled live) {n : Int}
    (hbytes : n * Element.bytes α < signedLimit) (zero : Bool) :
    (alloc n zero).ends
      (fun b a' => 0 ≤ n ∧ a'.Tiled (b ::ₘ live) ∧ a.Grants n.toNat zero b a')
      (fun _ a' => (n < 0 ∧ a' = a) ∨ ∃ fault, a.Denied (asked α n.toNat) (.failed fault) a')
      (fun crash => a.Denied (asked α n.toNat) (.crashed crash)) a := by
  refine ends_alloc_of_answers h.size_free hbytes zero fun b a' hanswers => ?_
  cases hanswers with
  | empty hn =>
    subst hn
    exact ⟨Int.le_refl 0, (Tiled.cons_empty_iff rfl rfl).mpr h, a.grants_empty zero⟩
  | large k hn hpos hclass =>
    subst hn
    have hk := (classFor_eq_none_iff α).mp hclass
    exact ⟨by omega, h.opened hk, a.grants_opened hk zero⟩
  | chunk k c chunk rest hn hpos hclass hfree =>
    subst hn
    obtain ⟨hc, hle⟩ := classFor_eq_some α hclass
    exact ⟨by omega, h.lending hc hfree hle zero, h.grants_lending hpos hclass hfree zero⟩
  | carved k c chunk rest hn hpos hclass hfree =>
    subst hn
    obtain ⟨hc, hle⟩ := classFor_eq_some α hclass
    have hcarved := h.carved hc
    exact ⟨by omega, hcarved.lending hc hfree hle zero,
      (hcarved.grants_lending hpos hclass hfree zero).of_refilled⟩

theorem Tiled.ends_release [WordElement α] (h : a.Tiled (b ::ₘ live)) :
    (release b).ends
      (fun _ a' => a'.Tiled live ∧ a'.regions = a.regions ∧ a'.source = a.source)
      (fun _ _ => False)
      (fun _ a' => (a'.Tiled live ∧ a'.regions = a.regions ∧ a'.source = a.source) ∧
        a.source.refusal a.returned.size ≠ none) a := by
  have hlent := h.lent b (Multiset.mem_cons_self b live)
  -- what has room and starts no large region is a chunk
  have hchunk (hcap : b.capacity ≠ 0) (hnot : ¬ a.StartsLarge b) : b.IsChunk α := by
    refine ⟨Nat.pos_of_ne_zero hcap, Nat.le_of_not_lt fun hlarge => hnot ?_⟩
    obtain ⟨hmem, hzero, -⟩ := hlent.large hlarge
    exact ⟨hzero, hmem⟩
  have hlarge (hcap : b.capacity ≠ 0) (hstarts : a.StartsLarge b) : b.IsLarge α := by
    by_contra hnot
    have hblock := (hlent.chunk ⟨Nat.pos_of_ne_zero hcap, Nat.le_of_not_lt hnot⟩).1
    exact h.disjoint _ hblock hstarts.2
  have htaken := a.taken_release b
  unfold Action.ends
  generalize Arena.release b a = r at htaken ⊢
  cases htaken with
  | nothing hcap =>
    have hlen : b.length = 0 := Nat.le_zero.mp (hcap ▸ hlent.length_le)
    exact ⟨(Tiled.cons_empty_iff hcap hlen).mp h, rfl, rfl⟩
  | large hcap hstarts hrefusal => exact ⟨h.closed (hlarge hcap hstarts), rfl, rfl⟩
  | stuck fault hcap hstarts hrefusal =>
    refine ⟨⟨h.closed (hlarge hcap hstarts), rfl, rfl⟩, ?_⟩
    rw [hrefusal]
    exact Option.some_ne_none fault
  | chunk c hnot hc hsize =>
    have hcap : b.capacity ≠ 0 := hsize ▸ Nat.ne_of_gt (classElems_pos α c)
    exact ⟨h.putBack (hchunk hcap hnot) hc hsize, rfl, rfl⟩
  | refused hcap hnot hsize => exact absurd (hlent.chunk (hchunk hcap hnot)).2 hsize

theorem Tiled.release [WordElement α] (h : a.Tiled (b ::ₘ live)) :
    (release b a).2.Tiled live ∧ (release b a).2.regions = a.regions ∧
      (release b a).2.source = a.source := by
  have hends := h.ends_release
  rcases hx : Arena.release b a with ⟨_ | _ | _, a'⟩ <;> simp only [Action.ends, hx] at hends ⊢
  · exact hends
  · exact hends.1

theorem Tiled.holds_of_lt (h : a.Tiled live) (hb : b ∈ live) {i : Nat} (hi : i < b.length) :
    b.Holds b.region (b.offset + i) := by
  have hle := (h.lent b hb).length_le
  exact ⟨rfl, by omega, by omega⟩

/-- Changes that stay within one buffer do not show in another. -/
theorem Tiled.contents_eq (h : a.Tiled live) {a' : Arena α} {b' : Buffer} (hb' : b' ∈ live)
    (hkept : ∀ r i, ¬ b.Holds r i → a'.cell r i = a.cell r i) (hapart : b.Apart b') :
    a'.contents b' = a.contents b' := by
  apply contents_congr
  intro i hi
  apply hkept
  intro hholds
  exact hapart _ _ hholds (h.holds_of_lt hb' hi)

theorem Grants.contents_zero {a' : Arena α} {n : Nat} (h : a.Grants n true b a') :
    a'.contents b = List.replicate n Element.zero := by
  refine List.ext_getElem ?_ fun i hi _ => ?_
  · simp [contents, h.length]
  · have hlt : i < n := by simpa [contents, h.length] using hi
    simp only [contents, List.getElem_replicate, List.getElem_map, List.getElem_range]
    exact h.zeroed rfl i hlt

theorem Tiled.contents_writeAt (h : a.Tiled live) (hb : b ∈ live) {i : Nat} (hi : i < b.length)
    (v : α) : (writeAt b i v a).2.contents b = (a.contents b).set i v := by
  have hlt := h.region_lt hb (h.holds_of_lt hb hi)
  have hcell (j : Nat) : (writeAt b i v a).2.cell b.region (b.offset + j) =
      if i = j then v else a.cell b.region (b.offset + j) := by
    rw [cell_writeAt]
    exact if_congr ⟨fun hh => by omega, fun hh => by omega⟩ rfl rfl
  refine List.ext_getElem (by simp [contents]) fun j hj _ => ?_
  rw [List.getElem_set]
  simp only [contents, List.getElem_map, List.getElem_range]
  exact hcell j

theorem Tiled.kept_writeAt (h : a.Tiled live) (hb : b ∈ live) (i : Int) (v : α) {r j : Nat}
    (hnot : ¬ b.Holds r j) : (writeAt b i v a).2.cell r j = a.cell r j := by
  rw [cell_writeAt]
  refine if_neg ?_
  rintro ⟨hi, hr, -, hj⟩
  have hholds := h.holds_of_lt hb (show i.toNat < b.length by omega)
  exact hnot (hr ▸ hj ▸ hholds)

/-- `Traffic a live a' live'`: from `a`, with `live` lent, clients get to `a'`, with `live'`
lent. They release what they hold and write to it, and ask for more, in any order. -/
inductive Traffic (a : Arena α) (live : Multiset Buffer) : Arena α → Multiset Buffer → Prop
  | refl : Traffic a live a live
  | granted {a₁ : Arena α} {live₁ : Multiset Buffer} {n : Int} {zero : Bool} {b : Buffer} :
      Traffic a live a₁ live₁ → n * Element.bytes α < signedLimit →
      (alloc n zero a₁).1 = .done b → Traffic a live (alloc n zero a₁).2 (b ::ₘ live₁)
  | denied {a₁ : Arena α} {live₁ : Multiset Buffer} {n : Int} {zero : Bool} :
      Traffic a live a₁ live₁ → n * Element.bytes α < signedLimit →
      (∀ b, (alloc n zero a₁).1 ≠ .done b) → Traffic a live (alloc n zero a₁).2 live₁
  | released {a₁ : Arena α} {live₁ : Multiset Buffer} {b : Buffer} :
      Traffic a live a₁ (b ::ₘ live₁) → Traffic a live (release b a₁).2 live₁
  | written {a₁ : Arena α} {live₁ : Multiset Buffer} {b : Buffer} {i : Int} {v : α} :
      Traffic a live a₁ live₁ → b ∈ live₁ → Traffic a live (writeAt b i v a₁).2 live₁

theorem Denied.tiled {a' : Arena α} {elems : Nat} {o : Outcome Unit} (hd : a.Denied elems o a')
    (h : a.Tiled live) : a'.Tiled live ∧ a'.source = a.source := by
  rw [hd.1]
  exact ⟨h.congr rfl rfl rfl rfl rfl rfl fun _ => rfl, rfl⟩

theorem Tiled.writeAt (h : a.Tiled live) (b : Buffer) (i : Int) (v : α) :
    (writeAt b i v a).2.Tiled live ∧ (writeAt b i v a).2.source = a.source := by
  obtain ⟨regions, heq, hsize, hregion⟩ := writeAt_eq a b i v
  rw [heq]
  exact ⟨h.congr rfl rfl rfl rfl rfl hsize hregion, rfl⟩

/-- Every step of the traffic keeps the tiling, and so does all of it. -/
theorem Traffic.tiled [WordElement α] {a' : Arena α} {live' : Multiset Buffer}
    (ht : Traffic a live a' live') (h : a.Tiled live) :
    a'.Tiled live' ∧ a'.source = a.source := by
  induction ht with
  | refl => exact ⟨h, rfl⟩
  | granted _ hn hb ih =>
    obtain ⟨-, htiled, hgrants⟩ :=
      (Action.ends_of_done (Prod.ext hb rfl)).mp (ih.1.ends_alloc hn _)
    exact ⟨htiled, hgrants.source.trans ih.2⟩
  | @denied a₁ live₁ n zero _ hn hnot ih =>
    obtain ⟨htiled, hsource⟩ := ih
    have hends := htiled.ends_alloc hn zero
    rcases hx : alloc n zero a₁ with ⟨b | fault | crash, a₂⟩ <;>
      simp only [Action.ends, hx] at hends hnot ⊢
    · exact absurd rfl (hnot b)
    · rcases hends with ⟨-, rfl⟩ | ⟨_, hd⟩
      · exact ⟨htiled, hsource⟩
      · exact ⟨(hd.tiled htiled).1, (hd.tiled htiled).2.trans hsource⟩
    · exact ⟨(hends.tiled htiled).1, (hends.tiled htiled).2.trans hsource⟩
  | released _ ih =>
    obtain ⟨htiled, -, hsource⟩ := ih.1.release
    exact ⟨htiled, hsource.trans ih.2⟩
  | written _ _ ih =>
    obtain ⟨htiled, hsource⟩ := ih.1.writeAt _ _ _
    exact ⟨htiled, hsource.trans ih.2⟩

theorem Traffic.trans {a₁ a₂ : Arena α} {live₁ live₂ : Multiset Buffer}
    (h₁ : Traffic a live a₁ live₁) (h₂ : Traffic a₁ live₁ a₂ live₂) : Traffic a live a₂ live₂ := by
  induction h₂ with
  | refl => exact h₁
  | granted _ hn hb ih => exact ih.granted hn hb
  | denied _ hn hnot ih => exact ih.denied hn hnot
  | released _ ih => exact ih.released
  | written _ hb ih => exact ih.written hb

/-- Clients need not know what else is lent. -/
theorem Traffic.frame {a' : Arena α} {live' : Multiset Buffer} (h : Traffic a live a' live')
    (rest : Multiset Buffer) : Traffic a (live + rest) a' (live' + rest) := by
  induction h with
  | refl => exact .refl
  | granted _ hn hb ih =>
    rw [Multiset.cons_add]
    exact ih.granted hn hb
  | denied _ hn hnot ih => exact ih.denied hn hnot
  | released _ ih =>
    rw [Multiset.cons_add] at ih
    exact ih.released
  | written _ hb ih => exact ih.written (Multiset.mem_add.mpr (Or.inl hb))

def put (b : Buffer) : (start : Nat) → List α → Arena α → Arena α
  | _, [], a => a
  | start, v :: elems, a => put b (start + 1) elems (writeAt b start v a).2

theorem Traffic.put {a₀ : Arena α} {live₀ : Multiset Buffer} (h : Traffic a₀ live₀ a live)
    (hb : b ∈ live) (start : Nat) (elems : List α) :
    Traffic a₀ live₀ (a.put b start elems) live := by
  induction elems generalizing a start with
  | nil => exact h
  | cons v elems ih => exact ih (h.written hb) (start + 1)

theorem pairwise_apart {bs : List Buffer} (h : ∀ r i, bs.countP (·.Holds r i) ≤ 1) :
    bs.Pairwise Buffer.Apart := by
  induction bs with
  | nil => exact List.Pairwise.nil
  | cons b bs ih =>
    refine List.Pairwise.cons (fun b' hb' r i hi hi' => ?_) (ih fun r i => ?_)
    · have hone := h r i
      have hpos : 0 < bs.countP (·.Holds r i) :=
        List.countP_pos_iff.mpr ⟨b', hb', decide_eq_true hi'⟩
      rw [List.countP_cons, if_pos (decide_eq_true hi)] at hone
      omega
    · refine Nat.le_trans ?_ (h r i)
      exact List.Sublist.countP_le (List.sublist_cons_self b bs)

/-- Free or lent, no two buffers overlap. -/
theorem Tiled.pairwise_apart (h : a.Tiled live) :
    (a.freeChunks + live).Pairwise Buffer.Apart := by
  refine ⟨(a.freeChunks + live).toList, (Multiset.coe_toList _).symm, Arena.pairwise_apart ?_⟩
  intro r i
  have hone := h.once r i
  rw [← Multiset.coe_toList (a.freeChunks + live), Multiset.coe_countP] at hone
  rw [hone]
  split <;> omega

structure Serves (a : Arena α) (source : BlockSource) (live : Multiset Buffer) : Prop where
  tiled : a.Tiled live
  /-- Free or lent, no two buffers overlap. -/
  apart : (a.freeChunks + live).Pairwise Buffer.Apart
  /-- A request is granted by a buffer of that length and the smallest capacity, apart from all
  that is lent, or it has been denied and leaves no trace. -/
  grants : ∀ (n : Int) (zero : Bool), n * Element.bytes α < signedLimit →
    (alloc n zero).ends
      (fun b a' => ((b.length : Int) = n ∧ Suits α b.length b.capacity) ∧
        (∀ b' ∈ live, b.Apart b' ∧ a'.contents b' = a.contents b') ∧
        (zero → a'.contents b = List.replicate b.length Element.zero))
      (fun _ a' => (n < 0 ∨ ∃ fault, source.request a.requests
          (asked α n.toNat * Element.bytes α : Nat) = .failed fault) ∧
        ∃ requests, a' = { a with requests })
      (fun crash _ => source.request a.requests
        (asked α n.toNat * Element.bytes α : Nat) = .crashed crash) a
  /-- What is written to one buffer does not show in another. -/
  writes : ∀ b rest, live = b ::ₘ rest → ∀ (i : Nat) (v : α), i < b.length →
    ∃ a', writeAt b i v a = (.done (), a') ∧ a'.contents b = (a.contents b).set i v ∧
      ∀ b' ∈ rest, a'.contents b' = a.contents b'
  releases : ∀ b rest, live = b ::ₘ rest → source.refusal a.returned.size = none →
    ∃ a', release b a = (.done (), a') ∧ ∀ b' ∈ rest, a'.contents b' = a.contents b'

/-- However buffers have come and gone, whatever was written to them, and whichever requests to the
source have failed: chunks tile the blocks, and the arena serves its clients. -/
theorem serves_of_traffic [WordElement α] {source : BlockSource}
    (h : Traffic (new source : Arena α) 0 a live) : a.Serves source live := by
  obtain ⟨htiled, hsource⟩ := h.tiled (tiled_new source)
  replace hsource : a.source = source := hsource
  refine ⟨htiled, htiled.pairwise_apart, fun n zero hbytes => ?_, ?_, ?_⟩
  · refine (htiled.ends_alloc hbytes zero).imp ?_ ?_ ?_
    · rintro b a' - ⟨hn, htiled', hgrants⟩
      have hlen := hgrants.length
      refine ⟨⟨by omega, hlen ▸ hgrants.capacity⟩, fun b' hb' => ?_, ?_⟩
      · have hapart := htiled'.apart hb'
        exact ⟨hapart, htiled.contents_eq hb' hgrants.kept hapart⟩
      · rintro rfl
        rw [hlen]
        exact hgrants.contents_zero
    · rintro fault a' (⟨hneg, rfl⟩ | ⟨fault', rfl, hrequest⟩)
      · exact ⟨Or.inl hneg, _, rfl⟩
      · exact ⟨Or.inr ⟨fault', hsource ▸ hrequest⟩, _, rfl⟩
    · rintro crash a' ⟨-, hrequest⟩
      exact hsource ▸ hrequest
  · rintro b rest rfl i v hi
    have hb := Multiset.mem_cons_self b rest
    refine ⟨(writeAt b i v a).2, ?_, htiled.contents_writeAt hb hi v, fun b' hb' => ?_⟩
    · have hrange : 0 ≤ (i : Int) ∧ (i : Int) < b.length := by omega
      rw [writeAt, locate, if_pos hrange]
      rfl
    · exact htiled.contents_eq (Multiset.mem_cons_of_mem hb')
        (fun r j hnot => htiled.kept_writeAt hb i v hnot) (htiled.apart hb')
  · rintro b rest rfl hrefusal
    have hends := htiled.ends_release
    rcases hx : Arena.release b a with ⟨_ | _ | _, a'⟩ <;> simp only [Action.ends, hx] at hends
    · refine ⟨a', rfl, fun b' _ => ?_⟩
      simp only [contents, hends.2.1]
    · exact absurd (hsource ▸ hrefusal) hends.2

/-- An arena whose first request was denied, and which then lent half a block and a large
buffer. -/
def busy : Arena UInt32 :=
  (alloc 300000 false (alloc 100000 false
    (alloc 100000 false (new (.failing .mapped [0] []))).2).2).2

theorem traffic_busy : Traffic (new (.failing .mapped [0] [])) 0 busy
    {⟨1, 0, 300000, 300000⟩, ⟨0, 0, 100000, 131072⟩} := by
  have hdenied : Traffic (new (.failing .mapped [0] []) : Arena UInt32) 0
      (alloc 100000 false (new (.failing .mapped [0] []))).2 0 := by
    refine .denied .refl (by decide) ?_
    intro b hb
    cases hb
  exact .granted (.granted hdenied (by decide) rfl) (by decide) rfl

def reused : Arena UInt32 :=
  (alloc 70000 true (release ⟨0, 0, 100000, 131072⟩
    (writeAt ⟨0, 0, 100000, 131072⟩ 7 9 busy).2).2).2

theorem serves_of_traffic_reused :
    Traffic (new (.failing .mapped [0] [])) 0 reused
      {⟨0, 0, 70000, 131072⟩, ⟨1, 0, 300000, 300000⟩} ∧
    reused.Serves (.failing .mapped [0] [])
      {⟨0, 0, 70000, 131072⟩, ⟨1, 0, 300000, 300000⟩} := by
  have hwritten : Traffic (new (.failing .mapped [0] [])) 0
      (writeAt ⟨0, 0, 100000, 131072⟩ 7 9 busy).2
      {⟨0, 0, 100000, 131072⟩, ⟨1, 0, 300000, 300000⟩} := by
    rw [Multiset.pair_comm]
    exact .written traffic_busy (by decide)
  have htraffic : Traffic (new (.failing .mapped [0] [])) 0 reused
      {⟨0, 0, 70000, 131072⟩, ⟨1, 0, 300000, 300000⟩} :=
    .granted (.released hwritten) (by decide) rfl
  exact ⟨htraffic, serves_of_traffic htraffic⟩

end Arena

end PlatterMachine
