import PlatterMachine.Proofs.Arena.Returns

/-!
# Borrowing for a while

However an arena has been used, and misused, each free list holds chunks of its own class, and none
of them is known as a large buffer. So whatever is borrowed can be given back at once, and then the
counters of what is in use stand where they stood. A request that is not granted does not move them
at all.
-/

namespace PlatterMachine.Arena

variable {α : Type} [Element α] {a a' : Arena α} {b : Buffer} {op : Op}

def Op.Within (a : Arena α) : Op → Prop
  | release b => b.region < a.regions.size
  | _ => True

/-- Arenas that have been asked for this and that, and written to. -/
inductive Used : Arena α → Prop
  | new (source : BlockSource) : Used (new source)
  | perform {a : Arena α} (op : Op) (h : Used a) (hfits : op.Fits α) (hwithin : op.Within a) :
      Used (a.perform op).2
  | writeAt {a : Arena α} (b : Buffer) (i : Int) (v : α) (h : Used a) : Used (writeAt b i v a).2

structure Shelved (a : Arena α) (c : Nat) (chunk : Buffer) : Prop where
  capacity : chunk.capacity = classElems α c
  region_lt : chunk.region < a.regions.size
  notLarge : ¬ (chunk.offset = 0 ∧ chunk.region ∈ a.large)

structure Orderly (a : Arena α) : Prop where
  size_free : a.free.size = classCount α
  chunks : ∀ c, ∀ chunk ∈ a.free.getD c [], a.Shelved c chunk
  large_lt : ∀ r ∈ a.large, r < a.regions.size

theorem Orderly.of_free (h : a.Orderly) (hsize : a'.free.size = a.free.size)
    (hlarge : a'.large ⊆ a.large) (hregions : a.regions.size ≤ a'.regions.size)
    (hfree : ∀ c, ∀ chunk ∈ a'.free.getD c [], chunk ∈ a.free.getD c [] ∨ a'.Shelved c chunk) :
    a'.Orderly where
  size_free := hsize.trans h.size_free
  chunks c chunk hchunk := by
    rcases hfree c chunk hchunk with hold | hnew
    · obtain ⟨hcap, hlt, hnot⟩ := h.chunks c chunk hold
      exact ⟨hcap, Nat.lt_of_lt_of_le hlt hregions, fun hb => hnot ⟨hb.1, hlarge hb.2⟩⟩
    · exact hnew
  large_lt r hr := Nat.lt_of_lt_of_le (h.large_lt r (hlarge hr)) hregions

theorem Orderly.of_regions (h : a.Orderly) (hfree : a'.free = a.free) (hlarge : a'.large = a.large)
    (hregions : a.regions.size ≤ a'.regions.size) : a'.Orderly := by
  apply h.of_free (congrArg Array.size hfree) (fun r hr => hlarge ▸ hr) hregions
  intro c chunk hchunk
  rw [hfree] at hchunk
  exact .inl hchunk

theorem orderly_of_empty (hfree : a.free = Array.replicate (classCount α) [])
    (hlarge : a.large = []) : a.Orderly where
  size_free := by rw [hfree, Array.size_replicate]
  chunks c chunk hchunk := by
    rw [hfree, Array.getD_eq_getD_getElem?, Array.getElem?_replicate] at hchunk
    split at hchunk <;> cases hchunk
  large_lt r hr := by
    rw [hlarge] at hr
    cases hr

theorem Orderly.turnedDown (h : a.Orderly) : a.turnedDown.Orderly :=
  h.of_regions rfl rfl (Nat.le_refl _)

theorem Orderly.refilled (h : a.Orderly) (c : Nat) : (a.refilled c).Orderly := by
  refine h.of_free Array.size_modify (List.Subset.refl _) (by simp [Arena.refilled]) ?_
  intro c' chunk hchunk
  rcases mem_getD_modify hchunk with hold | ⟨rfl, hnew⟩
  · exact .inl hold
  · -- the region of the new chunks was not there before
    obtain ⟨i, -, rfl⟩ := List.mem_map.mp hnew
    refine .inr ⟨rfl, by simp [Arena.refilled], fun hb => ?_⟩
    exact Nat.lt_irrefl _ (h.large_lt _ hb.2)

theorem Orderly.lending (h : a.Orderly) {c : Nat} {chunk : Buffer} {rest : List Buffer}
    (hfree : a.free.getD c [] = chunk :: rest) (n : Nat) (zero : Bool) :
    (a.lending c n zero chunk rest).Orderly := by
  refine h.of_free Array.size_setIfInBounds (List.Subset.refl _)
    (Nat.le_of_eq (a.size_lending ..).symm) ?_
  exact fun c' chunk' hchunk => .inl (mem_getD_of_setIfInBounds hfree hchunk)

theorem Orderly.opened (h : a.Orderly) (n : Nat) : (a.opened n).Orderly where
  size_free := h.size_free
  chunks c chunk hchunk := by
    obtain ⟨hcap, hlt, hnot⟩ := h.chunks c chunk hchunk
    refine ⟨hcap, Nat.lt_of_lt_of_le hlt (by simp [Arena.opened]), fun hb => ?_⟩
    rcases List.mem_cons.mp hb.2 with hnew | hold
    · exact Nat.ne_of_lt hlt hnew
    · exact hnot ⟨hb.1, hold⟩
  large_lt r hr := by
    change r < (a.regions.push _).size
    rw [Array.size_push]
    rcases List.mem_cons.mp hr with rfl | hold
    · exact Nat.lt_succ_self _
    · exact Nat.lt_succ_of_lt (h.large_lt r hold)

theorem Orderly.passBack (h : a.Orderly) (r : Nat) : (a.passBack r).Orderly :=
  h.of_free rfl List.erase_subset (Nat.le_refl _) fun _ _ => .inl

theorem Orderly.shelve (h : a.Orderly) {c : Nat} (hb : b.region < a.regions.size)
    (hsize : b.capacity = classElems α c) (hnot : ¬ a.StartsLarge b) : (a.shelve c b).Orderly := by
  refine h.of_free Array.size_modify (List.Subset.refl _) (Nat.le_refl _) fun c' chunk hchunk => ?_
  change chunk ∈ (a.free.modify c ([{ b with length := b.capacity }] ++ ·)).getD c' [] at hchunk
  rcases mem_getD_modify hchunk with hold | ⟨rfl, hnew⟩
  · exact .inl hold
  · cases List.mem_singleton.mp hnew
    exact .inr ⟨hsize, hb, hnot⟩

theorem Orderly.release (h : a.Orderly) (hb : b.region < a.regions.size) :
    (release b a).2.Orderly := by
  have htaken := a.taken_release b
  generalize Arena.release b a = r at htaken ⊢
  cases htaken with
  | nothing hcap => exact h
  | large hcap hlarge hrefusal => exact h.passBack b.region
  | stuck fault hcap hlarge hrefusal => exact h.passBack b.region
  | chunk c hnot hc hsize => exact h.shelve hb hsize hnot
  | refused hcap hnot hsize => exact h

/-- What it takes for `b`, lent on the way from `a` to `a'`, to be taken back. -/
inductive Borrowed (a : Arena α) (b : Buffer) (a' : Arena α) : Prop
  | empty (hcap : b.capacity = 0) (hinUse : a'.inUse = a.inUse)
  | chunk (c : Nat) (hc : c < classCount α) (hcap : b.capacity = classElems α c)
      (hnot : ¬ (b.offset = 0 ∧ b.region ∈ a'.large))
      (hinUse : a'.inUse = (a.inUse.1 + 1, a.inUse.2))
  | large (hcap : b.capacity ≠ 0) (hoffset : b.offset = 0) (hregion : b.region ∈ a'.large)
      (hinUse : a'.inUse = (a.inUse.1, a.inUse.2 + 1))

structure Hands (a : Arena α) (n : Nat) (b : Buffer) (a' : Arena α) : Prop where
  orderly : a'.Orderly
  source_eq : a'.source = a.source
  length_eq : b.length = n
  borrowed : a.Borrowed b a'

theorem Orderly.hands_lending (h : a.Orderly) {c n : Nat} {chunk : Buffer} {rest : List Buffer}
    (hc : c < classCount α) (hfree : a.free.getD c [] = chunk :: rest) (zero : Bool) :
    a.Hands n { chunk with length := n } (a.lending c n zero chunk rest) := by
  have hshelved := h.chunks c chunk (by rw [hfree]; exact List.mem_cons_self)
  exact ⟨h.lending hfree n zero, rfl, rfl, .chunk c hc hshelved.capacity hshelved.notLarge rfl⟩

/-- A request is granted, and what is lent can be taken back, or the source has denied it. -/
theorem Orderly.ends_alloc [WordElement α] (h : a.Orderly) {n : Int}
    (hbytes : n * Element.bytes α < signedLimit) (zero : Bool) :
    (alloc n zero).ends
      (a.Hands n.toNat)
      (fun _ a' => (n < 0 ∧ a' = a) ∨ ∃ fault, a.Denied (asked α n.toNat) (.failed fault) a')
      (fun crash => a.Denied (asked α n.toNat) (.crashed crash)) a := by
  refine ends_alloc_of_answers h.size_free hbytes zero fun b a' hanswers => ?_
  cases hanswers with
  | empty hn =>
    subst hn
    exact ⟨h, rfl, rfl, .empty rfl rfl⟩
  | large k hn hpos hclass =>
    subst hn
    exact ⟨h.opened k, rfl, rfl, .large (Nat.ne_of_gt hpos) rfl List.mem_cons_self rfl⟩
  | chunk k c chunk rest hn hpos hclass hfree =>
    subst hn
    exact h.hands_lending (classFor_eq_some α hclass).1 hfree zero
  | carved k c chunk rest hn hpos hclass hfree =>
    subst hn
    -- carving a block moves no counter of what is in use
    obtain ⟨horderly, hsource, hlength, hborrowed⟩ :=
      (h.refilled c).hands_lending (classFor_eq_some α hclass).1 hfree zero
    refine ⟨horderly, hsource, hlength, ?_⟩
    cases hborrowed with
    | empty hcap hinUse => exact .empty hcap hinUse
    | chunk c hc hcap hnot hinUse => exact .chunk c hc hcap hnot hinUse
    | large hcap hoffset hregion hinUse => exact .large hcap hoffset hregion hinUse

/-- The source grants the one request that `n` elements may take. -/
def Granted (a : Arena α) (n : Nat) : Prop :=
  a.source.request a.requests (asked α n * Element.bytes α : Nat) = .done ()

theorem Denied.not_granted {n : Nat} {o : Outcome Unit} (h : a.Denied (asked α n) o a')
    (hne : o ≠ .done ()) : ¬ a.Granted n :=
  fun hgranted => hne (h.2.symm.trans hgranted)

theorem Denied.inUse_eq {elems : Nat} {o : Outcome Unit} (h : a.Denied elems o a') :
    a'.inUse = a.inUse := by
  rw [h.1]
  rfl

theorem Denied.orderly {elems : Nat} {o : Outcome Unit} (hd : a.Denied elems o a')
    (h : a.Orderly) : a'.Orderly := by
  rw [hd.1]
  exact h.turnedDown

/-- What was just borrowed is taken back, and the counters with it. -/
theorem Borrowed.ends_release (hb : a.Borrowed b a') (hreturns : ∀ k, a'.source.refusal k = none) :
    (release b).ends (fun _ a'' => a''.inUse = a.inUse) (fun _ _ => False) (fun _ _ => False)
      a' := by
  have htaken := a'.taken_release b
  unfold Action.ends
  generalize Arena.release b a' = r at htaken ⊢
  cases hb with
  | empty hcap hinUse =>
    cases htaken with
    | nothing _ => exact hinUse
    | large hcap' _ _ => exact absurd hcap hcap'
    | stuck _ hcap' _ _ => exact absurd hcap hcap'
    | chunk c _ _ hsize => exact absurd (hsize.symm.trans hcap) (Nat.ne_of_gt (classElems_pos α c))
    | refused hcap' _ _ => exact absurd hcap hcap'
  | chunk c hc hcap hnot hinUse =>
    cases htaken with
    | nothing hcap' => exact absurd (hcap.symm.trans hcap') (Nat.ne_of_gt (classElems_pos α c))
    | large _ hlarge _ => exact absurd hlarge hnot
    | stuck _ _ hlarge _ => exact absurd hlarge hnot
    | chunk c _ _ _ =>
      simp only [inUse, shelve, Prod.mk.injEq] at hinUse ⊢
      omega
    | refused _ _ hsize => exact absurd ⟨c, hc, hcap⟩ hsize
  | large hcap hoffset hregion hinUse =>
    have hlarge : a'.StartsLarge b := ⟨hoffset, hregion⟩
    cases htaken with
    | nothing hcap' => exact absurd hcap' hcap
    | large _ _ _ =>
      simp only [inUse, passBack, Prod.mk.injEq] at hinUse ⊢
      omega
    | stuck fault _ _ hrefusal => cases (hreturns _).symm.trans hrefusal
    | chunk _ hnot _ _ => exact absurd hlarge hnot
    | refused _ hnot _ => exact absurd hlarge hnot

theorem Orderly.perform [WordElement α] (h : a.Orderly) (hfits : op.Fits α)
    (hwithin : op.Within a) : (a.perform op).2.Orderly := by
  cases op with
  | alloc n zero =>
    have hends := h.ends_alloc hfits zero
    change (alloc n zero a).2.Orderly
    rcases hx : alloc n zero a with ⟨_ | _ | _, a'⟩ <;> simp only [Action.ends, hx] at hends ⊢
    · exact hends.1
    · rcases hends with ⟨-, rfl⟩ | ⟨_, hdenied⟩
      · exact h
      · exact hdenied.orderly h
    · exact hends.orderly h
  | release b => exact h.release hwithin
  | foreign elems => exact h.of_regions rfl rfl (by simp [Arena.perform, foreign])
  | close =>
    rw [Arena.perform, close_eq]
    exact orderly_of_empty rfl rfl

theorem Used.orderly [WordElement α] (h : a.Used) : a.Orderly := by
  induction h with
  | new source => exact orderly_of_empty rfl rfl
  | perform op _ hfits hwithin ih => exact ih.perform hfits hwithin
  | @writeAt a b i v _ ih =>
    obtain ⟨regions, heq, hsize, -⟩ := writeAt_eq a b i v
    rw [heq]
    exact ih.of_regions rfl rfl (Nat.le_of_eq hsize.symm)

end PlatterMachine.Arena
