import Mathlib.Data.Multiset.Count
import PlatterMachine.Proofs.Arena.Answers

/-!
# Lending memory

An arena lends the buffers that it has handed out and not got back. As long as its source grants
every request of a sensible size, allocation succeeds and adds to what is lent, and a buffer that is
lent can be released.
-/

namespace PlatterMachine

structure BlockSource.Reliable (s : BlockSource) : Prop where
  grants : ∀ (k : Nat) (bytes : Int), 0 < bytes → bytes < mappable → s.request k bytes = .done ()
  accepts : ∀ k, s.refusal k = none

theorem BlockSource.mapped_reliable : mapped.Reliable where
  grants k bytes hpos hlt := by
    rw [mapped]
    simp only [if_neg (Int.not_le.mpr hpos), if_pos hlt]
  accepts _ := rfl

namespace Arena

variable {α : Type} [Element α] {a : Arena α} {b : Buffer} {live : Multiset Buffer}

def IsChunk (a : Arena α) (c : Nat) (b : Buffer) : Prop :=
  b.capacity = classElems α c ∧ b.region < a.regions.size ∧ ¬ b.region ∈ a.large

structure Lends (a : Arena α) (live : Multiset Buffer) : Prop where
  reliable : a.source.Reliable
  size_free : a.free.size = classCount α
  free : ∀ c, ∀ b ∈ a.free.getD c [], a.IsChunk c b
  large_lt : ∀ r ∈ a.large, r < a.regions.size
  nodup : a.large.Nodup
  owned : ∀ b ∈ live, b.capacity ≠ 0 → a.StartsLarge b ∨ ∃ c, c < classCount α ∧ a.IsChunk c b
  apart : ∀ r ∈ a.large, live.countP (fun b => b.capacity ≠ 0 ∧ b.region = r) ≤ 1

theorem lends_new {source : BlockSource} (h : source.Reliable) : (new source : Arena α).Lends 0 where
  reliable := h
  size_free := Array.size_replicate
  free c b hb := by
    rw [new, Array.getD_eq_getD_getElem?, Array.getElem?_replicate] at hb
    split at hb <;> cases hb
  large_lt r hr := nomatch hr
  nodup := List.nodup_nil
  owned b hb := nomatch hb
  apart r hr := nomatch hr

theorem Lends.lt_of_mem (h : a.Lends live) (hb : b ∈ live) (hcap : b.capacity ≠ 0) :
    b.region < a.regions.size := by
  rcases h.owned b hb hcap with hlarge | ⟨c, -, hchunk⟩
  · exact h.large_lt _ hlarge.2
  · exact hchunk.2.1

/-- More regions do no harm. -/
theorem Lends.of_regions {a' : Arena α} (h : a.Lends live) (hsource : a'.source = a.source)
    (hfree : a'.free = a.free) (hlarge : a'.large = a.large)
    (hle : a.regions.size ≤ a'.regions.size) : a'.Lends live where
  reliable := hsource ▸ h.reliable
  size_free := hfree ▸ h.size_free
  free c b hb := by
    rw [hfree] at hb
    obtain ⟨hcap, hlt, hnot⟩ := h.free c b hb
    exact ⟨hcap, Nat.lt_of_lt_of_le hlt hle, hlarge ▸ hnot⟩
  large_lt r hr := Nat.lt_of_lt_of_le (h.large_lt r (hlarge ▸ hr)) hle
  nodup := hlarge ▸ h.nodup
  owned b hb hcap := by
    rcases h.owned b hb hcap with ⟨hzero, hmem⟩ | ⟨c, hc, hcap', hlt, hnot⟩
    · exact Or.inl ⟨hzero, hlarge ▸ hmem⟩
    · exact Or.inr ⟨c, hc, hcap', Nat.lt_of_lt_of_le hlt hle, hlarge ▸ hnot⟩
  apart := hlarge ▸ h.apart

/-- Nothing of a buffer without capacity is accounted for. -/
theorem Lends.cons_of_capacity_eq_zero (h : a.Lends live) (hcap : b.capacity = 0) :
    a.Lends (b ::ₘ live) where
  reliable := h.reliable
  size_free := h.size_free
  free := h.free
  large_lt := h.large_lt
  nodup := h.nodup
  owned b' hb' hcap' := by
    rcases Multiset.mem_cons.mp hb' with rfl | hmem
    · exact absurd hcap hcap'
    · exact h.owned b' hmem hcap'
  apart r hr := by
    rw [Multiset.countP_cons_of_neg _ (fun hp => hp.1 hcap)]
    exact h.apart r hr

theorem Lends.of_cons (h : a.Lends (b ::ₘ live)) : a.Lends live where
  reliable := h.reliable
  size_free := h.size_free
  free := h.free
  large_lt := h.large_lt
  nodup := h.nodup
  owned b' hb' := h.owned b' (Multiset.mem_cons_of_mem hb')
  apart r hr := Nat.le_trans (Multiset.countP_le_of_le _ (Multiset.le_cons_self _ _)) (h.apart r hr)

theorem Lends.response_eq [LawfulElement α] (h : a.Lends live) {n : Nat} (hpos : 0 < n)
    (hn : n * Element.bytes α < BlockSource.mappable) : a.response n = .done () := by
  refine h.reliable.grants _ _ ?_ (Int.ofNat_lt.mpr hn)
  exact Int.natCast_pos.mpr (Nat.mul_pos hpos LawfulElement.bytes_pos)

theorem Lends.response_asked [LawfulElement α] (h : a.Lends live) {n : Nat} (hpos : 0 < n)
    (hn : n * Element.bytes α < BlockSource.mappable) : a.response (askedByClass α n) = .done () := by
  unfold askedByClass
  cases classFor α n with
  | none => exact h.response_eq hpos hn
  | some c =>
    exact h.response_eq (blockElems_pos α) (Nat.lt_of_le_of_lt (Nat.div_mul_le_self _ _) (by decide))

theorem Lends.refilled (h : a.Lends live) (c : Nat) : (a.refilled c).Lends live := by
  have hgrown : Lends { a with requests := a.requests + 1
                               regions := a.regions.push (.fresh (blockElems α)) } live :=
    h.of_regions rfl rfl rfl (by simp)
  refine { hgrown with
    size_free := Array.size_modify.trans h.size_free
    free := fun c' b hb => ?_ }
  rcases mem_getD_modify hb with hold | ⟨rfl, hnew⟩
  · exact hgrown.free c' b hold
  · obtain ⟨i, -, rfl⟩ := List.mem_map.mp hnew
    refine ⟨rfl, by simp [Arena.refilled], fun hmem => ?_⟩
    exact Nat.lt_irrefl _ (h.large_lt _ hmem)

theorem Lends.lending (h : a.Lends live) {c n : Nat} {chunk : Buffer} {rest : List Buffer}
    (hc : c < classCount α) (hfree : a.free.getD c [] = chunk :: rest) (zero : Bool) :
    (a.lending c n zero chunk rest).Lends ({ chunk with length := n } ::ₘ live) := by
  have hchunk := h.free c chunk (hfree ▸ List.mem_cons_self)
  have hsize := a.size_lending c n zero chunk rest
  have hgrown : Lends { a.lending c n zero chunk rest with free := a.free } live :=
    h.of_regions rfl rfl rfl (Nat.le_of_eq hsize.symm)
  refine { hgrown with
    size_free := Array.size_setIfInBounds.trans h.size_free
    free := fun c' b hb => hgrown.free c' b (mem_getD_of_setIfInBounds hfree hb)
    owned := fun b hb hcap => ?_
    apart := fun r hmem => ?_ }
  · rcases Multiset.mem_cons.mp hb with rfl | hb
    · exact .inr ⟨c, hc, hchunk.1, hchunk.2.1.trans_eq hsize.symm, hchunk.2.2⟩
    · exact hgrown.owned b hb hcap
  · rw [Multiset.countP_cons_of_neg]
    · exact h.apart r hmem
    · rintro ⟨-, rfl⟩
      exact hchunk.2.2 hmem

theorem Lends.opened (h : a.Lends live) (n : Nat) :
    (a.opened n).Lends (⟨a.regions.size, 0, n, n⟩ ::ₘ live) := by
  have hsize : (a.opened n).regions.size = a.regions.size + 1 := Array.size_push ..
  -- what was there before does not lie in the new region
  have hnew {r : Nat} (hr : r < a.regions.size) (hmem : r ∈ (a.opened n).large) : r ∈ a.large := by
    rcases List.mem_cons.mp hmem with heq | hold
    · exact absurd heq (Nat.ne_of_lt hr)
    · exact hold
  have hlt {r : Nat} (hr : r < a.regions.size) : r < (a.opened n).regions.size :=
    hsize ▸ Nat.lt_succ_of_lt hr
  refine ⟨h.reliable, h.size_free, fun c b hb => ?_, fun r hr => ?_, ?_, fun b hb hcap => ?_,
    fun r hr => ?_⟩
  · obtain ⟨hcap, hb, hnot⟩ := h.free c b hb
    exact ⟨hcap, hlt hb, fun hmem => hnot (hnew hb hmem)⟩
  · rcases List.mem_cons.mp hr with rfl | hr
    · rw [hsize]
      exact Nat.lt_succ_self _
    · exact hlt (h.large_lt r hr)
  · exact List.nodup_cons.mpr ⟨fun hmem => Nat.lt_irrefl _ (h.large_lt _ hmem), h.nodup⟩
  · rcases Multiset.mem_cons.mp hb with rfl | hb
    · exact .inl ⟨rfl, List.mem_cons_self⟩
    · rcases h.owned b hb hcap with ⟨hzero, hmem⟩ | ⟨c, hc, hcap', hb, hnot⟩
      · exact .inl ⟨hzero, List.mem_cons_of_mem _ hmem⟩
      · exact .inr ⟨c, hc, hcap', hlt hb, fun hmem => hnot (hnew hb hmem)⟩
  · by_cases hrn : r = a.regions.size
    · subst hrn
      have hzero : live.countP (fun b => b.capacity ≠ 0 ∧ b.region = a.regions.size) = 0 := by
        rw [Multiset.countP_eq_zero]
        rintro b hb ⟨hcap, heq⟩
        exact Nat.ne_of_lt (h.lt_of_mem hb hcap) heq
      rw [Multiset.countP_cons, hzero]
      split <;> omega
    · rw [Multiset.countP_cons_of_neg _ (fun hp => hrn hp.2.symm)]
      rcases List.mem_cons.mp hr with heq | hr
      · exact absurd heq hrn
      · exact h.apart r hr

/-- Allocation succeeds, and its buffer is lent. -/
theorem Lends.wp_alloc [LawfulElement α] (h : a.Lends live) {n : Nat}
    (hn : n * Element.bytes α < BlockSource.mappable) (zero : Bool) :
    (alloc n zero).wp (fun b a' => a'.Lends (b ::ₘ live) ∧ n ≤ b.capacity) (fun _ => False) a := by
  have hbytes : (n : Int) * Element.bytes α < signedLimit := by
    have hlt : n * Element.bytes α < signedLimit := Nat.lt_trans hn (by decide)
    exact_mod_cast hlt
  have hanswers := a.answers_alloc hbytes zero
  unfold Action.wp
  generalize alloc n zero a = r at hanswers ⊢
  cases hanswers with
  | negative fault hneg => omega
  | empty hzero => exact ⟨h.cons_of_capacity_eq_zero rfl, by omega⟩
  | failed k fault fault' hk hpos hresponse =>
    cases Int.ofNat_inj.mp hk
    cases hresponse.symm.trans (h.response_asked hpos hn)
  | crashed k crash hk hpos hresponse =>
    cases Int.ofNat_inj.mp hk
    cases hresponse.symm.trans (h.response_asked hpos hn)
  | large k hk hpos hclass =>
    cases Int.ofNat_inj.mp hk
    exact ⟨h.opened n, Nat.le_refl _⟩
  | chunk k c chunk rest hk hpos hclass hfree =>
    cases Int.ofNat_inj.mp hk
    obtain ⟨hc, hle⟩ := classFor_eq_some α hclass
    have hcap := (h.free c chunk (hfree ▸ List.mem_cons_self)).1
    exact ⟨h.lending hc hfree zero, hcap ▸ hle⟩
  | carved k c chunk rest hk hpos hclass hfree =>
    cases Int.ofNat_inj.mp hk
    obtain ⟨hc, hle⟩ := classFor_eq_some α hclass
    have hcap := ((h.refilled c).free c chunk (hfree ▸ List.mem_cons_self)).1
    exact ⟨(h.refilled c).lending hc hfree zero, hcap ▸ hle⟩
  | unlisted k c hk hclass hfree =>
    have hc := (classFor_eq_some α hclass).1
    exact absurd hfree (getD_modify_carve_ne_nil α hc (h.size_free ▸ hc) _)

theorem Lends.passBack (h : a.Lends (b ::ₘ live)) (hcap : b.capacity ≠ 0) (hlarge : a.StartsLarge b) :
    (a.passBack b.region).Lends live := by
  have hlive := h.of_cons
  have hgone (b' : Buffer) (hb' : b' ∈ live) (hcap' : b'.capacity ≠ 0) : b'.region ≠ b.region := by
    intro heq
    have hone := h.apart b.region hlarge.2
    rw [Multiset.countP_cons_of_pos _ ⟨hcap, rfl⟩] at hone
    have hpos := Multiset.countP_pos_of_mem
      (p := fun b' => b'.capacity ≠ 0 ∧ b'.region = b.region) hb' ⟨hcap', heq⟩
    omega
  have hsub (r : Nat) (hr : r ∈ a.large.erase b.region) : r ∈ a.large := List.mem_of_mem_erase hr
  refine ⟨h.reliable, h.size_free, fun c b' hb' => ?_, fun r hr => h.large_lt r (hsub r hr),
    h.nodup.erase _, fun b' hb' hcap' => ?_, fun r hr => hlive.apart r (hsub r hr)⟩
  · obtain ⟨hcap', hlt, hnot⟩ := h.free c b' hb'
    exact ⟨hcap', hlt, fun hmem => hnot (hsub _ hmem)⟩
  · rcases hlive.owned b' hb' hcap' with ⟨hzero, hmem⟩ | ⟨c, hc, hcap'', hlt, hnot⟩
    · exact .inl ⟨hzero, (List.mem_erase_of_ne (hgone b' hb' hcap')).mpr hmem⟩
    · exact .inr ⟨c, hc, hcap'', hlt, fun hmem => hnot (hsub _ hmem)⟩

theorem Lends.shelve (h : a.Lends live) {c : Nat} (hb : a.IsChunk c b) :
    (a.shelve c b).Lends live := by
  refine { h with
    size_free := Array.size_modify.trans h.size_free
    free := fun c' b' hb' => ?_ }
  change b' ∈ (a.free.modify c ([{ b with length := b.capacity }] ++ ·)).getD c' [] at hb'
  rcases mem_getD_modify hb' with hold | ⟨rfl, hnew⟩
  · exact h.free c' b' hold
  · cases List.mem_singleton.mp hnew
    exact hb

/-- What is lent can be released. -/
theorem Lends.wp_release (h : a.Lends (b ::ₘ live)) :
    (release b).wp (fun _ a' => a'.Lends live) (fun _ => False) a := by
  have hlive := h.of_cons
  -- what starts no large region is a chunk of the class that its size tells
  have hchunk (hcap : b.capacity ≠ 0) (hnot : ¬ a.StartsLarge b) :
      ∃ c, c < classCount α ∧ a.IsChunk c b :=
    (h.owned b (Multiset.mem_cons_self _ _) hcap).resolve_left hnot
  have htaken := a.taken_release b
  unfold Action.wp
  generalize Arena.release b a = r at htaken ⊢
  cases htaken with
  | nothing hcap => exact hlive
  | large hcap hlarge hrefusal => exact h.passBack hcap hlarge
  | stuck fault hcap hlarge hrefusal => cases hrefusal.symm.trans (h.reliable.accepts _)
  | chunk c hnot hc hsize =>
    have hcap : b.capacity ≠ 0 := hsize ▸ Nat.ne_of_gt (classElems_pos α c)
    obtain ⟨c', -, -, hregion, hlarge⟩ := hchunk hcap hnot
    exact hlive.shelve ⟨hsize, hregion, hlarge⟩
  | refused hcap hnot hsize =>
    obtain ⟨c, hc, hcap', -⟩ := hchunk hcap hnot
    exact hsize ⟨c, hc, hcap'⟩

end Arena

end PlatterMachine
