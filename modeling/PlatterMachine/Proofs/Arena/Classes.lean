import PlatterMachine.Arena.Basic

/-!
# Size classes

The chunks of a class hold a power of two of elements. A request gets the smallest class that holds
it, the size of a chunk tells its class, and a block holds chunks of every class. Each class has a
list of its free chunks.
-/

namespace PlatterMachine

class LawfulElement (α : Type) [Element α] : Prop where
  bytes_pos : 0 < Element.bytes α
  bytes_le : Element.bytes α ≤ Arena.minChunkBytes

instance : LawfulElement UInt8 := ⟨by decide, by decide⟩

instance : LawfulElement UInt32 := ⟨by decide, by decide⟩

class WordElement (α : Type) [Element α] : Prop where
  bytes_eq : Element.bytes α = 1 ∨ Element.bytes α = 4

instance : WordElement UInt8 := ⟨Or.inl rfl⟩

instance : WordElement UInt32 := ⟨Or.inr rfl⟩

instance (priority := low) {α : Type} [Element α] [WordElement α] : LawfulElement α where
  bytes_pos := by
    rcases WordElement.bytes_eq (α := α) with h | h <;> omega
  bytes_le := by
    rcases WordElement.bytes_eq (α := α) with h | h <;> rw [h] <;> decide

namespace Arena

variable (α : Type) [Element α]

theorem classElems_eq (c : Nat) : classElems α c = Nat.pow 2 (minShift α + c) :=
  Nat.one_shiftLeft _

/-- Sizes below this are the same in 64 bits. -/
def signedLimit : Nat := 1 <<< 63

theorem byteSize_eq {n : Nat} (hn : n * Element.bytes α < signedLimit) :
    byteSize α n = ((n * Element.bytes α : Nat) : Int) := by
  have hlt : n * Element.bytes α < 0x8000000000000000 := hn
  clear hn
  unfold byteSize
  rw [← Int.natCast_mul]
  apply Int.bmod_eq_of_le_mul_two <;> omega

theorem classElems_pos (c : Nat) : 0 < classElems α c := by
  rw [classElems_eq]
  exact Nat.two_pow_pos _

theorem classFor_classElems {c : Nat} (hc : c < classCount α) :
    classFor α (classElems α c) = some c := by
  by_cases h0 : c = 0
  · subst h0
    rw [classFor, if_pos (Int.le_refl _)]
  · have hlt : Nat.pow 2 (minShift α) < Nat.pow 2 (minShift α + c) :=
      Nat.pow_lt_pow_right (by omega) (by omega)
    have hpos : 0 < Nat.pow 2 (minShift α) := Nat.two_pow_pos _
    have hlog : Nat.log2 (Nat.pow 2 (minShift α + c) - 1) = minShift α + c - 1 := by
      have hne : Nat.pow 2 (minShift α + c) - 1 ≠ 0 := by omega
      have hhalf : Nat.pow 2 (minShift α + c) = 2 * Nat.pow 2 (minShift α + c - 1) := by
        rw [show minShift α + c = minShift α + c - 1 + 1 by omega]
        exact Nat.pow_succ'
      apply Nat.le_antisymm
      · have := (Nat.log2_lt hne).mpr (Nat.sub_lt (Nat.two_pow_pos _) Nat.one_pos :
          Nat.pow 2 (minShift α + c) - 1 < 2 ^ (minShift α + c))
        omega
      · refine (Nat.le_log2 hne).mpr ?_
        change Nat.pow 2 (minShift α + c - 1) ≤ _
        have hpos' : 0 < Nat.pow 2 (minShift α + c - 1) := Nat.two_pow_pos _
        omega
    have hn : ((classElems α c : Int) - 1).toNat = Nat.pow 2 (minShift α + c) - 1 := by
      rw [classElems_eq]
      omega
    rw [classFor, if_neg (by rw [classElems_eq, classElems_eq, Nat.add_zero]; omega), hn, hlog]
    rw [show minShift α + c - 1 + 1 - minShift α = c by omega, if_pos hc]

theorem classFor_eq_some {n c : Nat} (h : classFor α n = some c) :
    c < classCount α ∧ n ≤ classElems α c := by
  rw [classFor] at h
  split at h
  · cases h
    exact ⟨Nat.succ_pos _, by omega⟩
  · rename_i hbig
    dsimp only at h
    split at h
    · rename_i hc
      cases h
      refine ⟨hc, ?_⟩
      rw [classElems_eq, Nat.add_zero] at hbig
      have hn : ((n : Int) - 1).toNat = n - 1 := by omega
      rw [hn, classElems_eq]
      have hpos : 0 < Nat.pow 2 (minShift α) := Nat.two_pow_pos _
      have hne : n - 1 ≠ 0 := by omega
      have hshift : minShift α ≤ Nat.log2 (n - 1) :=
        (Nat.le_log2 hne).mpr (by change Nat.pow 2 (minShift α) ≤ _; omega)
      have hlt : n - 1 < Nat.pow 2 (Nat.log2 (n - 1) + 1) := Nat.lt_log2_self
      rw [show minShift α + (Nat.log2 (n - 1) + 1 - minShift α) = Nat.log2 (n - 1) + 1 by omega]
      omega
    · cases h

/-- The logarithm that picks the class tells exactly which chunks are large enough. -/
theorem log2_pred_lt_iff {n c : Nat} (hbig : classElems α 0 < n) :
    Nat.log2 (n - 1) < minShift α + c ↔ n ≤ classElems α c := by
  have hpos := classElems_pos α 0
  rw [Nat.log2_lt (by omega), classElems_eq]
  change n - 1 < Nat.pow 2 (minShift α + c) ↔ _
  omega

/-- No smaller class would do. -/
theorem le_of_classFor {n c c' : Nat} (h : classFor α n = some c) (hn : n ≤ classElems α c') :
    c ≤ c' := by
  rw [classFor] at h
  split at h
  · cases h
    omega
  · rename_i hbig
    dsimp only at h
    split at h
    · cases h
      have hlog := (log2_pred_lt_iff α (by omega)).mpr hn
      rw [show ((n : Int) - 1).toNat = n - 1 by omega]
      omega
    · cases h

section Lawful

variable [LawfulElement α]

theorem blockElems_pos : 0 < blockElems α :=
  Nat.div_pos (Nat.le_trans LawfulElement.bytes_le (by decide)) LawfulElement.bytes_pos

theorem classElems_le_blockElems {c : Nat} (hc : c < classCount α) :
    classElems α c ≤ blockElems α := by
  have hB := blockElems_pos α
  have hunit : 0 < minChunkBytes / Element.bytes α :=
    Nat.div_pos LawfulElement.bytes_le LawfulElement.bytes_pos
  have hshift : minShift α ≤ Nat.log2 (blockElems α) := by
    refine (Nat.le_log2 (by omega)).mpr ?_
    calc Nat.pow 2 (minShift α)
        ≤ minChunkBytes / Element.bytes α := Nat.log2_self_le (by omega)
      _ ≤ blockElems α := Nat.div_le_div_right (by decide)
  rw [classElems_eq]
  calc Nat.pow 2 (minShift α + c)
      ≤ Nat.pow 2 (Nat.log2 (blockElems α)) :=
        Nat.pow_le_pow_right (by omega) (by rw [classCount] at hc; omega)
    _ ≤ blockElems α := Nat.log2_self_le (by omega)

end Lawful

section Words

variable [WordElement α]

/-- The chunks of the last class are whole blocks. -/
theorem blockElems_eq : blockElems α = classElems α (classCount α - 1) := by
  rcases WordElement.bytes_eq (α := α) with h | h <;>
    simp only [blockElems, classElems, classCount, minShift, h] <;> decide

theorem classElems_dvd_blockElems {c : Nat} (hc : c < classCount α) :
    classElems α c ∣ blockElems α := by
  rw [blockElems_eq, classElems_eq, classElems_eq]
  exact Nat.pow_dvd_pow 2 (by omega)

theorem classFor_eq_none_iff {n : Nat} : classFor α n = none ↔ blockElems α < n := by
  constructor
  · intro h
    refine Nat.lt_of_not_le fun hle => ?_
    rw [classFor] at h
    split at h
    · cases h
    · rename_i hbig
      dsimp only at h
      split at h
      · cases h
      · rename_i hc
        apply hc
        rw [blockElems_eq] at hle
        have hlog := (log2_pred_lt_iff α (by omega)).mpr hle
        have hcount : 0 < classCount α := Nat.succ_pos _
        rw [show ((n : Int) - 1).toNat = n - 1 by omega]
        omega
  · intro hlt
    cases h : classFor α n with
    | none => rfl
    | some c =>
      obtain ⟨hc, hle⟩ := classFor_eq_some α h
      have := classElems_le_blockElems α hc
      omega

end Words

section FreeLists

variable {free : Array (List Buffer)} {c c' : Nat} {b first : Buffer} {l rest chunks : List Buffer}

theorem mem_getD_iff : b ∈ free.getD c [] ↔ ∃ chunks, free[c]? = some chunks ∧ b ∈ chunks := by
  rw [Array.getD_eq_getD_getElem?]
  cases free[c]? <;> simp

theorem mem_of_getElem?_modify (hchunks : (free.modify c (l ++ ·))[c']? = some chunks)
    (hb : b ∈ chunks) : (∃ old, free[c']? = some old ∧ b ∈ old) ∨ c' = c ∧ b ∈ l := by
  rw [Array.getElem?_modify] at hchunks
  split at hchunks
  · rename_i hc
    subst hc
    obtain ⟨old, hold, rfl⟩ := Option.map_eq_some_iff.mp hchunks
    rcases List.mem_append.mp hb with hb | hb
    · exact .inr ⟨rfl, hb⟩
    · exact .inl ⟨old, hold, hb⟩
  · exact .inl ⟨chunks, hchunks, hb⟩

theorem mem_getD_modify (hb : b ∈ (free.modify c (l ++ ·)).getD c' []) :
    b ∈ free.getD c' [] ∨ c' = c ∧ b ∈ l := by
  obtain ⟨chunks, hchunks, hb⟩ := mem_getD_iff.mp hb
  rw [mem_getD_iff]
  exact mem_of_getElem?_modify hchunks hb

/-- Once its first chunk has been taken, a list has no chunk that it did not have. -/
theorem mem_getD_of_setIfInBounds (hfree : free.getD c [] = first :: rest)
    (hb : b ∈ (free.setIfInBounds c rest).getD c' []) : b ∈ free.getD c' [] := by
  rw [Array.getD_eq_getD_getElem?, Array.getElem?_setIfInBounds] at hb
  split at hb
  · rename_i hc
    subst hc
    rw [hfree]
    split at hb
    · exact List.mem_cons_of_mem _ hb
    · cases hb
  · rwa [Array.getD_eq_getD_getElem?]

theorem getD_modify_carve_ne_nil [LawfulElement α] (hc : c < classCount α) (hlt : c < free.size)
    (region : Nat) : (free.modify c (carve α region c ++ ·)).getD c [] ≠ [] := by
  have hsome : 0 < blockElems α / classElems α c :=
    Nat.div_pos (classElems_le_blockElems α hc) (classElems_pos α c)
  rw [Array.getD_eq_getD_getElem?, Array.getElem?_modify, if_pos rfl,
    Array.getElem?_eq_getElem hlt]
  simp [carve, Nat.ne_of_gt hsome]

end FreeLists

end Arena

end PlatterMachine
