import PlatterMachine.Proofs.Action
import PlatterMachine.Arena.Basic

/-!
# What memory holds

The cells of an arena are the elements of its regions. Writing and clearing change the cells that
they name and no others, and memory that has just been obtained holds zeros.
-/

namespace PlatterMachine

namespace Region

variable {α : Type} [Element α]

@[simp] theorem size_set (r : Region α) (i : Nat) (v : α) : (r.set i v).size = r.size := by
  unfold set
  split <;> rfl

@[simp] theorem get_fresh (size i : Nat) : (fresh size : Region α).get i = Element.zero := by
  simp [fresh, get]

theorem get_set (r : Region α) (i j : Nat) (v : α) :
    (r.set i v).get j = if i = j then v else r.get j := by
  simp only [get, set, Array.getD_eq_getD_getElem?]
  split
  · rename_i hi
    rw [Array.getElem?_setIfInBounds]
    by_cases hij : i = j
    · simp [hij, hij ▸ hi]
    · simp [hij]
  · rename_i hi
    have hsize : (r.cells ++ Array.replicate (i - r.cells.size) (Element.zero : α)).size = i := by
      simp
      omega
    rw [Array.getElem?_push, hsize]
    by_cases hij : i = j
    · simp [hij]
    · rw [if_neg (Ne.symm hij), if_neg hij, Array.getElem?_append]
      split
      · rfl
      · -- between the old end and the new cell there are zeros, as there were before
        rename_i hj
        rw [Array.getElem?_eq_none (Nat.le_of_not_lt hj), Array.getElem?_replicate]
        split <;> rfl

theorem getElem?_foldl_zero (places : List Nat) (cells : Array α) (j : Nat) :
    (places.foldl (fun cells i => cells.setIfInBounds i Element.zero) cells)[j]?.getD
        Element.zero =
      if j ∈ places then Element.zero else cells[j]?.getD Element.zero := by
  induction places generalizing cells with
  | nil => simp
  | cons i places ih =>
    rw [List.foldl_cons, ih, Array.getElem?_setIfInBounds]
    by_cases hij : i = j
    · subst hij
      by_cases hi : i < cells.size <;> simp [hi]
    · simp [hij, Ne.symm hij]

theorem get_clear (r : Region α) (start count j : Nat) :
    (r.clear start count).get j =
      if start ≤ j ∧ j < start + count then Element.zero else r.get j := by
  simp only [get, clear, Array.getD_eq_getD_getElem?, getElem?_foldl_zero, List.mem_range'_1]
  by_cases hj : j < r.cells.size
  · have hiff : (start ≤ j ∧ j < start + min count (r.cells.size - start)) ↔
        (start ≤ j ∧ j < start + count) := by omega
    simp only [hiff]
  · rw [Array.getElem?_eq_none (Nat.le_of_not_lt hj)]
    simp

end Region

namespace Arena

variable {α : Type} [Element α]

def cell (a : Arena α) (r i : Nat) : α := (a.regions.getD r (.fresh 0)).get i

def regionSize (a : Arena α) (r : Nat) : Nat := (a.regions.getD r (.fresh 0)).size

theorem contents_congr {a a' : Arena α} {b : Buffer}
    (h : ∀ i, i < b.length → a'.cell b.region (b.offset + i) = a.cell b.region (b.offset + i)) :
    a'.contents b = a.contents b := by
  refine List.map_congr_left fun i hi => ?_
  exact h i (List.mem_range.mp hi)

omit [Element α] in
theorem getD_modify (regions : Array (Region α)) (r q : Nat) (f : Region α → Region α) :
    (regions.modify r f).getD q (.fresh 0) =
      if r = q ∧ q < regions.size then f (regions.getD q (.fresh 0))
      else regions.getD q (.fresh 0) := by
  simp only [Array.getD_eq_getD_getElem?, Array.getElem?_modify]
  by_cases hrq : r = q
  · by_cases hq : q < regions.size <;> simp [hrq, hq]
  · simp [hrq]

omit [Element α] in
theorem getD_push (regions : Array (Region α)) (region : Region α) (q : Nat) :
    (regions.push region).getD q (.fresh 0) =
      if q = regions.size then region else regions.getD q (.fresh 0) := by
  simp only [Array.getD_eq_getD_getElem?, Array.getElem?_push]
  split <;> rfl

/-- Writing through a buffer changes the cell that is written. -/
theorem cell_writeAt (a : Arena α) (b : Buffer) (i : Int) (v : α) (r j : Nat) :
    (writeAt b i v a).2.cell r j =
      if (0 ≤ i ∧ i < b.length) ∧ b.region = r ∧ r < a.regions.size ∧ b.offset + i.toNat = j then v
      else a.cell r j := by
  unfold writeAt locate
  by_cases hi : 0 ≤ i ∧ i < b.length
  · rw [if_pos hi]
    change cell { a with regions := a.regions.modify b.region _ } r j = _
    simp only [cell, getD_modify, hi, true_and]
    by_cases hr : b.region = r ∧ r < a.regions.size
    · simp only [hr, and_self, if_true, Region.get_set, true_and]
    · rw [if_neg hr, if_neg fun h => hr ⟨h.1, h.2.1⟩]
  · rw [if_neg hi, if_neg fun h => hi h.1]
    rfl

theorem writeAt_eq (a : Arena α) (b : Buffer) (i : Int) (v : α) :
    ∃ regions : Array (Region α), (writeAt b i v a).2 = { a with regions } ∧
      regions.size = a.regions.size ∧
      ∀ r, (regions.getD r (.fresh 0)).size = a.regionSize r := by
  unfold writeAt locate
  split
  · refine ⟨_, rfl, Array.size_modify, fun r => ?_⟩
    rw [getD_modify]
    split <;> simp [regionSize]
  · exact ⟨a.regions, rfl, rfl, fun _ => rfl⟩

end Arena

end PlatterMachine
