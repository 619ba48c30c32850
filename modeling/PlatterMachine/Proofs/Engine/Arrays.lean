import Mathlib.Data.Multiset.Bind
import PlatterMachine.Proofs.Engine.Table

/-!
# The arrays of a machine as a collection

For accounting it does not matter which place an array has. Each operation on the table adds an
array, takes one away, or exchanges one for another.
-/

namespace PlatterMachine.Machine

variable {m : Machine}

def otherArrays (m : Machine) : Multiset PlatterArray :=
  (m.others.toList.filterMap id : Multiset PlatterArray)

def arrays (m : Machine) : Multiset PlatterArray := m.running ::ₘ m.otherArrays

theorem otherArrays_setOther (m : Machine) {i : Nat} (hi : i ≤ m.others.size)
    (a : Option PlatterArray) :
    (m.setOther (i + 1) a).otherArrays + (m.array? (.other i)).toList =
      m.otherArrays + a.toList := by
  have hfilter (o : Option PlatterArray) : [o].filterMap id = o.toList := by
    cases o <;> rfl
  simp only [otherArrays, setOther, Nat.add_sub_cancel, array?_other]
  by_cases hlt : i < m.others.size
  · have hsplit : m.others.toList =
        m.others.toList.take i ++ ([m.others[i]] ++ m.others.toList.drop (i + 1)) := by
      rw [List.singleton_append, ← Array.getElem_toList, List.getElem_cons_drop,
        List.take_append_drop]
    simp only [if_pos hlt, Array.toList_setIfInBounds, Array.getElem?_eq_getElem hlt,
      Option.join_some]
    rw [List.set_eq_take_append_cons_drop, if_pos (by simpa using hlt), ← List.singleton_append]
    conv => rhs; rw [hsplit]
    simp only [List.filterMap_append, hfilter, ← Multiset.coe_add]
    ac_rfl
  · obtain rfl : i = m.others.size := by omega
    simp only [if_neg hlt, Array.toList_push, List.filterMap_append, hfilter,
      Array.getElem?_eq_none (Nat.le_refl _), Option.join_none, Option.toList_none]
    rw [← Multiset.coe_add, Multiset.coe_nil, add_zero]

theorem modifyArray_other_eq_setOther {i : Nat} {a : PlatterArray}
    (h : m.array? (.other i) = some a) (f : PlatterArray → PlatterArray) :
    m.modifyArray (.other i) f = m.setOther (i + 1) (some (f a)) := by
  have hlt := lt_size_of_array?_other h
  rw [array?_other, Option.join_eq_some_iff] at h
  simp only [modifyArray, setOther, Nat.add_sub_cancel, if_pos hlt, Machine.mk.injEq, true_and]
  apply Array.ext_getElem?
  intro j
  rw [Array.getElem?_modify, Array.getElem?_setIfInBounds]
  by_cases hij : i = j
  · subst hij
    rw [if_pos rfl, if_pos rfl, if_pos hlt, h]
    rfl
  · rw [if_neg hij, if_neg hij]

theorem otherArrays_setOther_none {i : Nat} {a : PlatterArray}
    (h : m.array? (.other i) = some a) :
    m.otherArrays = a ::ₘ (m.setOther (i + 1) none).otherArrays := by
  have hset := m.otherArrays_setOther (Nat.le_of_lt (lt_size_of_array?_other h)) none
  rw [h, Option.toList_none, Multiset.coe_nil, add_zero] at hset
  rw [← hset, Multiset.add_comm]
  rfl

/-- One array is exchanged for another. -/
theorem otherArrays_modifyArray {i : Nat} {a : PlatterArray} (h : m.array? (.other i) = some a) :
    ∃ rest, m.otherArrays = a ::ₘ rest ∧
      ∀ f, (m.modifyArray (.other i) f).otherArrays = f a ::ₘ rest := by
  refine ⟨_, otherArrays_setOther_none h, fun f => ?_⟩
  have hset := m.otherArrays_setOther (Nat.le_of_lt (lt_size_of_array?_other h)) (some (f a))
  rw [h, otherArrays_setOther_none h] at hset
  rw [modifyArray_other_eq_setOther h]
  apply add_right_cancel (b := ({a} : Multiset PlatterArray))
  refine hset.trans ?_
  rw [Multiset.cons_add, Multiset.cons_add, Multiset.add_comm _ {a}, Multiset.singleton_add,
    Multiset.cons_swap, Multiset.add_comm]
  rfl

theorem arrays_modifyArray {place : Place} {a : PlatterArray} (h : m.array? place = some a) :
    ∃ rest, m.arrays = a ::ₘ rest ∧ ∀ f, (m.modifyArray place f).arrays = f a ::ₘ rest := by
  cases place with
  | running =>
    cases h
    exact ⟨_, rfl, fun _ => rfl⟩
  | other i =>
    obtain ⟨rest, hrest, hmodify⟩ := otherArrays_modifyArray h
    refine ⟨m.running ::ₘ rest, ?_, fun f => ?_⟩
    · rw [arrays, hrest, Multiset.cons_swap]
    · rw [arrays, hmodify, Multiset.cons_swap, modifyArray_other_running]

theorem arrays_setOther_none {i : Nat} {a : PlatterArray} (h : m.array? (.other i) = some a) :
    m.arrays = a ::ₘ (m.setOther (i + 1) none).arrays := by
  rw [arrays, arrays, otherArrays_setOther_none h, Multiset.cons_swap, setOther_running]

theorem arrays_setOther_some {i : Nat} (hi : i ≤ m.others.size) (h : m.array? (.other i) = none)
    (a : PlatterArray) : (m.setOther (i + 1) (some a)).arrays = a ::ₘ m.arrays := by
  have hset := m.otherArrays_setOther hi (some a)
  rw [h, Option.toList_none, Multiset.coe_nil, add_zero] at hset
  rw [arrays, arrays, hset, setOther_running, Multiset.cons_swap, Multiset.add_comm]
  rfl

end PlatterMachine.Machine
