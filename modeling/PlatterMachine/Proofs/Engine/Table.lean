import PlatterMachine.Engine.Exec

/-!
# The arrays of a machine

`Machine.array?` is the view of a machine's arrays by place. Every operation on the table of arrays
is told by what it does to that view.
-/

namespace PlatterMachine.Machine

variable {m : Machine}

@[simp] theorem array?_running (m : Machine) : m.array? .running = some m.running := rfl

theorem array?_other (m : Machine) (i : Nat) : m.array? (.other i) = m.others[i]?.join := rfl

theorem lookup_zero (m : Machine) :
    m.lookup 0 = if m.zeroLive then m.array? .running else none := rfl

theorem lookup_of_ne_zero {handle : UInt32} (h : handle ≠ 0) :
    m.lookup handle = m.array? (.other (handle.toNat - 1)) := by
  rw [lookup, if_neg h, array?]

theorem place?_zero (m : Machine) :
    m.place? 0 = if m.zeroLive then some .running else none := rfl

theorem place?_of_ne_zero {handle : UInt32} (h : handle ≠ 0) :
    m.place? handle =
      (m.array? (.other (handle.toNat - 1))).map fun _ => .other (handle.toNat - 1) := by
  rw [place?, if_neg h, array?]
  rcases m.others[handle.toNat - 1]? with _ | _ | a <;> rfl

theorem array?_modifyArray (m : Machine) (place q : Place) (f : PlatterArray → PlatterArray) :
    (m.modifyArray place f).array? q =
      if place = q then (m.array? q).map f else m.array? q := by
  cases place with
  | running =>
    cases q with
    | running => simp [modifyArray]
    | other j => simp [modifyArray, array?_other]
  | other i =>
    cases q with
    | running => simp [modifyArray]
    | other j =>
      simp only [modifyArray, array?_other, Array.getElem?_modify, Place.other.injEq]
      by_cases h : i = j
      · simp only [h, if_true]
        rcases m.others[j]? with _ | _ | a <;> rfl
      · simp only [h, if_false]

@[simp] theorem modifyArray_file (m : Machine) (place : Place) (f : PlatterArray → PlatterArray) :
    (m.modifyArray place f).file = m.file := by
  cases place <;> rfl

@[simp] theorem modifyArray_zeroLive (m : Machine) (place : Place)
    (f : PlatterArray → PlatterArray) : (m.modifyArray place f).zeroLive = m.zeroLive := by
  cases place <;> rfl

@[simp] theorem modifyArray_other_running (m : Machine) (i : Nat)
    (f : PlatterArray → PlatterArray) : (m.modifyArray (.other i) f).running = m.running := rfl

@[simp] theorem modifyArray_running_running (m : Machine) (f : PlatterArray → PlatterArray) :
    (m.modifyArray .running f).running = f m.running := rfl

theorem modifyArray_modifyArray (m : Machine) (place : Place) (f g : PlatterArray → PlatterArray) :
    (m.modifyArray place f).modifyArray place g = m.modifyArray place (g ∘ f) := by
  cases place with
  | running => rfl
  | other i =>
    simp only [modifyArray, Machine.mk.injEq, true_and]
    apply Array.ext_getElem?
    intro j
    simp only [Array.getElem?_modify]
    by_cases h : i = j
    · simp [h, Option.map_map]
    · simp [h]

@[simp] theorem setOther_file (m : Machine) (handle : Nat) (a : Option PlatterArray) :
    (m.setOther handle a).file = m.file := by
  unfold setOther
  split <;> rfl

@[simp] theorem setOther_running (m : Machine) (handle : Nat) (a : Option PlatterArray) :
    (m.setOther handle a).running = m.running := by
  unfold setOther
  split <;> rfl

@[simp] theorem setOther_zeroLive (m : Machine) (handle : Nat) (a : Option PlatterArray) :
    (m.setOther handle a).zeroLive = m.zeroLive := by
  unfold setOther
  split <;> rfl

@[simp] theorem modifyArray_size_others (m : Machine) (place : Place)
    (f : PlatterArray → PlatterArray) : (m.modifyArray place f).others.size = m.others.size := by
  cases place <;> simp [modifyArray]

theorem setOther_size_others (m : Machine) {i : Nat} (hi : i ≤ m.others.size)
    (a : Option PlatterArray) :
    (m.setOther (i + 1) a).others.size = max m.others.size (i + 1) := by
  simp only [setOther, Nat.add_sub_cancel]
  by_cases hlt : i < m.others.size
  · simp only [if_pos hlt, Array.size_setIfInBounds]
    omega
  · simp only [if_neg hlt, Array.size_push]
    omega

theorem lt_size_of_array?_other {i : Nat} {a : PlatterArray} (h : m.array? (.other i) = some a) :
    i < m.others.size := by
  refine Nat.lt_of_not_le fun hle => ?_
  rw [array?_other, Array.getElem?_eq_none hle] at h
  cases h

/-- The handle may be at most one past the end of the table. -/
theorem array?_setOther (m : Machine) {i : Nat} (hi : i ≤ m.others.size)
    (a : Option PlatterArray) (q : Place) :
    (m.setOther (i + 1) a).array? q = if q = .other i then a else m.array? q := by
  cases q with
  | running => simp
  | other j =>
    simp only [setOther, Nat.add_sub_cancel, Place.other.injEq]
    by_cases hlt : i < m.others.size
    · simp only [if_pos hlt, array?_other, Array.getElem?_setIfInBounds]
      by_cases h : i = j
      · subst h
        simp
      · simp [h, Ne.symm h]
    · obtain rfl : i = m.others.size := by omega
      simp only [if_neg hlt, array?_other, Array.getElem?_push]
      by_cases h : j = m.others.size
      · simp [h]
      · simp [h]

theorem array?_setOther_or (m : Machine) (handle : Nat) (a : Option PlatterArray) (q : Place) :
    (m.setOther handle a).array? q = m.array? q ∨ (m.setOther handle a).array? q = a := by
  cases q with
  | running => simp
  | other j =>
    simp only [setOther]
    by_cases hlt : handle - 1 < m.others.size
    · simp only [if_pos hlt, array?_other, Array.getElem?_setIfInBounds]
      by_cases h : handle - 1 = j
      · simp [h, h ▸ hlt]
      · simp [h]
    · simp only [if_neg hlt, array?_other, Array.getElem?_push]
      by_cases h : j = m.others.size
      · simp [h]
      · simp [h]

/-- A write goes to the place of its handle. -/
theorem writeWord_eq {handle : UInt32} {place : Place} (h : m.place? handle = some place)
    (offset : UInt32) (v : Platter) :
    m.writeWord handle offset v = m.modifyArray place fun a =>
      { a with words := a.words.setIfInBounds offset.toNat v, dirty := true } := by
  by_cases h0 : handle = 0
  · subst h0
    rw [place?_zero] at h
    split at h
    · cases h
      rfl
    · cases h
  · rw [place?_of_ne_zero h0] at h
    cases ha : m.array? (.other (handle.toNat - 1)) with
    | none =>
      rw [ha] at h
      cases h
    | some a =>
      rw [ha] at h
      cases h
      simp only [writeWord, if_neg h0, modifyArray]

theorem place?_eq_running_iff {handle : UInt32} {place : Place}
    (h : m.place? handle = some place) : place = .running ↔ handle = 0 := by
  by_cases h0 : handle = 0
  · subst h0
    rw [place?_zero] at h
    split at h
    · cases h
      simp
    · cases h
  · rw [place?_of_ne_zero h0] at h
    obtain ⟨a, -, rfl⟩ := Option.map_eq_some_iff.mp h
    simp [h0]

theorem lookup_eq_bind (m : Machine) (handle : UInt32) :
    m.lookup handle = (m.place? handle).bind m.array? := by
  by_cases h0 : handle = 0
  · subst h0
    rw [place?_zero, lookup_zero]
    split <;> rfl
  · rw [place?_of_ne_zero h0, lookup_of_ne_zero h0]
    cases h : m.array? (.other (handle.toNat - 1)) with
    | none => rfl
    | some a => simpa using h.symm

theorem exists_array?_of_place? {handle : UInt32} {place : Place}
    (h : m.place? handle = some place) : ∃ a, m.array? place = some a := by
  by_cases h0 : handle = 0
  · subst h0
    rw [place?_zero] at h
    split at h
    · cases h
      exact ⟨m.running, rfl⟩
    · cases h
  · rw [place?_of_ne_zero h0] at h
    obtain ⟨a, ha, rfl⟩ := Option.map_eq_some_iff.mp h
    exact ⟨a, ha⟩

theorem readWord?_eq_some {handle offset : UInt32} {p : Platter}
    (h : m.readWord? handle offset = some p) :
    ∃ place a, m.place? handle = some place ∧ m.array? place = some a ∧
      a.words[offset.toNat]? = some p := by
  rw [readWord?, lookup_eq_bind] at h
  cases hp : m.place? handle with
  | none =>
    rw [hp] at h
    cases h
  | some place =>
    rw [hp, Option.bind_some] at h
    cases ha : m.array? place with
    | none =>
      rw [ha] at h
      cases h
    | some a =>
      rw [ha] at h
      exact ⟨place, a, rfl, ha, h⟩

end PlatterMachine.Machine
