import PlatterMachine.Proofs.Snapshot.Keys
import PlatterMachine.Proofs.Snapshot.Record
import Mathlib.Data.List.Nodup
import Mathlib.Logic.Function.Basic

/-!
# What a database holds

A database holds some snapshots when its entries are exactly theirs. Erasing the range of a name
takes the snapshot of that name away, writing the entries of a snapshot adds it, and loading gives
back what is held.
-/

namespace PlatterMachine

theorem decodeArray_encode (words : Array Platter) :
    decodeArray (Scroll.encode words.toList) = .ok words := by
  rw [decodeArray, Scroll.length_encode, if_pos (Nat.mul_mod_right ..), Scroll.decode_encode]

namespace Snapshot

def entries (s : Snapshot) : List (List UInt8 × List UInt8) :=
  (recordKey s.name, (Store.recordOf s.hash s.created s.state).encode) ::
    s.state.arrays.map fun x => (arrayKey s.name x.1, Scroll.encode x.2.toList)

variable {s : Snapshot}

theorem keyStart_prefix_of_mem_entries {e : List UInt8 × List UInt8} (h : e ∈ s.entries) :
    keyStart s.name <+: e.1 := by
  rcases List.mem_cons.mp h with rfl | h
  · exact keyStart_prefix_recordKey s.name
  · obtain ⟨x, -, rfl⟩ := List.mem_map.mp h
    exact keyStart_prefix_arrayKey s.name x.1

theorem nodup_keys_entries (s : Snapshot) : (s.entries.map Prod.fst).Nodup := by
  rw [entries, List.map_cons, List.nodup_cons, List.map_map]
  constructor
  · intro hmem
    obtain ⟨x, -, hx⟩ := List.mem_map.mp hmem
    exact recordKey_ne_arrayKey s.name x.1 hx.symm
  · have hinj : Function.Injective (arrayKey s.name) := fun _ _ => arrayKey_injective
    have hnodup := List.Nodup.map hinj s.state.nodup_handles
    rwa [MachineState.handles, List.map_map] at hnodup

end Snapshot

theorem Database.getElem?_insertAll {es : List (List UInt8 × List UInt8)}
    (hes : (es.map Prod.fst).Nodup) (db : Database) (key value : List UInt8) :
    (es.foldl (fun db e => db.insert e.1 e.2) db)[key]? = some value ↔
      (key, value) ∈ es ∨ ¬ key ∈ es.map Prod.fst ∧ db[key]? = some value := by
  induction es generalizing db with
  | nil => simp
  | cons e es ih =>
    obtain ⟨key', value'⟩ := e
    rw [List.map_cons, List.nodup_cons] at hes
    rw [List.foldl_cons, ih hes.2, Std.TreeMap.getElem?_insert, List.mem_cons, List.map_cons,
      List.mem_cons]
    by_cases hkey : key' = key
    · subst hkey
      simp only [Std.ReflOrd.compare_self, if_true, Option.some.injEq, true_or, not_true, false_and,
        or_false, Prod.mk.injEq, true_and]
      have hnew : ¬ (key', value) ∈ es := fun hmem =>
        hes.1 (List.mem_map.mpr ⟨_, hmem, rfl⟩)
      simp [hnew, hes.1, eq_comm]
    · have hcmp : compare key' key ≠ .eq := mt Std.LawfulEqOrd.eq_of_compare hkey
      simp [hcmp, Ne.symm hkey]

abbrev Shelf := List UInt8 → Option Snapshot

structure Snapshot.Filed (s : Snapshot) (name : List UInt8) : Prop where
  name_eq : s.name = name
  valid : ValidName name
  size_le : s.state.arrays.length ≤ Cbor.maxElements

structure Database.Holds (db : Database) (shelf : Shelf) : Prop where
  filed : ∀ name s, shelf name = some s → s.Filed name
  getElem?_iff : ∀ key value,
    db[key]? = some value ↔ ∃ name s, shelf name = some s ∧ (key, value) ∈ s.entries

namespace Database.Holds

open Snapshot

variable {db : Database} {shelf : Shelf} {name : List UInt8} {s : Snapshot}

theorem empty : Holds ∅ fun _ => none where
  filed _ _ h := by cases h
  getElem?_iff key value := by simp

/-- An entry that starts as those of a name do is one of the snapshot of that name. -/
theorem name_eq_of_starts (h : db.Holds shelf) (hname : ValidName name) {other : List UInt8}
    (hs : shelf other = some s) {e : List UInt8 × List UInt8} (he : e ∈ s.entries)
    (hstarts : keyStart name <+: e.1) : other = name := by
  have hfiled := h.filed other s hs
  refine keyStart_unique hfiled.valid hname ?_ hstarts
  rw [← hfiled.name_eq]
  exact keyStart_prefix_of_mem_entries he

theorem erase (h : db.Holds shelf) (hname : ValidName name) :
    (db.eraseRange (keyStart name) (keyEnd (keyStart name))).Holds
      (Function.update shelf name none) where
  filed other s hs := by
    rw [Function.update_apply] at hs
    split at hs
    · cases hs
    · exact h.filed other s hs
  getElem?_iff key value := by
    rw [keyStart_eq, getElem?_eraseRange _ _ (by decide), ← keyStart_eq]
    by_cases hkey : keyStart name <+: key
    · rw [if_pos hkey]
      refine iff_of_false nofun ?_
      rintro ⟨other, s, hs, he⟩
      rw [Function.update_apply] at hs
      split at hs
      · cases hs
      · rename_i hne
        exact hne (h.name_eq_of_starts hname hs he hkey)
    · rw [if_neg hkey, h.getElem?_iff]
      refine exists₂_congr fun other s => and_congr_left fun he => ?_
      rw [Function.update_apply]
      split
      · rename_i hother
        refine iff_of_false (fun hs => hkey ?_) nofun
        rw [← hother, ← (h.filed other s hs).name_eq]
        exact keyStart_prefix_of_mem_entries he
      · exact Iff.rfl

theorem insert (h : db.Holds shelf) (hs : s.Filed name) (hfree : shelf name = none) :
    Holds (s.entries.foldl (fun db e => db.insert e.1 e.2) db)
      (Function.update shelf name (some s)) where
  filed other t ht := by
    rw [Function.update_apply] at ht
    split at ht
    · rename_i hother
      cases ht
      rwa [hother]
    · exact h.filed other t ht
  getElem?_iff key value := by
    rw [getElem?_insertAll (nodup_keys_entries s), h.getElem?_iff]
    constructor
    · rintro (hmem | ⟨-, other, t, ht, hmem⟩)
      · exact ⟨name, s, Function.update_self .., hmem⟩
      · refine ⟨other, t, ?_, hmem⟩
        rw [Function.update_of_ne, ht]
        rintro rfl
        cases hfree.symm.trans ht
    · rintro ⟨other, t, ht, hmem⟩
      rw [Function.update_apply] at ht
      split at ht
      · cases ht
        exact .inl hmem
      · rename_i hne
        refine .inr ⟨fun hkey => hne ?_, other, t, ht, hmem⟩
        obtain ⟨e, he, rfl⟩ := List.mem_map.mp hkey
        refine h.name_eq_of_starts hs.valid ht hmem ?_
        rw [← hs.name_eq]
        change keyStart s.name <+: e.1
        exact keyStart_prefix_of_mem_entries he

theorem getElem?_recordKey (h : db.Holds shelf) (hs : shelf name = some s) :
    db[recordKey name]? = some (Store.recordOf s.hash s.created s.state).encode := by
  rw [h.getElem?_iff]
  refine ⟨name, s, hs, ?_⟩
  rw [entries, (h.filed name s hs).name_eq]
  exact List.mem_cons_self

theorem getElem?_recordKey_of_none (h : db.Holds shelf) (hname : ValidName name)
    (hnone : shelf name = none) : db[recordKey name]? = none := by
  rw [Option.eq_none_iff_forall_ne_some]
  intro value hvalue
  obtain ⟨other, s, hs, he⟩ := (h.getElem?_iff _ _).mp hvalue
  cases h.name_eq_of_starts hname hs he (keyStart_prefix_recordKey name)
  cases hnone.symm.trans hs

end Database.Holds

namespace Store

open Snapshot

variable {db : Database} {name : List UInt8}

theorem checkName_of_valid (h : ValidName name) : checkName name = .ok () := by
  rw [checkName, if_neg]
  rw [List.isEmpty_iff, List.contains_iff_mem]
  rintro (hempty | hslash)
  · exact h.1 hempty
  · exact h.2 hslash

def badName (name : List UInt8) : Fault :=
  .plain s!"invalid snapshot name {Quoted.quoteBytes name}"

theorem checkName_of_not_valid (h : ¬ ValidName name) : checkName name = .error (badName name) := by
  rw [checkName, badName, if_pos]
  rw [List.isEmpty_iff, List.contains_iff_mem]
  by_contra hnot
  exact h (not_or.mp hnot)

theorem loadArrays_eq {arrays : List (UInt32 × Array Platter)}
    (h : ∀ x ∈ arrays, db[arrayKey name x.1]? = some (Scroll.encode x.2.toList))
    (before : Array (UInt32 × Array Platter)) :
    loadArrays db name (arrays.map Prod.fst) before = .ok (before.toList ++ arrays) := by
  induction arrays generalizing before with
  | nil => simp [loadArrays]
  | cons x arrays ih =>
    rw [List.forall_mem_cons] at h
    rw [List.map_cons, loadArrays]
    simp only [h.1, decodeArray_encode]
    rw [ih h.2, Array.toList_push, List.append_assoc, List.singleton_append]

/-- A snapshot is loaded wherever its entries are found. -/
theorem load_of_entries {s : Snapshot} (hs : s.Filed name)
    (hentries : ∀ e ∈ s.entries, db[e.1]? = some e.2) : load db name = .ok s := by
  obtain ⟨rfl, hname, hsize⟩ := hs
  rw [entries, List.forall_mem_cons, List.forall_mem_map] at hentries
  obtain ⟨hrecord, hvalues⟩ := hentries
  have hdecode : SnapshotRecord.decode (recordOf s.hash s.created s.state).encode =
      .ok (recordOf s.hash s.created s.state) :=
    SnapshotRecord.decode_encode (by
      change (s.state.arrays.map Prod.fst).length ≤ _
      rwa [List.length_map])
  have harrays : loadArrays db s.name (s.state.arrays.map Prod.fst) #[] = .ok s.state.arrays :=
    loadArrays_eq hvalues #[]
  simp only [load, checkName_of_valid hname, hrecord, hdecode]
  change (do
    let arrays ← (loadArrays db s.name (s.state.arrays.map Prod.fst) #[]).mapError .fault
    .ok ⟨s.name, s.hash, s.created, .ofEntries s.state.registers s.state.finger arrays⟩ :
      Except LoadError Snapshot) = _
  rw [harrays]
  change Except.ok _ = _
  rw [s.state.ofEntries_arrays]

/-- Loading gives back what is held. -/
theorem load_of_holds {shelf : Shelf} (h : db.Holds shelf) (hname : ValidName name) :
    load db name =
      match shelf name with
      | some s => .ok s
      | none => .error (.fault (Fault.snapshotMissing.during (subject name))) := by
  cases hs : shelf name with
  | none =>
    simp only [load, checkName_of_valid hname, h.getElem?_recordKey_of_none hname hs]
    rfl
  | some s =>
    exact load_of_entries (h.filed name s hs) fun e he =>
      (h.getElem?_iff e.1 e.2).mpr ⟨name, s, hs, he⟩

end Store

end PlatterMachine
