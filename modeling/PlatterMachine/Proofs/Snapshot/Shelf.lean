import Mathlib
import PlatterMachine.Proofs.Snapshot.Entries

/-!
# Stores as shelves of named snapshots

All snapshots share one database, and yet a store behaves as if each were kept by itself under its
name: whatever has been saved and deleted, in whatever order, each operation gives what it would give
on a map from names to snapshots.
-/

namespace PlatterMachine

open Snapshot

namespace Database.Holds

variable {db : Database} {shelf : Shelf}

theorem exists_of_mem (h : db.Holds shelf) {key : List UInt8} (hkey : key ∈ db) :
    ∃ name s, shelf name = some s ∧
      (key = recordKey name ∨ ∃ handle ∈ s.state.handles, key = arrayKey name handle) := by
  obtain ⟨value, hvalue⟩ := Option.isSome_iff_exists.mp (Std.TreeMap.mem_iff_isSome_getElem?.mp hkey)
  obtain ⟨name, s, hs, he⟩ := (h.getElem?_iff key value).mp hvalue
  have hname := (h.filed name s hs).name_eq
  refine ⟨name, s, hs, ?_⟩
  rcases List.mem_cons.mp he with he | he
  · cases he
    exact .inl (by rw [hname])
  · obtain ⟨x, hx, heq⟩ := List.mem_map.mp he
    cases heq
    exact .inr ⟨x.1, List.mem_map_of_mem hx, by rw [hname]⟩

theorem mem_recordKey (h : db.Holds shelf) {name : List UInt8} {s : Snapshot}
    (hs : shelf name = some s) : recordKey name ∈ db := by
  rw [Std.TreeMap.mem_iff_isSome_getElem?, h.getElem?_recordKey hs]
  rfl

/-- Only the key of a record has a name in it. -/
theorem eq_recordKey_of_nameOfKey? (h : db.Holds shelf) {key name : List UInt8} (hkey : key ∈ db)
    (hname : nameOfKey? key = some name) : ∃ s, shelf name = some s ∧ key = recordKey name := by
  obtain ⟨other, s, hs, rfl | ⟨handle, -, rfl⟩⟩ := h.exists_of_mem hkey
  · rw [nameOfKey?_recordKey (h.filed other s hs).valid, Option.some.injEq] at hname
    subst hname
    exact ⟨s, hs, rfl⟩
  · rw [nameOfKey?_arrayKey] at hname
    cases hname

theorem common_eq : common = Utf8.encode "snapshot" ++ [slash] := by
  rw [common, Utf8.encode_eq, Utf8.encode_eq]
  decide

theorem mem_names (h : db.Holds shelf) {name : List UInt8} :
    name ∈ Store.names db ↔ (shelf name).isSome := by
  rw [Store.names, List.mem_filterMap, common_eq]
  simp only [mem_keysBetween (show slash.toNat < 255 by decide)]
  rw [← common_eq]
  constructor
  · rintro ⟨key, ⟨hkey, -⟩, hname⟩
    obtain ⟨s, hs, -⟩ := h.eq_recordKey_of_nameOfKey? hkey hname
    rw [hs]
    rfl
  · intro hsome
    obtain ⟨s, hs⟩ := Option.isSome_iff_exists.mp hsome
    refine ⟨recordKey name, ⟨h.mem_recordKey hs, ?_⟩, nameOfKey?_recordKey (h.filed name s hs).valid⟩
    rw [recordKey_eq]
    exact List.prefix_append ..

theorem pairwise_names (h : db.Holds shelf) : (Store.names db).Pairwise fun a b =>
    compare (a ++ [slash]) (b ++ [slash]) = .lt := by
  rw [Store.names, List.pairwise_filterMap, keysBetween]
  refine (Std.TreeMap.ordered_keys.filter _).imp_of_mem fun hkey hkey' hlt a ha b hb => ?_
  obtain ⟨s, hs, rfl⟩ := h.eq_recordKey_of_nameOfKey?
    (Std.TreeMap.mem_keys.mp (List.mem_filter.mp hkey).1) ha
  obtain ⟨t, ht, rfl⟩ := h.eq_recordKey_of_nameOfKey?
    (Std.TreeMap.mem_keys.mp (List.mem_filter.mp hkey').1) hb
  rwa [compare_recordKey (h.filed a s hs).valid (h.filed b t ht).valid] at hlt

end Database.Holds

namespace Store

inductive Op where
  | save (name : List UInt8) (hash : Vector UInt8 32) (created : Int64) (state : MachineState)
  | load (name : List UInt8)
  | list
  | delete (name : List UInt8)

inductive Reply where
  | done
  | refused (fault : Fault)
  | loaded (result : Except LoadError Snapshot)
  | listed (names : List (List UInt8))

def Op.target : Op → Option (List UInt8)
  | save name _ _ _ => some name
  | delete name => some name
  | load _ => none
  | list => none

def Op.Fits : Op → Prop
  | save _ _ _ state => state.arrays.length ≤ Cbor.maxElements
  | _ => True

def perform (db : Database) : Op → Reply × Database
  | .save name digest created state =>
    match save db name digest created state with
    | .ok db' => (.done, db')
    | .error fault => (.refused fault, db)
  | .load name => (.loaded (load db name), db)
  | .list => (.listed (names db), db)
  | .delete name =>
    match delete db name with
    | .ok db' => (.done, db')
    | .error fault => (.refused fault, db)

def performAll (ops : List Op) : Database := ops.foldl (fun db op => (perform db op).2) ∅

def noProgram (name : List UInt8) : Fault := .plain s!"{subject name}: state has no array 0"

end Store

namespace Shelf

open Store

def after (shelf : Shelf) : Op → Shelf
  | .save name digest created state =>
    if ValidName name ∧ (state.array? 0).isSome then
      Function.update shelf name (some ⟨name, digest, created, state⟩)
    else shelf
  | .delete name => if ValidName name then Function.update shelf name none else shelf
  | .load _ => shelf
  | .list => shelf

def ofOps (ops : List Op) : Shelf := ops.foldl after fun _ => none

def Answers (shelf : Shelf) : Op → Reply → Prop
  | .save name _ _ state, reply =>
    reply =
      if ¬ ValidName name then .refused (badName name)
      else if (state.array? 0).isNone then .refused (noProgram name)
      else .done
  | .load name, reply =>
    reply = .loaded
      (if ¬ ValidName name then .error (.fault (badName name))
      else
        match shelf name with
        | some s => .ok s
        | none => .error (.fault (Fault.snapshotMissing.during (subject name))))
  | .list, reply =>
    ∃ names, reply = .listed names ∧
      (names.Pairwise fun a b => compare (a ++ [slash]) (b ++ [slash]) = .lt) ∧
      ∀ name, name ∈ names ↔ (shelf name).isSome
  | .delete name, reply => reply = if ValidName name then .done else .refused (badName name)

end Shelf

namespace Store

variable {db : Database} {shelf : Shelf} {name : List UInt8} {hash : Vector UInt8 32} {created : Int64}
  {state : MachineState}

theorem save_of_not_valid (h : ¬ ValidName name) :
    save db name hash created state = .error (badName name) := by
  rw [save, checkName_of_not_valid h]
  rfl

theorem save_of_isNone (h : ValidName name) (hzero : (state.array? 0).isNone = true) :
    save db name hash created state = .error (noProgram name) := by
  rw [save, checkName_of_valid h, noProgram]
  exact if_pos hzero

/-- Saving replaces the range of the name by the entries of the new snapshot. -/
theorem save_of_valid (h : ValidName name) (hzero : ¬ (state.array? 0).isNone = true) :
    save db name hash created state =
      .ok ((Snapshot.entries ⟨name, hash, created, state⟩).foldl (fun db e => db.insert e.1 e.2)
        (db.eraseRange (keyStart name) (keyEnd (keyStart name)))) := by
  rw [save, checkName_of_valid h, Snapshot.entries, List.foldl_cons, List.foldl_map]
  exact if_neg hzero

theorem delete_of_valid (h : ValidName name) :
    delete db name = .ok (db.eraseRange (keyStart name) (keyEnd (keyStart name))) := by
  rw [delete, checkName_of_valid h]
  rfl

theorem delete_of_not_valid (h : ¬ ValidName name) : delete db name = .error (badName name) := by
  rw [delete, checkName_of_not_valid h]
  rfl

theorem load_of_not_valid (h : ¬ ValidName name) :
    load db name = .error (.fault (badName name)) := by
  rw [load, checkName_of_not_valid h]
  rfl

theorem holds_save (h : db.Holds shelf) (hname : ValidName name)
    (hsize : state.arrays.length ≤ Cbor.maxElements) :
    Database.Holds
      ((Snapshot.entries ⟨name, hash, created, state⟩).foldl (fun db e => db.insert e.1 e.2)
        (db.eraseRange (keyStart name) (keyEnd (keyStart name))))
      (Function.update shelf name (some ⟨name, hash, created, state⟩)) := by
  have hinsert := (h.erase hname).insert
    (s := ⟨name, hash, created, state⟩) ⟨rfl, hname, hsize⟩ (Function.update_self ..)
  rwa [Function.update_idem] at hinsert

end Store

namespace Database.Holds

open Store

variable {db : Database} {shelf : Shelf}

/-- One operation does to the database what it does to the shelf. -/
theorem perform (h : db.Holds shelf) {op : Op} (hop : op.Fits) :
    (Store.perform db op).2.Holds (shelf.after op) := by
  cases op with
  | save name hash created state =>
    by_cases hname : ValidName name
    · by_cases hzero : (state.array? 0).isNone = true
      · rw [Store.perform, save_of_isNone hname hzero, Shelf.after, if_neg]
        · exact h
        · simp [Option.isNone_iff_eq_none.mp hzero]
      · rw [Store.perform, save_of_valid hname hzero, Shelf.after, if_pos]
        · exact holds_save h hname hop
        · simpa [hname, Option.isSome_iff_ne_none] using hzero
    · rw [Store.perform, save_of_not_valid hname, Shelf.after, if_neg fun hand => hname hand.1]
      exact h
  | load name => exact h
  | list => exact h
  | delete name =>
    by_cases hname : ValidName name
    · rw [Store.perform, delete_of_valid hname, Shelf.after, if_pos hname]
      exact h.erase hname
    · rw [Store.perform, delete_of_not_valid hname, Shelf.after, if_neg hname]
      exact h

theorem answers (h : db.Holds shelf) (op : Op) : shelf.Answers op (Store.perform db op).1 := by
  cases op with
  | save name hash created state =>
    rw [Shelf.Answers]
    by_cases hname : ValidName name
    · by_cases hzero : (state.array? 0).isNone = true
      · rw [Store.perform, save_of_isNone hname hzero, if_neg (not_not_intro hname), if_pos hzero]
      · rw [Store.perform, save_of_valid hname hzero, if_neg (not_not_intro hname), if_neg hzero]
    · rw [Store.perform, save_of_not_valid hname, if_pos hname]
  | load name =>
    refine congrArg Reply.loaded ?_
    by_cases hname : ValidName name
    · exact (load_of_holds h hname).trans (if_neg (not_not_intro hname)).symm
    · exact (load_of_not_valid hname).trans (if_pos hname).symm
  | list => exact ⟨names db, rfl, h.pairwise_names, fun _ => h.mem_names⟩
  | delete name =>
    rw [Shelf.Answers]
    by_cases hname : ValidName name
    · rw [Store.perform, delete_of_valid hname, if_pos hname]
    · rw [Store.perform, delete_of_not_valid hname, if_neg hname]

theorem performAll {ops : List Op} (hfit : ∀ op ∈ ops, op.Fits) :
    (Store.performAll ops).Holds (Shelf.ofOps ops) := by
  have hrun (db : Database) (shelf : Shelf) (h : db.Holds shelf) :
      Holds (ops.foldl (fun db op => (Store.perform db op).2) db) (ops.foldl Shelf.after shelf) := by
    induction ops generalizing db shelf with
    | nil => exact h
    | cons op ops ih =>
      rw [List.forall_mem_cons] at hfit
      exact ih hfit.2 _ _ (h.perform hfit.1)
  exact hrun _ _ empty

end Database.Holds

theorem Shelf.after_of_ne {shelf : Shelf} {op : Store.Op} {name : List UInt8}
    (h : op.target ≠ some name) : shelf.after op name = shelf name := by
  cases op with
  | save other digest created state =>
    have hne : name ≠ other := fun heq => h (congrArg some heq.symm)
    rw [after]
    split
    · exact Function.update_of_ne hne ..
    · rfl
  | load other => rfl
  | list => rfl
  | delete other =>
    have hne : name ≠ other := fun heq => h (congrArg some heq.symm)
    rw [after]
    split
    · exact Function.update_of_ne hne ..
    · rfl

namespace Store

/-- What is refused changes nothing. -/
theorem perform_of_refused {db : Database} {op : Op} {fault : Fault}
    (h : (perform db op).1 = .refused fault) (shelf : Shelf) :
    (perform db op).2 = db ∧ shelf.after op = shelf := by
  cases op with
  | save name digest created state =>
    by_cases hname : ValidName name
    · by_cases hzero : (state.array? 0).isNone = true
      · rw [perform, save_of_isNone hname hzero, Shelf.after, if_neg]
        · exact ⟨rfl, rfl⟩
        · simp [Option.isNone_iff_eq_none.mp hzero]
      · rw [perform, save_of_valid hname hzero] at h
        cases h
    · rw [perform, save_of_not_valid hname, Shelf.after, if_neg fun hand => hname hand.1]
      exact ⟨rfl, rfl⟩
  | load name => cases h
  | list => cases h
  | delete name =>
    by_cases hname : ValidName name
    · rw [perform, delete_of_valid hname] at h
      cases h
    · rw [perform, delete_of_not_valid hname, Shelf.after, if_neg hname]
      exact ⟨rfl, rfl⟩

theorem load_congr {db db' : Database} {shelf shelf' : Shelf} (h : db.Holds shelf)
    (h' : db'.Holds shelf') {name : List UInt8} (heq : shelf name = shelf' name) :
    load db name = load db' name := by
  by_cases hname : ValidName name
  · rw [load_of_holds h hname, load_of_holds h' hname, heq]
  · rw [load_of_not_valid hname, load_of_not_valid hname]

/-- After any operations on an empty store, every operation replies what the shelf of named snapshots
says. What is refused changes nothing; an operation on one name does not change what any other name
loads; and no entry is left over from a snapshot that has been replaced or deleted. -/
theorem store_refines_shelf {ops : List Op} (hfit : ∀ op ∈ ops, op.Fits) :
    (∀ op, (Shelf.ofOps ops).Answers op (perform (performAll ops) op).1) ∧
    (∀ op fault, (perform (performAll ops) op).1 = .refused fault →
      (perform (performAll ops) op).2 = performAll ops ∧
        (Shelf.ofOps ops).after op = Shelf.ofOps ops) ∧
    (∀ op name, op.Fits → op.target ≠ some name →
      load (perform (performAll ops) op).2 name = load (performAll ops) name) ∧
    ∀ key ∈ performAll ops, ∃ name s, Shelf.ofOps ops name = some s ∧
      (key = recordKey name ∨ ∃ handle ∈ s.state.handles, key = arrayKey name handle) := by
  have hholds := Database.Holds.performAll hfit
  refine ⟨hholds.answers, fun op fault h => perform_of_refused h _, fun op name hop htarget => ?_,
    fun key hkey => hholds.exists_of_mem hkey⟩
  exact load_congr (hholds.perform hop) hholds (Shelf.after_of_ne htarget)

/-- Listed out of order, with a handle that is spelled as the end of the key of a record. -/
def spelled : MachineState :=
  .ofEntries (Vector.replicate 8 1) 0 [(0x6D657461, #[1, 2]), (0, #[0x70000000])]

def programOnly : MachineState := .ofEntries (Vector.replicate 8 2) 0 [(0, #[0x70000000])]

def resaving : List Op :=
  [.save [97] (Vector.replicate 32 7) 1 spelled, .save [97, 0xFF] (Vector.replicate 32 7) 2 spelled,
    .save [97] (Vector.replicate 32 8) 3 programOnly, .delete [97, slash, 98]]

theorem store_refines_shelf_resaving :
    (∀ op ∈ resaving, op.Fits) ∧
      load (performAll resaving) [97] = .ok ⟨[97], Vector.replicate 32 8, 3, programOnly⟩ ∧
      load (performAll resaving) [97, 0xFF] =
        .ok ⟨[97, 0xFF], Vector.replicate 32 7, 2, spelled⟩ := by
  have hspelled : spelled.arrays.length ≤ Cbor.maxElements := by cbv
  have honly : programOnly.arrays.length ≤ Cbor.maxElements := by cbv
  have hfit : ∀ op ∈ resaving, op.Fits := by
    simp [resaving, Op.Fits, hspelled, honly]
  have hload {name : List UInt8} (hname : ValidName name) {s : Snapshot}
      (hs : Shelf.ofOps resaving name = some s) : load (performAll resaving) name = .ok s := by
    have hanswer := (store_refines_shelf hfit).1 (.load name)
    rw [Shelf.Answers, perform, if_neg (not_not_intro hname), hs] at hanswer
    exact Reply.loaded.inj hanswer
  exact ⟨hfit, hload (by decide) (by cbv), hload (by decide) (by cbv)⟩

end Store

end PlatterMachine
