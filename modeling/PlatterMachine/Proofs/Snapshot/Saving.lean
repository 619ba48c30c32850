import PlatterMachine.Proofs.Snapshot.Shelf

/-!
# Saving into any store

Whatever a store holds, a snapshot that has been saved in it is loaded again, if it has no more arrays
than a record can name, and one that has been deleted is no longer listed. Neither touches an entry
of another name.
-/

namespace PlatterMachine

def Snapshot.entry? (s : Snapshot) (key : List UInt8) : Option (List UInt8) :=
  s.entries.reverse.lookup key

theorem Database.getElem?_foldl_insert (es : List (List UInt8 × List UInt8)) (db : Database)
    (key : List UInt8) :
    (es.foldl (fun db e => db.insert e.1 e.2) db)[key]? = (es.reverse.lookup key).or db[key]? := by
  induction es generalizing db with
  | nil => rfl
  | cons e es ih =>
    obtain ⟨key', value⟩ := e
    rw [List.foldl_cons, ih, List.reverse_cons, List.lookup_append, Option.or_assoc,
      Std.TreeMap.getElem?_insert, List.lookup_cons, List.lookup_nil]
    by_cases hkey : key' = key
    · subst hkey
      simp
    · have hcmp : compare key' key ≠ .eq := mt Std.LawfulEqOrd.eq_of_compare hkey
      rw [if_neg hcmp, beq_false_of_ne (Ne.symm hkey), Option.none_or]

def Database.SameBeside (name : List UInt8) (db db' : Database) : Prop :=
  ∀ key, ¬ Snapshot.keyStart name <+: key → db'[key]? = db[key]?

namespace Store

open Snapshot

variable {db db' : Database} {name : List UInt8} {hash : Vector UInt8 32} {created : Int64}
  {state : MachineState}

/-- What has been saved has a valid name and a program, and its entries are all that the name has. -/
theorem save_inv (h : save db name hash created state = .ok db') :
    ValidName name ∧ (state.array? 0).isSome ∧
      db' = (Snapshot.entries ⟨name, hash, created, state⟩).foldl (fun db e => db.insert e.1 e.2)
        (db.eraseRange (keyStart name) (keyEnd (keyStart name))) := by
  by_cases hname : ValidName name
  · by_cases hzero : (state.array? 0).isNone = true
    · rw [save_of_isNone hname hzero] at h
      cases h
    · rw [save_of_valid hname hzero] at h
      cases h
      exact ⟨hname, by simpa [Option.isSome_iff_ne_none] using hzero, rfl⟩
  · rw [save_of_not_valid hname] at h
    cases h

theorem save_eq_ok (h : save db name hash created state = .ok db') :
    ValidName name ∧ (state.array? 0).isSome ∧
      ∀ e ∈ Snapshot.entries ⟨name, hash, created, state⟩, db'[e.1]? = some e.2 := by
  obtain ⟨hname, hzero, rfl⟩ := save_inv h
  exact ⟨hname, hzero, fun e he =>
    (Database.getElem?_insertAll (nodup_keys_entries _) _ e.1 e.2).mpr (.inl he)⟩

theorem load_of_save (h : save db name hash created state = .ok db')
    (hsize : state.arrays.length ≤ Cbor.maxElements) :
    load db' name = .ok ⟨name, hash, created, state⟩ := by
  obtain ⟨hname, -, hentries⟩ := save_eq_ok h
  exact load_of_entries ⟨rfl, hname, hsize⟩ hentries

/-- Saving does not mind how many arrays there are, but loading does. -/
theorem load_of_save_of_lt (h : save db name hash created state = .ok db')
    (hlong : Cbor.maxElements < state.arrays.length)
    (hlen : state.arrays.length < 0x10000000000000000) :
    load db' name = .error (.badRecord name .tooManyElements) := by
  obtain ⟨hname, -, hentries⟩ := save_eq_ok h
  have hrecord : db'[recordKey name]? = some (recordOf hash created state).encode :=
    hentries _ List.mem_cons_self
  have hdecode : SnapshotRecord.decode (recordOf hash created state).encode =
      .error .tooManyElements :=
    SnapshotRecord.decode_encode_of_lt (show _ = some state.handles from rfl)
      (by rwa [MachineState.handles, List.length_map])
      (by rwa [MachineState.handles, List.length_map])
  simp only [load, checkName_of_valid hname, hrecord, hdecode]
  rfl

theorem validName_of_delete (h : delete db name = .ok db') : ValidName name := by
  by_contra hinvalid
  rw [delete_of_not_valid hinvalid] at h
  cases h

theorem validName_of_load {s : Snapshot} (h : load db name = .ok s) : ValidName name := by
  by_contra hinvalid
  rw [load_of_not_valid hinvalid] at h
  cases h

theorem getElem?_eraseRange_keyStart (db : Database) (name : List UInt8) (key : List UInt8) :
    (db.eraseRange (keyStart name) (keyEnd (keyStart name)))[key]? =
      if keyStart name <+: key then none else db[key]? := by
  rw [keyStart_eq, Database.getElem?_eraseRange _ _ (show slash.toNat < 255 by decide)]

theorem getElem?_delete (h : delete db name = .ok db') (key : List UInt8) :
    db'[key]? = if keyStart name <+: key then none else db[key]? := by
  rw [delete_of_valid (validName_of_delete h)] at h
  cases h
  exact getElem?_eraseRange_keyStart db name key

theorem sameBeside_delete (h : delete db name = .ok db') : db.SameBeside name db' :=
  fun key hkey => (getElem?_delete h key).trans (if_neg hkey)

theorem load_of_delete (h : delete db name = .ok db') :
    load db' name = .error (.fault (Fault.snapshotMissing.during (subject name))) := by
  have hrecord : db'[recordKey name]? = none :=
    (getElem?_delete h _).trans (if_pos (keyStart_prefix_recordKey name))
  simp only [load, checkName_of_valid (validName_of_delete h), hrecord]
  rfl

/-- Under the name there is the snapshot and nothing else. -/
theorem getElem?_save (h : save db name hash created state = .ok db') (key : List UInt8) :
    db'[key]? = if keyStart name <+: key then entry? ⟨name, hash, created, state⟩ key
      else db[key]? := by
  rw [(save_inv h).2.2, Database.getElem?_foldl_insert, getElem?_eraseRange_keyStart]
  by_cases hkey : keyStart name <+: key
  · rw [if_pos hkey, if_pos hkey, Option.or_none, entry?]
  · have hnone : (Snapshot.entries ⟨name, hash, created, state⟩).reverse.lookup key = none := by
      rw [List.lookup_eq_none_iff]
      intro e he
      refine bne_iff_ne.mpr ?_
      rintro rfl
      exact hkey (keyStart_prefix_of_mem_entries (List.mem_reverse.mp he))
    rw [if_neg hkey, if_neg hkey, hnone, Option.none_or]

theorem sameBeside_save (h : save db name hash created state = .ok db') : db.SameBeside name db' :=
  fun key hkey => (getElem?_save h key).trans (if_neg hkey)

theorem loadArrays_congr (h : ∀ handle, db'[arrayKey name handle]? = db[arrayKey name handle]?)
    (handles : List UInt32) (arrays : Array (UInt32 × Array Platter)) :
    loadArrays db' name handles arrays = loadArrays db name handles arrays := by
  induction handles generalizing arrays with
  | nil => rfl
  | cons handle rest ih => simp only [loadArrays, h, ih]

/-- A change to the entries of one name does not show under any other name. -/
theorem load_of_sameBeside (h : db.SameBeside name db') (hname : ValidName name) {other : List UInt8}
    (hne : other ≠ name) : load db' other = load db other := by
  by_cases hother : ValidName other
  · have hkeys {key : List UInt8} (hkey : keyStart other <+: key) : db'[key]? = db[key]? :=
      h key fun hstarts => hne (keyStart_unique hother hname hkey hstarts)
    simp only [load, hkeys (keyStart_prefix_recordKey other),
      loadArrays_congr fun handle => hkeys (keyStart_prefix_arrayKey other handle)]
  · rw [load_of_not_valid hother, load_of_not_valid hother]

/-- A name stands only in the key of a record. -/
theorem eq_of_nameOfKey? {key bytes : List UInt8} (hstarts : common <+: key)
    (h : nameOfKey? key = some bytes) : key = common ++ (bytes ++ Utf8.encode "/meta") := by
  obtain ⟨rest, rfl⟩ := hstarts
  have hcommon : common.isPrefixOf (common ++ rest) = true := by simp
  simp only [nameOfKey?, hcommon, if_true, List.drop_left] at h
  split at h
  · rename_i hsuffix
    obtain ⟨start, rfl⟩ := List.isSuffixOf_iff_suffix.mp hsuffix
    split at h
    · cases h
    · rw [List.length_append, Nat.add_sub_cancel, List.take_left] at h
      cases h
      rfl
  · cases h

theorem not_mem_names_of_delete (h : delete db name = .ok db') : ¬ name ∈ names db' := by
  intro hmem
  rw [names, List.mem_filterMap, Database.Holds.common_eq] at hmem
  obtain ⟨key, hkey, hbytes⟩ := hmem
  rw [Database.mem_keysBetween (show slash.toNat < 255 by decide), ← Database.Holds.common_eq]
    at hkey
  have hrecord : key = recordKey name := by
    rw [eq_of_nameOfKey? hkey.2 hbytes, encode_slash_meta, recordKey_eq]
  have hgone := hkey.1
  rw [Std.TreeMap.mem_iff_isSome_getElem?, hrecord, getElem?_delete h,
    if_pos (keyStart_prefix_recordKey name)] at hgone
  cases hgone

end Store

end PlatterMachine
