import PlatterMachine.Proofs.Cbor.Reading
import PlatterMachine.Snapshot.Record

/-!
# Records come back as they were written

The bytes of a record are read as a map of its fields, and each field is read as what was written.
-/

namespace PlatterMachine.SnapshotRecord

open Cbor (Item Reads readTagged)

variable {inner : Option Cbor.Reading} {r r' : SnapshotRecord}

theorem integer_ofInt {least greatest n : Int} (hleast : least ≤ n) (hgreatest : n ≤ greatest)
    (hlow : -0x8000000000000000 ≤ n) : integer least greatest (Item.ofInt n) = .ok n := by
  have hvalue : value (Item.ofInt n) = .ok (.number n) := by
    unfold Item.ofInt
    split
    · rename_i hn
      rw [value, Int.toNat_of_nonneg hn]
    · rw [value, if_pos (by omega), show -1 - ((-1 - n).toNat : Int) = n by omega]
  rw [integer, hvalue]
  exact if_pos ⟨hleast, hgreatest⟩

theorem byte_ofInt (b : UInt8) : byte (Item.ofInt b.toNat) = .ok b := by
  have hlt := b.toNat_lt
  rw [byte, integer_ofInt (by omega) (by omega) (by omega)]
  exact congrArg Except.ok UInt8.ofNat_toNat

theorem word_ofInt (w : UInt32) : word (Item.ofInt w.toNat) = .ok w := by
  have hlt := w.toNat_lt
  rw [word, integer_ofInt (by omega) (by omega) (by omega)]
  exact congrArg Except.ok UInt32.ofNat_toNat

def wordItems (ws : List UInt32) : List Item := ws.map fun w => Item.ofInt w.toNat

theorem readAll_wordItems (ws : List UInt32) : readAll word (wordItems ws) = .ok ws := by
  have hfold (before : Array UInt32) :
      (wordItems ws).foldlM (fun (values : Array UInt32) item => do
        .ok (values.push (← word item))) before = (.ok (before ++ ws) : Except Cbor.Flaw _) := by
    induction ws generalizing before with
    | nil => exact congrArg Except.ok (by simp)
    | cons w ws ih =>
      rw [wordItems, List.map_cons, List.foldlM_cons, word_ofInt]
      exact (ih (before.push w)).trans (by simp)
  rw [readAll, hfold]
  exact congrArg Except.ok (by simp)

theorem fitTo_toList {α : Type} {n : Nat} (fill : α) (v : Vector α n) :
    fitTo n fill v.toList = v := by
  apply Vector.ext
  intro i hi
  rw [fitTo, Vector.getElem_ofFn]
  simp [hi]

theorem setField_version (r : SnapshotRecord) (version : UInt8) :
    setField r .version (.ofInt version.toNat) = .ok { r with version } := by
  rw [setField, byte_ofInt]
  rfl

theorem setField_hash (r : SnapshotRecord) (hash : Vector UInt8 32) :
    setField r .hash (.bytes hash.toList) = .ok { r with hash } := by
  have hread : readHash (.bytes hash.toList) = .ok hash :=
    congrArg Except.ok (fitTo_toList 0 hash)
  rw [setField, hread]
  rfl

theorem setField_registers (r : SnapshotRecord) (registers : Vector UInt32 8) :
    setField r .registers (.array (wordItems registers.toList)) = .ok { r with registers } := by
  have htake : (wordItems registers.toList).take 8 = wordItems registers.toList :=
    List.take_of_length_le (by simp [wordItems])
  have hread : readRegisters (.array (wordItems registers.toList)) = .ok registers := by
    change (do .ok (fitTo 8 0 (← readAll word ((wordItems registers.toList).take 8)))) = _
    rw [htake, readAll_wordItems]
    exact congrArg Except.ok (fitTo_toList 0 registers)
  rw [setField, hread]
  rfl

theorem setField_finger (r : SnapshotRecord) (finger : UInt32) :
    setField r .finger (.ofInt finger.toNat) = .ok { r with finger } := by
  rw [setField, word_ofInt]
  rfl

def handlesItem (handles : Option (List UInt32)) : Item :=
  handles.elim (.simple 22) fun ws => .array (wordItems ws)

theorem setField_handles (r : SnapshotRecord) (handles : Option (List UInt32)) :
    setField r .handles (handlesItem handles) = .ok { r with handles } := by
  have hread : readHandles (handlesItem handles) = .ok handles := by
    cases handles with
    | none => rfl
    | some ws =>
      change (do .ok (some (← readAll word (wordItems ws)))) = _
      rw [readAll_wordItems]
      rfl
  rw [setField, hread]
  rfl

theorem setField_created (r : SnapshotRecord) (created : Int64) :
    setField r .created (.ofInt created.toInt) = .ok { r with created } := by
  have hlow := created.le_toInt
  have hhigh := created.toInt_lt
  rw [setField, integer_ofInt (by omega) (by omega) (by omega)]
  exact congrArg (fun created => Except.ok { r with created }) (Int64.ofInt_toInt created)

theorem setFields_cons {seen : List Field} {key item : Item} {field : Field}
    (hkey : Field.ofKey? key = .ok (some field)) (hnew : ¬ field ∈ seen)
    (hset : setField r field item = .ok r') (rest : List Item) :
    setFields r seen (key :: item :: rest) = setFields r' (field :: seen) rest := by
  rw [setFields, hkey]
  simp only [if_neg hnew, hset]

def items (r : SnapshotRecord) : List Item :=
  [.ofInt 1, .ofInt r.version.toNat, .ofInt 2, .bytes r.hash.toList,
    .ofInt 3, .array (wordItems r.registers.toList), .ofInt 4, .ofInt r.finger.toNat,
    .ofInt 5, handlesItem r.handles, .ofInt 6, .ofInt r.created.toInt]

theorem setFields_items (r : SnapshotRecord) : setFields {} [] r.items = .ok r := by
  rw [items, setFields_cons rfl (by decide) (setField_version _ _),
    setFields_cons rfl (by decide) (setField_hash _ _),
    setFields_cons rfl (by decide) (setField_registers _ _),
    setFields_cons rfl (by decide) (setField_finger _ _),
    setFields_cons rfl (by decide) (setField_handles _ _),
    setFields_cons rfl (by decide) (setField_created _ _)]
  rfl

theorem reads_words {ws : List UInt32} (h : ws.length ≤ Cbor.maxElements) :
    Reads (readTagged (some (readTagged inner))) (encodeWords ws) (.array (wordItems ws)) := by
  refine Cbor.reads_array ?_ (by rwa [List.length_map])
  rw [wordItems, List.forall₂_map_left_iff, List.forall₂_map_right_iff, List.forall₂_same]
  intro w _
  have hlt := w.toNat_lt
  have hread : Reads (readTagged inner) (Cbor.encodeInt w.toNat) (.ofInt w.toNat) :=
    Cbor.reads_int (by omega) (by omega)
  rwa [Cbor.encodeInt, if_pos (Int.natCast_nonneg _), Int.toNat_natCast] at hread

theorem reads_handles {handles : Option (List UInt32)}
    (h : (handles.getD []).length ≤ Cbor.maxElements) :
    Reads (readTagged (some (readTagged inner))) (handles.elim Cbor.encodeNull encodeWords)
      (handlesItem handles) := by
  cases handles with
  | none => exact Cbor.reads_null
  | some ws => exact reads_words h

def leading (r : SnapshotRecord) : List (List UInt8) :=
  [Cbor.encodeInt 1, Cbor.encodeInt r.version.toNat, Cbor.encodeInt 2,
    Cbor.encodeBytes r.hash.toList, Cbor.encodeInt 3, encodeWords r.registers.toList,
    Cbor.encodeInt 4, Cbor.encodeInt r.finger.toNat, Cbor.encodeInt 5]

theorem encode_eq (r : SnapshotRecord) :
    r.encode = Cbor.encodeHead .map 6 ++ (r.leading ++
      [r.handles.elim Cbor.encodeNull encodeWords, Cbor.encodeInt 6,
        Cbor.encodeInt r.created.toInt]).flatten := by
  simp [encode, leading]

theorem reads_leading (r : SnapshotRecord) :
    List.Forall₂ (Reads (readTagged (some (readTagged inner)))) r.leading (r.items.take 9) := by
  have hversion := r.version.toNat_lt
  have hfinger := r.finger.toNat_lt
  have hregisters : r.registers.toList.length ≤ Cbor.maxElements := by
    rw [Vector.length_toList]
    decide
  have hhash : r.hash.toList.length < 0x10000000000000000 := by
    rw [Vector.length_toList]
    decide
  exact .cons (Cbor.reads_int (by decide) (by decide)) <|
    .cons (Cbor.reads_int (by omega) (by omega)) <|
    .cons (Cbor.reads_int (by decide) (by decide)) <|
    .cons (Cbor.reads_bytes hhash) <|
    .cons (Cbor.reads_int (by decide) (by decide)) <|
    .cons (reads_words hregisters) <|
    .cons (Cbor.reads_int (by decide) (by decide)) <|
    .cons (Cbor.reads_int (by omega) (by omega)) <|
    .cons (Cbor.reads_int (by decide) (by decide)) .nil

/-- A record with no more handles than an array may have elements is read as it was written. -/
theorem decode_encode (h : (r.handles.getD []).length ≤ Cbor.maxElements) :
    decode r.encode = .ok r := by
  have hlow := r.created.le_toInt
  have hhigh := r.created.toInt_lt
  have hreads : Reads (readTagged (some (readTagged (some (readTagged (some
      (Cbor.readDepth 29))))))) r.encode (.map r.items) := by
    rw [encode_eq]
    refine Cbor.reads_map ?_ rfl (by decide)
    exact List.rel_append r.reads_leading <|
      .cons (reads_handles h) <|
      .cons (Cbor.reads_int (by decide) (by decide)) <|
      .cons (Cbor.reads_int (by omega) (by omega)) .nil
  rw [decode, Item.decode_of_reads hreads]
  exact setFields_items r

/-- A record with more handles than that is written, but it is not read again. -/
theorem decode_encode_of_lt {ws : List UInt32} (hws : r.handles = some ws)
    (hlong : Cbor.maxElements < ws.length) (hlen : ws.length < 0x10000000000000000) :
    decode r.encode = .error .tooManyElements := by
  have hbad (rest : List UInt8) :
      readTagged (some (readTagged (some (Cbor.readDepth 29)))) (encodeWords ws ++ rest) =
        .error .tooManyElements :=
    Cbor.readTagged_encodeArray_of_lt (by rwa [List.length_map]) (by rwa [List.length_map]) rest
  have hread : Cbor.readDepth Cbor.maxDepth r.encode = .error .tooManyElements := by
    rw [encode_eq, hws, List.flatten_append, Option.elim_some, List.flatten_cons]
    exact Cbor.readTagged_map_error r.reads_leading (hbad _) (show 9 < 2 * 6 by decide) (by decide)
  rw [decode, Item.decode, hread]
  rfl

end PlatterMachine.SnapshotRecord
