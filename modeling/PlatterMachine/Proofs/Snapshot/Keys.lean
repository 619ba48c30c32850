import PlatterMachine.Proofs.Scroll
import PlatterMachine.Snapshot.Store
import Mathlib.Data.List.Basic

/-!
# Keys of snapshots

Names have no slash, so a key tells which snapshot it belongs to, and the keys that start as those of
a snapshot do are exactly the range that is erased when it is replaced. A key also tells whether it is
that of a record, however the handle of an array is spelled.
-/

namespace PlatterMachine

namespace Utf8

theorem toList_loop_eq (bytes : ByteArray) (i : Nat) (read : List UInt8) :
    ByteArray.toList.loop bytes i read = read.reverse ++ bytes.data.toList.drop i := by
  fun_induction ByteArray.toList.loop bytes i read with
  | case1 i read h ih =>
    have hi : i < bytes.data.toList.length := h
    rw [ih, List.drop_eq_getElem_cons hi]
    simp [ByteArray.get!, h]
  | case2 i read h =>
    rw [List.drop_eq_nil_of_le (Nat.le_of_not_lt h), List.append_nil]

theorem toList_eq (bytes : ByteArray) : bytes.toList = bytes.data.toList := by
  rw [ByteArray.toList, toList_loop_eq]
  rfl

theorem encode_eq (text : String) : encode text = text.toList.flatMap String.utf8EncodeChar := by
  rw [encode, String.toUTF8_eq_toByteArray, ← String.utf8Encode_toList, toList_eq, List.utf8Encode,
    List.toList_data_toByteArray]

theorem encode_empty : encode "" = [] := by
  rw [encode_eq]
  rfl

end Utf8

namespace Database

theorem compare_cons_cons (x y : UInt8) (a b : List UInt8) :
    compare (x :: a) (y :: b) = (compare x y).then (compare a b) :=
  List.compareLex_cons_cons

theorem compare_append_left (first a b : List UInt8) :
    compare (first ++ a) (first ++ b) = compare a b := by
  induction first with
  | nil => rfl
  | cons x first ih =>
    have hx : compare x x = .eq := Std.ReflCmp.compare_self
    rw [List.cons_append, List.cons_append, compare_cons_cons, hx]
    exact ih

theorem between_iff_eq {b c : UInt8} (hc : c.toNat < 255) :
    (compare b c).isGE ∧ (compare b (c + 1)).isLT ↔ b = c := by
  have hsucc : (c + 1).toNat = c.toNat + 1 := by
    rw [UInt8.toNat_add]
    exact Nat.mod_eq_of_lt (show c.toNat + 1 < 256 by omega)
  rw [UInt8.compare_eq_toNat_compare_toNat, UInt8.compare_eq_toNat_compare_toNat, hsucc,
    Nat.isGE_compare, Ordering.isLT_iff_eq_lt, Nat.compare_eq_lt, ← UInt8.toNat_inj]
  omega

/-- The keys from a start up to its end are those that start so. -/
theorem between_iff_starts (first : List UInt8) {c : UInt8} (hc : c.toNat < 255)
    (key : List UInt8) :
    (compare key (first ++ [c])).isGE ∧ (compare key (first ++ [c + 1])).isLT ↔
      first ++ [c] <+: key := by
  induction first generalizing key with
  | nil =>
    cases key with
    | nil => simp
    | cons b key =>
      have hge : ((compare b c).then (compare key [])).isGE = (compare b c).isGE := by
        cases compare b c <;> cases key <;> rfl
      have hlt : ((compare b (c + 1)).then (compare key [])).isLT = (compare b (c + 1)).isLT := by
        cases compare b (c + 1) <;> cases key <;> rfl
      rw [List.nil_append, List.nil_append, compare_cons_cons, compare_cons_cons, hge, hlt,
        between_iff_eq hc, List.cons_prefix_cons]
      simp [eq_comm]
  | cons x first ih =>
    cases key with
    | nil => simp
    | cons b key =>
      rw [List.cons_append, List.cons_append, compare_cons_cons, compare_cons_cons,
        List.cons_prefix_cons]
      by_cases hbx : x = b
      · subst hbx
        rw [Std.ReflOrd.compare_self]
        simpa using ih key
      · have hne : compare b x ≠ .eq := fun h => hbx (Std.LawfulEqOrd.eq_of_compare h).symm
        cases hcmp : compare b x with
        | lt => simp [hbx]
        | eq => exact absurd hcmp hne
        | gt => simp [hbx]

theorem keyEnd_concat (first : List UInt8) (c : UInt8) :
    Snapshot.keyEnd (first ++ [c]) = first ++ [c + 1] := by
  simp [Snapshot.keyEnd]

theorem getElem?_eraseRange (db : Database) (first : List UInt8) {c : UInt8} (hc : c.toNat < 255)
    (key : List UInt8) :
    (db.eraseRange (first ++ [c]) (Snapshot.keyEnd (first ++ [c])))[key]? =
      if first ++ [c] <+: key then none else db[key]? := by
  have hkept : ((compare key (first ++ [c])).isLT || (compare key (first ++ [c + 1])).isGE) = true ↔
      ¬ first ++ [c] <+: key := by
    rw [← between_iff_starts first hc key]
    cases compare key (first ++ [c]) <;> cases compare key (first ++ [c + 1]) <;> decide
  rw [eraseRange, Std.TreeMap.getElem?_filter', keyEnd_concat]
  by_cases hkey : first ++ [c] <+: key
  · rw [Bool.eq_false_iff.mpr (mt hkept.mp (not_not_intro hkey)), if_pos hkey]
    cases db[key]? <;> rfl
  · rw [hkept.mpr hkey, if_neg hkey]
    cases db[key]? <;> rfl

theorem mem_keysBetween {db : Database} {first : List UInt8} {c : UInt8} (hc : c.toNat < 255)
    {key : List UInt8} :
    key ∈ db.keysBetween (first ++ [c]) (Snapshot.keyEnd (first ++ [c])) ↔
      key ∈ db ∧ first ++ [c] <+: key := by
  rw [keysBetween, List.mem_filter, Std.TreeMap.mem_keys, keyEnd_concat, Bool.and_eq_true,
    between_iff_starts first hc]

end Database

namespace Snapshot

def slash : UInt8 := 47

def ValidName (name : List UInt8) : Prop := name ≠ [] ∧ ¬ slash ∈ name

instance (name : List UInt8) : Decidable (ValidName name) :=
  inferInstanceAs (Decidable (name ≠ [] ∧ ¬ slash ∈ name))

theorem takeWhile_name {name : List UInt8} (h : ¬ slash ∈ name) (rest : List UInt8) :
    (name ++ slash :: rest).takeWhile (· != slash) = name := by
  have hname (b : UInt8) (hb : b ∈ name) : (b != slash) = true := by
    rw [bne_iff_ne]
    rintro rfl
    exact h hb
  rw [List.takeWhile_append_of_pos hname]
  simp

/-- What stands before the first slash of both is the same. -/
theorem name_unique {a b u v : List UInt8} (ha : ¬ slash ∈ a) (hb : ¬ slash ∈ b)
    (h : a ++ slash :: u = b ++ slash :: v) : a = b := by
  rw [← takeWhile_name ha u, h, takeWhile_name hb]

theorem compare_slash {a b : List UInt8} (ha : ¬ slash ∈ a) (hb : ¬ slash ∈ b) (rest : List UInt8) :
    compare (a ++ slash :: rest) (b ++ slash :: rest) = compare (a ++ [slash]) (b ++ [slash]) := by
  have hne {x y : UInt8} (hxy : x ≠ y) (u v u' v' : List UInt8) :
      compare (x :: u) (y :: v) = compare (x :: u') (y :: v') := by
    have hcmp : compare x y ≠ .eq := mt Std.LawfulEqOrd.eq_of_compare hxy
    rw [Database.compare_cons_cons, Database.compare_cons_cons]
    cases h : compare x y with
    | lt => rfl
    | eq => exact absurd h hcmp
    | gt => rfl
  induction a generalizing b with
  | nil =>
    cases b with
    | nil =>
      rw [List.nil_append, List.nil_append, Std.ReflOrd.compare_self, Std.ReflOrd.compare_self]
    | cons y b =>
      have hy : slash ≠ y := by
        rintro rfl
        exact hb List.mem_cons_self
      exact hne hy ..
  | cons x a ih =>
    cases b with
    | nil =>
      have hx : x ≠ slash := by
        rintro rfl
        exact ha List.mem_cons_self
      exact hne hx ..
    | cons y b =>
      rw [List.mem_cons, not_or] at ha hb
      simp only [List.cons_append, Database.compare_cons_cons, ih ha.2 hb.2]

theorem encode_slash : Utf8.encode "/" = [slash] := by
  rw [Utf8.encode_eq]
  decide

theorem encode_meta : Utf8.encode "meta" = [109, 101, 116, 97] := by
  rw [Utf8.encode_eq]
  decide

theorem encode_array : Utf8.encode "array/" = [97, 114, 114, 97, 121, slash] := by
  rw [Utf8.encode_eq]
  decide

theorem keyStart_eq (name : List UInt8) : keyStart name = common ++ name ++ [slash] := by
  rw [keyStart, encode_slash]

theorem recordKey_eq (name : List UInt8) :
    recordKey name = common ++ (name ++ slash :: Utf8.encode "meta") := by
  rw [recordKey, keyStart_eq]
  simp

theorem arrayKey_eq (name : List UInt8) (handle : UInt32) :
    arrayKey name handle =
      common ++ (name ++ slash :: (Utf8.encode "array/" ++ Scroll.bigEndian handle)) := by
  rw [arrayKey, keyStart_eq]
  simp

theorem keyStart_prefix_recordKey (name : List UInt8) : keyStart name <+: recordKey name :=
  List.prefix_append ..

theorem keyStart_prefix_arrayKey (name : List UInt8) (handle : UInt32) :
    keyStart name <+: arrayKey name handle := by
  rw [arrayKey, List.append_assoc]
  exact List.prefix_append ..

theorem keyStart_unique {a b : List UInt8} (ha : ValidName a) (hb : ValidName b) {key : List UInt8}
    (h : keyStart a <+: key) (h' : keyStart b <+: key) : a = b := by
  obtain ⟨u, rfl⟩ := h
  obtain ⟨v, hv⟩ := h'
  simp only [keyStart_eq, List.append_assoc, List.append_cancel_left_eq] at hv
  exact (name_unique hb.2 ha.2 hv).symm

theorem recordKey_ne_arrayKey (name : List UInt8) (handle : UInt32) :
    recordKey name ≠ arrayKey name handle := by
  intro h
  rw [recordKey, arrayKey, List.append_assoc, List.append_cancel_left_eq, encode_meta,
    encode_array] at h
  cases h

theorem arrayKey_injective {name : List UInt8} {h h' : UInt32}
    (heq : arrayKey name h = arrayKey name h') : h = h' := by
  rw [arrayKey, arrayKey, List.append_cancel_left_eq] at heq
  exact Scroll.bigEndian_injective heq

theorem compare_recordKey {a b : List UInt8} (ha : ValidName a) (hb : ValidName b) :
    compare (recordKey a) (recordKey b) =
      compare (a ++ [slash]) (b ++ [slash]) := by
  rw [recordKey_eq, recordKey_eq, Database.compare_append_left,
    compare_slash ha.2 hb.2]

theorem encode_slash_meta : Utf8.encode "/meta" = slash :: Utf8.encode "meta" := by
  rw [Utf8.encode_eq, Utf8.encode_eq]
  decide

/-- Only the last five bytes and the slashes before them matter. -/
theorem nameOfKey?_append (name tail : List UInt8) (htail : tail.length = 5) :
    nameOfKey? (common ++ (name ++ tail)) =
      if Utf8.encode "/meta" = tail ∧ ¬ slash ∈ name then some name else none := by
  have hstarts : common.isPrefixOf (common ++ (name ++ tail)) = true := by simp
  have hlen : (Utf8.encode "/meta").length = 5 := by
    rw [encode_slash_meta, encode_meta]
    rfl
  have hsuffix : (Utf8.encode "/meta").isSuffixOf (name ++ tail) = true ↔
      Utf8.encode "/meta" = tail := by
    rw [List.isSuffixOf_iff_suffix]
    constructor
    · intro h
      have hle : (Utf8.encode "/meta").length ≤ tail.length := by omega
      exact (List.suffix_of_suffix_length_le h (List.suffix_append name tail) hle).eq_of_length
        (hlen.trans htail.symm)
    · rintro rfl
      exact List.suffix_append ..
  have htake : (name ++ tail).take ((name ++ tail).length - (Utf8.encode "/meta").length) = name := by
    rw [List.length_append, hlen, htail, Nat.add_sub_cancel, List.take_left]
  have hslash : name.contains '/'.toUInt8 = true ↔ slash ∈ name := List.contains_iff_mem
  simp only [nameOfKey?, hstarts, if_true, List.drop_left, htake, hsuffix, hslash]
  by_cases h : Utf8.encode "/meta" = tail
  · by_cases hmem : slash ∈ name
    · simp [h, hmem]
    · simp [h, hmem]
  · simp [h]

theorem nameOfKey?_recordKey {name : List UInt8} (h : ValidName name) :
    nameOfKey? (recordKey name) = some name := by
  rw [recordKey_eq, ← encode_slash_meta, nameOfKey?_append _ _ (by
    rw [encode_slash_meta, encode_meta]
    rfl)]
  exact if_pos ⟨rfl, h.2⟩

/-- Even if the handle is spelled as the end of the key of a record. -/
theorem nameOfKey?_arrayKey (name : List UInt8) (handle : UInt32) :
    nameOfKey? (arrayKey name handle) = none := by
  have hkey : arrayKey name handle = common ++ ((name ++ slash :: [97, 114, 114, 97, 121])
      ++ slash :: Scroll.bigEndian handle) := by
    rw [arrayKey_eq, encode_array]
    simp
  rw [hkey, nameOfKey?_append _ _ rfl]
  exact if_neg fun h => h.2 (by simp)

end Snapshot

end PlatterMachine
