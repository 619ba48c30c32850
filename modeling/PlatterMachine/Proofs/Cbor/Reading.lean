import PlatterMachine.Cbor.Item
import Mathlib.Data.List.Forall2
import Mathlib.Tactic.Ring

/-!
# Reading what was written

Whatever follows an item that was written, the item is read and what follows it is left.
-/

namespace PlatterMachine.Cbor

variable {inner : Option Reading} {read : Reading} {n : Nat}

theorem length_bigEndian (width n : Nat) : (bigEndian width n).length = width := by
  induction width with
  | zero => rfl
  | succ width ih => rw [bigEndian, List.length_cons, ih]

theorem foldl_bigEndian (width n first : Nat) :
    (bigEndian width n).foldl (fun n b => 256 * n + b.toNat) first =
      first * Nat.pow 256 width + n % Nat.pow 256 width := by
  induction width generalizing first with
  | zero => simp [bigEndian, Nat.mod_one]
  | succ width ih =>
    have hdigit : (UInt8.ofNat (n >>> (8 * width))).toNat = n / Nat.pow 256 width % 256 := by
      rw [UInt8.toNat_ofNat', Nat.shiftRight_eq_div_pow, Nat.pow_mul]
      rfl
    have hmod : n % Nat.pow 256 (width + 1) =
        n % Nat.pow 256 width + Nat.pow 256 width * (n / Nat.pow 256 width % 256) :=
      Nat.mod_pow_succ
    have hpow : Nat.pow 256 (width + 1) = Nat.pow 256 width * 256 := rfl
    rw [bigEndian, List.foldl_cons, ih, hdigit, hmod, hpow]
    ring

theorem argument_bigEndian {width : Nat} (h : n < Nat.pow 256 width) (rest : List UInt8) :
    argument width (bigEndian width n ++ rest) = .ok (n, rest) := by
  have htake : (bigEndian width n ++ rest).take width = bigEndian width n :=
    List.take_left' (length_bigEndian width n)
  have hdrop : (bigEndian width n ++ rest).drop width = rest :=
    List.drop_left' (length_bigEndian width n)
  rw [argument, htake, hdrop, length_bigEndian, if_neg (Nat.lt_irrefl width), foldl_bigEndian,
    Nat.zero_mul, Nat.zero_add, Nat.mod_eq_of_lt h]

def infoFor (n : Nat) : Nat :=
  if n < 24 then n else if n < 0x100 then 24 else if n < 0x10000 then 25
  else if n < 0x100000000 then 26 else 27

theorem infoFor_ne_indefinite (n : Nat) : infoFor n ≠ indefinite := by
  unfold infoFor indefinite
  repeat' split
  all_goals omega

theorem ofNumber_number (major : Major) : Major.ofNumber major.number = major := by
  cases major <;> rfl

theorem toNat_start (major : Major) (info : Nat) (h : info < 32) :
    (UInt8.ofNat (32 * major.number + info)).toNat / 32 = major.number ∧
      (UInt8.ofNat (32 * major.number + info)).toNat % 32 = info := by
  have hmajor : major.number < 8 := by cases major <;> decide
  rw [UInt8.toNat_ofNat', Nat.mod_eq_of_lt (by omega)]
  omega

theorem readHead_small (major : Major) (hn : n < 24) (rest : List UInt8) :
    readHead (UInt8.ofNat (32 * major.number + n) :: rest) = .ok (⟨major, n, n⟩, rest) := by
  obtain ⟨hdiv, hmod⟩ := toNat_start major n (by omega)
  rw [readHead]
  simp only [hdiv, hmod, ofNumber_number, if_pos hn]

theorem readHead_wide (major : Major) {k : Nat} (hk : k < 4) (h : n < Nat.pow 256 (1 <<< k))
    (rest : List UInt8) :
    readHead (UInt8.ofNat (32 * major.number + (24 + k)) :: (bigEndian (1 <<< k) n ++ rest)) =
      .ok (⟨major, 24 + k, n⟩, rest) := by
  obtain ⟨hdiv, hmod⟩ := toNat_start major (24 + k) (by omega)
  rw [readHead]
  simp only [hdiv, hmod, ofNumber_number, if_neg (show ¬ 24 + k < 24 by omega),
    if_pos (show 24 + k < 28 by omega), Nat.add_sub_cancel_left, argument_bigEndian h]
  rfl

theorem readHead_encodeHead (major : Major) (hn : n < 0x10000000000000000) (rest : List UInt8) :
    readHead (encodeHead major n ++ rest) = .ok (⟨major, infoFor n, n⟩, rest) := by
  unfold encodeHead infoFor
  dsimp only
  by_cases h₀ : n < 24
  · simp only [if_pos h₀]
    exact readHead_small major h₀ rest
  by_cases h₁ : n < 0x100
  · simp only [if_neg h₀, if_pos h₁]
    exact readHead_wide major (k := 0) (by decide) h₁ rest
  by_cases h₂ : n < 0x10000
  · simp only [if_neg h₀, if_neg h₁, if_pos h₂]
    exact readHead_wide major (k := 1) (by decide) h₂ rest
  by_cases h₃ : n < 0x100000000
  · simp only [if_neg h₀, if_neg h₁, if_neg h₂, if_pos h₃]
    exact readHead_wide major (k := 2) (by decide) h₃ rest
  · simp only [if_neg h₀, if_neg h₁, if_neg h₂, if_neg h₃]
    exact readHead_wide major (k := 3) (by decide) hn rest

/-- `bytes` in front of anything are read as `item`. -/
def Reads (read : Reading) (bytes : List UInt8) (item : Item) : Prop :=
  ∀ rest, read (bytes ++ rest) = .ok (item, rest)

theorem readTagged_encodeHead (major : Major) (hmajor : major ≠ .tagged)
    (hn : n < 0x10000000000000000) (rest : List UInt8) :
    readTagged inner (encodeHead major n ++ rest) = readBody inner ⟨major, infoFor n, n⟩ rest := by
  rw [readTagged, readHead_encodeHead major hn]
  change (if major = .tagged then _ else _) = _
  rw [if_neg hmajor]

theorem reads_unsigned (hn : n < 0x10000000000000000) :
    Reads (readTagged inner) (encodeHead .unsigned n) (.unsigned n) :=
  readTagged_encodeHead .unsigned nofun hn

theorem reads_negative (hn : n < 0x10000000000000000) :
    Reads (readTagged inner) (encodeHead .negative n) (.negative n) :=
  readTagged_encodeHead .negative nofun hn

def Item.ofInt (n : Int) : Item :=
  if 0 ≤ n then .unsigned n.toNat else .negative (-1 - n).toNat

theorem reads_int {n : Int} (hlow : -0x10000000000000000 ≤ n) (hhigh : n < 0x10000000000000000) :
    Reads (readTagged inner) (encodeInt n) (Item.ofInt n) := by
  unfold encodeInt Item.ofInt
  split
  · exact reads_unsigned (by omega)
  · exact reads_negative (by omega)

theorem reads_null : Reads (readTagged inner) encodeNull (.simple 22) :=
  readTagged_encodeHead .simple nofun (by decide)

theorem reads_bytes {value : List UInt8} (h : value.length < 0x10000000000000000) :
    Reads (readTagged inner) (encodeBytes value) (.bytes value) := by
  intro rest
  rw [encodeBytes, List.append_assoc, readTagged_encodeHead .bytes nofun h, readBody]
  simp only [stringPieces, if_neg (infoFor_ne_indefinite _), readString, List.take_left,
    List.drop_left, Nat.lt_irrefl, if_false]
  exact congrArg (fun b => Except.ok (Item.bytes b, rest)) (List.append_nil value)

/-- Items one after the other. -/
theorem readCount_flatten {encodings : List (List UInt8)} {items : List Item}
    (h : List.Forall₂ (Reads read) encodings items) (rest : List UInt8) (before : Array Item) :
    readCount read encodings.length (encodings.flatten ++ rest) before =
      .ok (before.toList ++ items, rest) := by
  induction h generalizing before with
  | nil => simp [readCount]
  | cons hread _ ih =>
    rw [List.length_cons, readCount, List.flatten_cons, List.append_assoc, hread]
    dsimp only
    rw [ih, Array.toList_push, List.append_assoc, List.singleton_append]

theorem readElements_flatten {encodings : List (List UInt8)} {items : List Item} {major : Major}
    {per : Nat} {excess : Flaw} (h : List.Forall₂ (Reads read) encodings items)
    (hlen : encodings.length = per * n) (hn : n ≤ maxElements) (rest : List UInt8) :
    readElements (some read) ⟨major, infoFor n, n⟩ per excess (encodings.flatten ++ rest) =
      .ok (items, rest) := by
  rw [readElements]
  simp only [if_neg (infoFor_ne_indefinite _), if_neg (Nat.not_lt.mpr hn), ← hlen]
  rw [readCount_flatten h]
  rfl

theorem reads_array {encodings : List (List UInt8)} {items : List Item}
    (h : List.Forall₂ (Reads read) encodings items) (hlen : encodings.length ≤ maxElements) :
    Reads (readTagged (some read)) (encodeArray encodings) (.array items) := by
  intro rest
  have hlt : encodings.length < 0x10000000000000000 := by
    rw [maxElements] at hlen
    omega
  rw [encodeArray, List.append_assoc, readTagged_encodeHead .array nofun hlt, readBody]
  simp only [readElements_flatten h (Nat.one_mul _).symm hlen]
  rfl

theorem reads_map {encodings : List (List UInt8)} {items : List Item}
    (h : List.Forall₂ (Reads read) encodings items) (hlen : encodings.length = 2 * n)
    (hn : n ≤ maxElements) :
    Reads (readTagged (some read)) (encodeHead .map n ++ encodings.flatten) (.map items) := by
  intro rest
  have hlt : n < 0x10000000000000000 := by
    rw [maxElements] at hn
    omega
  rw [List.append_assoc, readTagged_encodeHead .map nofun hlt, readBody]
  simp only [readElements_flatten h hlen hn]
  rfl

/-- An array of too many elements is refused, whatever they are. -/
theorem readTagged_encodeArray_of_lt {encodings : List (List UInt8)}
    (hlong : maxElements < encodings.length) (hlen : encodings.length < 0x10000000000000000)
    (rest : List UInt8) :
    readTagged (some read) (encodeArray encodings ++ rest) = .error .tooManyElements := by
  rw [encodeArray, List.append_assoc, readTagged_encodeHead .array nofun hlen, readBody]
  simp only [readElements, if_neg (infoFor_ne_indefinite _), if_pos hlong]
  rfl

/-- The first item that is refused ends the reading. -/
theorem readCount_error {encodings : List (List UInt8)} {items : List Item} {bytes : List UInt8}
    {flaw : Flaw} (h : List.Forall₂ (Reads read) encodings items)
    (hbad : read bytes = .error flaw) (hlt : encodings.length < n) (before : Array Item) :
    readCount read n (encodings.flatten ++ bytes) before = .error flaw := by
  induction h generalizing n before with
  | nil =>
    obtain ⟨k, rfl⟩ := Nat.exists_eq_succ_of_ne_zero (Nat.ne_of_gt hlt)
    simp only [List.flatten_nil, List.nil_append, readCount, hbad]
  | cons hread _ ih =>
    rw [List.length_cons] at hlt
    obtain ⟨k, rfl⟩ := Nat.exists_eq_succ_of_ne_zero (Nat.ne_zero_of_lt hlt)
    rw [readCount, List.flatten_cons, List.append_assoc, hread]
    exact ih (Nat.lt_of_succ_lt_succ hlt) _

theorem readTagged_map_error {encodings : List (List UInt8)} {items : List Item}
    {bytes : List UInt8} {flaw : Flaw} (h : List.Forall₂ (Reads read) encodings items)
    (hbad : read bytes = .error flaw) (hlt : encodings.length < 2 * n) (hn : n ≤ maxElements) :
    readTagged (some read) (encodeHead .map n ++ (encodings.flatten ++ bytes)) = .error flaw := by
  have hhead : n < 0x10000000000000000 := by
    rw [maxElements] at hn
    omega
  rw [readTagged_encodeHead .map nofun hhead, readBody]
  simp only [readElements, if_neg (infoFor_ne_indefinite _), if_neg (Nat.not_lt.mpr hn),
    readCount_error h hbad hlt]
  rfl

theorem Item.decode_of_reads {bytes : List UInt8} {item : Item}
    (h : Reads (readDepth maxDepth) bytes item) : Item.decode bytes = .ok item := by
  have hread := h []
  rw [List.append_nil] at hread
  rw [Item.decode, hread]
  rfl

end PlatterMachine.Cbor
