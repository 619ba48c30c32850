import PlatterMachine.Proofs.Engine.Fetch
import PlatterMachine.Proofs.Stream.Delivery
import PlatterMachine.Scroll

/-!
# Images of platters

The image of a list of platters has four bytes for each of them. Decoding it gives that list, and so
does reading it.
-/

namespace PlatterMachine.Scroll

theorem ofBigEndian_eq (b₀ b₁ b₂ b₃ : UInt8) :
    ofBigEndian b₀ b₁ b₂ b₃ = ofLittleEndian b₃ b₂ b₁ b₀ := by
  rw [ofBigEndian, ofLittleEndian, UInt32.or_comm _ b₃.toUInt32,
    UInt32.or_comm _ (b₂.toUInt32 <<< 8), UInt32.or_comm (b₀.toUInt32 <<< 24),
    ← UInt32.or_assoc, ← UInt32.or_assoc]

theorem ofBigEndian_bytes (w : UInt32) :
    ofBigEndian (w >>> 24).toUInt8 (w >>> 16).toUInt8 (w >>> 8).toUInt8 w.toUInt8 = w := by
  rw [ofBigEndian_eq, ofLittleEndian_bytes]

theorem bigEndian_injective {v w : UInt32} (h : bigEndian v = bigEndian w) : v = w := by
  simp only [bigEndian, List.cons.injEq, and_true] at h
  obtain ⟨h₀, h₁, h₂, h₃⟩ := h
  rw [← ofBigEndian_bytes v, h₀, h₁, h₂, h₃, ofBigEndian_bytes]

theorem length_encode (platters : List Platter) :
    (encode platters).length = 4 * platters.length := by
  induction platters with
  | nil => rfl
  | cons p platters ih =>
    rw [encode, List.flatMap_cons, List.length_append, List.length_cons]
    change 4 + (encode platters).length = _
    omega

theorem decodeAfter_encode (read : Array Platter) (platters : List Platter) :
    decodeAfter read (encode platters) = read ++ platters := by
  induction platters generalizing read with
  | nil => simp [encode, decodeAfter]
  | cons p platters ih =>
    change decodeAfter (read.push (ofBigEndian ..)) (encode platters) = _
    rw [ofBigEndian_bytes, ih]
    simp

theorem decode_encode (platters : Array Platter) : decode (encode platters.toList) = platters := by
  rw [decode, decodeAfter_encode]
  simp

/-- However the image arrives, its platters are read behind those there are. -/
theorem readPlatters_encode (total : Nat) (platters : List Platter) {r : Reader}
    (read : Array Platter) (h : r.Delivers (encode platters)) :
    readPlatters total platters.length r read = .ok (read ++ platters) := by
  induction platters generalizing r read with
  | nil => simp [readPlatters]
  | cons p platters ih =>
    obtain ⟨r', hread, h'⟩ := Reader.Delivers.readFull (show r.Delivers (bigEndian p ++ _) from h)
    have hfour : r.readFull 4 = (.ok (bigEndian p), r') := hread
    rw [List.length_cons, readPlatters, hfour]
    simp only [bigEndian, ofBigEndian_bytes]
    rw [ih _ h']
    simp

end PlatterMachine.Scroll
