import PlatterMachine.HostCode.Routine
import PlatterMachine.Proofs.Action

/-!
# What an assembler emits

`Emits x bytes` states that the action `x` appends `bytes` to the code, or counts them when there is
no buffer. Emission composes, a jump that is patched behind its body emits the same bytes as a jump
with its distance known, and the routine of every platter emits the encoding of a list of host
instructions. So measuring and writing agree, whatever the buffer held before.
-/

namespace PlatterMachine

def Placed (code : Array UInt8) (pos : Nat) (bytes : List UInt8) : Prop :=
  ∀ j, j < bytes.length → code[pos + j]? = bytes[j]?

theorem Placed.append_iff {code : Array UInt8} {pos : Nat} {s t : List UInt8} :
    Placed code pos (s ++ t) ↔ Placed code pos s ∧ Placed code (pos + s.length) t := by
  constructor
  · intro h
    refine ⟨fun j hj => ?_, fun j hj => ?_⟩
    · rw [h j (by simp; omega), List.getElem?_append_left hj]
    · rw [Nat.add_assoc, h (s.length + j) (by simp; omega),
        List.getElem?_append_right (by omega), Nat.add_sub_cancel_left]
  · rintro ⟨hs, ht⟩ j hj
    by_cases hjs : j < s.length
    · rw [hs j hjs, List.getElem?_append_left hjs]
    · have hlen : j - s.length < t.length := by simp at hj; omega
      have hpos : pos + j = pos + s.length + (j - s.length) := by omega
      rw [hpos, ht _ hlen, List.getElem?_append_right (by omega)]

theorem Placed.extract_eq {code : Array UInt8} {pos : Nat} {bytes : List UInt8}
    (h : Placed code pos bytes) : code.extract pos (pos + bytes.length) = bytes.toArray := by
  apply Array.ext_getElem?
  intro j
  rw [Array.getElem?_extract]
  by_cases hj : j < bytes.length
  · have hpos : pos + j < code.size := by
      have hsome := h j hj
      rw [List.getElem?_eq_getElem hj] at hsome
      exact (Array.getElem?_eq_some_iff.mp hsome).1
    rw [if_pos (by omega), h j hj, List.getElem?_toArray]
  · rw [if_neg (by omega), List.getElem?_toArray, List.getElem?_eq_none (by omega)]

namespace Assembler

@[simp] theorem size_writeBytes (code : Array UInt8) (place stop : Nat) (bytes : List UInt8) :
    (writeBytes code place stop bytes).size = code.size := by
  induction bytes generalizing code place with
  | nil => rfl
  | cons b bs ih =>
    unfold writeBytes
    split
    · rw [ih, Array.size_setIfInBounds]
    · rfl

theorem writeBytes_append (code : Array UInt8) (place stop : Nat) (s t : List UInt8) :
    writeBytes (writeBytes code place stop s) (place + s.length) stop t =
      writeBytes code place stop (s ++ t) := by
  induction s generalizing code place with
  | nil => rfl
  | cons b bs ih =>
    rw [List.cons_append, writeBytes, writeBytes, List.length_cons]
    by_cases h : place < stop
    · rw [if_pos h, if_pos h, ← ih]
      congr 1
      omega
    · rw [if_neg h, if_neg h]
      cases t with
      | nil => rfl
      | cons c cs => rw [writeBytes, if_neg (by omega)]

theorem getElem?_writeBytes (code : Array UInt8) (place stop : Nat) (bytes : List UInt8)
    (hstop : place + bytes.length ≤ stop) (hsize : place + bytes.length ≤ code.size) (i : Nat) :
    (writeBytes code place stop bytes)[i]? =
      if place ≤ i ∧ i < place + bytes.length then bytes[i - place]? else code[i]? := by
  induction bytes generalizing code place with
  | nil =>
    have h : ¬ (place ≤ i ∧ i < place + ([] : List UInt8).length) := by simp
    rw [if_neg h, writeBytes]
  | cons b bs ih =>
    rw [List.length_cons] at hstop hsize
    rw [writeBytes, if_pos (by omega), ih _ _ (by omega) (by simp; omega), List.length_cons]
    by_cases hi : i = place
    · subst hi
      have h : ¬ (i + 1 ≤ i ∧ i < i + 1 + bs.length) := by omega
      rw [if_neg h, if_pos (by omega), Array.getElem?_setIfInBounds_self_of_lt (by omega)]
      simp
    · rw [Array.getElem?_setIfInBounds_ne (by omega)]
      by_cases h : place + 1 ≤ i ∧ i < place + 1 + bs.length
      · rw [if_pos h, if_pos (by omega), show i - place = (i - (place + 1)) + 1 by omega,
          List.getElem?_cons_succ]
      · rw [if_neg h, if_neg (by omega)]

theorem placed_writeBytes (code : Array UInt8) (place stop : Nat) (bytes : List UInt8)
    (hstop : place + bytes.length ≤ stop) (hsize : place + bytes.length ≤ code.size) :
    Placed (writeBytes code place stop bytes) place bytes := by
  intro j hj
  rw [getElem?_writeBytes code place stop bytes hstop hsize, if_pos (by omega),
    Nat.add_sub_cancel_left]

theorem setIfInBounds_writeBytes (code : Array UInt8) (place stop i : Nat) (v : UInt8)
    (bytes : List UInt8) (hi : i < place) :
    (writeBytes code place stop bytes).setIfInBounds i v =
      writeBytes (code.setIfInBounds i v) place stop bytes := by
  induction bytes generalizing code place with
  | nil => rfl
  | cons b bs ih =>
    rw [writeBytes, writeBytes]
    split
    · rw [ih _ _ (by omega), Array.setIfInBounds_comm _ _ (by omega)]
    · rfl

structure Emits (x : Action Assembler Unit) (bytes : List UInt8) : Prop where
  counts : ∀ base limit length,
    x ⟨none, base, limit, length⟩ = (.done (), ⟨none, base, limit, length + bytes.length⟩)
  writes : ∀ code base limit length, length + bytes.length ≤ limit →
    x ⟨some code, base, limit, length⟩ =
      (.done (), ⟨some (writeBytes code (base + length) (base + limit) bytes), base, limit,
        length + bytes.length⟩)

/-- What an action writes into a buffer of the size that it measures. -/
def assembled (x : Action Assembler Unit) : Array UInt8 :=
  (x (.into (Array.replicate (x .measuring).2.length 0) 0)).2.code.getD #[]

theorem Emits.assembled_eq {x : Action Assembler Unit} {bytes : List UInt8} (h : Emits x bytes) :
    assembled x = bytes.toArray := by
  have hsize : (x .measuring).2.length = bytes.length := by
    rw [measuring, h.counts, Nat.zero_add]
  have hwrites := h.writes (Array.replicate bytes.length 0) 0 bytes.length 0 (by omega)
  rw [assembled, hsize, into, Array.size_replicate, Nat.sub_zero, hwrites, Option.getD_some]
  apply Array.ext_getElem?
  intro j
  rw [getElem?_writeBytes _ _ _ _ (by omega) (by simp)]
  by_cases hj : j < bytes.length
  · rw [if_pos (by omega), Nat.add_zero, Nat.sub_zero, List.getElem?_toArray]
  · rw [if_neg (by omega), Array.getElem?_eq_none (by simp; omega), List.getElem?_toArray,
      List.getElem?_eq_none (by omega)]

theorem Emits.bind {x y : Action Assembler Unit} {s t : List UInt8} (hx : Emits x s)
    (hy : Emits y t) : Emits (x >>= fun _ => y) (s ++ t) where
  counts base limit length := by
    rw [Action.bind_done (hx.counts base limit length), hy.counts, List.length_append,
      Nat.add_assoc]
  writes code base limit length h := by
    rw [List.length_append] at h
    rw [Action.bind_done (hx.writes code base limit length (by omega)),
      hy.writes _ _ _ _ (by omega), ← Nat.add_assoc base, writeBytes_append, List.length_append,
      Nat.add_assoc length]

theorem emits_emitBytes (bytes : List UInt8) : Emits (emitBytes bytes) bytes where
  counts _ _ _ := rfl
  writes code base limit length h := by
    have hl : decide (length ≤ limit) = true := by simp; omega
    simp only [emitBytes, put, hl, if_true]

theorem emits_emitWord (w : UInt32) : Emits (emitWord w) (littleEndian w) where
  counts _ _ _ := rfl
  writes code base limit length h := by
    have hl : decide (length + 4 ≤ limit) = true := by simpa [littleEndian] using h
    simp only [emitWord, put, hl, if_true]

theorem emits_emit (i : HostInstr) : Emits (emit i) i.bytes := by
  cases i with
  | movi d imm => exact (emits_emitBytes [0x02, d]).bind (emits_emitWord imm)
  | _ => exact emits_emitBytes _

/-- A jump patched behind its body emits what a jump over that body does. -/
theorem Emits.skip (jump : UInt8 → HostInstr) {op s : UInt8}
    (hjump : ∀ rel, (jump rel).bytes = [op, s, rel]) {x y : Action Assembler Unit}
    {body rest : List UInt8} (hx : Emits x body) (hy : Emits y rest) (rel : UInt8)
    (hlen : body.length = rel.toNat) :
    Emits (do let position ← emitJump jump; x; patchJump position; y)
      ((jump rel).bytes ++ (body ++ rest)) where
  counts base limit length := by
    have hb : (jump 0).bytes.length = 3 := by rw [hjump]; rfl
    have hj : emitJump jump ⟨none, base, limit, length⟩ =
        (.done length, ⟨none, base, limit, length + 3⟩) := by
      rw [emitJump, Action.read_bind_apply, Action.bind_done ((emits_emit _).counts _ _ _), hb]
      rfl
    have hp : patchJump length ⟨none, base, limit, length + 3 + body.length⟩ =
        (.done (), ⟨none, base, limit, length + 3 + body.length⟩) := by
      have hrel := rel.toNat_lt
      rw [patchJump, if_neg]
      simp only [HostInstr.jumpSize, HostInstr.maxSkip]
      omega
    rw [Action.bind_done hj, Action.bind_done (hx.counts _ _ _), Action.bind_done hp, hy.counts]
    simp only [hjump, List.length_append, List.length_cons, List.length_nil]
    congr 2
    omega
  writes code base limit length h := by
    simp only [hjump, List.length_append, List.length_cons, List.length_nil] at h
    have hb : (jump 0).bytes.length = 3 := by rw [hjump]; rfl
    have hj : emitJump jump ⟨some code, base, limit, length⟩ =
        (.done length, ⟨some (writeBytes code (base + length) (base + limit) [op, s, 0]), base,
          limit, length + 3⟩) := by
      rw [emitJump, Action.read_bind_apply,
        Action.bind_done ((emits_emit _).writes _ _ _ _ (by omega)), hb, hjump]
      rfl
    let filled := writeBytes code (base + length) (base + limit) ([op, s, 0] ++ body)
    have hp : patchJump length ⟨some filled, base, limit, length + 3 + body.length⟩ =
        (.done (), ⟨some (filled.setIfInBounds (base + (length + 2)) rel), base, limit,
          length + 3 + body.length⟩) := by
      have hskip : ((length + 3 + body.length : Nat) : Int) - length - HostInstr.jumpSize =
          body.length := by simp only [HostInstr.jumpSize]; omega
      have hplace : ((length : Int) + 2).toNat = length + 2 := by omega
      have hrel := rel.toNat_lt
      have hmax : ¬ ((body.length : Int) < 0 ∨ (body.length : Int) > HostInstr.maxSkip) := by
        simp only [HostInstr.maxSkip]
        omega
      rw [patchJump, hskip, if_neg hmax]
      simp only [hplace]
      rw [if_pos (by omega), Int.toNat_natCast, hlen, UInt8.ofNat_toNat]
    have hset : filled.setIfInBounds (base + (length + 2)) rel =
        writeBytes code (base + length) (base + limit) ([op, s, rel] ++ body) := by
      simp only [filled, List.cons_append, List.nil_append, writeBytes]
      rw [if_pos (by omega), if_pos (by omega), if_pos (by omega),
        setIfInBounds_writeBytes _ _ _ _ _ _ (by omega)]
      rw [if_pos (by omega), if_pos (by omega), if_pos (by omega),
        show base + (length + 2) = base + length + 1 + 1 by omega,
        Array.setIfInBounds_setIfInBounds]
    have hx' := hx.writes (writeBytes code (base + length) (base + limit) [op, s, 0]) base limit
      (length + 3) (by omega)
    rw [show base + (length + 3) = base + length + [op, s, (0 : UInt8)].length by simp; omega,
      writeBytes_append] at hx'
    have hend : length + 3 + body.length = length + ([op, s, rel] ++ body).length := by
      simp
      omega
    rw [Action.bind_done hj, Action.bind_done hx', Action.bind_done hp, hset,
      hy.writes _ _ _ _ (by omega), hjump, hend, ← Nat.add_assoc base, writeBytes_append,
      Nat.add_assoc length, ← List.length_append, List.append_assoc]

end Assembler

end PlatterMachine
