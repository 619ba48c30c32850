import PlatterMachine.Proofs.Arena.Usage
import PlatterMachine.Proofs.Scroll
import PlatterMachine.Proofs.Stream.Prospect

/-!
# Reading scrolls

A scroll is read from whatever source brings it, into a buffer of whatever arena. It comes out
exactly when its size is that of whole platters and the source brings as many bytes; then its
platters are the words of these bytes, and encoding them gives the bytes back. Otherwise the fault
tells where reading stopped or what stopped it, and the buffer has been given back.
-/

namespace PlatterMachine.Scroll

theorem bigEndian_ofBigEndian (b₀ b₁ b₂ b₃ : UInt8) :
    bigEndian (ofBigEndian b₀ b₁ b₂ b₃) = [b₀, b₁, b₂, b₃] := by
  have h8 : UInt32.toBitVec 8 % 32 = 8#32 := by decide
  have h16 : UInt32.toBitVec 16 % 32 = 16#32 := by decide
  have h24 : UInt32.toBitVec 24 % 32 = 24#32 := by decide
  simp only [bigEndian, List.cons.injEq, and_true, ofBigEndian, ← UInt8.toBitVec_inj,
    UInt32.toBitVec_or, UInt32.toBitVec_shiftLeft, UInt32.toBitVec_shiftRight,
    UInt8.toBitVec_toUInt32, UInt32.toBitVec_toUInt8, h8, h16, h24, BitVec.shiftLeft_eq',
    BitVec.ushiftRight_eq', BitVec.toNat_ofNat]
  -- bit `i` of a byte is one bit of the word, and there it comes from that byte alone
  refine ⟨?_, ?_, ?_, ?_⟩ <;>
    · apply BitVec.eq_of_getLsbD_eq
      intro i hi
      simp only [BitVec.getLsbD_or, BitVec.getLsbD_shiftLeft, BitVec.getLsbD_setWidth,
        BitVec.getLsbD_ushiftRight]
      grind

theorem exists_four_or_lt (bytes : List UInt8) :
    bytes.length < 4 ∨ ∃ b₀ b₁ b₂ b₃ rest, bytes = b₀ :: b₁ :: b₂ :: b₃ :: rest := by
  rcases bytes with _ | ⟨b₀, _ | ⟨b₁, _ | ⟨b₂, _ | ⟨b₃, rest⟩⟩⟩⟩
  · exact .inl (by decide)
  · exact .inl (by simp)
  · exact .inl (by simp)
  · exact .inl (by simp)
  · exact .inr ⟨b₀, b₁, b₂, b₃, rest, rfl⟩

theorem encode_decodeAfter (read : Array Platter) {bytes : List UInt8}
    (h : bytes.length % 4 = 0) :
    encode (decodeAfter read bytes).toList = encode read.toList ++ bytes := by
  fun_induction decodeAfter read bytes with
  | case1 read b₀ b₁ b₂ b₃ rest ih =>
    rw [ih (by simp only [List.length_cons] at h; omega), Array.toList_push, encode,
      List.flatMap_append, List.append_assoc, List.flatMap_singleton, bigEndian_ofBigEndian]
    rfl
  | case2 bytes read hshort =>
    rcases exists_four_or_lt bytes with hlt | ⟨b₀, b₁, b₂, b₃, rest, rfl⟩
    · obtain rfl : bytes = [] := List.eq_nil_of_length_eq_zero (by omega)
      rw [List.append_nil]
    · exact absurd rfl (hshort b₀ b₁ b₂ b₃ rest)

theorem encode_decode {bytes : List UInt8} (h : bytes.length % 4 = 0) :
    encode (decode bytes).toList = bytes := by
  rw [decode, encode_decodeAfter #[] h]
  rfl

theorem size_decode {bytes : List UInt8} (h : bytes.length % 4 = 0) :
    (decode bytes).size = bytes.length / 4 := by
  have hlength := length_encode (decode bytes).toList
  rw [encode_decode h] at hlength
  rw [← Array.length_toList]
  omega

theorem shortFault_midway (fault : Fault) (read total : Nat) :
    shortFault fault.midway read total = shortFault fault read total := by
  unfold Fault.midway
  split
  · rename_i hend
    rw [hend]
    rfl
  · rfl

/-- Platters are read behind those there are while four bytes are to come for each. -/
theorem readPlatters_eq (total left : Nat) {r : Reader} {bytes : List UInt8} {fault : Fault}
    (read : Array Platter) (h : r.prospect = (bytes, fault)) :
    readPlatters total left r read =
      if 4 * left ≤ bytes.length then .ok (decodeAfter read (bytes.take (4 * left)))
      else .error (shortFault fault (read.size + bytes.length / 4) total) := by
  induction left generalizing r bytes read with
  | zero => simp [readPlatters, decodeAfter]
  | succ left ih =>
    rcases exists_four_or_lt bytes with hshort | ⟨b₀, b₁, b₂, b₃, rest, rfl⟩
    · obtain ⟨r', fault', hread, hfault⟩ := Reader.readFull_short h hshort
      rw [readPlatters, hread, if_neg (by omega), Nat.div_eq_of_lt hshort]
      rcases hfault with rfl | rfl
      · rfl
      · exact congrArg Except.error (shortFault_midway fault read.size total)
    · obtain ⟨r', hread, h'⟩ := Reader.readFull_append
        (show r.prospect = ([b₀, b₁, b₂, b₃] ++ rest, fault) from h)
      have hfour : r.readFull 4 = (.ok [b₀, b₁, b₂, b₃], r') := hread
      rw [readPlatters, hfour]
      simp only
      rw [ih _ h', Array.size_push]
      have hle : 4 * (left + 1) ≤ (b₀ :: b₁ :: b₂ :: b₃ :: rest).length ↔
          4 * left ≤ rest.length := by
        simp only [List.length_cons]
        omega
      have hread : read.size + 1 + rest.length / 4 =
          read.size + (b₀ :: b₁ :: b₂ :: b₃ :: rest).length / 4 := by
        simp only [List.length_cons]
        omega
      simp only [hle, hread]
      rfl

variable {a : Arena UInt32} {bytes : List UInt8} {fault : Fault}

theorem read_malformed (source : Source) {size : Int} (h : size < 0 ∨ size % 4 ≠ 0) :
    read source size a =
      (.failed (.format s!"scroll length {size} is not a multiple of 4"), a) := by
  rw [read, if_pos h]
  rfl

def Whole (size : Int64) : Prop := 0 ≤ size.toInt ∧ size.toInt % 4 = 0

def count (size : Int64) : Nat := (size.toInt / 4).toNat

theorem Whole.toInt_eq {size : Int64} (h : Whole size) : size.toInt = (4 * count size : Nat) := by
  obtain ⟨hnonneg, hmod⟩ := h
  rw [count]
  omega

theorem count_mul_lt (size : Int64) : count size * 4 < Arena.signedLimit := by
  have hlt := size.toInt_lt
  change _ < 0x8000000000000000
  rw [count]
  omega

/-- All that reading a scroll comes to. -/
theorem ends_read (source : Source) (size : Int64) (h : a.Orderly)
    (hreturns : ∀ k, a.source.refusal k = none)
    (hsource : Source.prospect source.segments = (bytes, fault)) :
    (read source size.toInt).ends
      (fun r _ => Whole size ∧ 4 * count size ≤ bytes.length ∧
        r.1 = decode (bytes.take (4 * count size)) ∧ r.2.length = count size)
      (fun failure a' => a'.inUse = a.inUse ∧ (Whole size → a.Granted (count size) →
        bytes.length < 4 * count size ∧ failure = shortFault fault (bytes.length / 4) (count size)))
      (fun _ a' => a'.inUse = a.inUse ∧ Whole size ∧ ¬ a.Granted (count size)) a := by
  by_cases hsize : size.toInt < 0 ∨ size.toInt % 4 ≠ 0
  · rw [Action.ends, read_malformed source hsize]
    refine ⟨rfl, fun hwhole => ?_⟩
    rw [Whole] at hwhole
    omega
  have hwhole : Whole size := by
    rw [Whole]
    omega
  rw [read, if_neg hsize]
  change (Arena.alloc (count size) false >>= _).ends _ _ _ a
  rw [Action.ends_bind]
  apply (h.ends_alloc (by exact_mod_cast count_mul_lt size) false).imp
  · rintro buffer a₁ - ⟨-, hsource₁, hlength, hborrowed⟩
    rw [Action.ends_bind]
    apply Action.ends.cleaningUp
    have hreader : (Reader.mk source []).prospect = (bytes, fault) := hsource
    change (Action.ofExcept (readPlatters (count size) (count size) ⟨source, []⟩ #[])).ends _ _ _ a₁
    rw [readPlatters_eq (count size) (count size) #[] hreader]
    by_cases hle : 4 * count size ≤ bytes.length
    · rw [if_pos hle]
      exact ⟨hwhole, hle, rfl, hlength⟩
    · rw [if_neg hle]
      apply (hborrowed.ends_release (hsource₁ ▸ hreturns)).imp
      · rintro - a₂ - hinUse
        refine ⟨hinUse, fun _ _ => ⟨Nat.not_le.mp hle, ?_⟩⟩
        rw [Array.size_empty, Nat.zero_add]
      · exact fun _ _ hf => hf.elim
      · exact fun _ _ hf => hf.elim
  · rintro failure a₁ (⟨hneg, -⟩ | ⟨why, hdenied⟩)
    · omega
    · have hdone : Outcome.failed why ≠ .done () := by rintro ⟨⟩
      exact ⟨hdenied.inUse_eq, fun _ hgranted => absurd hgranted (hdenied.not_granted hdone)⟩
  · rintro crash a₁ hdenied
    have hdone : Outcome.crashed crash ≠ .done () := by rintro ⟨⟩
    exact ⟨hdenied.inUse_eq, hwhole, hdenied.not_granted hdone⟩

theorem exists_done_iff (source : Source) (size : Int64) (h : a.Orderly)
    (hreturns : ∀ k, a.source.refusal k = none)
    (hsource : Source.prospect source.segments = (bytes, fault))
    (hgranted : a.Granted (count size)) :
    (∃ r, (read source size.toInt a).1 = .done r) ↔
      Whole size ∧ 4 * count size ≤ bytes.length := by
  have hends := ends_read source size h hreturns hsource
  rcases hread : read source size.toInt a with ⟨r | failure | crash, a'⟩ <;>
    simp only [Action.ends, hread] at hends ⊢
  · exact ⟨fun _ => ⟨hends.1, hends.2.1⟩, fun _ => ⟨r, rfl⟩⟩
  · constructor
    · rintro ⟨_, ⟨⟩⟩
    · rintro ⟨hwhole, hle⟩
      have hshort := (hends.2 hwhole hgranted).1
      omega
  · exact absurd hgranted hends.2.2

theorem eq_of_done (source : Source) (size : Int64) (h : a.Orderly)
    (hreturns : ∀ k, a.source.refusal k = none)
    (hsource : Source.prospect source.segments = (bytes, fault)) {r : Array Platter × Buffer}
    (hread : (read source size.toInt a).1 = .done r) :
    Whole size ∧ 4 * count size ≤ bytes.length ∧
      r.1 = decode (bytes.take (4 * count size)) ∧ r.2.length = count size := by
  have hends := ends_read source size h hreturns hsource
  rcases hx : read source size.toInt a with ⟨_ | _ | _, a'⟩ <;> rw [hx] at hread <;> cases hread
  simpa only [Action.ends, hx] using hends

theorem failed_of_short (source : Source) {size : Int64} (h : a.Orderly)
    (hreturns : ∀ k, a.source.refusal k = none)
    (hsource : Source.prospect source.segments = (bytes, fault))
    (hgranted : a.Granted (count size)) (hwhole : Whole size)
    (hshort : bytes.length < 4 * count size) :
    (read source size.toInt a).1 =
      .failed (shortFault fault (bytes.length / 4) (count size)) := by
  have hends := ends_read source size h hreturns hsource
  rcases hread : read source size.toInt a with ⟨r | failure | crash, a'⟩ <;>
    simp only [Action.ends, hread] at hends ⊢
  · omega
  · rw [(hends.2 hwhole hgranted).2]
  · exact absurd hgranted hends.2.2

theorem inUse_of_not_done (source : Source) (size : Int64) (h : a.Orderly)
    (hreturns : ∀ k, a.source.refusal k = none) (hread : ∀ r, (read source size.toInt a).1 ≠ .done r) :
    (read source size.toInt a).2.inUse = a.inUse := by
  have hends := ends_read source size h hreturns (Prod.eta _).symm
  rcases hx : read source size.toInt a with ⟨r | failure | crash, a'⟩ <;>
    simp only [Action.ends, hx] at hends hread ⊢
  · exact absurd rfl (hread r)
  · exact hends.1
  · exact hends.1

theorem isFormat_shortFault (fault : Fault) (read total : Nat) :
    (shortFault fault read total).isFormat := by
  rw [shortFault]
  split <;> rfl

theorem mem_chain_self (fault : Fault) : fault ∈ fault.chain := by
  cases fault <;> exact List.mem_cons_self

/-- The fault stays in the chain unless it is taken for an end of input. -/
theorem mem_chain_shortFault_iff (fault : Fault) (read total : Nat) :
    fault ∈ (shortFault fault read total).chain ↔
      ¬ (fault.isEndOfInput ∨ fault.isUnexpectedEnd) := by
  simp only [shortFault, Bool.or_eq_true]
  split
  · rename_i hend
    refine iff_of_false (fun hmem => ?_) fun hnot => hnot hend
    rw [List.mem_singleton.mp hmem] at hend
    rcases hend with hend | hend <;> cases hend
  · rename_i hnot
    exact iff_of_true (List.mem_cons_of_mem _ (mem_chain_self fault)) hnot

/-- Reading a scroll is exact, whatever source it comes from and whatever arena its buffer is of,
as long as memory that is given back is accepted. A fault of the source stays reachable, but for
those that are, or wrap, an end of input: they are all reported as truncation. -/
theorem read_exact (source : Source) (size : Int64) (hused : a.Used)
    (hreturns : ∀ k, a.source.refusal k = none)
    (hsource : Source.prospect source.segments = (bytes, fault)) :
    -- when it succeeds
    (a.Granted (count size) → ((∃ r, (read source size.toInt a).1 = .done r) ↔
      0 ≤ size.toInt ∧ size.toInt % 4 = 0 ∧ size.toInt ≤ bytes.length)) ∧
    -- what it gives then
    (∀ platters buffer, (read source size.toInt a).1 = .done (platters, buffer) →
      platters = decode (bytes.take size.toInt.toNat) ∧
      encode platters.toList = bytes.take size.toInt.toNat ∧
      platters.size = count size ∧ buffer.length = count size) ∧
    (∀ platters : Array Platter, encode platters.toList <+: bytes →
      size.toInt = (encode platters.toList).length → a.Granted (count size) →
      ∃ buffer, (read source size.toInt a).1 = .done (platters, buffer)) ∧
    -- how it fails
    (size.toInt < 0 ∨ size.toInt % 4 ≠ 0 → (read source size.toInt a).1 =
      .failed (.format s!"scroll length {size.toInt} is not a multiple of 4")) ∧
    (0 ≤ size.toInt → size.toInt % 4 = 0 → bytes.length < size.toInt → a.Granted (count size) →
      ∃ failure, (read source size.toInt a).1 = .failed failure ∧ failure.isFormat ∧
        (fault.isEndOfInput ∨ fault.isUnexpectedEnd → failure =
          .format s!"scroll truncated at platter {bytes.length / 4} of {count size}") ∧
        (fault ∈ failure.chain ↔ ¬ (fault.isEndOfInput ∨ fault.isUnexpectedEnd))) ∧
    ((∀ r, (read source size.toInt a).1 ≠ .done r) →
      (read source size.toInt a).2.inUse = a.inUse) := by
  have horderly := hused.orderly
  have hdone (hgranted : a.Granted (count size)) :=
    exists_done_iff source size horderly hreturns hsource hgranted
  refine ⟨fun hgranted => (hdone hgranted).trans ?_, ?_, ?_, fun h => ?_, ?_,
    inUse_of_not_done source size horderly hreturns⟩
  · rw [Whole, count]
    omega
  · intro platters buffer hread
    obtain ⟨hwhole, hle, rfl, hlength⟩ := eq_of_done source size horderly hreturns hsource hread
    have hbytes : size.toInt.toNat = 4 * count size := by
      rw [hwhole.toInt_eq, Int.toNat_natCast]
    have htake : (bytes.take (4 * count size)).length = 4 * count size :=
      List.length_take_of_le hle
    rw [hbytes]
    refine ⟨rfl, encode_decode (by omega), ?_, hlength⟩
    rw [size_decode (by omega)]
    omega
  · intro platters hencode hsize hgranted
    rw [length_encode] at hsize
    have hwhole : Whole size := by
      rw [Whole]
      omega
    have hcount : 4 * count size = (encode platters.toList).length := by
      rw [length_encode, count]
      omega
    obtain ⟨⟨read, buffer⟩, hread⟩ := (hdone hgranted).mpr ⟨hwhole, hcount ▸ hencode.length_le⟩
    obtain ⟨-, -, heq, -⟩ := eq_of_done source size horderly hreturns hsource hread
    rw [hcount, ← List.prefix_iff_eq_take.mp hencode, decode_encode] at heq
    exact ⟨buffer, heq ▸ hread⟩
  · rw [read_malformed source h]
  · intro hnonneg hmod hshort hgranted
    have hwhole : Whole size := ⟨hnonneg, hmod⟩
    rw [hwhole.toInt_eq] at hshort
    refine ⟨_, failed_of_short source horderly hreturns hsource hgranted hwhole (by omega),
      isFormat_shortFault _ _ _, fun hend => ?_, mem_chain_shortFault_iff _ _ _⟩
    exact if_pos (Bool.or_eq_true _ _ |>.mpr hend)

def torn : Source := ⟨[.data [0], .data [0, 0], .idle 2, .data [7, 1, 2]], false⟩

def strained : Arena UInt32 :=
  (Arena.perform (.new (.failing .mapped [0] [])) (.alloc 5 false)).2

/-- One platter can be read from six bytes, two cannot. -/
theorem read_exact_torn :
    strained.Used ∧ (∀ k, strained.source.refusal k = none) ∧
    Source.prospect torn.segments = ([0, 0, 0, 7, 1, 2], .endOfInput) ∧
    (∃ buffer, (read torn (4 : Int64).toInt strained).1 = .done (#[7], buffer)) ∧
    (∃ failure, (read torn (8 : Int64).toInt strained).1 = .failed failure ∧
      failure.message = "scroll truncated at platter 1 of 2") ∧
    (read torn (8 : Int64).toInt strained).2.inUse = strained.inUse := by
  have hused : strained.Used := .perform _ (.new _) (by decide) trivial
  have hreturns (k : Nat) : strained.source.refusal k = none := by
    rw [strained, Arena.source_perform _ (by decide)]
    rfl
  have hsource : Source.prospect torn.segments = ([0, 0, 0, 7, 1, 2], .endOfInput) := by decide
  have hgranted (size : Int64) (h : count size = 1 ∨ count size = 2) :
      strained.Granted (count size) := by
    rcases h with h | h <;> rw [h, Arena.Granted] <;> decide +kernel
  obtain ⟨-, -, hfour, -⟩ := read_exact torn 4 hused hreturns hsource
  obtain ⟨-, -, -, -, height, hinUse⟩ := read_exact torn 8 hused hreturns hsource
  obtain ⟨failure, hfailed, -, hmessage, -⟩ :=
    height (by decide) (by decide) (by decide) (hgranted 8 (by decide))
  refine ⟨hused, hreturns, hsource, hfour #[7] (by decide) (by decide) (hgranted 4 (by decide)),
    ⟨failure, hfailed, ?_⟩, hinUse fun r => ?_⟩
  · rw [hmessage (.inl rfl)]
    decide +kernel
  · rw [hfailed]
    nofun

/-- A source reports `fault`, and a platter would follow. Reading comes to a truncated scroll, and the
report is not in its chain. -/
def ReportLost (fault : Fault) : Prop :=
  ∃ failure, (read ⟨[.fault fault, .data [0xD0, 0, 0, 0x41]], false⟩ (4 : Int64).toInt
      (Arena.new .heap : Arena UInt32)).1 = .failed failure ∧
    failure.message = "scroll truncated at platter 0 of 1" ∧ fault ∉ failure.chain

theorem reportLost_of_end {fault : Fault} (hend : fault.isEndOfInput ∨ fault.isUnexpectedEnd) :
    ReportLost fault := by
  let source : Source := ⟨[.fault fault, .data [0xD0, 0, 0, 0x41]], false⟩
  have hsource : Source.prospect source.segments = ([], fault) := rfl
  have horderly : (Arena.new .heap : Arena UInt32).Orderly := (Arena.Used.new _).orderly
  have hgranted : (Arena.new .heap : Arena UInt32).Granted (count 4) := rfl
  have hread := failed_of_short source horderly (fun _ => rfl) hsource hgranted
    ⟨by decide, by decide⟩ (by decide)
  refine ⟨_, hread, ?_, fun hmem => (mem_chain_shortFault_iff _ _ _).mp hmem hend⟩
  rw [shortFault, if_pos (Bool.or_eq_true _ _ |>.mpr hend)]
  decide +kernel

/-- An unexpected end, an end of input that more follows, and a fault that wraps one. -/
theorem reported_end_lost :
    ReportLost .unexpectedEnd ∧ ReportLost .endOfInput ∧
      ReportLost (Fault.endOfInput.during "read") :=
  ⟨reportLost_of_end (Or.inr rfl), reportLost_of_end (Or.inl rfl), reportLost_of_end (Or.inl rfl)⟩

end PlatterMachine.Scroll
