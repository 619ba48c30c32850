import PlatterMachine.Proofs.Stream.Emission

/-!
# Output that falters

Whatever a sink refuses or cuts short, what it has accepted from a writer is the start of what the
writer was given, and all of it once a flush succeeds. After the first write that goes wrong the sink
gets nothing more.
-/

namespace PlatterMachine

structure Sink.Fresh (s : Sink) : Prop where
  keeps : s.discards = false
  writes_eq : s.writes = 0
  accepted_eq : s.accepted = #[]

def Sink.Errs (s : Sink) (k : Nat) : Prop := (∃ j, s.failAt = some j ∧ j ≤ k) ∨ s.shortAt = some k

inductive Sink.Wrote (s : Sink) (bytes : List UInt8) : (Nat × Option Fault) × Sink → Prop
  | nothing (fault : Fault) (herrs : s.Errs s.writes) : Wrote s bytes ((0, some fault), s.counted)
  | part {taken : List UInt8} (fault : Option Fault) (herrs : s.Errs s.writes)
      (htaken : taken <+: bytes) (hshort : fault = none → taken.length < bytes.length) :
      Wrote s bytes ((taken.length, fault),
        { s.counted with accepted := s.accepted.push taken })
  | whole (hgood : ¬ s.Errs s.writes) :
      Wrote s bytes ((bytes.length, none), { s.counted with accepted := s.accepted.push bytes })

theorem Sink.refuses_iff (s : Sink) : s.refuses = true ↔ ∃ j, s.failAt = some j ∧ j ≤ s.writes := by
  unfold refuses
  cases s.failAt <;> simp

theorem Sink.wrote_write {s : Sink} (hkeeps : s.discards = false) {bytes : List UInt8}
    (hbytes : bytes ≠ []) : s.Wrote bytes (s.write bytes) := by
  have hpos := List.length_pos_iff.mpr hbytes
  have hremember : s.counted.remember (s.taken bytes) =
      { s.counted with accepted := s.accepted.push (s.taken bytes) } :=
    if_neg (by simp [counted, hkeeps])
  unfold write
  rw [hremember]
  cases hrefuses : s.refuses with
  | true =>
    have herrs : s.Errs s.writes := .inl (s.refuses_iff.mp hrefuses)
    have htaken : s.taken bytes = bytes.take s.failTakes := if_pos hrefuses
    rw [htaken, Bool.true_and, if_pos rfl]
    by_cases hnothing : (bytes.take s.failTakes).isEmpty = true
    · rw [if_pos hnothing, List.isEmpty_iff.mp hnothing]
      exact .nothing _ herrs
    · rw [if_neg hnothing]
      exact .part _ herrs (List.take_prefix _ _) (by rintro ⟨⟩)
  | false =>
    have hnot : ¬ ∃ j, s.failAt = some j ∧ j ≤ s.writes := by
      rw [← s.refuses_iff, hrefuses]
      exact Bool.false_ne_true
    rw [Bool.false_and, taken, hrefuses]
    simp only [Bool.false_eq_true, if_false]
    split
    · rename_i hshort
      refine .part none (.inr hshort) (List.take_prefix _ _) fun _ => ?_
      rw [List.length_take]
      omega
    · rename_i hlong
      exact .whole fun herrs => herrs.elim hnot hlong

namespace Writer

variable {w w' w'' : Writer} {text text' : List UInt8}

def delivered (w : Writer) : List UInt8 := w.sink.accepted.toList.flatten

structure Flushed (w : Writer) : Prop where
  fault_eq : w.fault = none
  buffer_eq : w.buffer = #[]

structure Delivers (w : Writer) (text : List UInt8) : Prop where
  keeps : w.sink.discards = false
  start : w.delivered <+: text
  emitted_eq : w.fault = none → w.emitted = text
  fault_iff : w.fault ≠ none ↔ ∃ k, k < w.sink.writes ∧ w.sink.Errs k

structure Given (text : List UInt8) (w w' : Writer) : Prop where
  delivers : ∀ before, w.Delivers before → w'.Delivers (before ++ text)
  refuses : w.fault ≠ none → w'.fault = w.fault ∧ w'.sink.accepted = w.sink.accepted

theorem Delivers.delivered_eq (h : w.Delivers text) (hf : w.Flushed) : w.delivered = text := by
  rw [← h.emitted_eq hf.fault_eq, emitted, hf.buffer_eq, delivered]
  simp

theorem delivers_of_fresh {s : Sink} (h : s.Fresh) : Delivers ⟨s, #[], none⟩ [] := by
  refine ⟨h.keeps, ?_, fun _ => ?_, iff_of_false (fun hfault => hfault rfl) ?_⟩
  · simp [delivered, h.accepted_eq]
  · simp [emitted, h.accepted_eq]
  · rintro ⟨k, hlt, -⟩
    rw [h.writes_eq] at hlt
    exact Nat.not_lt_zero k hlt

theorem Given.refl (w : Writer) : Given [] w w :=
  ⟨fun before h => by rwa [List.append_nil], fun _ => ⟨rfl, rfl⟩⟩

theorem Given.trans (h : Given text w w') (h' : Given text' w' w'') :
    Given (text ++ text') w w'' := by
  refine ⟨fun before hw => ?_, fun hfault => ?_⟩
  · rw [← List.append_assoc]
    exact h'.delivers _ (h.delivers before hw)
  · obtain ⟨heq, haccepted⟩ := h.refuses hfault
    obtain ⟨heq', haccepted'⟩ := h'.refuses (by rwa [heq])
    exact ⟨heq'.trans heq, haccepted'.trans haccepted⟩

/-- A writer that has met a fault takes nothing in. -/
theorem Given.of_fault (h : w.fault ≠ none) (text : List UInt8) : Given text w w := by
  refine ⟨fun before hw => ?_, fun _ => ⟨rfl, rfl⟩⟩
  exact ⟨hw.keeps, hw.start.trans (List.prefix_append before text), fun hnone => absurd hnone h,
    hw.fault_iff⟩

theorem Given.push (h : w.fault = none) (b : UInt8) :
    Given [b] w { w with buffer := w.buffer.push b } := by
  refine ⟨fun before hw => ?_, fun hfault => absurd h hfault⟩
  refine ⟨hw.keeps, hw.start.trans (List.prefix_append before [b]), fun _ => ?_, hw.fault_iff⟩
  rw [← hw.emitted_eq h]
  simp [emitted]

/-- The first write to go wrong is the last. -/
theorem errs_succ_iff {s : Sink} (h : ¬ ∃ k, k < s.writes ∧ s.Errs k) :
    (∃ k, k < s.writes + 1 ∧ s.Errs k) ↔ s.Errs s.writes := by
  constructor
  · rintro ⟨k, hlt, herrs⟩
    rcases Nat.lt_succ_iff_lt_or_eq.mp hlt with hk | rfl
    · exact absurd ⟨k, hk, herrs⟩ h
    · exact herrs
  · exact fun herrs => ⟨s.writes, Nat.lt_succ_self _, herrs⟩

theorem given_flush (w : Writer) : Given [] w w.flush.2 := by
  obtain ⟨sink, buffer, fault⟩ := w
  cases fault with
  | some fault => exact Given.refl _
  | none =>
    by_cases hempty : buffer.isEmpty = true
    · simp only [flush, hempty, if_true]
      exact Given.refl _
    refine ⟨fun before hw => ?_, fun hfault => absurd rfl hfault⟩
    rw [List.append_nil]
    have hbytes : buffer.toList ≠ [] := by simpa using hempty
    have hbefore : sink.accepted.toList.flatten ++ buffer.toList = before := hw.emitted_eq rfl
    have hgood : ¬ ∃ k, k < sink.writes ∧ sink.Errs k := fun h => hw.fault_iff.mpr h rfl
    have hwrote := Sink.wrote_write hw.keeps hbytes
    simp only [flush, if_neg hempty]
    generalize sink.write buffer.toList = r at hwrote ⊢
    cases hwrote with
    | nothing fault herrs =>
      refine ⟨hw.keeps, hw.start, fun hnone => ?_, iff_of_true (Option.some_ne_none _) ?_⟩
      · cases hnone
      · exact (errs_succ_iff hgood).mpr herrs
    | @part taken fault herrs htaken hshort =>
      have hfault : ∃ f, fault.or (if taken.length < buffer.size then some shortWrite else none) =
          some f := by
        cases fault with
        | some f => exact ⟨f, rfl⟩
        | none => exact ⟨shortWrite, if_pos (by simpa using hshort rfl)⟩
      obtain ⟨f, hf⟩ := hfault
      simp only [hf]
      refine ⟨hw.keeps, ?_, fun hnone => ?_, iff_of_true (Option.some_ne_none _) ?_⟩
      · have haccepted : (sink.accepted.push taken).toList.flatten =
            sink.accepted.toList.flatten ++ taken := by simp
        rw [delivered, haccepted, ← hbefore]
        exact (List.prefix_append_right_inj _).mpr htaken
      · cases hnone
      · exact (errs_succ_iff hgood).mpr herrs
    | whole hfine =>
      have hfull : ¬ buffer.toList.length < buffer.size := by simp
      simp only [Option.none_or, if_neg hfull]
      have haccepted : (sink.accepted.push buffer.toList).toList.flatten = before := by
        simpa using hbefore
      refine ⟨hw.keeps, ?_, fun _ => ?_, iff_of_false (fun h => h rfl) ?_⟩
      · exact ⟨[], (List.append_nil _).trans haccepted⟩
      · rw [emitted, haccepted]
        exact List.append_nil before
      · exact fun h => hfine ((errs_succ_iff hgood).mp h)

/-- A flush reports the fault that the writer has met by then. -/
theorem flush_fst (w : Writer) : w.flush.1 = w.flush.2.fault := by
  obtain ⟨sink, buffer, fault⟩ := w
  cases fault with
  | some fault => rfl
  | none =>
    unfold flush
    dsimp only
    split
    · rfl
    · split <;> rfl

/-- A flush that succeeds holds nothing back. -/
theorem flushed_flush (h : w.flush.1 = none) : w.flush.2.Flushed := by
  obtain ⟨sink, buffer, fault⟩ := w
  cases fault with
  | some fault => cases h
  | none =>
    unfold flush at h ⊢
    dsimp only at h ⊢
    split at h
    · rename_i hempty
      rw [if_pos hempty]
      exact ⟨rfl, Array.isEmpty_iff.mp hempty⟩
    · rename_i hfull
      rw [if_neg hfull]
      split at h
      · cases h
      · exact ⟨rfl, rfl⟩

theorem Flushed.flush_eq (h : w.Flushed) : w.flush = (none, w) := by
  obtain ⟨sink, buffer, fault⟩ := w
  obtain ⟨rfl, rfl⟩ := h
  rfl

theorem given_writeByte (w : Writer) (b : UInt8) : Given [b] w (w.writeByte b).2 := by
  unfold writeByte
  cases hfault : w.fault with
  | some fault => exact Given.of_fault (by simp [hfault]) [b]
  | none =>
    dsimp only
    split
    · exact hfault ▸ Given.push hfault b
    · have hflush := w.given_flush
      have hfst := w.flush_fst
      rcases hf : w.flush with ⟨_ | fault, w'⟩ <;> rw [hf] at hflush hfst
      · exact hflush.trans (Given.push hfst.symm b)
      · exact hflush.trans (Given.of_fault (Option.ne_none_iff_exists'.mpr ⟨fault, hfst.symm⟩) [b])

theorem writeByte_fst (w : Writer) (b : UInt8) : (w.writeByte b).1 = (w.writeByte b).2.fault := by
  unfold writeByte
  cases hfault : w.fault with
  | some fault => exact hfault.symm
  | none =>
    dsimp only
    split
    · rfl
    · have hfst := w.flush_fst
      rcases hf : w.flush with ⟨_ | fault, w'⟩ <;> rw [hf] at hfst <;> exact hfst

theorem given_write (bytes : List UInt8) (w : Writer) : Given bytes w (write bytes w).2 := by
  induction bytes generalizing w with
  | nil => exact Given.refl w
  | cons b bytes ih =>
    have hbyte := w.given_writeByte b
    have hfst := w.writeByte_fst b
    rw [write]
    rcases hw : w.writeByte b with ⟨_ | fault, w'⟩ <;> rw [hw] at hbyte hfst
    · exact hbyte.trans (ih w')
    · exact hbyte.trans (Given.of_fault (Option.ne_none_iff_exists'.mpr ⟨fault, hfst.symm⟩) bytes)

end Writer

end PlatterMachine
