import PlatterMachine.Stream.Reader

/-!
# What a source will bring

Up to its first fault or end of input a source brings bytes. How they are cut into segments, and how
many reads bring nothing, does not show in what a reader gets that waits for them: it gets the bytes
in their order, as many as it asks for, and behind the last of them the fault.
-/

namespace PlatterMachine

theorem Fault.midway_midway (f : Fault) : f.midway.midway = f.midway := by
  unfold midway
  split <;> rfl

namespace Source

/-- The bytes that are still to come, and the fault behind them. -/
def prospect : List Segment → List UInt8 × Fault
  | [] => ([], .endOfInput)
  | .data bytes :: rest => (bytes ++ (prospect rest).1, (prospect rest).2)
  | .fault fault :: _ => ([], fault)
  | .idle _ :: rest => prospect rest
  | .cancel :: rest => prospect rest

inductive Awaited : List UInt8 × Fault → Except Fault (List UInt8) × Source → Prop
  | faulted (fault : Fault) (s : Source) : Awaited ([], fault) (.error fault, s)
  | bytes (b : UInt8) (bs : List UInt8) (s : Source) :
      Awaited (b :: (bs ++ (prospect s.segments).1), (prospect s.segments).2) (.ok (b :: bs), s)

theorem awaited_data (b : UInt8) (bs : List UInt8) (rest : List Segment) (cancelled : Bool)
    {n : Nat} (hn : 0 < n) :
    Awaited (prospect (.data (b :: bs) :: rest))
      (readSegments n cancelled (.data (b :: bs) :: rest)) := by
  obtain ⟨n, rfl⟩ : ∃ k, n = k + 1 := ⟨n - 1, by omega⟩
  rw [readSegments, List.drop_succ_cons, List.take_succ_cons]
  cases hdrop : bs.drop n with
  | nil => exact .bytes b bs ⟨rest, cancelled⟩
  | cons c left =>
    have hbs : bs = bs.take n ++ c :: left := by rw [← hdrop, List.take_append_drop]
    have hawaited := Awaited.bytes b (bs.take n) ⟨.data (c :: left) :: rest, cancelled⟩
    rw [prospect, ← List.append_assoc, ← hbs] at hawaited
    exact hawaited

theorem awaited_await (segments : List Segment) (cancelled : Bool) {n : Nat} (hn : 0 < n) :
    Awaited (prospect segments) (awaitSegments n cancelled segments) := by
  induction segments generalizing cancelled with
  | nil => exact .faulted _ _
  | cons segment rest ih =>
    cases segment with
    | data bytes =>
      cases bytes with
      | nil => exact ih cancelled
      | cons b bs =>
        rw [awaitSegments]
        · exact awaited_data b bs rest cancelled hn
        all_goals nofun
    | fault fault => exact .faulted _ _
    | idle count => exact ih cancelled
    | cancel => exact ih true

end Source

namespace Reader

open Source

/-- The bytes that are still to come, those in the buffer first, and the fault behind them. -/
def prospect (r : Reader) : List UInt8 × Fault :=
  (r.buffer ++ (Source.prospect r.source.segments).1, (Source.prospect r.source.segments).2)

variable {r : Reader} {fault : Fault}

theorem awaitByte_cons {b : UInt8} {bytes : List UInt8} (h : r.prospect = (b :: bytes, fault)) :
    ∃ r', r.awaitByte = (.ok b, r') ∧ r'.prospect = (bytes, fault) := by
  obtain ⟨⟨segments, cancelled⟩, buffer⟩ := r
  cases buffer with
  | cons c rest =>
    simp only [prospect, List.cons_append, Prod.mk.injEq, List.cons.injEq] at h
    obtain ⟨⟨rfl, hbytes⟩, hfault⟩ := h
    exact ⟨_, rfl, Prod.ext hbytes hfault⟩
  | nil =>
    have hawaited := awaited_await segments cancelled (show 0 < bufferSize by decide)
    change Source.prospect segments = _ at h
    rw [h] at hawaited
    cases hr : awaitSegments bufferSize cancelled segments with
    | mk result s =>
      rw [hr] at hawaited
      cases hawaited with
      | bytes _ bs _ =>
        refine ⟨⟨s, bs⟩, ?_, rfl⟩
        simp only [awaitByte, Source.await, hr]

theorem awaitByte_nil (h : r.prospect = ([], fault)) :
    ∃ r', r.awaitByte = (.error fault, r') := by
  obtain ⟨⟨segments, cancelled⟩, buffer⟩ := r
  obtain ⟨rfl, -⟩ := List.append_eq_nil_iff.mp (congrArg Prod.fst h)
  have hawaited := awaited_await segments cancelled (show 0 < bufferSize by decide)
  change Source.prospect segments = _ at h
  rw [h] at hawaited
  cases hr : awaitSegments bufferSize cancelled segments with
  | mk result s =>
    rw [hr] at hawaited
    cases hawaited
    refine ⟨⟨s, []⟩, ?_⟩
    simp only [awaitByte, Source.await, hr]

/-- As many bytes as there are to come are read in their order. -/
theorem readFull_append {bytes rest : List UInt8} (h : r.prospect = (bytes ++ rest, fault)) :
    ∃ r', r.readFull bytes.length = (.ok bytes, r') ∧ r'.prospect = (rest, fault) := by
  induction bytes generalizing r with
  | nil => exact ⟨r, rfl, h⟩
  | cons b bytes ih =>
    obtain ⟨r₁, hbyte, h₁⟩ := awaitByte_cons h
    obtain ⟨r₂, hbytes, h₂⟩ := ih h₁
    refine ⟨r₂, ?_, h₂⟩
    simp only [List.length_cons, readFull, hbyte, hbytes]

/-- Asking for more than there is to come gets the fault behind it. -/
theorem readFull_short {bytes : List UInt8} {n : Nat} (h : r.prospect = (bytes, fault))
    (hn : bytes.length < n) :
    ∃ r' fault', r.readFull n = (.error fault', r') ∧ (fault' = fault ∨ fault' = fault.midway) := by
  induction n generalizing r bytes with
  | zero => omega
  | succ n ih =>
    cases bytes with
    | nil =>
      obtain ⟨r₁, hbyte⟩ := awaitByte_nil h
      exact ⟨r₁, fault, by simp only [readFull, hbyte], .inl rfl⟩
    | cons b bytes =>
      obtain ⟨r₁, hbyte, h₁⟩ := awaitByte_cons h
      obtain ⟨r₂, fault', hbytes, hfault⟩ := ih h₁ (by simpa using hn)
      refine ⟨r₂, fault'.midway, by simp only [readFull, hbyte, hbytes], .inr ?_⟩
      rcases hfault with rfl | rfl
      · rfl
      · exact fault.midway_midway

end Reader

end PlatterMachine
