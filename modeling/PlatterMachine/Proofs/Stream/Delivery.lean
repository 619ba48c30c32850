import PlatterMachine.Stream.Reader

/-!
# Steady input

A steady source delivers bytes in segments of any length. Reads may bring nothing, but never so many
in a row that filling a buffer gives up. Then a reader hands out the bytes of the source one by one,
however they were cut into segments, and reports the end of input behind the last.
-/

namespace PlatterMachine

namespace Source

def payload : List Segment → List UInt8
  | [] => []
  | .data bytes :: rest => bytes ++ payload rest
  | _ :: rest => payload rest

/-- Data only, and fewer idle reads in a row than a reader puts up with; `idle` of them have been
made already. -/
def Steady (idle : Nat) : List Segment → Prop
  | [] => True
  | .data [] :: rest => Steady idle rest
  | .data (_ :: _) :: rest => Steady 0 rest
  | .idle count :: rest => idle + count < maxIdleReads ∧ Steady (idle + count) rest
  | _ => False

inductive Read (idle : Nat) (cancelled : Bool) :
    List UInt8 → Except Fault (List UInt8) × Source → Prop
  | ended : Read idle cancelled [] (.error .endOfInput, ⟨[], cancelled⟩)
  | nothing (rest : List Segment) (hidle : idle + 1 < maxIdleReads)
      (hsteady : Steady (idle + 1) rest) :
      Read idle cancelled (payload rest) (.ok [], ⟨rest, cancelled⟩)
  | bytes (b : UInt8) (bs : List UInt8) (rest : List Segment) (hsteady : Steady 0 rest) :
      Read idle cancelled (b :: (bs ++ payload rest)) (.ok (b :: bs), ⟨rest, cancelled⟩)

theorem readSegments_data (b : UInt8) (bs : List UInt8) {rest : List Segment} (h : Steady 0 rest)
    (cancelled : Bool) {n : Nat} (hn : 0 < n) :
    ∃ bs' rest', readSegments n cancelled (.data (b :: bs) :: rest) =
        (.ok (b :: bs'), ⟨rest', cancelled⟩) ∧
      Steady 0 rest' ∧ bs' ++ payload rest' = bs ++ payload rest := by
  obtain ⟨n, rfl⟩ : ∃ k, n = k + 1 := ⟨n - 1, by omega⟩
  rw [readSegments, List.drop_succ_cons, List.take_succ_cons]
  cases hdrop : bs.drop n with
  | nil => exact ⟨bs, rest, rfl, h, rfl⟩
  | cons c left =>
    refine ⟨bs.take n, .data (c :: left) :: rest, rfl, h, ?_⟩
    rw [payload, ← hdrop, ← List.append_assoc, List.take_append_drop]

theorem read_steady {idle : Nat} {segments : List Segment} (h : Steady idle segments)
    (cancelled : Bool) {n : Nat} (hn : 0 < n) :
    Read idle cancelled (payload segments) (readSegments n cancelled segments) := by
  induction segments with
  | nil => exact .ended
  | cons segment rest ih =>
    cases segment with
    | data bytes =>
      cases bytes with
      | nil => exact ih h
      | cons b bs =>
        obtain ⟨bs', rest', heq, hsteady, hpayload⟩ := readSegments_data b bs h cancelled hn
        rw [heq, payload, List.cons_append, ← hpayload]
        exact .bytes b bs' rest' hsteady
    | fault fault => cases h
    | idle count =>
      obtain ⟨hidle, hsteady⟩ := h
      cases count with
      | zero => exact ih hsteady
      | succ k =>
        have hnext : Steady (idle + 1) (if k = 0 then rest else .idle k :: rest) := by
          split
          · rename_i hk
            subst hk
            exact hsteady
          · exact ⟨by omega, by rwa [show idle + 1 + k = idle + (k + 1) by omega]⟩
        have hread : Read idle cancelled _ _ := .nothing _ (by omega) hnext
        have hpayload : payload (if k = 0 then rest else .idle k :: rest) = payload rest := by
          split <;> rfl
        rw [hpayload] at hread
        exact hread
    | cancel => cases h

end Source

namespace Reader

open Source

inductive Filled (cancelled : Bool) : List UInt8 → Except Fault (List UInt8) × Source → Prop
  | ended : Filled cancelled [] (.error .endOfInput, ⟨[], cancelled⟩)
  | bytes (b : UInt8) (bs : List UInt8) (rest : List Segment) (hsteady : Steady 0 rest) :
      Filled cancelled (b :: (bs ++ payload rest)) (.ok (b :: bs), ⟨rest, cancelled⟩)

theorem fill_steady (tries : Nat) {idle : Nat} {segments : List Segment}
    (h : Steady idle segments) (htries : maxIdleReads ≤ idle + tries)
    (hidle : idle < maxIdleReads) (cancelled : Bool) :
    Filled cancelled (payload segments) (fill tries ⟨segments, cancelled⟩) := by
  induction tries generalizing idle segments with
  | zero => omega
  | succ tries ih =>
    have hread : Read idle cancelled (payload segments)
        (Source.read ⟨segments, cancelled⟩ bufferSize) := read_steady h cancelled (by decide)
    rw [fill]
    generalize payload segments = bytes at hread ⊢
    generalize Source.read ⟨segments, cancelled⟩ bufferSize = r at hread ⊢
    cases hread with
    | ended => exact .ended
    | nothing rest hnext hsteady => exact ih hsteady (by omega) hnext
    | bytes b bs rest hsteady => exact .bytes b bs rest hsteady

theorem await_steady {idle : Nat} {segments : List Segment} (h : Steady idle segments)
    (cancelled : Bool) {n : Nat} (hn : 0 < n) :
    Filled cancelled (payload segments) (awaitSegments n cancelled segments) := by
  induction segments generalizing idle with
  | nil => exact .ended
  | cons segment rest ih =>
    cases segment with
    | data bytes =>
      cases bytes with
      | nil => exact ih h
      | cons b bs =>
        obtain ⟨bs', rest', heq, hsteady, hpayload⟩ := readSegments_data b bs h cancelled hn
        rw [awaitSegments, heq, payload, List.cons_append, ← hpayload]
        · exact .bytes b bs' rest' hsteady
        all_goals nofun
    | fault fault => cases h
    | idle count => exact ih h.2
    | cancel => cases h

structure Delivers (r : Reader) (bytes : List UInt8) : Prop where
  bytes_eq : r.buffer ++ payload r.source.segments = bytes
  steady : Steady 0 r.source.segments
  uncancelled : r.source.cancelled = false

variable {r : Reader}

theorem Delivers.readByte_cons {b : UInt8} {bytes : List UInt8} (h : r.Delivers (b :: bytes)) :
    ∃ r', r.readByte = (.ok b, r') ∧ r'.Delivers bytes := by
  obtain ⟨⟨segments, cancelled⟩, buffer⟩ := r
  obtain ⟨hbytes, hsteady, hcancelled⟩ := h
  cases buffer with
  | cons c rest =>
    cases hbytes
    exact ⟨_, rfl, rfl, hsteady, hcancelled⟩
  | nil =>
    have hfill := fill_steady maxIdleReads hsteady (by omega) (by decide) cancelled
    rw [List.nil_append] at hbytes
    dsimp only at hbytes hfill
    rw [hbytes] at hfill
    cases hr : fill maxIdleReads ⟨segments, cancelled⟩ with
    | mk result s =>
      rw [hr] at hfill
      cases hfill with
      | bytes _ bs rest hrest =>
        refine ⟨⟨⟨rest, cancelled⟩, bs⟩, ?_, rfl, hrest, hcancelled⟩
        simp only [readByte, hr]

theorem Delivers.readByte_nil (h : r.Delivers []) :
    ∃ r', r.readByte = (.error .endOfInput, r') ∧ r'.Delivers [] := by
  obtain ⟨⟨segments, cancelled⟩, buffer⟩ := r
  obtain ⟨hbytes, hsteady, hcancelled⟩ := h
  obtain ⟨rfl, hbytes⟩ := List.append_eq_nil_iff.mp hbytes
  have hfill := fill_steady maxIdleReads hsteady (by omega) (by decide) cancelled
  dsimp only at hbytes hfill
  rw [hbytes] at hfill
  cases hr : fill maxIdleReads ⟨segments, cancelled⟩ with
  | mk result s =>
    rw [hr] at hfill
    cases hfill
    refine ⟨⟨⟨[], cancelled⟩, []⟩, ?_, rfl, trivial, hcancelled⟩
    simp only [readByte, hr]

theorem Delivers.awaitByte_cons {b : UInt8} {bytes : List UInt8} (h : r.Delivers (b :: bytes)) :
    ∃ r', r.awaitByte = (.ok b, r') ∧ r'.Delivers bytes := by
  obtain ⟨⟨segments, cancelled⟩, buffer⟩ := r
  obtain ⟨hbytes, hsteady, hcancelled⟩ := h
  cases buffer with
  | cons c rest =>
    cases hbytes
    exact ⟨_, rfl, rfl, hsteady, hcancelled⟩
  | nil =>
    have hawait := await_steady hsteady cancelled (show 0 < bufferSize by decide)
    rw [List.nil_append] at hbytes
    dsimp only at hbytes hawait
    rw [hbytes] at hawait
    cases hr : awaitSegments bufferSize cancelled segments with
    | mk result s =>
      rw [hr] at hawait
      cases hawait with
      | bytes _ bs rest hrest =>
        refine ⟨⟨⟨rest, cancelled⟩, bs⟩, ?_, rfl, hrest, hcancelled⟩
        simp only [awaitByte, Source.await, hr]

theorem Delivers.readFull {bytes rest : List UInt8} (h : r.Delivers (bytes ++ rest)) :
    ∃ r', r.readFull bytes.length = (.ok bytes, r') ∧ r'.Delivers rest := by
  induction bytes generalizing r with
  | nil => exact ⟨r, rfl, h⟩
  | cons b bytes ih =>
    obtain ⟨r₁, hbyte, h₁⟩ := h.awaitByte_cons
    obtain ⟨r₂, hbytes, h₂⟩ := ih h₁
    refine ⟨r₂, ?_, h₂⟩
    simp only [List.length_cons, Reader.readFull, hbyte, hbytes]

theorem delivers_ofBytes (bytes : List UInt8) : Delivers ⟨.ofBytes bytes, []⟩ bytes where
  bytes_eq := by simp [Source.ofBytes, payload]
  steady := by cases bytes <;> trivial
  uncancelled := rfl

end Reader

end PlatterMachine
