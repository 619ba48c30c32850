import PlatterMachine.Proofs.Stream.Delivery

/-!
# What a reader is told

Asked for a byte again and again, a reader answers with the bytes and faults of its source in their
order, and with the end of input behind the last. A stretch of idle reads is an answer too when it is
as long as a reader puts up with. How bytes are cut into segments does not show in the answers.
-/

namespace PlatterMachine

namespace Source

/-- The answers that segments hold for a reader that has made `idle` reads in vain. -/
def script : (idle : Nat) → List Segment → List (Except Fault UInt8)
  | _, [] => []
  | idle, .data [] :: rest => script idle rest
  | _, .data (b :: bs) :: rest => (b :: bs).map .ok ++ script 0 rest
  | _, .fault fault :: rest => .error fault :: script 0 rest
  | idle, .idle count :: rest =>
    List.replicate ((idle + count) / maxIdleReads) (.error noProgress) ++
      script ((idle + count) % maxIdleReads) rest
  | idle, .cancel :: rest => script idle rest

inductive Told (idle : Nat) :
    List (Except Fault UInt8) → Except Fault (List UInt8) × Source → Prop
  | ended (s : Source) (hs : s.segments = []) : Told idle [] (.error .endOfInput, s)
  | fault (fault : Fault) (s : Source) :
      Told idle (.error fault :: script 0 s.segments) (.error fault, s)
  | bytes (b : UInt8) (bs : List UInt8) (s : Source) :
      Told idle (.ok b :: (bs.map .ok ++ script 0 s.segments)) (.ok (b :: bs), s)
  | nothing (s : Source) (h : idle + 1 < maxIdleReads) :
      Told idle (script (idle + 1) s.segments) (.ok [], s)
  | tired (s : Source) (h : idle + 1 = maxIdleReads) :
      Told idle (.error noProgress :: script 0 s.segments) (.ok [], s)

/-- A read of data brings some of it and leaves the rest to come. -/
theorem exists_read_data (b : UInt8) (bs : List UInt8) (rest : List Segment) (cancelled : Bool)
    (idle n : Nat) :
    ∃ bs' segments, readSegments (n + 1) cancelled (.data (b :: bs) :: rest) =
        (.ok (b :: bs'), ⟨segments, cancelled⟩) ∧ bs'.length ≤ n ∧
      script idle (.data (b :: bs) :: rest) = .ok b :: (bs'.map .ok ++ script 0 segments) := by
  rw [readSegments, List.drop_succ_cons, List.take_succ_cons, script]
  cases hdrop : bs.drop n with
  | nil => exact ⟨bs, rest, rfl, List.drop_eq_nil_iff.mp hdrop, rfl⟩
  | cons c left =>
    have hbs : bs = bs.take n ++ c :: left := by rw [← hdrop, List.take_append_drop]
    refine ⟨bs.take n, .data (c :: left) :: rest, rfl, List.length_take_le n bs, ?_⟩
    rw [script, ← List.append_assoc, ← List.map_append, ← hbs]
    rfl

theorem script_idle_zero {idle : Nat} (rest : List Segment) (hidle : idle < maxIdleReads) :
    script idle (.idle 0 :: rest) = script idle rest := by
  rw [script, Nat.add_zero, Nat.div_eq_of_lt hidle, Nat.mod_eq_of_lt hidle]
  rfl

/-- An idle read is one of those that a reader puts up with, or the last of them. -/
theorem script_idle_succ (idle k : Nat) (rest : List Segment) :
    script idle (.idle (k + 1) :: rest) =
      if idle + 1 = maxIdleReads then .error noProgress :: script 0 (.idle k :: rest)
      else script (idle + 1) (.idle k :: rest) := by
  have hpos : 0 < maxIdleReads := by decide
  split
  · rename_i hlast
    have hsum : idle + (k + 1) = k + maxIdleReads := by omega
    rw [script, script, hsum, Nat.zero_add, Nat.add_div_right k hpos, Nat.add_mod_right,
      List.replicate_succ, List.cons_append]
  · rw [script, script, Nat.add_assoc, Nat.add_comm 1]

theorem told_read (segments : List Segment) (cancelled : Bool) {idle n : Nat}
    (hidle : idle < maxIdleReads) (hn : 0 < n) :
    Told idle (script idle segments) (readSegments n cancelled segments) := by
  induction segments generalizing cancelled with
  | nil => exact .ended ⟨[], cancelled⟩ rfl
  | cons segment rest ih =>
    cases segment with
    | data bytes =>
      cases bytes with
      | nil => exact ih cancelled
      | cons b bs =>
        obtain ⟨n, rfl⟩ : ∃ k, n = k + 1 := ⟨n - 1, by omega⟩
        obtain ⟨bs', segments, hread, -, hscript⟩ := exists_read_data b bs rest cancelled idle n
        rw [hread, hscript]
        exact .bytes b bs' ⟨segments, cancelled⟩
    | fault fault => exact .fault fault ⟨rest, cancelled⟩
    | idle count =>
      cases count with
      | zero =>
        rw [script_idle_zero rest hidle]
        exact ih cancelled
      | succ k =>
        have hleft {idle : Nat} (h : idle < maxIdleReads) :
            script idle (.idle k :: rest) =
              script idle (if k = 0 then rest else .idle k :: rest) := by
          split
          · rename_i hk
            rw [hk, script_idle_zero rest h]
          · rfl
        rw [script_idle_succ]
        split
        · rw [hleft (by omega)]
          exact .tired ⟨if k = 0 then rest else .idle k :: rest, cancelled⟩ ‹_›
        · rw [hleft (by omega)]
          exact .nothing ⟨if k = 0 then rest else .idle k :: rest, cancelled⟩ (by omega)
    | cancel => exact ih true

end Source

namespace Reader

open Source

/-- The answers still to come, those from the buffer first. -/
def script (r : Reader) : List (Except Fault UInt8) :=
  r.buffer.map .ok ++ Source.script 0 r.source.segments

inductive ToldFill : List (Except Fault UInt8) → Except Fault (List UInt8) × Source → Prop
  | ended (s : Source) (hs : s.segments = []) : ToldFill [] (.error .endOfInput, s)
  | fault (fault : Fault) (s : Source) :
      ToldFill (.error fault :: Source.script 0 s.segments) (.error fault, s)
  | bytes (b : UInt8) (bs : List UInt8) (s : Source) :
      ToldFill (.ok b :: (bs.map .ok ++ Source.script 0 s.segments)) (.ok (b :: bs), s)

theorem told_fill {tries idle : Nat} (s : Source) (hpos : 0 < tries)
    (htries : idle + tries = maxIdleReads) :
    ToldFill (Source.script idle s.segments) (fill tries s) := by
  induction tries generalizing s idle with
  | zero => omega
  | succ tries ih =>
    have htold : Told idle _ (s.read bufferSize) :=
      told_read s.segments s.cancelled (by omega) (by decide)
    rw [fill]
    generalize Source.script idle s.segments = answers at htold ⊢
    generalize s.read bufferSize = r at htold ⊢
    cases htold with
    | ended s hs => exact .ended s hs
    | fault fault s => exact .fault fault s
    | bytes b bs s => exact .bytes b bs s
    | nothing s h => exact ih s (by omega) (by omega)
    | tired s h =>
      obtain rfl : tries = 0 := by omega
      exact .fault noProgress s

/-- A reader answers with the first of its answers, or with the end of input, and has the others
still to come. -/
theorem readByte_script (r : Reader) :
    r.readByte.1 = r.script.headD (.error .endOfInput) ∧ r.readByte.2.script = r.script.tail := by
  obtain ⟨s, _ | ⟨b, rest⟩⟩ := r
  · have htold : ToldFill (Source.script 0 s.segments) (fill maxIdleReads s) :=
      told_fill s (by decide) (Nat.zero_add _)
    simp only [readByte, script, List.map_nil, List.nil_append]
    generalize Source.script 0 s.segments = answers at htold ⊢
    generalize fill maxIdleReads s = r at htold ⊢
    cases htold with
    | ended s hs => exact ⟨rfl, by rw [hs]; rfl⟩
    | fault fault s => exact ⟨rfl, rfl⟩
    | bytes b bs s => exact ⟨rfl, rfl⟩
  · exact ⟨rfl, rfl⟩

end Reader

namespace Source

/-- The answers for one who waits for the first of them, however many reads bring nothing. -/
def patientScript : List Segment → List (Except Fault UInt8)
  | .idle _ :: rest => patientScript rest
  | .cancel :: rest => patientScript rest
  | .data [] :: rest => patientScript rest
  | segments => script 0 segments

inductive ToldFirst : List (Except Fault UInt8) → Except Fault (List UInt8) × Source → Prop
  | ended (s : Source) : ToldFirst [] (.error .endOfInput, s)
  | fault (fault : Fault) (later : List (Except Fault UInt8)) (s : Source) :
      ToldFirst (.error fault :: later) (.error fault, s)
  | byte (b : UInt8) (s : Source) : ToldFirst (.ok b :: script 0 s.segments) (.ok [b], s)

/-- Waiting for one byte takes one byte. -/
theorem told_await_one (segments : List Segment) (cancelled : Bool) :
    ToldFirst (patientScript segments) (awaitSegments 1 cancelled segments) := by
  induction segments generalizing cancelled with
  | nil => exact .ended ⟨[], cancelled⟩
  | cons segment rest ih =>
    cases segment with
    | data bytes =>
      cases bytes with
      | nil => exact ih cancelled
      | cons b bs =>
        obtain ⟨bs', segments, hread, hlen, hscript⟩ := exists_read_data b bs rest cancelled 0 0
        obtain rfl : bs' = [] := List.eq_nil_of_length_eq_zero (Nat.le_zero.mp hlen)
        change ToldFirst (script 0 (.data (b :: bs) :: rest))
          (readSegments 1 cancelled (.data (b :: bs) :: rest))
        rw [hread, hscript]
        exact .byte b ⟨segments, cancelled⟩
    | fault fault => exact .fault fault _ ⟨rest, cancelled⟩
    | idle count => exact ih cancelled
    | cancel => exact ih true

end Source

/-- However bytes are cut into segments, the answers are the bytes. -/
theorem Source.script_data {idle : Nat} {segments : List Segment}
    (h : ∀ segment ∈ segments, ∃ bytes, segment = .data bytes) :
    script idle segments = (payload segments).map .ok := by
  induction segments generalizing idle with
  | nil => rfl
  | cons segment rest ih =>
    obtain ⟨bytes, rfl⟩ := h _ List.mem_cons_self
    have hrest (idle : Nat) : script idle rest = (payload rest).map .ok :=
      ih fun segment hs => h segment (List.mem_cons_of_mem _ hs)
    cases bytes with
    | nil => exact hrest idle
    | cons b bs => rw [script, payload, hrest, List.map_append]

theorem Source.patientScript_data {segments : List Segment}
    (h : ∀ segment ∈ segments, ∃ bytes, segment = .data bytes) :
    patientScript segments = (payload segments).map .ok := by
  induction segments with
  | nil => rfl
  | cons segment rest ih =>
    obtain ⟨bytes, rfl⟩ := h _ List.mem_cons_self
    cases bytes with
    | nil => exact ih fun segment hs => h segment (List.mem_cons_of_mem _ hs)
    | cons b bs => exact script_data h

end PlatterMachine
