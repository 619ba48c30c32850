import PlatterMachine.Proofs.Engine.Coupling

/-!
# Streams that cancel nothing

A source may cancel the run that reads it, and a sink the run that writes to it. Without that they
deliver and accept the same bytes, in the same portions and with the same faults, so that an engine
goes along with the same engine whose streams cancel nothing.
-/

namespace PlatterMachine

def Source.undisturbed (s : Source) : Source := ⟨s.segments.filter (· ≠ .cancel), false⟩

def Sink.undisturbed (s : Sink) : Sink := { s with cancelAt := none, cancelled := false }

def Reader.undisturbed (r : Reader) : Reader := { r with source := r.source.undisturbed }

def Writer.undisturbed (w : Writer) : Writer := { w with sink := w.sink.undisturbed }

def Host.undisturbed (h : Host) : Host :=
  { h with input := h.input.undisturbed, output := h.output.undisturbed }

def Engine.undisturbed (e : Engine) : Engine := { e with host := e.host.undisturbed }

theorem Source.readSegments_undisturbed (n : Nat) (cancelled : Bool) (segments : List Segment) :
    readSegments n false (segments.filter (· ≠ .cancel)) =
      ((readSegments n cancelled segments).1, (readSegments n cancelled segments).2.undisturbed) := by
  induction segments generalizing cancelled with
  | nil => rfl
  | cons segment rest ih =>
    cases segment with
    | data bytes =>
      cases bytes with
      | nil => exact ih cancelled
      | cons b bs =>
        change readSegments n false (.data (b :: bs) :: rest.filter (· ≠ .cancel)) = _
        simp only [readSegments]
        cases (b :: bs).drop n <;> rfl
    | fault fault => rfl
    | idle count =>
      cases count with
      | zero => exact ih cancelled
      | succ k =>
        change readSegments n false (.idle (k + 1) :: rest.filter (· ≠ .cancel)) = _
        simp only [readSegments, undisturbed]
        split <;> rfl
    | cancel => exact ih true

theorem Source.awaitSegments_undisturbed (n : Nat) (cancelled : Bool) (segments : List Segment) :
    awaitSegments n false (segments.filter (· ≠ .cancel)) =
      ((awaitSegments n cancelled segments).1, (awaitSegments n cancelled segments).2.undisturbed) := by
  induction segments generalizing cancelled with
  | nil => rfl
  | cons segment rest ih =>
    have hread := readSegments_undisturbed n cancelled (segment :: rest)
    cases segment with
    | data bytes =>
      cases bytes with
      | nil => exact ih cancelled
      | cons b bs => exact hread
    | fault fault => exact hread
    | idle count => exact ih cancelled
    | cancel => exact ih true

theorem Reader.fill_undisturbed (tries : Nat) (s : Source) :
    fill tries s.undisturbed = ((fill tries s).1, (fill tries s).2.undisturbed) := by
  induction tries generalizing s with
  | zero => rfl
  | succ tries ih =>
    have hread : s.undisturbed.read bufferSize =
        ((s.read bufferSize).1, (s.read bufferSize).2.undisturbed) :=
      Source.readSegments_undisturbed bufferSize s.cancelled s.segments
    rw [fill, fill, hread]
    rcases s.read bufferSize with ⟨fault | _ | ⟨b, bytes⟩, s'⟩
    · rfl
    · exact ih s'
    · rfl

theorem Reader.readByte_undisturbed (r : Reader) :
    r.undisturbed.readByte = (r.readByte.1, r.readByte.2.undisturbed) := by
  obtain ⟨s, _ | ⟨b, rest⟩⟩ := r
  · simp only [readByte, Reader.undisturbed, fill_undisturbed]
    rcases fill maxIdleReads s with ⟨fault | _ | ⟨b, bytes⟩, s'⟩ <;> rfl
  · rfl

theorem Sink.remember_undisturbed (s : Sink) (bytes : List UInt8) :
    s.undisturbed.remember bytes = (s.remember bytes).undisturbed := by
  unfold remember undisturbed
  split <;> rfl

theorem Sink.write_undisturbed (s : Sink) (bytes : List UInt8) :
    s.undisturbed.write bytes = ((s.write bytes).1, (s.write bytes).2.undisturbed) := by
  have hremember := s.counted.remember_undisturbed (s.taken bytes)
  refine Prod.ext rfl ?_
  change (if s.refuses && (s.taken bytes).isEmpty then s.counted.undisturbed
    else s.counted.undisturbed.remember (s.taken bytes)) = _
  rw [write, hremember]
  split <;> rfl

theorem Writer.flush_undisturbed (w : Writer) :
    w.undisturbed.flush = (w.flush.1, w.flush.2.undisturbed) := by
  obtain ⟨sink, buffer, _ | fault⟩ := w
  · simp only [flush, Writer.undisturbed, Sink.write_undisturbed]
    split
    · rfl
    · cases (sink.write buffer.toList).1.2.or
        (if (sink.write buffer.toList).1.1 < buffer.size then some shortWrite else none) <;> rfl
  · rfl

theorem Writer.writeByte_undisturbed (w : Writer) (b : UInt8) :
    w.undisturbed.writeByte b = ((w.writeByte b).1, (w.writeByte b).2.undisturbed) := by
  obtain ⟨sink, buffer, _ | fault⟩ := w
  · have hflush := flush_undisturbed ⟨sink, buffer, none⟩
    have hfault : (Writer.undisturbed ⟨sink, buffer, none⟩).fault = none := rfl
    have hbuffer : (Writer.undisturbed ⟨sink, buffer, none⟩).buffer = buffer := rfl
    simp only [writeByte, hfault, hbuffer, hflush]
    split
    · rfl
    · rcases flush ⟨sink, buffer, none⟩ with ⟨_ | fault, w⟩ <;> rfl
  · rfl

def Coupling.undisturbed : Coupling where
  Reads r r' := r' = r.undisturbed
  Writes w w' := w' = w.undisturbed
  SameRecords := True
  readByte := by
    rintro r _ rfl
    rw [Reader.readByte_undisturbed]
    exact ⟨rfl, rfl⟩
  fault_eq := by
    rintro w _ rfl
    rfl
  flush := by
    rintro w _ rfl
    rw [Writer.flush_undisturbed]
    exact ⟨rfl, rfl⟩
  writeByte := by
    rintro w _ b rfl
    rw [Writer.writeByte_undisturbed]
    exact ⟨rfl, rfl⟩

namespace Engine

variable {α : Type} {x : Action Engine α}

/-- Whether the streams can cancel makes no difference to the action. -/
def Unheeding (x : Action Engine α) : Prop := ∀ e, x e.undisturbed = ((x e).1, (x e).2.undisturbed)

theorem unheeding_of_respects (h : Coupling.undisturbed.Respects x) : Unheeding x := by
  intro e
  obtain ⟨hanswer, hcouples⟩ := h e e.undisturbed
    (.mk (c := .undisturbed) (h := e.host) rfl rfl fun _ => ⟨rfl, rfl⟩)
  refine Prod.ext hanswer ?_
  generalize (x e).2 = t at hcouples
  generalize (x e.undisturbed).2 = t' at hcouples
  obtain ⟨rfl, rfl, hrecords⟩ := hcouples
  obtain ⟨rfl, rfl⟩ := hrecords trivial
  rfl

theorem unheeding_prepare : Unheeding prepare := unheeding_of_respects Coupling.respects_prepare

theorem unheeding_flush : Unheeding flush := unheeding_of_respects Coupling.respects_flush

theorem unheeding_serveReason (reason : Reason) (left : Exit) :
    Unheeding (serveReason reason left) :=
  unheeding_of_respects (Coupling.respects_serveReason reason left)

end Engine

end PlatterMachine
