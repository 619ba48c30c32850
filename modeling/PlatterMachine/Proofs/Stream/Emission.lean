import PlatterMachine.Stream.Writer

/-!
# Reliable output

A reliable sink accepts and remembers whatever is written to it. What a writer on top of it has been
given is then what the sink has accepted followed by what is still buffered; flushing moves bytes
from the one to the other.
-/

namespace PlatterMachine

structure Sink.Reliable (s : Sink) : Prop where
  failAt_eq : s.failAt = none
  shortAt_eq : s.shortAt = none
  cancelAt_eq : s.cancelAt = none
  discards_eq : s.discards = false
  uncancelled : s.cancelled = false

theorem Sink.Reliable.write_eq {s : Sink} (h : s.Reliable) (bytes : List UInt8) :
    s.write bytes = ((bytes.length, none),
      { s with writes := s.writes + 1, accepted := s.accepted.push bytes }) := by
  simp [write, refuses, taken, counted, remember, h.failAt_eq, h.shortAt_eq, h.cancelAt_eq,
    h.discards_eq]

namespace Writer

def emitted (w : Writer) : List UInt8 := w.sink.accepted.toList.flatten ++ w.buffer.toList

structure Emits (w : Writer) (bytes : Array UInt8) : Prop where
  reliable : w.sink.Reliable
  fault_eq : w.fault = none
  emitted_eq : w.emitted = bytes.toList

variable {w : Writer} {bytes : Array UInt8}

theorem Emits.flush (h : w.Emits bytes) :
    w.flush.1 = none ∧ w.flush.2.Emits bytes ∧ w.flush.2.buffer = #[] := by
  obtain ⟨sink, buffer, fault⟩ := w
  obtain ⟨hreliable, hfault, hbytes⟩ := h
  change fault = none at hfault
  subst hfault
  by_cases hempty : buffer.isEmpty = true
  · obtain rfl := Array.isEmpty_iff.mp hempty
    exact ⟨rfl, ⟨hreliable, rfl, hbytes⟩, rfl⟩
  · have hflush : Writer.flush ⟨sink, buffer, none⟩ =
        (none, ⟨(sink.write buffer.toList).2, #[], none⟩) := by
      simp [Writer.flush, hempty, hreliable.write_eq]
    rw [hflush, hreliable.write_eq]
    refine ⟨rfl, ⟨?_, rfl, ?_⟩, rfl⟩
    · exact ⟨hreliable.failAt_eq, hreliable.shortAt_eq, hreliable.cancelAt_eq,
        hreliable.discards_eq, hreliable.uncancelled⟩
    · simpa [emitted] using hbytes

theorem Emits.push (h : w.Emits bytes) (b : UInt8) :
    Emits { w with buffer := w.buffer.push b } (bytes.push b) :=
  ⟨h.reliable, h.fault_eq, by simp [emitted, ← h.emitted_eq]⟩

theorem Emits.writeByte (h : w.Emits bytes) (b : UInt8) :
    (w.writeByte b).1 = none ∧ (w.writeByte b).2.Emits (bytes.push b) := by
  simp only [Writer.writeByte, h.fault_eq]
  split
  · exact ⟨rfl, h.fault_eq ▸ h.push b⟩
  · obtain ⟨hnone, hflushed, -⟩ := h.flush
    rcases hf : w.flush with ⟨fault, w'⟩
    rw [hf] at hnone hflushed
    cases hnone
    exact ⟨rfl, hflushed.push b⟩

theorem Emits.write (h : w.Emits bytes) (text : List UInt8) :
    (Writer.write text w).1 = none ∧ (Writer.write text w).2.Emits (bytes ++ text) := by
  induction text generalizing w bytes with
  | nil => exact ⟨h.fault_eq, by simpa [Writer.write] using h⟩
  | cons b text ih =>
    obtain ⟨hnone, hwritten⟩ := h.writeByte b
    rcases hw : w.writeByte b with ⟨fault, w'⟩
    rw [hw] at hnone hwritten
    cases hnone
    rw [Writer.write, hw]
    have happend : bytes ++ b :: text = bytes.push b ++ text := by simp
    rw [happend]
    exact ih hwritten

end Writer

end PlatterMachine
