/-
# McDaemon.Lib.Stream — buffered output to a file.

What is written to a stream waits in a buffer, and goes out to the file in order.  How much of it goes
out is for the system to say, each time that it is asked: when the buffer fills up, in a flush, and in
the end when the stream is closed.
-/
import Mathlib.Init

namespace McDaemon.Lib

universe u

/-- An output stream: what is in the file, what waits to go there, and the error indicator. -/
structure Stream (α : Type u) where
  out : List α
  pending : List α
  error : Bool
deriving DecidableEq, Repr

/-- What a write comes to: all is taken, and `out` of it goes to the file at once; or the write fails
after `taken`, of which `out` goes there. -/
inductive WriteAnswer where
  | done (out : Nat)
  | failed (taken out : Nat)
deriving DecidableEq, Repr

namespace Stream

variable {α : Type u} {f : Stream α}

/-- A file that is opened for writing is emptied. -/
def opened : Stream α := ⟨[], [], false⟩

/-- The system takes up to `n` of what waits. -/
def drain (f : Stream α) (n : Nat) : Stream α :=
  { f with out := f.out ++ f.pending.take n, pending := f.pending.drop n }

/-- Write to the stream. -/
def write (f : Stream α) (xs : List α) : WriteAnswer → Stream α
  | .done n => drain { f with pending := f.pending ++ xs } n
  | .failed taken n => { drain { f with pending := f.pending ++ xs.take taken } n with error := true }

@[simp] theorem drain_error (n : Nat) : (f.drain n).error = f.error := rfl

@[simp] theorem write_done_error (xs : List α) (n : Nat) :
    (f.write xs (.done n)).error = f.error := rfl

@[simp] theorem write_failed_error (xs : List α) (taken n : Nat) :
    (f.write xs (.failed taken n)).error = true := rfl

/-- What the system takes in two goes it could have taken in one. -/
theorem drain_drain (m n : Nat) : (f.drain m).drain n = f.drain (m + n) := by
  simp [drain, List.take_add, List.drop_drop]

@[simp] theorem out_drain_opened (n : Nat) : ((opened : Stream α).drain n).out = [] := by
  simp [drain, opened]

/-- A write to a new stream leaves a beginning of what was written. -/
theorem out_write_done (xs : List α) (m n : Nat) :
    ((opened.write xs (.done m)).drain n).out = xs.take (m + n) := by
  rw [write, drain_drain]
  rfl

theorem out_write_failed (xs : List α) (taken m n : Nat) :
    ((opened.write xs (.failed taken m)).drain n).out = (xs.take taken).take (m + n) :=
  out_write_done (xs.take taken) m n

end Stream

end McDaemon.Lib
