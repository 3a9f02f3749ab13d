import Mathlib

/-!
# Lib — a queue between two streams

What enters a queue leaves it once, in order: the stream received so far is the stream delivered
so far followed by what is still queued.  `Conserved` says this; it survives the arrival of a
piece (`receive`) and the departure of the front of the queue (`deliver`), however the pieces are
cut.
-/

namespace OldStuff.Lib

/-- `received` came in, `delivered` went out, `queue` is left. -/
def Conserved {α : Type*} (received delivered queue : List α) : Prop :=
  received = delivered ++ queue

namespace Conserved

variable {α : Type*} {received delivered queue : List α}

theorem start : Conserved ([] : List α) [] [] := rfl

theorem receive (h : Conserved received delivered queue) (piece : List α) :
    Conserved (received ++ piece) delivered (queue ++ piece) := by
  unfold Conserved at *
  rw [h, List.append_assoc]

theorem deliver (h : Conserved received delivered queue) (n : ℕ) :
    Conserved received (delivered ++ queue.take n) (queue.drop n) := by
  unfold Conserved at *
  rw [h, List.append_assoc, List.take_append_drop]

end Conserved

end OldStuff.Lib
