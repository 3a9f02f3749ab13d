import OldStuff.Io.TrySelect

/-!
# Io — any history of registrations

The connections edit the two lists of an `io::select` by four operations.  An `Edit` is one call of
one of them, and `edited` is the object after a sequence of them.

Whether a list contains a pointer depends on the last edit that named both (`contains_edited`).
So histories that agree for each list and each pointer, however those are mixed with one another,
cannot be told apart: not by the answers of `read_contains` and `write_contains` after any further
edits, and not by the call that `try_select` makes (`Agree.later`).  `remove` erases the first
occurrence of a pointer only; a list has no second one.
-/

namespace OldStuff.Io
open OldStuff.Lib (Roster)

/-- The two lists. -/
inductive Side where
  | read
  | write
  deriving DecidableEq

/-- `add_read`, `remove_read`, `add_write` or `remove_write`, with its argument. -/
structure Edit where
  side : Side
  adds : Bool
  fd : Pointer
  deriving DecidableEq

namespace Side

def list : Side → Select → Roster Pointer
  | .read, s => s.fileDescriptorsRead
  | .write, s => s.fileDescriptorsWrite

/-- `read_contains` or `write_contains`. -/
def contains : Side → Pointer → Select → Bool
  | .read, p, s => s.readContains p
  | .write, p, s => s.writeContains p

theorem contains_iff {side : Side} {p : Pointer} {s : Select} :
    side.contains p s = true ↔ p ∈ side.list s := by
  cases side with
  | read => exact decide_eq_true_iff
  | write => exact decide_eq_true_iff

end Side

/-- The call. -/
def Edit.apply (s : Select) : Edit → Select
  | ⟨.read, true, p⟩ => s.addRead p
  | ⟨.read, false, p⟩ => s.removeRead p
  | ⟨.write, true, p⟩ => s.addWrite p
  | ⟨.write, false, p⟩ => s.removeWrite p

/-- A new object after a sequence of calls. -/
def edited (es : List Edit) : Select := es.foldl Edit.apply .empty

/-- The edits of one list that name one pointer, in their order. -/
def editsOf (side : Side) (p : Pointer) (es : List Edit) : List Edit :=
  es.filter fun e => e.side = side ∧ e.fd = p

/-- The same edits for each list and each pointer, in the same order. -/
def Agree (es es' : List Edit) : Prop := ∀ side p, editsOf side p es = editsOf side p es'

/-! ### The last edit decides -/

/-- **A step**: an edit decides of its own pointer on its own list, and of nothing else. -/
theorem mem_apply (side : Side) (p : Pointer) (e : Edit) (s : Select) :
    p ∈ side.list (e.apply s) ↔
      if e.side = side ∧ e.fd = p then e.adds = true else p ∈ side.list s := by
  obtain ⟨side', adds, q⟩ := e
  by_cases hq : q = p
  · subst hq
    cases side <;> cases side' <;> cases adds <;> simp [Edit.apply, Side.list]
  · cases side <;> cases side' <;> cases adds <;> simp [Edit.apply, Side.list, hq, Ne.symm hq]

theorem edited_concat (es : List Edit) (e : Edit) : edited (es ++ [e]) = e.apply (edited es) := by
  rw [edited, List.foldl_concat, edited]

/-- **A run**: a pointer is on a list if the last edit of it there was an add. -/
theorem mem_edited (side : Side) (p : Pointer) (es : List Edit) :
    p ∈ side.list (edited es) ↔ ∃ e, (editsOf side p es).getLast? = some e ∧ e.adds = true := by
  induction es using List.reverseRecOn with
  | nil => cases side <;> simp [edited, editsOf, Side.list, Select.empty]
  | append_singleton es e ih =>
      rw [edited_concat, mem_apply, editsOf, List.filter_append]
      split
      · next h => simp [h]
      · next h =>
          rw [List.filter_singleton, decide_eq_false h, ih, editsOf]
          simp

theorem contains_edited (side : Side) (p : Pointer) (es : List Edit) :
    side.contains p (edited es) = true ↔
      ∃ e, (editsOf side p es).getLast? = some e ∧ e.adds = true :=
  Side.contains_iff.trans (mem_edited side p es)

/-! ### Histories that agree -/

theorem Agree.append {es es' : List Edit} (h : Agree es es') (later : List Edit) :
    Agree (es ++ later) (es' ++ later) := by
  intro side p
  have same : es.filter (fun e => e.side = side ∧ e.fd = p) =
      es'.filter fun e => e.side = side ∧ e.fd = p := h side p
  rw [editsOf, editsOf, List.filter_append, List.filter_append, same]

/-- Two neighbours of different lists, or about different pointers, may change places. -/
theorem agree_swap {e e' : Edit} (h : e.side ≠ e'.side ∨ e.fd ≠ e'.fd) (before later : List Edit) :
    Agree (before ++ e :: e' :: later) (before ++ e' :: e :: later) := by
  intro side p
  simp only [editsOf, List.filter_append, List.filter_cons]
  by_cases he : e.side = side ∧ e.fd = p
  · have other : ¬ (e'.side = side ∧ e'.fd = p) := by
      rintro ⟨hs, hp⟩
      exact h.elim (fun h => h (he.1.trans hs.symm)) fun h => h (he.2.trans hp.symm)
    simp [he, other]
  · simp [he]

theorem Agree.mem {es es' : List Edit} (h : Agree es es') (side : Side) (p : Pointer) :
    p ∈ side.list (edited es) ↔ p ∈ side.list (edited es') := by
  rw [mem_edited, mem_edited, h side p]

/-- Two objects that answer alike, and call `::select` alike. -/
structure Alike (s s' : Select) : Prop where
  contains : ∀ (side : Side) p, side.contains p s = side.contains p s'
  trying : ∀ size, s.trying size = s'.trying size

/-- **No later answer differs**, and no later call of `::select`. -/
theorem Agree.later {es es' : List Edit} (h : Agree es es') (later : List Edit) :
    Alike (edited (es ++ later)) (edited (es' ++ later)) := by
  have same := (h.append later).mem
  refine ⟨fun side p => ?_, fun size => ?_⟩
  · rw [Bool.eq_iff_iff, Side.contains_iff, Side.contains_iff, same]
  · rw [Select.trying, Select.trying, Select.prepare_congr (same .read) (same .write)]

/-! ### One registration -/

theorem edited_single_list (side : Side) (d : FileDescriptor) :
    (side.list (edited [⟨side, true, some d⟩])).toList = [some d] := by
  cases side <;> rfl

/-- An object that has been registered once, in one list. -/
theorem edited_single (side : Side) (d : FileDescriptor) :
    (edited [⟨side, true, some d⟩]).Open ∧
      ∀ n, (edited [⟨side, true, some d⟩]).Lists n ↔ n = d.fd := by
  have one := edited_single_list side d
  cases side with
  | read =>
      have other : (edited [⟨.read, true, some d⟩]).fileDescriptorsWrite.toList = [] := rfl
      simp only [Side.list] at one
      refine ⟨⟨by rw [one]; simp, by rw [other]; simp⟩, fun n => ?_⟩
      simp [Select.Lists, Listed, one, other, eq_comm]
  | write =>
      have other : (edited [⟨.write, true, some d⟩]).fileDescriptorsRead.toList = [] := rfl
      simp only [Side.list] at one
      refine ⟨⟨by rw [other]; simp, by rw [one]; simp⟩, fun n => ?_⟩
      simp [Select.Lists, Listed, one, other, eq_comm]

/-! ### The laws together -/

/-- The lists are sets: without repetition, each pointer as its last edit left it, and no trace of
the order in which different pointers or lists were edited. -/
structure SetLaws (es : List Edit) : Prop where
  nodup : ∀ side : Side, (side.list (edited es)).toList.Nodup
  last : ∀ (side : Side) p, side.contains p (edited es) = true ↔
    ∃ e, (editsOf side p es).getLast? = some e ∧ e.adds = true
  order : ∀ es', Agree es es' → ∀ later, Alike (edited (es ++ later)) (edited (es' ++ later))

/-- `try_select` calls `::select` with the listed numbers, whatever it is answered. -/
def Selects (size : Nat) (s : Select) : Prop := s.Open → ∀ answers, s.CallsNamed size answers

/-- **The laws of the lists, and where `try_select` keeps to them.**  The lists are sets after any
history.  `::select` is called with what they name if the descriptors are below `FD_SETSIZE`, and
then only. -/
theorem registrations (size : Nat) (es : List Edit) :
    SetLaws es ∧
      (Selects size (edited es) ↔ ((edited es).Open → ∀ n, (edited es).Lists n → n < size)) :=
  ⟨⟨fun side => (side.list (edited es)).nodup, fun side p => contains_edited side p es,
    fun _ h => h.later⟩, forall_congr' Select.callsNamed_iff⟩

/-- One registration, of an open descriptor that an `fd_set` of 1024 bits has no bit for. -/
theorem first_descriptor_beyond :
    (edited [⟨.read, true, some ⟨0, 1024, ⟨0, 0⟩⟩⟩]).Open ∧
      ¬ Selects 1024 (edited [⟨.read, true, some ⟨0, 1024, ⟨0, 0⟩⟩⟩]) := by
  obtain ⟨ho, one⟩ := edited_single .read ⟨0, 1024, ⟨0, 0⟩⟩
  refine ⟨ho, fun h => ?_⟩
  have small := (Select.callsNamed_iff ho).mp (h ho) 1024 ((one 1024).mpr rfl)
  exact absurd small (Nat.lt_irrefl 1024)

end OldStuff.Io
