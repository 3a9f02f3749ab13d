import OldStuff.Lib.Outcome
import OldStuff.Lib.Roster
import OldStuff.Io.Descriptor

/-!
# Io — `io::select`

The object holds two lists of pointers, which the connections edit, and two sets of descriptor
*numbers*, which `try_select` fills from the lists and the kernel then thins out.  A handler asks
by number (`can_read`, `can_write`), so a bit speaks of whatever object has that number now.

A set has room for the numbers below `FD_SETSIZE`.  `FD_SET` of another number is undefined, and
`try_select` does not look.
-/

namespace OldStuff.Io
open OldStuff.Lib (Outcome Roster)

/-- The object: the registered pointers, and the numbers last reported ready. -/
structure Select where
  fileDescriptorsRead : Roster Pointer
  fileDescriptorsWrite : Roster Pointer
  readSet : List Nat
  writeSet : List Nat

/-- What `::select` answers, `EINTR` being retried: an error, nothing ready, or the numbers it
leaves set. -/
inductive SelectCall where
  | failed
  | timeout
  | ready (readFds writeFds : List Nat)

/-- A number on a list of pointers. -/
def Listed (ps : List Pointer) (n : Nat) : Prop := ∃ d, some d ∈ ps ∧ d.fd = n

namespace Select

/-- On one of the two lists. -/
def Lists (s : Select) (n : Nat) : Prop :=
  Listed s.fileDescriptorsRead.toList n ∨ Listed s.fileDescriptorsWrite.toList n

/-- The constructor: no pointers, `FD_ZERO` on both sets. -/
def empty : Select := ⟨.empty, .empty, [], []⟩

def addRead (p : Pointer) (s : Select) : Select :=
  { s with fileDescriptorsRead := s.fileDescriptorsRead.add p }

def removeRead (p : Pointer) (s : Select) : Select :=
  { s with fileDescriptorsRead := s.fileDescriptorsRead.remove p }

def addWrite (p : Pointer) (s : Select) : Select :=
  { s with fileDescriptorsWrite := s.fileDescriptorsWrite.add p }

def removeWrite (p : Pointer) (s : Select) : Select :=
  { s with fileDescriptorsWrite := s.fileDescriptorsWrite.remove p }

def readContains (p : Pointer) (s : Select) : Bool := p ∈ s.fileDescriptorsRead

def writeContains (p : Pointer) (s : Select) : Bool := p ∈ s.fileDescriptorsWrite

def canRead (d : FileDescriptor) (s : Select) : Bool := d.fd ∈ s.readSet

def canWrite (d : FileDescriptor) (s : Select) : Bool := d.fd ∈ s.writeSet

/-- The numbers behind a list of pointers; following `NULL` is undefined. -/
def fds (ps : List Pointer) : Option (List Nat) := ps.mapM fun p => p.map (·.fd)

/-- `try_select`, where a set has `size` bits: the sets are filled from the lists and handed to
`::select`, which only clears bits.  On a timeout it clears them all. -/
def trySelect (size : Nat) (call : SelectCall) (s : Select) : Outcome Select Bool :=
  match fds s.fileDescriptorsRead.toList, fds s.fileDescriptorsWrite.toList with
  | some r, some w =>
    if ∀ n ∈ r ++ w, n < size then
      match call with
      | .failed => .thrown { s with readSet := r, writeSet := w }
      | .timeout => .ok false { s with readSet := [], writeSet := [] }
      | .ready r' w' =>
        .ok true { s with readSet := r.filter (· ∈ r'), writeSet := w.filter (· ∈ w') }
    else .fault
  | _, _ => .fault

theorem fds_cons {d : FileDescriptor} {ps : List Pointer} {ns : List Nat} (h : fds ps = some ns) :
    fds (some d :: ps) = some (d.fd :: ns) := by
  rw [fds, List.mapM_cons, ← fds, h]
  rfl

/-- A list without `NULL` has its numbers. -/
theorem exists_fds {ps : List Pointer} (hn : none ∉ ps) : ∃ ns, fds ps = some ns := by
  induction ps with
  | nil => exact ⟨[], rfl⟩
  | cons p ps ih =>
      obtain ⟨d, rfl⟩ := Option.ne_none_iff_exists'.mp fun hp => hn (hp ▸ List.mem_cons_self)
      obtain ⟨ns, hns⟩ := ih fun h => hn (List.mem_cons_of_mem _ h)
      exact ⟨_, fds_cons hns⟩

/-- The numbers of a list. -/
theorem mem_fds {ps : List Pointer} {ns : List Nat} (h : fds ps = some ns) {n : Nat} :
    n ∈ ns ↔ Listed ps n := by
  induction ps generalizing ns with
  | nil =>
      obtain rfl := Option.some.inj h
      simp [Listed]
  | cons p ps ih =>
      cases p with
      | none => cases h
      | some d =>
          cases hm : fds ps with
          | none =>
              rw [fds, List.mapM_cons, ← fds, hm] at h
              cases h
          | some ms =>
              obtain rfl := Option.some.inj ((fds_cons hm).symm.trans h)
              have listed : Listed (some d :: ps) n ↔ n = d.fd ∨ Listed ps n := by
                simp [Listed, or_and_right, exists_or, eq_comm]
              rw [List.mem_cons, ih hm, listed]

/-- What is handed to `FD_SET`. -/
theorem mem_append_fds {s : Select} {r w : List Nat}
    (hr : fds s.fileDescriptorsRead.toList = some r)
    (hw : fds s.fileDescriptorsWrite.toList = some w) {n : Nat} : n ∈ r ++ w ↔ s.Lists n := by
  rw [List.mem_append, mem_fds hr, mem_fds hw]
  rfl

/-- If no list has `NULL`, and there is room for the numbers, `try_select` returns or throws; it
keeps the lists, and a number it reports for reading belongs to an object of the read list. -/
theorem trySelect_sat {size : Nat} (call : SelectCall) {s : Select}
    (hr : none ∉ s.fileDescriptorsRead.toList) (hw : none ∉ s.fileDescriptorsWrite.toList)
    (room : ∀ n, s.Lists n → n < size) :
    (s.trySelect size call).Sat
      (fun _ s' => s'.fileDescriptorsRead = s.fileDescriptorsRead ∧
        s'.fileDescriptorsWrite = s.fileDescriptorsWrite ∧
        ∀ n ∈ s'.readSet, ∃ d, some d ∈ s.fileDescriptorsRead ∧ d.fd = n)
      fun _ => True := by
  obtain ⟨r, hr⟩ := exists_fds hr
  obtain ⟨w, hw⟩ := exists_fds hw
  have small : ∀ n ∈ r ++ w, n < size := fun n hn => room n ((mem_append_fds hr hw).mp hn)
  simp only [trySelect, hr, hw, if_pos small]
  cases call with
  | failed => trivial
  | timeout => exact ⟨rfl, rfl, nofun⟩
  | ready r' w' => exact ⟨rfl, rfl, fun n hn => (mem_fds hr).mp (List.mem_filter.mp hn).1⟩

/-- Without room, `try_select` is undefined. -/
theorem trySelect_fault {size : Nat} (call : SelectCall) {s : Select} {n : Nat} (hn : s.Lists n)
    (beyond : size ≤ n) : s.trySelect size call = .fault := by
  unfold trySelect
  split
  · next r w hr hw =>
      refine if_neg fun room => ?_
      exact Nat.not_lt.mpr beyond (room n ((mem_append_fds hr hw).mpr hn))
  · rfl

/-! ### Membership after an edit -/

section
variable {p q : Pointer} {s : Select}

@[simp] theorem mem_addRead :
    q ∈ (s.addRead p).fileDescriptorsRead ↔ q ∈ s.fileDescriptorsRead ∨ q = p :=
  Roster.mem_add

@[simp] theorem mem_removeRead :
    q ∈ (s.removeRead p).fileDescriptorsRead ↔ q ∈ s.fileDescriptorsRead ∧ q ≠ p :=
  Roster.mem_remove

@[simp] theorem mem_addWrite :
    q ∈ (s.addWrite p).fileDescriptorsWrite ↔ q ∈ s.fileDescriptorsWrite ∨ q = p :=
  Roster.mem_add

@[simp] theorem mem_removeWrite :
    q ∈ (s.removeWrite p).fileDescriptorsWrite ↔ q ∈ s.fileDescriptorsWrite ∧ q ≠ p :=
  Roster.mem_remove

@[simp] theorem addRead_write : (s.addRead p).fileDescriptorsWrite = s.fileDescriptorsWrite := rfl
@[simp] theorem removeRead_write :
    (s.removeRead p).fileDescriptorsWrite = s.fileDescriptorsWrite := rfl
@[simp] theorem addWrite_read : (s.addWrite p).fileDescriptorsRead = s.fileDescriptorsRead := rfl
@[simp] theorem removeWrite_read :
    (s.removeWrite p).fileDescriptorsRead = s.fileDescriptorsRead := rfl

@[simp] theorem addRead_readSet : (s.addRead p).readSet = s.readSet := rfl
@[simp] theorem addRead_writeSet : (s.addRead p).writeSet = s.writeSet := rfl
@[simp] theorem removeRead_readSet : (s.removeRead p).readSet = s.readSet := rfl
@[simp] theorem removeRead_writeSet : (s.removeRead p).writeSet = s.writeSet := rfl
@[simp] theorem addWrite_readSet : (s.addWrite p).readSet = s.readSet := rfl
@[simp] theorem addWrite_writeSet : (s.addWrite p).writeSet = s.writeSet := rfl
@[simp] theorem removeWrite_readSet : (s.removeWrite p).readSet = s.readSet := rfl
@[simp] theorem removeWrite_writeSet : (s.removeWrite p).writeSet = s.writeSet := rfl

end

/-- Both lists forget `p`. -/
def forget (p : Pointer) (s : Select) : Select := (s.removeRead p).removeWrite p

@[simp] theorem mem_forget_read {p q : Pointer} {s : Select} :
    q ∈ (s.forget p).fileDescriptorsRead ↔ q ∈ s.fileDescriptorsRead ∧ q ≠ p :=
  mem_removeRead

@[simp] theorem mem_forget_write {p q : Pointer} {s : Select} :
    q ∈ (s.forget p).fileDescriptorsWrite ↔ q ∈ s.fileDescriptorsWrite ∧ q ≠ p :=
  mem_removeWrite

end Select

/-! ### Who has registered what -/

/-- Registrations: the pointers in the one list and in the other. -/
structure Watch where
  read : Pointer → Prop
  write : Pointer → Prop

namespace Watch

def nothing : Watch := ⟨fun _ => False, fun _ => False⟩

def reading (p : Pointer) : Watch := ⟨(· = p), fun _ => False⟩

def writing (p : Pointer) : Watch := ⟨fun _ => False, (· = p)⟩

def both (p : Pointer) : Watch := ⟨(· = p), (· = p)⟩

/-- What any of several parties has registered. -/
def all (ws : List Watch) : Watch := ⟨fun p => ∃ w ∈ ws, w.read p, fun p => ∃ w ∈ ws, w.write p⟩

/-- `p` is not registered. -/
def Without (w : Watch) (p : Pointer) : Prop := ¬ w.read p ∧ ¬ w.write p

/-- Nothing is registered but objects out of `ds`. -/
def Of (w : Watch) (ds : List FileDescriptor) : Prop :=
  ∀ p, w.read p ∨ w.write p → ∃ d ∈ ds, p = some d

theorem Of.nothing {ds : List FileDescriptor} : Watch.nothing.Of ds := nofun

theorem Of.reading {ds : List FileDescriptor} {d : FileDescriptor} (hd : d ∈ ds) :
    (Watch.reading (some d)).Of ds :=
  fun _ hp => ⟨d, hd, hp.elim id nofun⟩

theorem Of.writing {ds : List FileDescriptor} {d : FileDescriptor} (hd : d ∈ ds) :
    (Watch.writing (some d)).Of ds :=
  fun _ hp => ⟨d, hd, hp.elim nofun id⟩

theorem Of.both {ds : List FileDescriptor} {d : FileDescriptor} (hd : d ∈ ds) :
    (Watch.both (some d)).Of ds :=
  fun _ hp => ⟨d, hd, hp.elim id id⟩

/-- What is registered are objects with identities below `next`, and none of `ds`. -/
def Aloof (w : Watch) (next : Nat) (ds : List FileDescriptor) : Prop :=
  ∀ p, w.read p ∨ w.write p → ∃ d, p = some d ∧ d.id < next ∧ d ∉ ds

theorem Aloof.without {w : Watch} {next : Nat} {ds : List FileDescriptor} {d : FileDescriptor}
    (h : w.Aloof next ds) (hd : d ∈ ds) : w.Without (some d) := by
  have strange : ¬ (w.read (some d) ∨ w.write (some d)) := by
    intro hp
    obtain ⟨d', he, -, hn⟩ := h _ hp
    obtain rfl := Option.some.inj he
    exact hn hd
  exact ⟨fun hp => strange (.inl hp), fun hp => strange (.inr hp)⟩

end Watch

namespace Select

/-- The lists hold what the others registered, and what one connection did. -/
structure Holds (theirs mine : Watch) (s : Select) : Prop where
  read : s.fileDescriptorsRead.Shared theirs.read mine.read
  write : s.fileDescriptorsWrite.Shared theirs.write mine.write

namespace Holds

variable {theirs mine : Watch} {p : Pointer} {s : Select}

theorem congr {mine' : Watch} (h : Holds theirs mine s) (hr : ∀ p, mine'.read p ↔ mine.read p)
    (hw : ∀ p, mine'.write p ↔ mine.write p) : Holds theirs mine' s :=
  ⟨h.read.congr hr, h.write.congr hw⟩

/-- One party out of many, and the rest. -/
theorem focus {xs ys : List Watch} :
    Holds .nothing (.all (xs ++ mine :: ys)) s ↔ Holds (.all (xs ++ ys)) mine s := by
  have split {P : Watch → Prop} (p : Pointer → Prop) (q : Pointer) :
      (p q ↔ False ∨ ∃ w ∈ xs ++ mine :: ys, P w) ↔ (p q ↔ (∃ w ∈ xs ++ ys, P w) ∨ P mine) := by
    simp only [List.mem_append, List.mem_cons, false_or]
    grind
  constructor
  · rintro ⟨hr, hw⟩
    exact ⟨fun p => (split (· ∈ s.fileDescriptorsRead) p).mp (hr p),
      fun p => (split (· ∈ s.fileDescriptorsWrite) p).mp (hw p)⟩
  · rintro ⟨hr, hw⟩
    exact ⟨fun p => (split (· ∈ s.fileDescriptorsRead) p).mpr (hr p),
      fun p => (split (· ∈ s.fileDescriptorsWrite) p).mpr (hw p)⟩

/-- A party that has registered nothing. -/
theorem nothing_iff : Holds mine .nothing s ↔ Holds .nothing mine s :=
  ⟨fun h => ⟨fun p => (h.read p).trans or_comm, fun p => (h.write p).trans or_comm⟩,
    fun h => ⟨fun p => (h.read p).trans or_comm, fun p => (h.write p).trans or_comm⟩⟩

theorem watchRead (h : Holds theirs .nothing s) : Holds theirs (.reading p) (s.addRead p) :=
  ⟨h.read.add fun _ => (iff_of_eq (false_or _)).symm, h.write⟩

theorem watchWrite (h : Holds theirs .nothing s) : Holds theirs (.writing p) (s.addWrite p) :=
  ⟨h.read, h.write.add fun _ => (iff_of_eq (false_or _)).symm⟩

theorem watchBoth (h : Holds theirs .nothing s) :
    Holds theirs (.both p) ((s.addRead p).addWrite p) :=
  ⟨h.read.add fun _ => (iff_of_eq (false_or _)).symm,
    h.write.add fun _ => (iff_of_eq (false_or _)).symm⟩

theorem unwatchRead (h : Holds theirs (.reading p) s) (hp : theirs.Without p) :
    Holds theirs .nothing (s.removeRead p) :=
  ⟨h.read.remove hp.1 fun _ => (and_not_self_iff _).symm, h.write⟩

theorem unwatchWrite (h : Holds theirs (.writing p) s) (hp : theirs.Without p) :
    Holds theirs .nothing (s.removeWrite p) :=
  ⟨h.read, h.write.remove hp.2 fun _ => (and_not_self_iff _).symm⟩

/-- Both lists lose the one pointer that this party has there. -/
theorem forget (h : Holds theirs mine s) (hm : ∀ q, mine.read q ∨ mine.write q → q = p)
    (hp : theirs.Without p) : Holds theirs .nothing (s.forget p) :=
  ⟨h.read.remove hp.1 fun q => ⟨nofun, fun hq => hq.2 (hm q (.inl hq.1))⟩,
    h.write.remove hp.2 fun q => ⟨nofun, fun hq => hq.2 (hm q (.inr hq.1))⟩⟩

theorem unwatchBoth (h : Holds theirs (.both p) s) (hp : theirs.Without p) :
    Holds theirs .nothing (s.forget p) :=
  h.forget (fun _ hq => hq.elim id id) hp

end Holds

end Select

end OldStuff.Io
