import OldStuff.Io.Edits

/-!
# Io — `read_all` and `write_all`

`read_all` and `write_all` are one loop, around `io::socket::read` and around `io::socket::write`,
and these differ in the system call and in what they return for `EAGAIN`: -1 or 0.  A `Job` says
which of the two it is and for what socket.

The loop is a dialogue.  It waits in `::select` if there is a timeout, then in the system call, and
each answer takes it to its next call or to its end.  `buff` is how far the pointer has been moved,
`count` is a `size_t`, and the result of the system call goes through an `int` (`verdict`).  Besides
the variables of the source a `Task` keeps what the system calls have moved, and where.

`Turn` lists all that an answer can do, and `resume_turn` is the one place where the definitions are
taken apart.
-/

namespace OldStuff.Io
open OldStuff.Lib (Dialogue)

/-- `errno`, as far as it is looked at. -/
inductive Errno where
  | eagain
  | eintr
  | other

/-- What `::read` or `::write` answers: what it moved, with whatever is in `errno` then; or -1. -/
inductive Moved (π : Type) where
  | done (what : π) (errno : Errno)
  | failed (errno : Errno)

/-- How one round of the inner loop ends: with a value for the caller, in another round, or by a
throw. -/
inductive Verdict where
  | returns (r : Int)
  | again
  | throws
  deriving DecidableEq

/-- The rest of the round after the system call: its result is assigned to an `int`. -/
def verdict (wouldBlock result : Int) (errno : Errno) : Verdict :=
  let r := result.bmod (2 ^ 32)
  if r < 0 then
    match errno with
    | .eagain => .returns wouldBlock
    | .eintr => .again
    | .other => .throws
  else .returns r

/-- Where the loop is. -/
inductive Control (size : Nat) where
  | selecting (call : SelectArgs size)
  | moving
  | returned
  | thrown
  | fault

/-- The loop's variables, and for each successful system call where the pointer was and what has
been moved. -/
structure Task (size : Nat) (π : Type) where
  control : Control size
  buff : Int
  count : Nat
  moved : List (Int × π)

/-- The call that the loop waits in. -/
inductive Call (size : Nat) where
  | select (call : SelectArgs size)
  | move (buff : Int) (count : Nat)

/-- An answer to one of its calls. -/
inductive Answer (size : Nat) (π : Type) where
  | selected (a : Selected size)
  | moved (m : Moved π)

/-- One of the two functions, for one socket: the list of `io::select` the socket is put on, the
number of bytes in a result, and what is returned for `EAGAIN`. -/
structure Job (π : Type) where
  abi : Abi
  socket : FileDescriptor
  timeout : Int
  side : Side
  length : π → Nat
  wouldBlock : Int

/-- `io::socket::read`; a result is the bytes it has stored. -/
def reading (abi : Abi) (socket : FileDescriptor) (timeout : Int) : Job Bytes :=
  ⟨abi, socket, timeout, .read, List.length, -1⟩

/-- `io::socket::write`; a result is the number of bytes it has taken. -/
def writing (abi : Abi) (socket : FileDescriptor) (timeout : Int) : Job Nat :=
  ⟨abi, socket, timeout, .write, id, 0⟩

namespace Job

variable {π : Type} {size : Nat}

/-- `size_t` has as many values. -/
def sizes (job : Job π) : Nat := 2 ^ (8 * job.abi.longBytes)

/-- The entry of `read` or `write`. -/
def enter (size : Nat) (job : Job π) : Control size :=
  if job.timeout ≠ 0 then
    match (edited [⟨job.side, true, some job.socket⟩]).trying size with
    | .selecting call => .selecting call
    | _ => .fault
  else .moving

/-- The head of the loop: `while(count)`. -/
def loop (job : Job π) (t : Task size π) : Task size π :=
  { t with control := if t.count = 0 then .returned else job.enter size }

/-- The body of the loop, for the result `r`, and the head again. -/
def advance (job : Job π) (r : Int) (t : Task size π) : Task size π :=
  job.loop { t with
    count := (((t.count : Int) - r) % job.sizes).toNat
    buff := t.buff + r }

/-- What the function does with the answer of its system call. -/
def judge (job : Job π) (t : Task size π) : Verdict → Task size π
  | .returns r => job.advance r t
  | .again => t
  | .throws => { t with control := .thrown }

/-- The loop as a dialogue. -/
def transfer (size : Nat) (job : Job π) : Dialogue (Task size π) (Call size) (Answer size π) where
  asks t :=
    match t.control with
    | .selecting call => some (.select call)
    | .moving => some (.move t.buff t.count)
    | _ => none
  resume t a :=
    match t.control, a with
    | .selecting call, .selected a =>
      match (Select.trySelectCalls size).resume (.selecting call) a with
      | .selecting call => { t with control := .selecting call }
      | .returned true _ _ => { t with control := .moving }
      | .returned false _ _ => { t with control := .thrown }
      | .thrown _ _ => { t with control := .thrown }
      | .fault => { t with control := .fault }
    | .moving, .moved (.done what errno) =>
      job.judge { t with moved := t.moved ++ [(t.buff, what)] }
        (verdict job.wouldBlock (job.length what) errno)
    | .moving, .moved (.failed errno) => job.judge t (verdict job.wouldBlock (-1) errno)
    | _, _ => t

/-- The function, called for `count` bytes. -/
def start (size : Nat) (job : Job π) (count : Nat) : Task size π :=
  job.loop ⟨.moving, 0, count, []⟩

/-- What the calls admit: `::select` and the system call get answers of their own, and no more is
moved than was asked for and than a `ssize_t` can say. -/
def Fits (job : Job π) : Call size → Answer size π → Prop
  | .select _, .selected _ => True
  | .move _ count, .moved (.done what _) =>
    job.length what ≤ count ∧ job.length what < 2 ^ (8 * job.abi.longBytes - 1)
  | .move _ _, .moved (.failed _) => True
  | _, _ => False

/-- The result of a system call fits an `int`. -/
def Small (job : Job π) : Answer size π → Prop
  | .moved (.done what _) => job.length what < 2 ^ 31
  | _ => True

/-- `::select` has no bit for the socket, and it is called. -/
def Startable (size : Nat) (job : Job π) : Prop := job.timeout ≠ 0 → job.socket.fd < size

end Job

/-- A timeout of `::select`, or an error of one of the calls that is not for another try. -/
def Fails {size : Nat} {π : Type} : Answer size π → Prop
  | .selected (.done 0 _ _) | .selected .failed | .moved (.failed .other) => True
  | _ => False

/-- In one of its calls. -/
def Control.Waits {size : Nat} : Control size → Prop
  | .selecting _ | .moving => True
  | _ => False

/-- The byte at an offset from the start of the buffer; none outside it. -/
def cell (data : Bytes) (i : Int) : Option UInt8 := if 0 ≤ i then data[i.toNat]? else none

@[simp] theorem cell_natCast (data : Bytes) (i : Nat) : cell data i = data[i]? := by
  simp [cell]

/-! ### What an answer does -/

theorem verdict_small {n : Nat} (h : n < 2 ^ 31) (wouldBlock : Int) (errno : Errno) :
    verdict wouldBlock n errno = .returns n := by
  have same : (n : Int).bmod (2 ^ 32) = n := Int.bmod_eq_of_le (by omega) (by omega)
  unfold verdict
  rw [same]
  exact if_neg (Int.not_lt.mpr (Int.natCast_nonneg n))

theorem verdict_failed (wouldBlock : Int) (errno : Errno) :
    verdict wouldBlock (-1) errno =
      match errno with
      | .eagain => .returns wouldBlock
      | .eintr => .again
      | .other => .throws := by
  have same : (-1 : Int).bmod (2 ^ 32) = -1 := by decide
  unfold verdict
  rw [same]
  exact if_pos (by decide)

namespace Job

variable {π : Type} {size : Nat} {job : Job π} {t : Task size π} {k : Call size}
  {a : Answer size π}

/-- What an answer `a` to the call `k` makes of the task `t`. -/
inductive Turn (job : Job π) (t : Task size π) :
    Call size → Answer size π → Task size π → Prop where
  | selected {call : SelectArgs size} {a : Answer size π} {c : Control size} (hc : c.Waits)
      (ha : ¬ Fails a) : Turn job t (.select call) a { t with control := c }
  | unselected {call : SelectArgs size} {a : Answer size π} (ha : Fails a) :
      Turn job t (.select call) a { t with control := .thrown }
  | done (what : π) (errno : Errno) :
      Turn job t (.move t.buff t.count) (.moved (.done what errno))
        (job.advance (job.length what) { t with moved := t.moved ++ [(t.buff, what)] })
  | interrupted : Turn job t (.move t.buff t.count) (.moved (.failed .eintr)) t
  | blocked :
      Turn job t (.move t.buff t.count) (.moved (.failed .eagain)) (job.advance job.wouldBlock t)
  | failed :
      Turn job t (.move t.buff t.count) (.moved (.failed .other)) { t with control := .thrown }

/-- **A step**: while the results fit an `int`, an answer does one of six things. -/
theorem resume_turn (hk : (job.transfer size).asks t = some k) (hf : job.Fits k a)
    (hs : job.Small a) : job.Turn t k a ((job.transfer size).resume t a) := by
  obtain ⟨control, buff, count, moved⟩ := t
  cases control with
  | selecting call =>
      obtain rfl := Option.some.inj hk
      cases a with
      | moved m => exact hf.elim
      | selected a =>
          cases a with
          | done ret r w =>
              cases ret with
              | zero => exact .unselected trivial
              | succ ret => exact .selected trivial id
          | interrupted => exact .selected trivial id
          | failed => exact .unselected trivial
  | moving =>
      obtain rfl := Option.some.inj hk
      cases a with
      | selected a => exact hf.elim
      | moved m =>
          cases m with
          | done what errno =>
              have small := verdict_small hs job.wouldBlock errno
              simp only [transfer, small]
              exact .done what errno
          | failed errno =>
              have failed := verdict_failed job.wouldBlock errno
              simp only [transfer, failed]
              cases errno with
              | eagain => exact .blocked
              | eintr => exact .interrupted
              | other => exact .failed
  | returned => cases hk
  | thrown => cases hk
  | fault => cases hk

/-- A task that waits is in a call. -/
theorem asks_iff : (∃ k, (job.transfer size).asks t = some k) ↔ t.control.Waits := by
  obtain ⟨control, buff, count, moved⟩ := t
  cases control <;> simp [transfer, Control.Waits]

theorem waits_of_asks (h : (job.transfer size).asks t = some k) : t.control.Waits :=
  asks_iff.mp ⟨k, h⟩

theorem asks_moving (job : Job π) (h : t.control = .moving) :
    (job.transfer size).asks t = some (.move t.buff t.count) := by
  simp [transfer, h]

theorem asks_selecting (job : Job π) {call : SelectArgs size} (h : t.control = .selecting call) :
    (job.transfer size).asks t = some (.select call) := by
  simp [transfer, h]

/-- `::select` finds the socket ready. -/
theorem resume_ready {call : SelectArgs size} (h : t.control = .selecting call) (n : Nat)
    (readSet writeSet : FdSet size) :
    (job.transfer size).resume t (.selected (.done (n + 1) readSet writeSet)) =
      { t with control := .moving } := by
  simp [transfer, h, Select.trySelectCalls]

theorem ended_of_not_waits (h : ¬ t.control.Waits) : (job.transfer size).Ended t := by
  by_contra hk
  exact h (asks_iff.mp (Option.ne_none_iff_exists'.mp hk))

/-- Where something has been moved, it was asked for. -/
theorem room_of_fits {what : π} {errno : Errno} (hk : (job.transfer size).asks t = some k)
    (hf : job.Fits k (.moved (.done what errno))) : job.length what ≤ t.count := by
  obtain ⟨control, buff, count, moved⟩ := t
  cases control with
  | selecting call =>
      obtain rfl := Option.some.inj hk
      exact hf.elim
  | moving =>
      obtain rfl := Option.some.inj hk
      exact hf.1
  | returned => cases hk
  | thrown => cases hk
  | fault => cases hk

/-! ### The loop's two ends -/

theorem enter_of_zero (h : job.timeout = 0) : job.enter size = .moving :=
  if_neg (not_not_intro h)

theorem enter_selecting (ht : job.timeout ≠ 0) (h : job.socket.fd < size) :
    ∃ call, job.enter size = .selecting call := by
  obtain ⟨ho, one⟩ := edited_single job.side job.socket
  obtain ⟨call, hp⟩ := Select.exists_prepare_iff.mpr ⟨ho, fun n hn => (one n).mp hn ▸ h⟩
  exact ⟨call, by rw [enter, if_pos ht, Select.trying, hp]⟩

/-- The entry comes to its first call if the socket has a bit or needs none. -/
theorem enter_waits (h : job.Startable size) : (job.enter size).Waits := by
  by_cases ht : job.timeout = 0
  · rw [enter_of_zero ht]
    trivial
  · obtain ⟨call, hc⟩ := enter_selecting ht (h ht)
    rw [hc]
    trivial

/-- Otherwise what it does is undefined. -/
theorem enter_fault (h : ¬ job.Startable size) : job.enter size = .fault := by
  obtain ⟨ht, hfd⟩ := Classical.not_imp.mp h
  obtain ⟨ho, one⟩ := edited_single job.side job.socket
  have stuck : (edited [⟨job.side, true, some job.socket⟩]).prepare =
      (none : Option (SelectArgs size)) := by
    by_contra hp
    obtain ⟨call, hp⟩ := Option.ne_none_iff_exists'.mp hp
    exact hfd ((Select.names_of_prepare hp).2.1 _ ((one _).mpr rfl))
  rw [enter, if_pos ht, Select.trying, stuck]

theorem enter_ne_thrown : job.enter size ≠ .thrown := by
  by_cases h : job.Startable size
  · intro e
    have waits := enter_waits h
    rw [e] at waits
    exact waits
  · rw [enter_fault h]
    nofun

theorem loop_zero (h : t.count = 0) : (job.loop t).control = .returned := if_pos h

theorem loop_pos (h : t.count ≠ 0) : (job.loop t).control = job.enter size := if_neg h

/-- At the head of the loop it is over, or in a call with bytes to go. -/
theorem loop_cases (h : t.count ≠ 0 → job.Startable size) :
    (job.loop t).control = .returned ∧ t.count = 0 ∨
      (job.loop t).control.Waits ∧ t.count ≠ 0 := by
  by_cases hc : t.count = 0
  · exact .inl ⟨loop_zero hc, hc⟩
  · rw [loop_pos hc]
    exact .inr ⟨enter_waits (h hc), hc⟩

theorem loop_ne_thrown : (job.loop t).control ≠ .thrown := by
  by_cases hc : t.count = 0
  · rw [loop_zero hc]
    nofun
  · rw [loop_pos hc]
    exact enter_ne_thrown

/-- An answer makes the task throw if it is a failure, and then only. -/
theorem Turn.thrown_iff {t' : Task size π} (turn : job.Turn t k a t') (hw : t.control.Waits) :
    t'.control = .thrown ↔ Fails a := by
  cases turn with
  | @selected _ _ c hc ha =>
      refine iff_of_false (fun e => ?_) ha
      rw [show c = .thrown from e] at hc
      exact hc
  | unselected ha => exact iff_of_true rfl ha
  | done what errno => exact iff_of_false loop_ne_thrown id
  | interrupted =>
      refine iff_of_false (fun e => ?_) id
      rw [e] at hw
      exact hw
  | blocked => exact iff_of_false loop_ne_thrown id
  | failed => exact iff_of_true rfl trivial

/-! ### How far it has come -/

/-- Within what is left the subtraction does not wrap. -/
theorem advance_le {n : Nat} (hn : n ≤ t.count) (hc : t.count < job.sizes) :
    job.advance n t = job.loop { t with count := t.count - n, buff := t.buff + n } := by
  have left : (((t.count : Int) - n) % job.sizes).toNat = t.count - n := by
    rw [Int.emod_eq_of_lt (by omega) (by omega)]
    omega
  rw [advance, left]

/-- `k` of `total` bytes have been moved, and `G` says in what way; the loop is at its end if they
are all, and before that it is in a call or has thrown. -/
structure Progress (total : Nat) (G : List (Int × π) → Nat → Prop) (k : Nat) (t : Task size π) :
    Prop where
  buff : t.buff = k
  count : k + t.count = total
  moved : G t.moved k
  control : t.control = .returned ∧ t.count = 0 ∨
    (t.control.Waits ∨ t.control = .thrown) ∧ t.count ≠ 0

section
variable {total : Nat} {G : List (Int × π) → Nat → Prop} {n : Nat}

theorem Progress.ne_fault (hp : Progress total G n t) : t.control ≠ .fault := by
  intro e
  rcases hp.control with ⟨hc, -⟩ | ⟨hc | hc, -⟩ <;> rw [e] at hc
  · cases hc
  · exact hc
  · cases hc

/-- When it returns, all has been moved. -/
theorem Progress.all (hp : Progress total G n t) (hr : t.control = .returned) : n = total := by
  rcases hp.control with ⟨-, hc⟩ | ⟨hc | hc, -⟩
  · have := hp.count
    omega
  · rw [hr] at hc
    exact hc.elim
  · rw [hr] at hc
    cases hc

/-- In a call there is something left. -/
theorem Progress.lt (hp : Progress total G n t) (hw : t.control.Waits) : n < total := by
  rcases hp.control with ⟨hc, -⟩ | ⟨-, hc⟩
  · rw [hc] at hw
    exact hw.elim
  · have := hp.count
    omega

theorem Progress.le (hp : Progress total G n t) : n ≤ total := hp.count ▸ Nat.le_add_right _ _

theorem Progress.loop (hb : t.buff = n) (hc : n + t.count = total) (hm : G t.moved n)
    (hs : total ≠ 0 → job.Startable size) : Progress total G n (job.loop t) := by
  have going : t.count ≠ 0 → job.Startable size := fun h => hs fun e => h (by omega)
  refine ⟨hb, hc, hm, ?_⟩
  rcases loop_cases going with done | waits
  · exact .inl done
  · exact .inr ⟨.inl waits.1, waits.2⟩

/-- **A step.**  `grows` is what one more system call adds to what has been moved. -/
theorem Progress.turn {t' : Task size π} (hp : Progress total G n t) (turn : job.Turn t k a t')
    (hw : t.control.Waits) (hf : job.Fits k a) (ht : total < job.sizes)
    (hs : total ≠ 0 → job.Startable size)
    (hb : a = .moved (.failed .eagain) → job.wouldBlock = 0)
    (grows : ∀ what, job.length what ≤ t.count → G (t.moved ++ [((n : Int), what)])
      (n + job.length what)) : ∃ n', Progress total G n' t' := by
  have small : t.count < job.sizes := Nat.lt_of_le_of_lt (hp.count ▸ Nat.le_add_left _ _) ht
  have pos : t.count ≠ 0 := by
    have left := hp.lt hw
    have := hp.count
    omega
  cases turn with
  | selected hc ha => exact ⟨n, hp.buff, hp.count, hp.moved, .inr ⟨.inl hc, pos⟩⟩
  | unselected ha => exact ⟨n, hp.buff, hp.count, hp.moved, .inr ⟨.inr rfl, pos⟩⟩
  | done what errno =>
      have room : job.length what ≤ t.count := hf.1
      refine ⟨n + job.length what, ?_⟩
      rw [advance_le (t := { t with moved := t.moved ++ [(t.buff, what)] }) room small]
      refine .loop ?_ ?_ ?_ hs
      · simp [hp.buff]
      · have := hp.count
        dsimp only
        omega
      · rw [hp.buff]
        exact grows what room
  | interrupted => exact ⟨n, hp⟩
  | blocked =>
      have still : job.advance job.wouldBlock t = job.advance ((0 : Nat) : Int) t := by
        rw [hb rfl]
        rfl
      rw [still, advance_le (Nat.zero_le _) small]
      exact ⟨n, .loop (by simp [hp.buff]) hp.count hp.moved hs⟩
  | failed => exact ⟨n, hp.buff, hp.count, hp.moved, .inr ⟨.inr rfl, pos⟩⟩

/-- The answers that a run is told with: they fit, results fit an `int`, and `EAGAIN` comes only
where it is returned as 0. -/
structure Regular (job : Job π) (total : Nat) (k : Call size) (a : Answer size π) : Prop where
  fits : job.Fits k a
  small : total < 2 ^ 31 ∨ job.Small a
  block : a = .moved (.failed .eagain) → job.wouldBlock = 0

/-- A result is not above what was asked for, and that is at most the whole. -/
theorem Regular.turn (h : job.Regular total k a) (hp : Progress total G n t)
    (hk : (job.transfer size).asks t = some k) :
    job.Turn t k a ((job.transfer size).resume t a) := by
  refine resume_turn hk h.fits (h.small.elim (fun ht => ?_) id)
  cases a with
  | selected a => trivial
  | moved m =>
      cases m with
      | failed errno => trivial
      | done what errno =>
          have room : job.length what ≤ t.count := room_of_fits hk h.fits
          have := hp.count
          exact Nat.lt_of_le_of_lt room (by omega)

/-- The task after `m` answers. -/
def run (size : Nat) (job : Job π) (total : Nat) (answers : ℕ → Answer size π) (m : ℕ) :
    Task size π :=
  (job.transfer size).after (job.start size total) answers m

theorem run_succ {answers : ℕ → Answer size π} {m : ℕ}
    (hk : (job.transfer size).asks (job.run size total answers m) = some k) :
    job.run size total answers (m + 1) =
      (job.transfer size).resume (job.run size total answers m) (answers m) :=
  Dialogue.offer_of_asks hk

theorem run_succ_of_ended {answers : ℕ → Answer size π} {m : ℕ}
    (hk : (job.transfer size).Ended (job.run size total answers m)) :
    job.run size total answers (m + 1) = job.run size total answers m :=
  Dialogue.offer_of_ended hk

/-- **A run** of the loop never loses count. -/
theorem progress_run {answers : ℕ → Answer size π}
    (h : (job.transfer size).Answered (job.Regular total) (job.start size total) answers)
    (ht : total < job.sizes) (hs : total ≠ 0 → job.Startable size) (hG : G [] 0)
    (grows : ∀ moved n what, G moved n → n + job.length what ≤ total →
      G (moved ++ [((n : Int), what)]) (n + job.length what)) (m : ℕ) :
    ∃ n, Progress total G n (job.run size total answers m) := by
  refine h.invariant (fun t => ∃ n, Progress total G n t)
    ⟨0, .loop rfl (Nat.zero_add total) hG hs⟩ ?_ m
  rintro t k a ⟨n, hp⟩ hk regular
  refine hp.turn (regular.turn hp hk) (waits_of_asks hk) regular.fits ht hs regular.block
    fun what hl => ?_
  exact grows _ n what hp.moved (hp.count ▸ Nat.add_le_add_left hl n)

/-- **It throws** after a failure, and without one it does not. -/
theorem thrown_run {answers : ℕ → Answer size π}
    (h : (job.transfer size).Answered (job.Regular total) (job.start size total) answers)
    (hp : ∀ m, ∃ n, Progress total G n (job.run size total answers m)) :
    (∃ m, (job.run size total answers m).control = .thrown) ↔
      ∃ m k, (job.transfer size).asks (job.run size total answers m) = some k ∧
        Fails (answers m) := by
  have next (m : ℕ) (k : Call size)
      (hk : (job.transfer size).asks (job.run size total answers m) = some k) :
      (job.run size total answers (m + 1)).control = .thrown ↔ Fails (answers m) := by
    obtain ⟨n, hn⟩ := hp m
    rw [run_succ hk]
    exact ((h m k hk).turn hn hk).thrown_iff (waits_of_asks hk)
  constructor
  · rintro ⟨m, ht⟩
    induction m with
    | zero => exact absurd ht loop_ne_thrown
    | succ m ih =>
        cases hk : (job.transfer size).asks (job.run size total answers m) with
        | none => exact ih (by rwa [run_succ_of_ended hk] at ht)
        | some k => exact ⟨m, k, hk, (next m k hk).mp ht⟩
  · rintro ⟨m, k, hk, ha⟩
    exact ⟨m + 1, (next m k hk).mpr ha⟩

end

end Job

end OldStuff.Io
