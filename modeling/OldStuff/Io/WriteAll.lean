import OldStuff.Io.Transfer

/-!
# Io — what `write_all` hands over

Nothing that a socket does to `write_all` makes it skip a byte or repeat one: after a short write it
goes on behind what was taken, and `EAGAIN` comes back as 0 and `EINTR` is tried again where it was
(`writes_all`).  It throws when a call fails, and not otherwise.

One thing goes wrong, and only on a machine where a `size_t` is wider than an `int`: `write` keeps
the result of `::write` in an `int`.  If 2 GB are taken at once that is a negative number, so the
branch for failures is taken and looks at an `errno` that nobody has set (`overflow_throws`).  And
with a timeout `::select` must have a bit for the socket.  `writes_all_iff` says that there is
nothing else.
-/

namespace OldStuff.Io
open OldStuff.Lib (Dialogue)

/-- The bytes that the system calls have taken, each from where the pointer was. -/
def handed (data : Bytes) (moved : List (Int × Nat)) : List (Option UInt8) :=
  moved.flatMap fun (buff, n) => (List.range n).map fun (i : Nat) => cell data (buff + i)

/-- What `::write` answers: something is taken, or it fails. -/
def Accepts (job : Job Nat) {size : Nat} (k : Call size) (a : Answer size Nat) : Prop :=
  job.Fits k a ∧ ∀ n errno, a = .moved (.done n errno) → 1 ≤ n

/-- **`write_all` writes exactly the buffer**, given these answers: the bytes taken are the first
of the buffer, each once and in order, and all of them when it returns; and it throws if a call
fails before the last byte, and then only. -/
structure WritesAll (size : Nat) (job : Job Nat) (data : Bytes)
    (answers : ℕ → Answer size Nat) : Prop where
  sound : ∀ m, (job.run size data.length answers m).control ≠ .fault
  order : ∀ m, handed data (job.run size data.length answers m).moved <+: data.map some
  whole : ∀ m, (job.run size data.length answers m).control = .returned →
    handed data (job.run size data.length answers m).moved = data.map some
  throws : (∃ m, (job.run size data.length answers m).control = .thrown) ↔
    ∃ m k, (job.transfer size).asks (job.run size data.length answers m) = some k ∧
      Fails (answers m) ∧
        (handed data (job.run size data.length answers m).moved).length < data.length

/-! ### What has been taken -/

/-- Bytes from inside the buffer. -/
theorem cells_eq {data : Bytes} {k n : Nat} (h : k + n ≤ data.length) :
    ((List.range n).map fun (i : Nat) => cell data ((k : Int) + i)) =
      ((data.drop k).take n).map some := by
  refine List.ext_getElem? fun i => ?_
  by_cases hi : i < n
  · have inside : k + i < data.length := by omega
    have here : cell data ((k : Int) + i) = data[k + i]? := by
      rw [← Nat.cast_add, cell_natCast]
    rw [List.getElem?_map, List.getElem?_map, List.getElem?_range hi, List.getElem?_take_of_lt hi,
      List.getElem?_drop, Option.map_some, here, List.getElem?_eq_getElem inside]
    rfl
  · have past : n ≤ i := Nat.le_of_not_lt hi
    rw [List.getElem?_eq_none (by simpa using past), List.getElem?_eq_none (by simp; omega)]

/-- The bytes taken are the first `n` of the buffer. -/
def Took (data : Bytes) (moved : List (Int × Nat)) (n : Nat) : Prop :=
  handed data moved = (data.take n).map some

theorem Took.more {data : Bytes} {moved : List (Int × Nat)} {k n : Nat} (h : Took data moved k)
    (hn : k + n ≤ data.length) : Took data (moved ++ [((k : Int), n)]) (k + n) := by
  have next : handed data (moved ++ [((k : Int), n)]) =
      handed data moved ++ (List.range n).map fun (i : Nat) => cell data ((k : Int) + i) := by
    simp [handed]
  rw [Took, next, h, cells_eq hn, ← List.map_append, ← List.take_add]

section
variable {size : Nat} {abi : Abi} {socket : FileDescriptor} {timeout : Int} {data : Bytes}
  {answers : ℕ → Answer size Nat}

/-- **A run of `write_all`**: some first bytes of the buffer have been taken. -/
theorem writing_run
    (h : ((writing abi socket timeout).transfer size).Answered
      ((writing abi socket timeout).Regular data.length)
      ((writing abi socket timeout).start size data.length) answers)
    (hd : data.length < 2 ^ (8 * abi.longBytes))
    (hs : data.length ≠ 0 → (writing abi socket timeout).Startable size) (m : ℕ) :
    ∃ n, Job.Progress data.length (Took data) n
      ((writing abi socket timeout).run size data.length answers m) :=
  Job.progress_run h hd hs rfl (fun _ _ _ took room => took.more room) m

theorem Took.length {moved : List (Int × Nat)} {n : Nat} (h : Took data moved n)
    (hn : n ≤ data.length) : (handed data moved).length = n := by
  rw [h, List.length_map, List.length_take, Nat.min_eq_left hn]

/-- **`write_all` is right** while the results of `::write` fit an `int` and the socket has its bit
in the sets of `::select`. -/
theorem writes_all
    (h : ((writing abi socket timeout).transfer size).Answered
      ((writing abi socket timeout).Regular data.length)
      ((writing abi socket timeout).start size data.length) answers)
    (hd : data.length < 2 ^ (8 * abi.longBytes))
    (hs : data.length ≠ 0 → (writing abi socket timeout).Startable size) :
    WritesAll size (writing abi socket timeout) data answers := by
  have run := writing_run h hd hs
  refine ⟨fun m => ?_, fun m => ?_, fun m hr => ?_, (Job.thrown_run h run).trans ?_⟩
  · obtain ⟨n, hp⟩ := run m
    exact hp.ne_fault
  · obtain ⟨n, hp⟩ := run m
    rw [show handed data _ = _ from hp.moved]
    exact (List.take_prefix n data).map some
  · obtain ⟨n, hp⟩ := run m
    rw [show handed data _ = _ from hp.moved, hp.all hr, List.take_length]
  · refine exists_congr fun m => exists_congr fun k => and_congr_right fun hk => ?_
    obtain ⟨n, hp⟩ := run m
    rw [hp.moved.length hp.le]
    exact (and_iff_left (hp.lt (Job.waits_of_asks hk))).symm

/-- Where no more than 2 GB can be taken, the answers of `::write` give a regular run. -/
theorem Accepts.regular {k : Call size} {a : Answer size Nat}
    (h : Accepts (writing abi socket timeout) k a)
    (hl : abi.longBytes = 4 ∨ data.length < 2 ^ 31) :
    (writing abi socket timeout).Regular data.length k a := by
  refine ⟨h.1, hl.symm.imp_right fun h4 => ?_, fun _ => rfl⟩
  cases a with
  | selected a => trivial
  | moved m =>
      cases m with
      | failed errno => trivial
      | done n errno =>
          cases k with
          | select call => exact h.1.elim
          | move buff count =>
              have result : n < 2 ^ (8 * abi.longBytes - 1) := h.1.2
              rwa [h4] at result

/-! ### 2 GB at once -/

/-- 2 GB are taken, and `errno` has what an earlier call has left there. -/
def twoGigabytes (size : Nat) : Answer size Nat := .moved (.done (2 ^ 31) .other)

/-- The `int` is negative. -/
theorem overflow_throws {t : Task size Nat} (ht : t.control = .moving) :
    (((writing abi socket timeout).transfer size).resume t (twoGigabytes size)).control =
      .thrown := by
  have negative : verdict 0 ((2 ^ 31 : Nat) : Int) .other = .throws := by decide
  obtain ⟨control, buff, count, moved⟩ := t
  obtain rfl : control = .moving := ht
  simp only [Job.transfer, twoGigabytes, writing, id, negative, Job.judge]

/-- A task in `::write` that is given 2 GB throws, and takes no more answers. -/
theorem overflow (socket : FileDescriptor) (timeout : Int) {t : Task size Nat}
    (ht : t.control = .moving) (hc : 2 ^ 31 ≤ t.count) (h8 : abi.longBytes = 8)
    (rest : ℕ → Answer size Nat) :
    ((writing abi socket timeout).transfer size).Answered (Accepts (writing abi socket timeout)) t
        (Dialogue.cons (twoGigabytes size) rest) ∧
      (((writing abi socket timeout).transfer size).after t
        (Dialogue.cons (twoGigabytes size) rest) 1).control = .thrown := by
  have asks := Job.asks_moving (writing abi socket timeout) ht
  have thrown : (((writing abi socket timeout).transfer size).offer t
      (twoGigabytes size)).control = .thrown := by
    rw [Dialogue.offer_of_asks asks]
    exact overflow_throws ht
  refine ⟨.cons (fun k hk => ?_) (.of_ended (Job.ended_of_not_waits ?_)), thrown⟩
  · obtain rfl := Option.some.inj (asks.symm.trans hk)
    refine ⟨⟨hc, ?_⟩, fun n errno e => ?_⟩
    · have bytes : (writing abi socket timeout).abi.longBytes = 8 := h8
      have room : 2 ^ 31 < 2 ^ (8 * 8 - 1) := by decide
      rw [bytes]
      exact room
    · cases e
      decide
  · rw [thrown]
    exact id

/-- To throw where nothing has failed. -/
theorem not_writes_all_of_thrown {m : ℕ} (ha : ∀ m, ¬ Fails (answers m))
    (ht : ((writing abi socket timeout).run size data.length answers m).control = .thrown) :
    ¬ WritesAll size (writing abi socket timeout) data answers := by
  intro h
  obtain ⟨m, -, -, failed, -⟩ := h.throws.mp ⟨m, ht⟩
  exact ha m failed

theorem exists_overflow (hd : 2 ^ 31 ≤ data.length) (h8 : abi.longBytes = 8)
    (hs : (writing abi socket timeout).Startable size) :
    ∃ answers, ((writing abi socket timeout).transfer size).Answered
        (Accepts (writing abi socket timeout))
        ((writing abi socket timeout).start size data.length) answers ∧
      ¬ WritesAll size (writing abi socket timeout) data answers := by
  let job := writing abi socket timeout
  let start : Task size Nat := job.start size data.length
  have going : data.length ≠ 0 := by omega
  have entered : start.control = job.enter size := Job.loop_pos going
  by_cases ht : timeout = 0
  · have moving : start.control = .moving := entered.trans (Job.enter_of_zero ht)
    obtain ⟨answered, thrown⟩ := overflow socket timeout moving hd h8 fun _ => twoGigabytes size
    refine ⟨_, answered, not_writes_all_of_thrown (m := 1) (fun m => ?_) thrown⟩
    cases m <;> exact id
  · obtain ⟨call, hc⟩ := Job.enter_selecting ht (hs ht)
    have selecting : start.control = .selecting call := entered.trans hc
    have asks := Job.asks_selecting job selecting
    have ready : (job.transfer size).offer start (.selected (.done 1 .zero .zero)) =
        { start with control := .moving } := by
      rw [Dialogue.offer_of_asks asks]
      exact Job.resume_ready selecting 0 .zero .zero
    obtain ⟨answered, thrown⟩ := overflow socket timeout (t := { start with control := .moving })
      rfl hd h8 fun _ => twoGigabytes size
    refine ⟨Dialogue.cons (.selected (.done 1 .zero .zero))
      (Dialogue.cons (twoGigabytes size) fun _ => twoGigabytes size), .cons (fun k hk => ?_) ?_,
      not_writes_all_of_thrown (m := 2) (fun m => ?_) ?_⟩
    · obtain rfl := Option.some.inj (asks.symm.trans hk)
      exact ⟨trivial, nofun⟩
    · rw [ready]
      exact answered
    · rcases m with - | - | m <;> exact id
    · rw [Job.run, Dialogue.after_cons, ready]
      exact thrown

/-- Without a bit for the socket `write` is undefined from its start. -/
theorem not_writes_all_of_fault (hd : data ≠ [])
    (hs : ¬ (writing abi socket timeout).Startable size) (answers : ℕ → Answer size Nat) :
    ((writing abi socket timeout).transfer size).Answered (Accepts (writing abi socket timeout))
        ((writing abi socket timeout).start size data.length) answers ∧
      ¬ WritesAll size (writing abi socket timeout) data answers := by
  have going : data.length ≠ 0 := fun e => hd (List.length_eq_zero_iff.mp e)
  have fault : ((writing abi socket timeout).start size data.length).control = .fault :=
    (Job.loop_pos going).trans (Job.enter_fault hs)
  refine ⟨.of_ended (Job.ended_of_not_waits ?_), fun h => h.sound 0 fault⟩
  rw [fault]
  exact id

end

/-- **When `write_all` writes exactly the buffer.**  Whatever the socket does, it does so, if an
`fd_set` has a bit for the socket or there is no timeout, and if the buffer has less than 2 GB or
`size_t` is no wider than `int`; otherwise there are answers with which it does not.  Nothing is
asked of an empty buffer. -/
theorem writes_all_iff (abi : Abi) (socket : FileDescriptor) (timeout : Int) (size : Nat)
    (data : Bytes) (hd : data.length < 2 ^ (8 * abi.longBytes)) :
    (∀ answers, ((writing abi socket timeout).transfer size).Answered
        (Accepts (writing abi socket timeout))
        ((writing abi socket timeout).start size data.length) answers →
      WritesAll size (writing abi socket timeout) data answers) ↔
    (data ≠ [] → (timeout ≠ 0 → socket.fd < size) ∧
      (abi.longBytes = 4 ∨ data.length < 2 ^ 31)) := by
  constructor
  · intro h going
    by_contra hn
    by_cases hs : (writing abi socket timeout).Startable size
    · have wide : ¬ (abi.longBytes = 4 ∨ data.length < 2 ^ 31) := fun hl => hn ⟨hs, hl⟩
      obtain ⟨w4, w31⟩ := not_or.mp wide
      obtain ⟨answers, answered, bad⟩ := exists_overflow (Nat.le_of_not_lt w31)
        (abi.long.resolve_left w4) hs
      exact bad (h answers answered)
    · obtain ⟨answered, bad⟩ := not_writes_all_of_fault going hs fun _ => twoGigabytes size
      exact bad (h _ answered)
  · intro h answers answered
    by_cases going : data = []
    · subst going
      exact writes_all (answered.mono fun k a ha => ha.regular (.inr (by decide))) hd
        fun e => absurd rfl e
    · obtain ⟨hs, hl⟩ := h going
      exact writes_all (answered.mono fun k a ha => ha.regular hl) hd fun _ => hs

/-- Three bytes, with a timeout. -/
theorem three_bytes_written :
    (∀ answers, ((writing .littleEndian ⟨0, 3, ⟨0, 0⟩⟩ 5).transfer 1024).Answered
        (Accepts (writing .littleEndian ⟨0, 3, ⟨0, 0⟩⟩ 5))
        ((writing .littleEndian ⟨0, 3, ⟨0, 0⟩⟩ 5).start 1024 3) answers →
      WritesAll 1024 (writing .littleEndian ⟨0, 3, ⟨0, 0⟩⟩ 5) [1, 2, 3] answers) ↔
    (([1, 2, 3] : Bytes) ≠ [] → ((5 : Int) ≠ 0 → 3 < 1024) ∧ (8 = 4 ∨ 3 < 2 ^ 31)) :=
  writes_all_iff .littleEndian ⟨0, 3, ⟨0, 0⟩⟩ 5 1024 [1, 2, 3] (by decide)

/-- 2 GB on a 64-bit machine, without a timeout: `::write` takes them all at once, and `write_all`
throws. -/
theorem two_gigabytes_not_written :
    ∃ answers, ((writing .littleEndian ⟨0, 3, ⟨0, 0⟩⟩ 0).transfer 1024).Answered
        (Accepts (writing .littleEndian ⟨0, 3, ⟨0, 0⟩⟩ 0))
        ((writing .littleEndian ⟨0, 3, ⟨0, 0⟩⟩ 0).start 1024
          (List.replicate (2 ^ 31) (0 : UInt8)).length) answers ∧
      ¬ WritesAll 1024 (writing .littleEndian ⟨0, 3, ⟨0, 0⟩⟩ 0) (List.replicate (2 ^ 31) 0)
        answers :=
  exists_overflow (Nat.le_of_eq List.length_replicate.symm) rfl fun h => absurd rfl h

end OldStuff.Io
