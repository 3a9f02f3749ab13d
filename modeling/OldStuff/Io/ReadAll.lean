import OldStuff.Io.Transfer

/-!
# Io — what `read_all` stores

While bytes come, `read_all` puts them one behind the other and returns when it has `count` of them
(`reads_all`).  What goes wrong is what `read` returns otherwise.  For `EAGAIN` that is -1, which
moves the pointer back by one and makes one more byte of what is left (`again_moves_back`): the next
bytes are stored before the buffer, or over what it has already.  At the end of the stream it is 0,
which the loop notices and does nothing about, so it asks again for ever (`never_ends`).  And as in
`write` the result goes through an `int`.
-/

namespace OldStuff.Io
open OldStuff.Lib (Dialogue)

/-- The bytes that have come, in order. -/
def stream (moved : List (Int × Bytes)) : Bytes := moved.flatMap Prod.snd

/-- `::read` stores `bytes` from `buff` on. -/
def store (memory : Int → Option UInt8) (stores : Int × Bytes) : Int → Option UInt8 := fun i =>
  if stores.1 ≤ i ∧ i < stores.1 + stores.2.length then stores.2[(i - stores.1).toNat]?
  else memory i

/-- What has been stored, by the offset from the start of the buffer. -/
def stored (moved : List (Int × Bytes)) : Int → Option UInt8 := moved.foldl store fun _ => none

/-- **`read_all` reads exactly `count` bytes**, given these answers: nothing is stored outside the
buffer; when it returns, the buffer holds what has come, and that are `count` bytes; and if the
stream ends before, it ends. -/
structure ReadsAll (size : Nat) (job : Job Bytes) (count : Nat)
    (answers : ℕ → Answer size Bytes) : Prop where
  sound : ∀ m, (job.run size count answers m).control ≠ .fault
  inside : ∀ m i, stored (job.run size count answers m).moved i ≠ none → 0 ≤ i ∧ i < count
  whole : ∀ m, (job.run size count answers m).control = .returned →
    (stream (job.run size count answers m).moved).length = count ∧
      ∀ i : Nat, i < count → stored (job.run size count answers m).moved i =
        (stream (job.run size count answers m).moved)[i]?
  ends : ∀ m k errno, (job.transfer size).asks (job.run size count answers m) = some k →
    answers m = .moved (.done [] errno) →
      ∃ m', (job.transfer size).Ended (job.run size count answers m')

/-- Bytes come, no more than an `int` can count, or `::read` is interrupted or fails for good. -/
def Flows {size : Nat} : Answer size Bytes → Prop
  | .moved (.done bytes _) => bytes ≠ [] ∧ bytes.length < 2 ^ 31
  | .moved (.failed .eagain) => False
  | _ => True

/-! ### While bytes come -/

/-- The first `n` bytes of the stream have come, and are stored in the buffer and nowhere else. -/
structure Filled (moved : List (Int × Bytes)) (n : Nat) : Prop where
  length : (stream moved).length = n
  stored : ∀ i, stored moved i = cell (stream moved) i

theorem Filled.empty : Filled [] 0 := ⟨rfl, fun i => by simp [Io.stored, stream, cell]⟩

theorem stream_concat (moved : List (Int × Bytes)) (buff : Int) (bytes : Bytes) :
    stream (moved ++ [(buff, bytes)]) = stream moved ++ bytes := by
  simp [stream]

theorem Filled.more {moved : List (Int × Bytes)} {n : Nat} (h : Filled moved n) (bytes : Bytes) :
    Filled (moved ++ [((n : Int), bytes)]) (n + bytes.length) := by
  refine ⟨by rw [stream_concat, List.length_append, h.length], fun i => ?_⟩
  have last : Io.stored (moved ++ [((n : Int), bytes)]) i =
      if (n : Int) ≤ i ∧ i < n + bytes.length then bytes[(i - n).toNat]?
      else cell (stream moved) i := by
    rw [Io.stored, List.foldl_concat, store, ← Io.stored, h.stored]
  rw [last, stream_concat]
  by_cases hi : 0 ≤ i
  · obtain ⟨j, rfl⟩ := Int.eq_ofNat_of_zero_le hi
    rw [cell_natCast, cell_natCast]
    split
    · next hj =>
        rw [List.getElem?_append_right (by have := h.length; omega), h.length]
        congr 1
        omega
    · next hj =>
        by_cases hjn : j < n
        · rw [List.getElem?_append_left (by rw [h.length]; exact hjn)]
        · have past : n + bytes.length ≤ j := by omega
          rw [List.getElem?_eq_none (by rw [h.length]; omega), List.getElem?_eq_none
            (by rw [List.length_append, h.length]; exact past)]
  · rw [if_neg (by omega), cell, cell, if_neg hi, if_neg hi]

section
variable {size : Nat} {abi : Abi} {socket : FileDescriptor} {timeout : Int} {count : Nat}
  {answers : ℕ → Answer size Bytes}

theorem Flows.regular {k : Call size} {a : Answer size Bytes} (h : Flows a)
    (hf : (reading abi socket timeout).Fits k a) :
    (reading abi socket timeout).Regular count k a := by
  refine ⟨hf, .inr ?_, fun e => ?_⟩
  · cases a with
    | selected a => trivial
    | moved m =>
        cases m with
        | done bytes errno => exact h.2
        | failed errno => trivial
  · subst e
    exact h.elim

/-- **`read_all` is right** in every run in which, as long as it reads, bytes come. -/
theorem reads_all (abi : Abi) (socket : FileDescriptor) (timeout : Int) (size count : Nat)
    (hc : count < 2 ^ (8 * abi.longBytes)) (hs : count ≠ 0 → timeout ≠ 0 → socket.fd < size)
    (answers : ℕ → Answer size Bytes)
    (h : ((reading abi socket timeout).transfer size).Answered
      (fun k a => (reading abi socket timeout).Fits k a ∧ Flows a)
      ((reading abi socket timeout).start size count) answers) :
    ReadsAll size (reading abi socket timeout) count answers := by
  have run (m : ℕ) : ∃ n, Job.Progress count Filled n
      ((reading abi socket timeout).run size count answers m) :=
    Job.progress_run (h.mono fun k a ha => ha.2.regular ha.1) hc hs Filled.empty
      (fun _ _ bytes filled _ => filled.more bytes) m
  refine ⟨fun m => ?_, fun m i hi => ?_, fun m hr => ?_, fun m k errno hk he => ?_⟩
  · obtain ⟨n, hp⟩ := run m
    exact hp.ne_fault
  · obtain ⟨n, hp⟩ := run m
    have := hp.le
    rw [hp.moved.stored, cell] at hi
    split at hi
    · have inside : ¬ (stream _).length ≤ i.toNat := fun hl => hi (List.getElem?_eq_none hl)
      rw [hp.moved.length] at inside
      omega
    · exact absurd rfl hi
  · obtain ⟨n, hp⟩ := run m
    refine ⟨hp.moved.length.trans (hp.all hr), fun i _ => ?_⟩
    rw [hp.moved.stored, cell_natCast]
  · have flows := (h m k hk).2
    rw [he] at flows
    exact absurd rfl flows.1

/-! ### When none come -/

/-- **`EAGAIN` moves the pointer back**, and there is one byte more to read. -/
theorem again_moves_back {t : Task size Bytes} (ht : t.control = .moving)
    (hc : t.count + 1 < 2 ^ (8 * abi.longBytes)) :
    ((reading abi socket timeout).transfer size).resume t (.moved (.failed .eagain)) =
      (reading abi socket timeout).loop
        { t with count := t.count + 1, buff := t.buff - 1 } := by
  have turn : (reading abi socket timeout).Turn t (.move t.buff t.count)
      (.moved (.failed .eagain)) _ :=
    Job.resume_turn (Job.asks_moving _ ht) trivial trivial
  generalize ((reading abi socket timeout).transfer size).resume t (.moved (.failed .eagain)) = t'
    at turn ⊢
  cases turn
  have one : (((t.count : Int) - -1) % (reading abi socket timeout).sizes).toNat = t.count + 1 := by
    have room : t.count + 1 < (reading abi socket timeout).sizes := hc
    rw [Int.emod_eq_of_lt (by omega) (by omega)]
    omega
  have back : (reading abi socket timeout).wouldBlock = -1 := rfl
  rw [Job.advance, back, one, ← Int.sub_eq_add_neg]

/-- **At the end of the stream it goes on asking**, if there is no timeout. -/
theorem never_ends (abi : Abi) (socket : FileDescriptor) (size : Nat) (h0 : count ≠ 0)
    (hc : count < 2 ^ (8 * abi.longBytes)) (errno : Errno) (m : ℕ) :
    ((reading abi socket 0).run size count (fun _ => .moved (.done [] errno)) m).control =
        .moving ∧
      ((reading abi socket 0).run size count (fun _ => .moved (.done [] errno)) m).count =
        count := by
  have entered : (reading abi socket 0).enter size = .moving := Job.enter_of_zero rfl
  induction m with
  | zero => exact ⟨(Job.loop_pos h0).trans entered, rfl⟩
  | succ m ih =>
      obtain ⟨moving, left⟩ := ih
      have asks := Job.asks_moving (reading abi socket 0) moving
      have turn := Job.resume_turn (a := .moved (.done [] errno)) asks
        ⟨Nat.zero_le _, Nat.two_pow_pos _⟩ (Nat.two_pow_pos 31)
      rw [Job.run_succ asks]
      generalize (reading abi socket 0).run size count _ m = t at moving left asks turn ⊢
      generalize ((reading abi socket 0).transfer size).resume t _ = t' at turn ⊢
      cases turn
      have still : (reading abi socket 0).advance ((reading abi socket 0).length [])
          { t with moved := t.moved ++ [(t.buff, [])] } = _ :=
        Job.advance_le (Nat.zero_le _) (left ▸ hc)
      rw [still]
      exact ⟨(Job.loop_pos (left ▸ h0)).trans entered, left⟩

end

/-- Three bytes, in two reads. -/
theorem three_bytes_read :
    ReadsAll 1024 (reading .littleEndian ⟨0, 3, ⟨0, 0⟩⟩ 0) 3
      (Dialogue.cons (.moved (.done [1, 2] .other)) (Dialogue.cons (.moved (.done [3] .other))
        fun _ => .selected .failed)) := by
  refine reads_all .littleEndian ⟨0, 3, ⟨0, 0⟩⟩ 0 1024 3 (by decide) (fun _ h => absurd rfl h) _
    (.cons ?_ (.cons ?_ (.of_ended rfl)))
  · rintro k hk
    obtain rfl := Option.some.inj hk
    exact ⟨⟨by decide, by decide⟩, nofun, by decide⟩
  · rintro k hk
    obtain rfl := Option.some.inj hk
    exact ⟨⟨by decide, by decide⟩, nofun, by decide⟩

/-- One byte is wanted, without a timeout.  At the end of the stream `read_all` does not end; and
if the byte is not there at first, and two are when it is asked for again, one of them is stored
before the buffer. -/
theorem one_byte_not_read :
    (∃ answers, ((reading .littleEndian ⟨0, 3, ⟨0, 0⟩⟩ 0).transfer 1024).Answered
        (reading .littleEndian ⟨0, 3, ⟨0, 0⟩⟩ 0).Fits
        ((reading .littleEndian ⟨0, 3, ⟨0, 0⟩⟩ 0).start 1024 1) answers ∧
      ¬ ReadsAll 1024 (reading .littleEndian ⟨0, 3, ⟨0, 0⟩⟩ 0) 1 answers) ∧
    ∃ answers, ((reading .littleEndian ⟨0, 3, ⟨0, 0⟩⟩ 0).transfer 1024).Answered
        (reading .littleEndian ⟨0, 3, ⟨0, 0⟩⟩ 0).Fits
        ((reading .littleEndian ⟨0, 3, ⟨0, 0⟩⟩ 0).start 1024 1) answers ∧
      stored ((reading .littleEndian ⟨0, 3, ⟨0, 0⟩⟩ 0).run 1024 1 answers 2).moved (-1) =
        some 7 := by
  have run := never_ends .littleEndian ⟨0, 3, ⟨0, 0⟩⟩ 1024 Nat.one_ne_zero (by decide) .other
  constructor
  · refine ⟨fun _ => .moved (.done [] .other), fun m k hk => ?_, fun h => ?_⟩
    · have asks := Job.asks_moving (reading .littleEndian ⟨0, 3, ⟨0, 0⟩⟩ 0) (run m).1
      obtain rfl := Option.some.inj (asks.symm.trans hk)
      exact ⟨Nat.zero_le _, by decide⟩
    · obtain ⟨m, ended⟩ := h.ends 0 _ .other (Job.asks_moving _ (run 0).1) rfl
      rw [Dialogue.Ended, Job.asks_moving _ (run m).1] at ended
      cases ended
  · refine ⟨Dialogue.cons (.moved (.failed .eagain)) (Dialogue.cons (.moved (.done [7, 8] .other))
      fun _ => .moved (.failed .other)), .cons ?_ (.cons ?_ (.of_ended rfl)), rfl⟩
    · rintro k hk
      obtain rfl := Option.some.inj hk
      trivial
    · rintro k hk
      obtain rfl := Option.some.inj hk
      exact ⟨by decide, by decide⟩

end OldStuff.Io
