import OldStuff.Io.Select
import OldStuff.Lib.Dialogue

/-!
# Io — the calls of `try_select`

`Select.trySelect` tells how the function ends.  Here are the calls of `::select` that it makes on
the way, with their arguments; the two are undefined for the same lists (`trying_eq_fault_iff`) and
come to the same ends (`calls_refine`).

An `fd_set` has `FD_SETSIZE` bits, and that number is fixed when the program is compiled.  `FD_SET`
does not compare: to set a bit that the set does not have is undefined, and `try_select` has no
check of its own.  So it comes to a call if every listed pointer is an object with a number below
`FD_SETSIZE` (`exists_prepare_iff`), and what it hands over then depends on which objects are listed
and not on the order of the lists (`prepare_congr`).
-/

namespace OldStuff.Io
open OldStuff.Lib (Dialogue Outcome)

/-- `fd_set`, for `size` the `FD_SETSIZE` of the platform. -/
@[ext] structure FdSet (size : Nat) where
  bits : Fin size → Bool

namespace FdSet

variable {size : Nat}

/-- `FD_ZERO`. -/
def zero : FdSet size := ⟨fun _ => false⟩

/-- `FD_SET`; undefined for a number beyond the set. -/
def set (fd : Nat) (s : FdSet size) : Option (FdSet size) :=
  if h : fd < size then some ⟨Function.update s.bits ⟨fd, h⟩ true⟩ else none

/-- `FD_ISSET`. -/
instance : Membership Nat (FdSet size) := ⟨fun s n => ∃ h : n < size, s.bits ⟨n, h⟩ = true⟩

instance (n : Nat) (s : FdSet size) : Decidable (n ∈ s) :=
  inferInstanceAs (Decidable (∃ h : n < size, s.bits ⟨n, h⟩ = true))

/-- The numbers whose bits are set. -/
def numbers (s : FdSet size) : List Nat := (List.range size).filter (· ∈ s)

theorem mem_def {n : Nat} {s : FdSet size} : n ∈ s ↔ ∃ h : n < size, s.bits ⟨n, h⟩ = true := Iff.rfl

@[simp] theorem not_mem_zero (n : Nat) : n ∉ (zero : FdSet size) := nofun

theorem mem_set {n fd : Nat} {s s' : FdSet size} (h : s.set fd = some s') :
    n ∈ s' ↔ n ∈ s ∨ n = fd := by
  unfold set at h
  split at h
  · next hfd =>
      obtain rfl := Option.some.inj h
      by_cases hn : n = fd
      · subst hn
        simp [mem_def, hfd]
      · simp [mem_def, Function.update, hn]
  · cases h

@[simp] theorem mem_numbers {n : Nat} {s : FdSet size} : n ∈ s.numbers ↔ n ∈ s := by
  rw [numbers, List.mem_filter, decide_eq_true_iff, List.mem_range]
  exact and_iff_right_of_imp fun h => h.1

theorem set_eq_none_iff {fd : Nat} {s : FdSet size} : s.set fd = none ↔ size ≤ fd := by
  rw [set, dite_eq_right_iff, ← Nat.not_lt]
  exact ⟨fun h hfd => Option.some_ne_none _ (h hfd), fun h hfd => absurd hfd h⟩

theorem ext_mem {s s' : FdSet size} (h : ∀ n, n ∈ s ↔ n ∈ s') : s = s' := by
  ext i
  have bit := h i
  simp only [mem_def, i.isLt, exists_true_left] at bit
  exact Bool.eq_iff_iff.mpr bit

end FdSet

/-- What `::select` is called with. -/
@[ext] structure SelectArgs (size : Nat) where
  nfds : Int
  readSet : FdSet size
  writeSet : FdSet size

/-- What `::select` answers: the number of ready descriptors with the sets that it leaves, 0 after
a timeout; or a failure, by `EINTR` or by another error, which leaves the sets unchanged. -/
inductive Selected (size : Nat) where
  | done (ret : Nat) (readSet writeSet : FdSet size)
  | interrupted
  | failed

/-- Where `try_select` is: in a call, or at its end with the sets as they are then. -/
inductive Trying (size : Nat) where
  | selecting (call : SelectArgs size)
  | returned (b : Bool) (readSet writeSet : FdSet size)
  | thrown (readSet writeSet : FdSet size)
  | fault

namespace Select

variable {size : Nat}

/-- The loop over one list: the number of each object is set, and `high_fd` is the greatest so
far. -/
def fill : List Pointer → FdSet size → Int → Option (FdSet size × Int)
  | [], set, highFd => some (set, highFd)
  | none :: _, _, _ => none
  | some d :: rest, set, highFd =>
    match set.set d.fd with
    | none => none
    | some set => fill rest set (if (d.fd : Int) > highFd then d.fd else highFd)

/-- `try_select` up to `::select`. -/
def prepare (s : Select) : Option (SelectArgs size) :=
  (fill s.fileDescriptorsRead.toList .zero (-1)).bind fun (readSet, highFd) =>
    (fill s.fileDescriptorsWrite.toList .zero highFd).map fun (writeSet, highFd) =>
      ⟨highFd + 1, readSet, writeSet⟩

/-- `try_select` in its first call. -/
def trying (size : Nat) (s : Select) : Trying size :=
  match s.prepare with
  | none => .fault
  | some call => .selecting call

/-- The loop of `try_select`: after `EINTR` the same call is made again. -/
def trySelectCalls (size : Nat) : Dialogue (Trying size) (SelectArgs size) (Selected size) where
  asks
    | .selecting call => some call
    | _ => none
  resume
    | .selecting _, .done 0 readSet writeSet => .returned false readSet writeSet
    | .selecting _, .done (_ + 1) readSet writeSet => .returned true readSet writeSet
    | .selecting call, .interrupted => .selecting call
    | .selecting call, .failed => .thrown call.readSet call.writeSet
    | t, _ => t

/-! ### What the loops fill in -/

theorem fill_cons {d : FileDescriptor} {rest : List Pointer} {set set' : FdSet size} {highFd : Int}
    (h : set.set d.fd = some set') :
    fill (some d :: rest) set highFd =
      fill rest set' (if (d.fd : Int) > highFd then d.fd else highFd) := by
  rw [fill, h]

/-- The list can be gone through. -/
theorem exists_fill {ps : List Pointer} (hn : none ∉ ps) (hl : ∀ n, Listed ps n → n < size)
    (set : FdSet size) (highFd : Int) :
    ∃ set' highFd', fill ps set highFd = some (set', highFd') := by
  induction ps generalizing set highFd with
  | nil => exact ⟨set, highFd, rfl⟩
  | cons p rest ih =>
      obtain ⟨d, rfl⟩ := Option.ne_none_iff_exists'.mp fun hp => hn (hp ▸ List.mem_cons_self)
      cases hs : set.set d.fd with
      | none =>
          have small := hl d.fd ⟨d, List.mem_cons_self, rfl⟩
          exact absurd (FdSet.set_eq_none_iff.mp hs) (Nat.not_le.mpr small)
      | some set' =>
          rw [fill_cons hs]
          exact ih (fun h => hn (List.mem_cons_of_mem _ h))
            (fun n ⟨d', hd, e⟩ => hl n ⟨d', List.mem_cons_of_mem _ hd, e⟩) set' _

/-- **What one loop does**: the listed numbers are set besides those that were, and `high_fd` is
the greatest of them and of what it was. -/
theorem fill_spec {ps : List Pointer} {set set' : FdSet size} {highFd highFd' : Int}
    (h : fill ps set highFd = some (set', highFd')) :
    none ∉ ps ∧ (∀ n, Listed ps n → n < size) ∧ (∀ n, n ∈ set' ↔ n ∈ set ∨ Listed ps n) ∧
      highFd ≤ highFd' ∧ (∀ n, Listed ps n → n ≤ highFd') ∧
      (highFd' = highFd ∨ ∃ n, Listed ps n ∧ highFd' = n) := by
  induction ps generalizing set highFd with
  | nil =>
      obtain ⟨rfl, rfl⟩ := Prod.mk.inj (Option.some.inj h)
      simp [Listed]
  | cons p rest ih =>
      cases p with
      | none => cases h
      | some d =>
          cases hs : set.set d.fd with
          | none =>
              rw [fill, hs] at h
              cases h
          | some set₁ =>
              rw [fill_cons hs] at h
              obtain ⟨hn, hl, hm, high, above, reached⟩ := ih h
              have small : d.fd < size := by
                by_contra hd
                rw [FdSet.set_eq_none_iff.mpr (Nat.le_of_not_lt hd)] at hs
                cases hs
              have listed (n : Nat) : Listed (some d :: rest) n ↔ n = d.fd ∨ Listed rest n := by
                simp [Listed, or_and_right, exists_or, eq_comm]
              refine ⟨?_, ?_, ?_, ?_, ?_, ?_⟩
              · simpa using hn
              · intro n hn
                rcases (listed n).mp hn with rfl | hn
                · exact small
                · exact hl n hn
              · intro n
                rw [hm, FdSet.mem_set hs, listed, or_assoc]
              · split at high <;> omega
              · intro n hn
                rcases (listed n).mp hn with rfl | hn
                · split at high <;> omega
                · exact above n hn
              · rcases reached with hr | ⟨n, hn, hr⟩
                · split at hr
                  · exact .inr ⟨d.fd, (listed _).mpr (.inl rfl), hr⟩
                  · exact .inl hr
                · exact .inr ⟨n, (listed n).mpr (.inr hn), hr⟩

/-- Neither list has `NULL`: each of its pointers is an object with its descriptor open. -/
structure Open (s : Select) : Prop where
  read : none ∉ s.fileDescriptorsRead.toList
  write : none ∉ s.fileDescriptorsWrite.toList

/-- The arguments name what is listed: the numbers of each list are the elements of its set, and
`nfds` is one above the greatest of all, and 0 if there is none. -/
structure Names (s : Select) (call : SelectArgs size) : Prop where
  read : ∀ n, n ∈ call.readSet ↔ Listed s.fileDescriptorsRead.toList n
  write : ∀ n, n ∈ call.writeSet ↔ Listed s.fileDescriptorsWrite.toList n
  above : ∀ n, s.Lists n → (n : Int) < call.nfds
  least : (∀ n, ¬ s.Lists n) ∧ call.nfds = 0 ∨ ∃ n, s.Lists n ∧ call.nfds = n + 1

theorem names_of_prepare {s : Select} {call : SelectArgs size} (h : s.prepare = some call) :
    s.Open ∧ (∀ n, s.Lists n → n < size) ∧ s.Names call := by
  obtain ⟨⟨readSet, high⟩, hr, h⟩ := Option.bind_eq_some_iff.mp h
  obtain ⟨⟨writeSet, high'⟩, hw, rfl⟩ := Option.map_eq_some_iff.mp h
  obtain ⟨rn, rl, rm, rhigh, rabove, rreached⟩ := fill_spec hr
  obtain ⟨wn, wl, wm, whigh, wabove, wreached⟩ := fill_spec hw
  refine ⟨⟨rn, wn⟩, fun n hn => hn.elim (rl n) (wl n), ⟨?_, ?_, ?_, ?_⟩⟩
  · intro n
    rw [rm, or_iff_right (FdSet.not_mem_zero n)]
  · intro n
    rw [wm, or_iff_right (FdSet.not_mem_zero n)]
  · rintro n (hn | hn)
    · have := rabove n hn
      dsimp only
      omega
    · have := wabove n hn
      dsimp only
      omega
  · rcases wreached with hw | ⟨n, hn, hw⟩
    · rcases rreached with hr | ⟨n, hn, hr⟩
      · refine .inl ⟨?_, by dsimp only; omega⟩
        rintro n (hn | hn)
        · have := rabove n hn
          omega
        · have := wabove n hn
          omega
      · exact .inr ⟨n, .inl hn, by dsimp only; omega⟩
    · exact .inr ⟨n, .inr hn, by dsimp only; omega⟩

/-- **`try_select` comes to its call** if the listed pointers are objects and their numbers are
below `FD_SETSIZE`. -/
theorem exists_prepare_iff {s : Select} :
    (∃ call : SelectArgs size, s.prepare = some call) ↔
      s.Open ∧ ∀ n, s.Lists n → n < size := by
  constructor
  · rintro ⟨call, h⟩
    exact ⟨(names_of_prepare h).1, (names_of_prepare h).2.1⟩
  · rintro ⟨ho, hl⟩
    obtain ⟨readSet, high, hr⟩ := exists_fill ho.read (fun n hn => hl n (.inl hn)) .zero (-1)
    obtain ⟨writeSet, high', hw⟩ := exists_fill ho.write (fun n hn => hl n (.inr hn)) .zero high
    exact ⟨⟨high' + 1, readSet, writeSet⟩,
      Option.bind_eq_some_iff.mpr ⟨_, hr, Option.map_eq_some_iff.mpr ⟨_, hw, rfl⟩⟩⟩

/-- What is listed determines the arguments. -/
theorem Names.unique {s : Select} {call call' : SelectArgs size} (h : s.Names call)
    (h' : s.Names call') : call = call' := by
  refine SelectArgs.ext ?_ (FdSet.ext_mem fun n => (h.read n).trans (h'.read n).symm)
    (FdSet.ext_mem fun n => (h.write n).trans (h'.write n).symm)
  rcases h.least with ⟨empty, e⟩ | ⟨n, hn, e⟩ <;> rcases h'.least with ⟨empty', e'⟩ | ⟨n', hn', e'⟩
  · rw [e, e']
  · exact absurd hn' (empty n')
  · exact absurd hn (empty' n)
  · have := h.above n' hn'
    have := h'.above n hn
    omega

/-- The same pointers in another order give the same call. -/
theorem prepare_congr {s s' : Select}
    (hr : ∀ p, p ∈ s.fileDescriptorsRead ↔ p ∈ s'.fileDescriptorsRead)
    (hw : ∀ p, p ∈ s.fileDescriptorsWrite ↔ p ∈ s'.fileDescriptorsWrite) :
    (s.prepare : Option (SelectArgs size)) = s'.prepare := by
  have read (n : Nat) : Listed s.fileDescriptorsRead.toList n ↔
      Listed s'.fileDescriptorsRead.toList n :=
    exists_congr fun d => and_congr_left fun _ => hr (some d)
  have write (n : Nat) : Listed s.fileDescriptorsWrite.toList n ↔
      Listed s'.fileDescriptorsWrite.toList n :=
    exists_congr fun d => and_congr_left fun _ => hw (some d)
  have lists (n : Nat) : s.Lists n ↔ s'.Lists n := or_congr (read n) (write n)
  have both : (∃ call : SelectArgs size, s.prepare = some call) ↔
      ∃ call : SelectArgs size, s'.prepare = some call := by
    rw [exists_prepare_iff, exists_prepare_iff]
    refine and_congr ⟨fun h => ⟨?_, ?_⟩, fun h => ⟨?_, ?_⟩⟩ (forall_congr' fun n => by rw [lists])
    · exact fun hn => h.read ((hr none).mpr hn)
    · exact fun hn => h.write ((hw none).mpr hn)
    · exact fun hn => h.read ((hr none).mp hn)
    · exact fun hn => h.write ((hw none).mp hn)
  cases h : (s.prepare : Option (SelectArgs size)) with
  | none =>
      cases h' : (s'.prepare : Option (SelectArgs size)) with
      | none => rfl
      | some call =>
          obtain ⟨_, hc⟩ := both.mpr ⟨call, h'⟩
          rw [h] at hc
          cases hc
  | some call =>
      obtain ⟨call', h'⟩ := both.mp ⟨call, h⟩
      have names := (names_of_prepare h).2.2
      have names' := (names_of_prepare h').2.2
      have same : s.Names call' :=
        ⟨fun n => (names'.read n).trans (read n).symm,
          fun n => (names'.write n).trans (write n).symm,
          fun n hn => names'.above n ((lists n).mp hn), by simpa only [lists] using names'.least⟩
      rw [h', names.unique same]

/-! ### The calls -/

variable {s : Select} {answers : ℕ → Selected size}

theorem asks_selecting {t : Trying size} {call : SelectArgs size}
    (h : (trySelectCalls size).asks t = some call) : t = .selecting call := by
  cases t with
  | selecting call' => exact congrArg Trying.selecting (Option.some.inj h)
  | returned b r w => cases h
  | thrown r w => cases h
  | fault => cases h

/-- The calls of `try_select` for one sequence of answers: it makes one, and one more after each
`EINTR`, and each names exactly what is listed. -/
structure CallsNamed (size : Nat) (s : Select) (answers : ℕ → Selected size) : Prop where
  again : ∀ n, (∀ i < n, answers i = .interrupted) →
    ∃ call, (trySelectCalls size).asks ((trySelectCalls size).after (s.trying size) answers n) =
      some call
  named : ∀ n call,
    (trySelectCalls size).asks ((trySelectCalls size).after (s.trying size) answers n) = some call →
      s.Names call

/-- **A step**: while it waits, `try_select` waits in its first call. -/
theorem resume_selecting {call call' : SelectArgs size} {a : Selected size}
    (h : (trySelectCalls size).resume (.selecting call) a = .selecting call') :
    call' = call := by
  cases a with
  | done ret r w => cases ret <;> cases h
  | interrupted => exact (Trying.selecting.inj h).symm
  | failed => cases h

/-- **A run**: every call is the first one over again. -/
theorem after_selecting {call call' : SelectArgs size} (hp : s.prepare = some call) {n : ℕ}
    (h : (trySelectCalls size).after (s.trying size) answers n = .selecting call') :
    call' = call := by
  have any : (trySelectCalls size).Answered (fun _ _ => True) (s.trying size) answers :=
    .of_forall fun _ _ => trivial
  refine any.invariant (fun t => ∀ call', t = .selecting call' → call' = call) ?_ ?_ n call' h
  · intro call' h
    rw [trying, hp] at h
    exact (Trying.selecting.inj h).symm
  · intro t k a ih hk _ call' h
    obtain rfl := asks_selecting hk
    rw [resume_selecting h]
    exact ih k rfl

theorem after_interrupted {call : SelectArgs size} (hp : s.prepare = some call) {n : ℕ}
    (h : ∀ i < n, answers i = .interrupted) :
    (trySelectCalls size).after (s.trying size) answers n = .selecting call := by
  induction n with
  | zero =>
      rw [Dialogue.after_zero, trying, hp]
  | succ n ih =>
      rw [Dialogue.after_succ, ih fun i hi => h i (Nat.lt_succ_of_lt hi), h n (Nat.lt_succ_self n)]
      rfl

/-- **The calls name what is listed** if all of it is below `FD_SETSIZE`, and then only. -/
theorem callsNamed_iff (ho : s.Open) :
    (∀ answers, s.CallsNamed size answers) ↔ ∀ n, s.Lists n → n < size := by
  constructor
  · intro h
    obtain ⟨call, hc⟩ := (h fun _ => .interrupted).again 0 nofun
    cases hp : (s.prepare : Option (SelectArgs size)) with
    | none =>
        rw [Dialogue.after_zero, trying, hp] at hc
        cases hc
    | some call => exact (names_of_prepare hp).2.1
  · intro hl answers
    obtain ⟨call, hp⟩ := exists_prepare_iff.mpr ⟨ho, hl⟩
    refine ⟨fun n hi => ⟨call, ?_⟩, fun n call' hc => ?_⟩
    · rw [after_interrupted hp hi]
      rfl
    · obtain rfl := after_selecting hp (asks_selecting hc)
      exact (names_of_prepare hp).2.2

/-! ### The end of the calls -/

/-- What `::select` does to the sets of its call: it clears bits, and on a timeout all of them. -/
def Clears (call : SelectArgs size) : Selected size → Prop
  | .done ret readSet writeSet =>
    (∀ n ∈ readSet, n ∈ call.readSet) ∧ (∀ n ∈ writeSet, n ∈ call.writeSet) ∧
      (ret = 0 → readSet = .zero ∧ writeSet = .zero)
  | _ => True

/-- The same end, with the sets as bits and as numbers. -/
def Shows : Trying size → Outcome Select Bool → Prop
  | .returned b readSet writeSet, .ok b' s =>
    b = b' ∧ (∀ n, n ∈ readSet ↔ n ∈ s.readSet) ∧ ∀ n, n ∈ writeSet ↔ n ∈ s.writeSet
  | .thrown readSet writeSet, .thrown s =>
    (∀ n, n ∈ readSet ↔ n ∈ s.readSet) ∧ ∀ n, n ∈ writeSet ↔ n ∈ s.writeSet
  | _, _ => False

/-- Where `try_select` ends after an answer, `Select.trySelect` ends for an answer of the kind. -/
theorem resume_shows {call : SelectArgs size} (hp : s.prepare = some call) {a : Selected size}
    (ha : Clears call a) :
    a = .interrupted ∨
      ∃ c, Shows ((trySelectCalls size).resume (.selecting call) a) (s.trySelect size c) := by
  obtain ⟨ho, room, names⟩ := names_of_prepare hp
  obtain ⟨rs, hr⟩ := exists_fds ho.read
  obtain ⟨ws, hw⟩ := exists_fds ho.write
  have small : ∀ n ∈ rs ++ ws, n < size := fun n hn => room n ((mem_append_fds hr hw).mp hn)
  have read (n : Nat) : n ∈ call.readSet ↔ n ∈ rs := (names.read n).trans (mem_fds hr).symm
  have write (n : Nat) : n ∈ call.writeSet ↔ n ∈ ws := (names.write n).trans (mem_fds hw).symm
  cases a with
  | interrupted => exact .inl rfl
  | failed =>
      refine .inr ⟨.failed, ?_⟩
      simp only [trySelect, hr, hw, if_pos small]
      exact ⟨read, write⟩
  | done ret readSet writeSet =>
      obtain ⟨kr, kw, timeout⟩ := ha
      cases ret with
      | zero =>
          obtain ⟨rfl, rfl⟩ := timeout rfl
          refine .inr ⟨.timeout, ?_⟩
          simp only [trySelect, hr, hw, if_pos small]
          exact ⟨rfl, by simp, by simp⟩
      | succ ret =>
          refine .inr ⟨.ready readSet.numbers writeSet.numbers, ?_⟩
          simp only [trySelect, hr, hw, if_pos small]
          refine ⟨rfl, fun n => ?_, fun n => ?_⟩
          · rw [List.mem_filter, decide_eq_true_iff, FdSet.mem_numbers]
            exact (and_iff_right_of_imp fun h => (read n).mp (kr n h)).symm
          · rw [List.mem_filter, decide_eq_true_iff, FdSet.mem_numbers]
            exact (and_iff_right_of_imp fun h => (write n).mp (kw n h)).symm

/-- **Both are undefined** for the same lists. -/
theorem trying_eq_fault_iff (ho : s.Open) (c : SelectCall) :
    s.trying size = .fault ↔ s.trySelect size c = .fault := by
  by_cases hl : ∀ n, s.Lists n → n < size
  · obtain ⟨call, hp⟩ := exists_prepare_iff.mpr ⟨ho, hl⟩
    refine iff_of_false ?_ (trySelect_sat c ho.read ho.write hl).ne_fault
    rw [trying, hp]
    nofun
  · push Not at hl
    obtain ⟨n, hn, beyond⟩ := hl
    refine iff_of_true ?_ (trySelect_fault c hn beyond)
    cases hp : (s.prepare : Option (SelectArgs size)) with
    | none => rw [trying, hp]
    | some call => exact absurd ((names_of_prepare hp).2.1 n hn) (Nat.not_lt.mpr beyond)

/-- **The calls come to the end that `Select.trySelect` has**, for lists that fit the sets. -/
theorem calls_refine (ho : s.Open) (hl : ∀ n, s.Lists n → n < size)
    (ha : (trySelectCalls size).Answered Clears (s.trying size) answers) {n : ℕ}
    (he : (trySelectCalls size).Ended ((trySelectCalls size).after (s.trying size) answers n)) :
    ∃ c, Shows ((trySelectCalls size).after (s.trying size) answers n) (s.trySelect size c) := by
  obtain ⟨call, hp⟩ := exists_prepare_iff.mpr ⟨ho, hl⟩
  have run := ha.invariant (fun t => t = .selecting call ∨ ∃ c, Shows t (s.trySelect size c))
    (.inl (by rw [trying, hp])) (fun t k a ih hk fits => ?_) n
  · rcases run with waits | ended
    · rw [waits] at he
      cases he
    · exact ended
  · obtain rfl := asks_selecting hk
    rcases ih with same | ⟨c, hc⟩
    · obtain rfl := Trying.selecting.inj same
      rcases resume_shows hp fits with rfl | ended
      · exact .inl rfl
      · exact .inr ended
    · cases ht : s.trySelect size c <;> rw [ht] at hc <;> exact hc.elim

end Select

end OldStuff.Io
