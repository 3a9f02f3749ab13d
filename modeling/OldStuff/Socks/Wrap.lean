import OldStuff.Socks.Work

/-!
# Socks — the limiter in machine words

`suspended_to` and the time are `unsigned long`s, of 4 or 8 bytes: `tv_sec*1000+tv_usec/1000` is
taken modulo `2^w`, and so are the sums.  `Relay.lean` has the limiter with unbounded numbers.
Here it is as the machine computes it; the two agree while nothing wraps (`tryActivate_eq`,
`trySuspend_eq`).

A number of milliseconds passes `2^32` every 49 days.  The comparisons are of wrapped numbers, and
`clock_iff` says at which times they are still right.
-/

namespace OldStuff.Socks
open OldStuff.Io

namespace Wrap

/-- How many values an `unsigned long` has. -/
def ulong (abi : Abi) : Nat := 2 ^ (8 * abi.longBytes)

/-- `tv_sec*1000+tv_usec/1000`, as an `unsigned long`. -/
def timeNow (e : Env) : Nat := e.timeofday.ms % ulong e.abi

/-- `suspended_to-tv_sec*1000-tv_usec/1000`, as an `unsigned long`. -/
def sleepTime (e : Env) (suspendedTo : Nat) : Nat :=
  (suspendedTo + (ulong e.abi - timeNow e)) % ulong e.abi

/-- The connection is active again. -/
def activate (w : World) : World :=
  let set := w.conn.suspendedDescriptorsSet
  (w.onConn fun c => { c with suspended := false }).onSelect fun s =>
    addWriteIf set.serverWrite w.conn.server (addReadIf set.serverRead w.conn.server
      (addWriteIf set.clientWrite w.conn.client (addReadIf set.clientRead w.conn.client s)))

/-- `try_activate`. -/
def tryActivate (e : Env) (w : World) : World :=
  if !w.conn.suspended then w
  else if w.conn.suspendedTo ≤ timeNow e then activate w
  else { w with tv := w.tv.shorten (sleepTime e w.conn.suspendedTo) }

/-- `try_suspend`. -/
def trySuspend (e : Env) (w : World) : World :=
  if getSpeed e w.conn = 0 ∨ w.conn.suspendedBytesPiped = 0 then w
  else
    let shouldTake := w.conn.shouldTake e % ulong e.abi
    if shouldTake = 0 then w
    else
      let suspendedTo := (w.conn.suspendedTo + shouldTake) % ulong e.abi
      -- just update suspend time
      if suspendedTo ≤ timeNow e then
        w.onConn fun c => { c with suspendedTo := timeNow e }
      else
        let w := { w with tv := w.tv.shorten (sleepTime e suspendedTo) }
        (w.onConn fun c =>
          { c with
            suspendedTo
            suspended := true
            suspendedBytesPiped := 0
            suspendedDescriptorsSet := registrations c w.select }).onSelect fun s =>
          takeWrite w.conn.server (takeRead w.conn.server
            (takeWrite w.conn.client (takeRead w.conn.client s)))

section
variable {abi : Abi} {e e' : Env} {w w' : World} {t t' d : Nat}

theorem ulong_pos (abi : Abi) : 0 < ulong abi := Nat.two_pow_pos _

theorem word_le (abi : Abi) : 2 ^ 32 ≤ ulong abi := by
  rw [ulong]
  rcases abi.long with h | h
  · rw [h]
  · rw [h]
    decide

/-! ### While nothing wraps -/

/-- The time left, when the deadline is ahead. -/
theorem sleepTime_of_lt {suspendedTo : Nat} (h : timeNow e < suspendedTo)
    (hs : suspendedTo < ulong e.abi) : sleepTime e suspendedTo = suspendedTo - timeNow e := by
  rw [sleepTime, show suspendedTo + (ulong e.abi - timeNow e) =
    suspendedTo - timeNow e + ulong e.abi by omega, Nat.add_mod_right, Nat.mod_eq_of_lt (by omega)]

theorem timeNow_of_lt (ht : e.timeofday.ms < ulong e.abi) : timeNow e = e.timeofday.ms :=
  Nat.mod_eq_of_lt ht

theorem tryActivate_eq (ht : e.timeofday.ms < ulong e.abi)
    (hs : w.conn.suspendedTo < ulong e.abi) : tryActivate e w = Socks.tryActivate e w := by
  unfold tryActivate Socks.tryActivate
  split
  · rfl
  · rw [timeNow_of_lt ht]
    split
    · rfl
    · next h =>
        have ahead : timeNow e < w.conn.suspendedTo := by
          rw [timeNow_of_lt ht]
          omega
        rw [sleepTime_of_lt ahead hs, timeNow_of_lt ht]

theorem trySuspend_eq (ht : e.timeofday.ms < ulong e.abi)
    (hs : w.conn.suspendedTo + w.conn.shouldTake e < ulong e.abi) :
    trySuspend e w = Socks.trySuspend e w := by
  have plain : w.conn.shouldTake e % ulong e.abi = w.conn.shouldTake e :=
    Nat.mod_eq_of_lt (by omega)
  have sum : (w.conn.suspendedTo + w.conn.shouldTake e) % ulong e.abi =
      w.conn.suspendedTo + w.conn.shouldTake e := Nat.mod_eq_of_lt hs
  unfold trySuspend Socks.trySuspend
  dsimp only
  rw [plain, sum, timeNow_of_lt ht, SocksConnection.shouldTake]
  split
  · rfl
  · split
    · rfl
    · split
      · rfl
      · next h =>
          have ahead : timeNow e < w.conn.suspendedTo + w.conn.shouldTake e := by
            rw [timeNow_of_lt ht, SocksConnection.shouldTake]
            omega
          have left := sleepTime_of_lt ahead hs
          rw [timeNow_of_lt ht, SocksConnection.shouldTake] at left
          rw [left]

/-! ### One suspension -/

/-- What `try_suspend` can do to a connection that is not suspended. -/
theorem trySuspend_suspends (hr : w.conn.suspended = false)
    (hs : (trySuspend e w).conn.suspended = true) :
    timeNow e < (trySuspend e w).conn.suspendedTo ∧
      (trySuspend e w).conn.suspendedTo < ulong e.abi := by
  have running {P : Prop} (h : w.conn.suspended = true) : P := by
    rw [hr] at h
    cases h
  unfold trySuspend at hs ⊢
  dsimp only at hs ⊢
  split at hs
  · exact running hs
  · next h =>
      rw [if_neg h]
      split at hs
      · exact running hs
      · next h =>
          rw [if_neg h]
          split at hs
          · exact running hs
          · next h =>
              rw [if_neg h]
              exact ⟨Nat.lt_of_not_le h, Nat.mod_lt _ (ulong_pos _)⟩

/-- It does suspend, if the deadline is ahead. -/
theorem trySuspend_of_ahead (hd : w.conn.shouldTake e % ulong e.abi ≠ 0)
    (ha : timeNow e < (w.conn.suspendedTo + w.conn.shouldTake e % ulong e.abi) % ulong e.abi) :
    (trySuspend e w).conn.suspended = true ∧ (trySuspend e w).conn.suspendedTo =
      (w.conn.suspendedTo + w.conn.shouldTake e % ulong e.abi) % ulong e.abi := by
  have limited : ¬ (getSpeed e w.conn = 0 ∨ w.conn.suspendedBytesPiped = 0) := by
    rintro (h | h)
    · rw [SocksConnection.shouldTake, h, shouldTake_zero_right, Nat.zero_mod] at hd
      exact hd rfl
    · rw [SocksConnection.shouldTake, h, shouldTake_zero_left, Nat.zero_mod] at hd
      exact hd rfl
  rw [trySuspend, if_neg limited]
  dsimp only
  rw [if_neg hd, if_neg (Nat.not_le_of_lt ha)]
  exact ⟨rfl, rfl⟩

theorem trySuspend_of_behind (hr : w.conn.suspended = false)
    (ha : (w.conn.suspendedTo + w.conn.shouldTake e % ulong e.abi) % ulong e.abi ≤ timeNow e) :
    (trySuspend e w).conn.suspended = false := by
  unfold trySuspend
  dsimp only
  split
  · exact hr
  · split
    · exact hr
    · exact hr

theorem tryActivate_of_le (hs : w.conn.suspended = true)
    (h : w.conn.suspendedTo ≤ timeNow e) : tryActivate e w = activate w := by
  rw [tryActivate, hs, if_neg (by decide), if_pos h]

theorem tryActivate_of_lt (hs : w.conn.suspended = true)
    (h : timeNow e < w.conn.suspendedTo) :
    (tryActivate e w).conn = w.conn ∧ (tryActivate e w).select = w.select := by
  rw [tryActivate, hs, if_neg (by decide), if_neg (Nat.not_le_of_lt h)]
  exact ⟨rfl, rfl⟩

/-! ### Suspensions near the wrap -/

/-- `try_suspend`, at the time `t`, puts the connection to sleep for `d` milliseconds. -/
structure SuspendsFor (abi : Abi) (t d : Nat) (e : Env) (w : World) : Prop where
  machine : e.abi = abi
  time : e.timeofday.ms = t
  running : w.conn.suspended = false
  suspended : (trySuspend e w).conn.suspended = true
  sleep : sleepTime e (trySuspend e w).conn.suspendedTo = d

/-- At the time `t`, what has been piped since the time `D` of the last account takes until
`t + d`, at the speed in force. -/
structure Owes (abi : Abi) (t d : Nat) (e : Env) (w : World) : Prop where
  machine : e.abi = abi
  time : e.timeofday.ms = t
  running : w.conn.suspended = false
  takes : ∃ D ≤ t, w.conn.suspendedTo = D % ulong abi ∧ D + w.conn.shouldTake e = t + d
  fits : w.conn.shouldTake e < ulong abi

/-- At the time `t'`, the connection of `w'` is suspended as that of `w` was left. -/
structure Remains (abi : Abi) (t' : Nat) (w : World) (e' : Env) (w' : World) : Prop where
  machine : e'.abi = abi
  time : e'.timeofday.ms = t'
  suspended : w'.conn.suspended = true
  until' : w'.conn.suspendedTo = w.conn.suspendedTo

/-- The clock is right for a suspension of `d` milliseconds at the time `t`: it is as long as it
should be, and there is one if there should be. -/
structure SurvivesWrap (abi : Abi) (t d : Nat) : Prop where
  wakes : ∀ e w, SuspendsFor abi t d e w → ∀ t' e' w', Remains abi t' (trySuspend e w) e' w' →
    t + d ≤ t' → t' < t + d + 2 ^ 31 → tryActivate e' w' = activate w'
  sleeps : ∀ e w, SuspendsFor abi t d e w → ∀ t' e' w', Remains abi t' (trySuspend e w) e' w' →
    t ≤ t' → t' < t + d →
      (tryActivate e' w').conn = w'.conn ∧ (tryActivate e' w').select = w'.select
  suspends : ∀ e w, Owes abi t d e w → (trySuspend e w).conn.suspended = true

theorem SuspendsFor.deadline (h : SuspendsFor abi t d e w) :
    t % ulong abi < (trySuspend e w).conn.suspendedTo ∧
      (trySuspend e w).conn.suspendedTo = t % ulong abi + d := by
  obtain ⟨ahead, word⟩ := trySuspend_suspends h.running h.suspended
  have sleep := h.sleep
  rw [sleepTime_of_lt ahead word] at sleep
  rw [timeNow, h.time, h.machine] at ahead sleep
  exact ⟨ahead, by omega⟩

/-- A time up to the next wrap. -/
theorem Remains.timeNow (h : Remains abi t' w e' w') (ht : t ≤ t')
    (hw : t % ulong abi + (t' - t) < ulong abi) : timeNow e' = t % ulong abi + (t' - t) := by
  rw [Wrap.timeNow, h.time, h.machine, ← Nat.mod_eq_of_lt hw, Nat.mod_add_mod]
  congr 1
  omega

/-- **While the next wrap is far enough away**, the clock is right. -/
theorem survives_of_far (hd : 0 < d) (far : t % ulong abi + d + 2 ^ 31 ≤ ulong abi) :
    SurvivesWrap abi t d := by
  refine ⟨fun e w h t' e' w' hr ht ht' => ?_, fun e w h t' e' w' hr ht ht' => ?_, fun e w h => ?_⟩
  · have now := hr.timeNow (t := t) (by omega) (by omega)
    have deadline := h.deadline.2
    refine tryActivate_of_le hr.suspended ?_
    rw [hr.until', now, deadline]
    omega
  · have now := hr.timeNow (t := t) ht (by omega)
    have deadline := h.deadline.2
    refine tryActivate_of_lt hr.suspended ?_
    rw [hr.until', now, deadline]
    omega
  · obtain ⟨D, hD, account, takes⟩ := h.takes
    have fits := h.fits
    -- the deadline is `t + d`, and it lies on this side of the wrap
    have now : timeNow e = t % ulong abi := by rw [timeNow, h.time, h.machine]
    have deadline : (w.conn.suspendedTo + w.conn.shouldTake e % ulong e.abi) % ulong e.abi =
        t % ulong abi + d := by
      rw [h.machine, account, ← Nat.add_mod, takes, Nat.add_mod,
        Nat.mod_eq_of_lt (a := d) (by omega), Nat.mod_eq_of_lt (by omega)]
    refine (trySuspend_of_ahead ?_ ?_).1
    · rw [h.machine, Nat.mod_eq_of_lt fits]
      omega
    · rw [deadline, now]
      omega

/-- The time is `ms`, and the speed 2000 bytes a second, for every port at every hour. -/
def clockAt (abi : Abi) (ms : Nat) : Env where
  abi := abi
  config := { speed := fun _ => [⟨0, 0, 24, 0, 2000⟩] }
  tm := ⟨Fin.last 6, 0, 0⟩
  timeofday := ⟨ms / 1000, ms % 1000 * 1000⟩

/-- A relay, last billed at `suspendedTo`, that has piped `bytes` since. -/
def billed (suspendedTo bytes : Nat) (suspended : Bool) : World :=
  { World.fresh 0 default 0 with
    conn := { SocksConnection.new default 0 with
      state := .pipeing
      suspendedTo
      suspendedBytesPiped := bytes
      suspended } }

theorem clockAt_ms (abi : Abi) (ms : Nat) : (clockAt abi ms).timeofday.ms = ms := by
  have parts : (clockAt abi ms).timeofday.ms = ms / 1000 * 1000 + ms % 1000 * 1000 / 1000 := rfl
  omega

theorem clockAt_timeNow (abi : Abi) (ms : Nat) : timeNow (clockAt abi ms) = ms % ulong abi := by
  rw [timeNow, clockAt_ms]
  rfl

/-- Two bytes a millisecond, and one for good measure. -/
theorem clockAt_shouldTake (abi : Abi) (ms suspendedTo : Nat) (hd : d < 2 ^ 31) :
    (billed suspendedTo (2 * d + 1) false).conn.shouldTake (clockAt abi ms) = d := by
  have speed : getSpeed (clockAt abi ms) (billed suspendedTo (2 * d + 1) false).conn = 2000 := by
    simp [getSpeed, Config.getSpeed, clockAt, Config.getSpeedTime]
  rw [SocksConnection.shouldTake, speed]
  exact shouldTake_half (by omega)

/-- A relay billed up to now, with bytes for `d` milliseconds piped since. -/
theorem owes_clockAt (hd : d < 2 ^ 31) :
    Owes abi t d (clockAt abi t) (billed (t % ulong abi) (2 * d + 1) false) := by
  refine ⟨rfl, clockAt_ms abi t, rfl, ⟨t, Nat.le_refl t, rfl, ?_⟩, ?_⟩
  · rw [clockAt_shouldTake _ _ _ hd]
  · have := word_le abi
    rw [clockAt_shouldTake _ _ _ hd]
    omega

theorem clockAt_deadline (hd : d < 2 ^ 31) :
    ((billed (t % ulong abi) (2 * d + 1) false).conn.suspendedTo +
      (billed (t % ulong abi) (2 * d + 1) false).conn.shouldTake (clockAt abi t) %
        ulong (clockAt abi t).abi) % ulong (clockAt abi t).abi =
      (t % ulong abi + d) % ulong abi := by
  have := word_le abi
  rw [clockAt_shouldTake _ _ _ hd, show (clockAt abi t).abi = abi from rfl,
    Nat.mod_eq_of_lt (a := d) (by omega)]
  rfl

/-- If its deadline is beyond the wrap, it is not suspended. -/
theorem not_survives_of_beyond (hd : d < 2 ^ 31) (beyond : ulong abi ≤ t % ulong abi + d) :
    ¬ SurvivesWrap abi t d := by
  intro h
  have small : t % ulong abi < ulong abi := Nat.mod_lt t (ulong_pos abi)
  have suspends := h.suspends _ _ (owes_clockAt hd)
  have word := word_le abi
  have behind :
      (trySuspend (clockAt abi t) (billed (t % ulong abi) (2 * d + 1) false)).conn.suspended =
        false := by
    refine trySuspend_of_behind rfl ?_
    rw [clockAt_deadline hd, clockAt_timeNow, Nat.mod_eq_sub_mod beyond,
      Nat.mod_eq_of_lt (by omega)]
    omega
  rw [suspends] at behind
  cases behind

/-- If the wrap comes soon after its deadline, it does not wake up when the clock starts again. -/
theorem not_survives_of_near (hd : 0 < d) (hd' : d < 2 ^ 31)
    (ahead : t % ulong abi + d < ulong abi)
    (near : ulong abi < t % ulong abi + d + 2 ^ 31) : ¬ SurvivesWrap abi t d := by
  intro h
  have deadline := @clockAt_deadline abi t d hd'
  rw [Nat.mod_eq_of_lt ahead] at deadline
  have suspension :
      (trySuspend (clockAt abi t) (billed (t % ulong abi) (2 * d + 1) false)).conn.suspended =
        true ∧
      (trySuspend (clockAt abi t) (billed (t % ulong abi) (2 * d + 1) false)).conn.suspendedTo =
        t % ulong abi + d := by
    rw [← deadline]
    refine trySuspend_of_ahead ?_ ?_
    · rw [clockAt_shouldTake _ _ _ hd', show (clockAt abi t).abi = abi from rfl,
        Nat.mod_eq_of_lt (by omega)]
      omega
    · rw [deadline, clockAt_timeNow]
      omega
  obtain ⟨suspended, until'⟩ := suspension
  have suspends :
      SuspendsFor abi t d (clockAt abi t) (billed (t % ulong abi) (2 * d + 1) false) := by
    refine ⟨rfl, clockAt_ms abi t, rfl, suspended, ?_⟩
    rw [until', sleepTime_of_lt (by rw [clockAt_timeNow]; omega) ahead, clockAt_timeNow]
    omega
  -- the moment of the wrap
  have wrap : (t + (ulong abi - t % ulong abi)) % ulong abi = 0 := by
    have parts := Nat.div_add_mod t (ulong abi)
    have round : t + (ulong abi - t % ulong abi) = ulong abi * (t / ulong abi + 1) := by
      rw [Nat.mul_succ]
      omega
    rw [round, Nat.mul_mod_right]
  have woken := h.wakes _ _ suspends (t + (ulong abi - t % ulong abi))
    (clockAt abi (t + (ulong abi - t % ulong abi))) (billed (t % ulong abi + d) 0 true)
    ⟨rfl, clockAt_ms _ _, rfl, until'.symm⟩ (by omega) (by omega)
  have asleep := (tryActivate_of_lt (e := clockAt abi (t + (ulong abi - t % ulong abi)))
    (w := billed (t % ulong abi + d) 0 true) rfl (by
      rw [clockAt_timeNow, wrap]
      exact Nat.add_pos_right _ hd)).1
  rw [woken] at asleep
  have := congrArg SocksConnection.suspended asleep
  cases this

/-- **The suspension clock survives** a suspension of `d` milliseconds at the time `t` if it does
not wrap within `2^31` milliseconds after it. -/
theorem clock_iff (hd : 0 < d) (hd' : d < 2 ^ 31) :
    SurvivesWrap abi t d ↔ t % ulong abi + d + 2 ^ 31 ≤ ulong abi := by
  have word := word_le abi
  constructor
  · intro h
    refine Nat.le_of_not_lt fun near => ?_
    rcases Nat.lt_or_ge (t % ulong abi + d) (ulong abi) with ahead | beyond
    · exact not_survives_of_near hd hd' ahead near h
    · exact not_survives_of_beyond hd' beyond h
  · exact survives_of_far hd

end

/-- Half a minute after the beginning of time. -/
theorem clock_iff_sample : SurvivesWrap .littleEndian 30000 1000 :=
  (clock_iff (by decide) (by decide)).mpr (by decide)

/-- With 32 bits, ten seconds before the wrap: a relay whose bytes take 20 seconds is not suspended,
and one that is suspended for five does not wake up after the wrap. -/
theorem clock_wraps :
    ¬ SurvivesWrap ⟨false, 4, .inl rfl⟩ (2 ^ 32 - 10000) 20000 ∧
      ¬ SurvivesWrap ⟨false, 4, .inl rfl⟩ (2 ^ 32 - 10000) 5000 :=
  ⟨not_survives_of_beyond (by decide) (by decide),
    not_survives_of_near (by decide) (by decide) (by decide) (by decide)⟩

end Wrap

end OldStuff.Socks
