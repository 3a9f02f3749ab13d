import OldStuff.Socks.Charge

/-!
# Socks — the limiter by itself

`try_suspend` and `try_activate` read and write three numbers: whether the relay is held, until
when, and how many bytes are still to be charged for.  A `Pacer` is these three, and a `Tick` is
what one visit tells them: the speed in force, the clock, the bytes it relayed.

The limiter pays for bytes with time.  `tick_cases` lists the four things a tick can do; every
bound on the limiter is an invariant of these.
-/

namespace OldStuff.Socks

/-- `suspended`, `suspended_to` and `suspended_bytes_piped`. -/
@[ext]
structure Pacer where
  held : Bool
  due : Nat
  owed : Nat
  deriving DecidableEq

/-- One visit: `config::get_speed`, the milliseconds of `gettimeofday`, the bytes written. -/
structure Tick where
  speed : Nat
  now : Nat
  bytes : Nat

namespace Tick

/-- How long a number of bytes should have taken, in milliseconds. -/
def shouldTake (t : Tick) (owed : Nat) : Nat := Socks.shouldTake owed t.speed

/-- The bytes are not said to take longer than they do. -/
def Fair (t : Tick) (owed : Nat) : Prop := t.shouldTake owed ≤ 1000 * owed / t.speed

instance (t : Tick) (owed : Nat) : Decidable (t.Fair owed) := inferInstanceAs (Decidable (_ ≤ _))

theorem Fair.mul_le {t : Tick} {n : Nat} (h : t.Fair n) : t.shouldTake n * t.speed ≤ 1000 * n :=
  (Nat.mul_le_mul_right _ h).trans (Nat.div_mul_le_self ..)

end Tick

namespace Pacer

/-- At the end of a round: nothing to charge, time to let go by, or too early and then held. -/
def charge (t : Tick) (p : Pacer) : Pacer :=
  if t.speed = 0 ∨ p.owed = 0 then p
  else if t.shouldTake p.owed = 0 then p
  else if p.due + t.shouldTake p.owed ≤ t.now then { p with due := t.now }
  else ⟨true, p.due + t.shouldTake p.owed, 0⟩

/-- One visit. -/
def tick (t : Tick) (p : Pacer) : Pacer :=
  if p.held then { p with held := !decide (p.due ≤ t.now) }
  else charge t { p with owed := p.owed + t.bytes }

/-- When `PIPEING` is entered. -/
def start : Pacer := ⟨false, 0, 0⟩

variable {t : Tick} {p : Pacer} {n : Nat}

/-- **What a tick can do.**  A held pacer waits or is released; one that is not held lets the bytes
stand, moves its deadline up to the present, or is held for the bytes it owes. -/
theorem tick_cases (t : Tick) (p : Pacer) :
    (p.held = true ∧ p.tick t = ⟨!decide (p.due ≤ t.now), p.due, p.owed⟩) ∨
      (p.held = false ∧ (t.speed = 0 ∨ t.shouldTake (p.owed + t.bytes) = 0) ∧
        p.tick t = ⟨false, p.due, p.owed + t.bytes⟩) ∨
      (p.held = false ∧ 0 < t.speed ∧ 0 < t.shouldTake (p.owed + t.bytes) ∧
        p.due + t.shouldTake (p.owed + t.bytes) ≤ t.now ∧
        p.tick t = ⟨false, t.now, p.owed + t.bytes⟩) ∨
      (p.held = false ∧ 0 < t.speed ∧ 0 < t.shouldTake (p.owed + t.bytes) ∧
        t.now < p.due + t.shouldTake (p.owed + t.bytes) ∧
        p.tick t = ⟨true, p.due + t.shouldTake (p.owed + t.bytes), 0⟩) := by
  obtain ⟨held, due, owed⟩ := p
  cases held with
  | true => exact .inl ⟨rfl, rfl⟩
  | false =>
      right
      rw [tick, if_neg Bool.false_ne_true]
      unfold charge
      split
      · next h =>
          refine .inl ⟨rfl, h.imp_right fun h => ?_, rfl⟩
          have h : owed + t.bytes = 0 := h
          rw [h, Tick.shouldTake, shouldTake_zero_left]
      · next h =>
          have hs : 0 < t.speed := Nat.pos_of_ne_zero fun hz => h (.inl hz)
          split
          · next h => exact .inl ⟨rfl, .inr h, rfl⟩
          · next hz =>
              have hz := Nat.pos_of_ne_zero hz
              split
              · next hd => exact .inr (.inl ⟨rfl, hs, hz, hd, rfl⟩)
              · next hd => exact .inr (.inr ⟨rfl, hs, hz, Nat.lt_of_not_le hd, rfl⟩)

/-! ### What is billed -/

/-- The bytes relayed since the limit was last off. -/
def billed (ts : List Tick) : Nat :=
  ts.foldl (fun n t => if t.speed = 0 then 0 else n + t.bytes) 0

theorem billed_snoc (ts : List Tick) (t : Tick) :
    billed (ts ++ [t]) = if t.speed = 0 then 0 else billed ts + t.bytes := by
  rw [billed, List.foldl_append]
  rfl

/-- The limit was off at the last tick. -/
def Unlimited (ts : List Tick) : Prop := ∃ t, ts.getLast? = some t ∧ t.speed = 0

/-- A deadline that does not hold has passed, and what is owed has been relayed under the limit. -/
structure Billing (ts : List Tick) (p : Pacer) : Prop where
  passed : p.held = false → ∀ now, (∀ t ∈ ts, t.now ≤ now) → p.due ≤ now
  owed : ¬ Unlimited ts → p.owed ≤ billed ts

theorem billing_start : Billing [] start where
  passed := fun _ _ _ => Nat.zero_le _
  owed := fun _ => Nat.le_refl 0

variable {ts : List Tick}

theorem unlimited_snoc : Unlimited (ts ++ [t]) ↔ t.speed = 0 := by simp [Unlimited]

/-- A tick after one without a limit owes nothing to begin with. -/
theorem Billing.owed_le (h : Billing ts p) (hc : Unlimited ts → p.owed = 0) :
    p.owed ≤ billed ts := by
  by_cases hu : Unlimited ts
  · rw [hc hu]
    exact Nat.zero_le _
  · exact h.owed hu

theorem Billing.tick (h : Billing ts p) (hb : p.held = true → t.bytes = 0)
    (hc : Unlimited ts → t.speed ≠ 0 → p.owed = 0) (hm : ∀ u ∈ ts, u.now ≤ t.now) :
    Billing (ts ++ [t]) (p.tick t) := by
  have present {now : Nat} (hn : ∀ u ∈ ts ++ [t], u.now ≤ now) : t.now ≤ now :=
    hn t (List.mem_append_right _ (List.mem_singleton_self t))
  have owed (hs : t.speed ≠ 0) : p.owed + t.bytes ≤ billed (ts ++ [t]) := by
    rw [billed_snoc, if_neg hs]
    exact Nat.add_le_add_right (h.owed_le fun hu => hc hu hs) _
  have limited : ¬ Unlimited (ts ++ [t]) → t.speed ≠ 0 := mt unlimited_snoc.mpr
  obtain ⟨hh, e⟩ | ⟨hh, -, e⟩ | ⟨hh, -, -, hd, e⟩ | ⟨hh, -, -, -, e⟩ := tick_cases t p
  · rw [e]
    refine ⟨fun hr now hn => ?_, fun hu => ?_⟩
    · simp only [Bool.not_eq_false', decide_eq_true_eq] at hr
      exact hr.trans (present hn)
    · have := owed (limited hu)
      rwa [hb hh, Nat.add_zero] at this
  · rw [e]
    exact ⟨fun _ now hn => (h.passed hh t.now hm).trans (present hn), fun hu => owed (limited hu)⟩
  · rw [e]
    exact ⟨fun _ now hn => present hn, fun hu => owed (limited hu)⟩
  · rw [e]
    exact ⟨nofun, fun _ => Nat.zero_le _⟩

/-- **A suspension is paid for.**  It lasts no longer than the bytes billed take at the speed in
force, if the bytes owed are not said to take longer than they do. -/
theorem Billing.suspension (h : Billing ts p) (hc : Unlimited ts → t.speed ≠ 0 → p.owed = 0)
    (hm : ∀ u ∈ ts, u.now ≤ t.now) (hf : t.Fair (p.owed + t.bytes)) (hp : p.held = false)
    (hq : (p.tick t).held = true) :
    ((p.tick t).due - t.now) * t.speed ≤ 1000 * billed (ts ++ [t]) := by
  obtain ⟨hh, -⟩ | ⟨-, -, e⟩ | ⟨-, -, -, -, e⟩ | ⟨-, hs, -, -, e⟩ := tick_cases t p
  · rw [hp] at hh
    cases hh
  · rw [e] at hq
    cases hq
  · rw [e] at hq
    cases hq
  · have hs := Nat.ne_of_gt hs
    have late : p.due ≤ t.now := h.passed hp t.now hm
    have owed := h.owed_le fun hu => hc hu hs
    rw [e, billed_snoc, if_neg hs]
    calc (p.due + t.shouldTake (p.owed + t.bytes) - t.now) * t.speed
        ≤ t.shouldTake (p.owed + t.bytes) * t.speed := Nat.mul_le_mul_right _ (by omega)
      _ ≤ 1000 * (p.owed + t.bytes) := hf.mul_le
      _ ≤ 1000 * (billed ts + t.bytes) := by omega

/-! ### What a suspension costs -/

/-- The wait that a tick imposes. -/
def delay (t : Tick) (p : Pacer) : Nat :=
  if p.held = false ∧ (p.tick t).held = true then (p.tick t).due - t.now else 0

/-- **A tick pays for its delay** with bytes that were owed, and then are not. -/
theorem delay_le (hb : p.held = true → t.bytes = 0) (hd : p.held = false → p.due ≤ t.now)
    (hf : t.Fair (p.owed + t.bytes)) :
    t.speed * p.delay t + 1000 * (p.tick t).owed ≤ 1000 * (p.owed + t.bytes) := by
  unfold delay
  obtain ⟨hh, e⟩ | ⟨hh, -, e⟩ | ⟨hh, -, -, -, e⟩ | ⟨hh, -, -, -, e⟩ := tick_cases t p
  · have waits : ¬ (p.held = false ∧ (p.tick t).held = true) := by
      rw [hh]
      exact fun h => (by cases h.1)
    rw [if_neg waits, e, hb hh, Nat.mul_zero, Nat.zero_add]
    exact Nat.le_refl _
  · rw [e, if_neg fun h => (by cases h.2), Nat.mul_zero, Nat.zero_add]
  · rw [e, if_neg fun h => (by cases h.2), Nat.mul_zero, Nat.zero_add]
  · have late := hd hh
    rw [e, if_pos ⟨hh, rfl⟩, Nat.mul_zero, Nat.add_zero]
    calc t.speed * (p.due + t.shouldTake (p.owed + t.bytes) - t.now)
        ≤ t.speed * t.shouldTake (p.owed + t.bytes) := Nat.mul_le_mul_left _ (by omega)
      _ = t.shouldTake (p.owed + t.bytes) * t.speed := Nat.mul_comm _ _
      _ ≤ 1000 * (p.owed + t.bytes) := hf.mul_le

/-! ### Traffic within the limit -/

/-- Every tick relays no more than the time since the one before it allows at the speed `S`. -/
def Compliant (S : Nat) : Nat → List Tick → Prop
  | _, [] => True
  | t₀, t :: ts => t₀ ≤ t.now ∧ 1000 * t.bytes ≤ S * (t.now - t₀) ∧ Compliant S t.now ts

instance decidableCompliant (S : Nat) : ∀ t₀ ts, Decidable (Compliant S t₀ ts)
  | _, [] => .isTrue trivial
  | t₀, t :: ts =>
    have := decidableCompliant S t.now ts
    inferInstanceAs (Decidable (t₀ ≤ t.now ∧ 1000 * t.bytes ≤ S * (t.now - t₀) ∧ _))

/-- Every tick but the early ones leaves time enough for *all* that was relayed so far, `n` bytes up
to the moment `t₀`. -/
def Unhurried (S : Nat) : Nat → Nat → List Tick → Prop
  | _, _, [] => True
  | t₀, n, t :: ts =>
    (Socks.shouldTake n S ≠ 0 → Socks.shouldTake (n + t.bytes) S ≤ t.now - t₀) ∧
      Unhurried S t.now (n + t.bytes) ts

/-- No tick holds the pacer. -/
def NeverHeld (p : Pacer) : List Tick → Prop
  | [] => True
  | t :: ts => (p.tick t).held = false ∧ NeverHeld (p.tick t) ts

/-- The pacer after some ticks. -/
def after (p : Pacer) (ts : List Tick) : Pacer := ts.foldl (fun p t => p.tick t) p

@[simp] theorem after_snoc (p : Pacer) (ts : List Tick) (t : Tick) :
    p.after (ts ++ [t]) = (p.after ts).tick t :=
  List.foldl_append

theorem neverHeld_snoc (p : Pacer) (ts : List Tick) (t : Tick) :
    NeverHeld p (ts ++ [t]) ↔ NeverHeld p ts ∧ ((p.after ts).tick t).held = false := by
  induction ts generalizing p with
  | nil => simp [NeverHeld, after]
  | cons u ts ih => rw [List.cons_append, NeverHeld, ih, NeverHeld, and_assoc]; rfl

/-- Where a pacer stands that has not been held: nothing has been charged for yet, or the deadline
is the last tick. -/
structure Afloat (S t₀ n : Nat) (p : Pacer) : Prop where
  held : p.held = false
  owed : p.owed = n
  early : Socks.shouldTake n S = 0 → p.due = 0 ∧ 1000 * n ≤ S * t₀
  late : Socks.shouldTake n S ≠ 0 → p.due = t₀

/-- **Traffic within the limit is let through exactly when it is unhurried**, whatever the limit, if
no tick brings more than some hundred billion bytes.  The bytes let through stay owed, so that
what one tick has to leave time for grows with the run. -/
theorem neverHeld_iff {S t₀ n : Nat} (hS : 0 < S) (h : Afloat S t₀ n p)
    (hs : ∀ t ∈ ts, t.speed = S) (hB : ∀ t ∈ ts, 1000 * t.bytes < 2 ^ 49)
    (hc : Compliant S t₀ ts) : NeverHeld p ts ↔ Unhurried S t₀ n ts := by
  induction ts generalizing p t₀ n with
  | nil => exact Iff.rfl
  | cons t ts ih =>
      obtain ⟨hle, hb, hc⟩ := hc
      have hspeed : t.speed = S := hs t List.mem_cons_self
      have hbytes := hB t List.mem_cons_self
      have hs : ∀ t ∈ ts, t.speed = S := fun u hu => hs u (List.mem_cons_of_mem _ hu)
      have hB : ∀ t ∈ ts, 1000 * t.bytes < 2 ^ 49 := fun u hu => hB u (List.mem_cons_of_mem _ hu)
      have htake : t.shouldTake (p.owed + t.bytes) = Socks.shouldTake (n + t.bytes) S := by
        rw [Tick.shouldTake, hspeed, h.owed]
      have next (due : Nat)
          (he : Socks.shouldTake (n + t.bytes) S = 0 → due = 0 ∧ 1000 * (n + t.bytes) ≤ S * t.now)
          (hl : Socks.shouldTake (n + t.bytes) S ≠ 0 → due = t.now) :
          Afloat S t.now (n + t.bytes) ⟨false, due, p.owed + t.bytes⟩ :=
        ⟨rfl, by rw [h.owed], he, hl⟩
      -- what the past and this tick relayed fits into the time up to now
      have fits (hn : 1000 * n ≤ S * t₀) : 1000 * (n + t.bytes) ≤ S * t.now := by
        calc 1000 * (n + t.bytes) = 1000 * n + 1000 * t.bytes := Nat.mul_add ..
          _ ≤ S * t₀ + S * (t.now - t₀) := Nat.add_le_add hn hb
          _ = S * t.now := by rw [← Nat.mul_add, Nat.add_sub_of_le hle]
      rw [NeverHeld, Unhurried]
      obtain ⟨hh, -⟩ | ⟨-, hz, e⟩ | ⟨-, -, hpos, hd, e⟩ | ⟨-, -, hpos, hd, e⟩ := tick_cases t p
      · rw [h.held] at hh
        cases hh
      · rw [htake, hspeed] at hz
        have hz : Socks.shouldTake (n + t.bytes) S = 0 := hz.resolve_left hS.ne'
        -- nothing was due before either
        have hn : Socks.shouldTake n S = 0 :=
          Nat.le_zero.mp (hz ▸ shouldTake_mono (Nat.le_add_right n t.bytes))
        obtain ⟨hdue, hfit⟩ := h.early hn
        rw [e, ih (next p.due (fun _ => ⟨hdue, fits hfit⟩) (absurd hz)) hs hB hc]
        exact and_congr_left fun _ => ⟨fun _ hl => absurd hn hl, fun _ => rfl⟩
      · rw [htake] at hpos hd
        rw [e, ih (next t.now (fun hz => absurd hz hpos.ne') fun _ => rfl) hs hB hc]
        refine and_congr_left fun _ => ⟨fun _ hl => ?_, fun _ => rfl⟩
        rw [h.late hl] at hd
        omega
      · rw [htake] at hpos hd
        rw [e]
        refine iff_of_false (fun hf => by cases hf.1) fun hu => ?_
        by_cases hl : Socks.shouldTake n S = 0
        · -- the first charge comes after time enough since the clock began
          obtain ⟨hdue, hfit⟩ := h.early hl
          have hn := lt_of_shouldTake_eq_zero hS hl
          have := Socks.shouldTake_le hS (fits hfit) (by omega)
          rw [hdue] at hd
          omega
        · have := hu.1 hl
          rw [h.late hl] at hd
          omega

theorem afloat_start (S t₀ : Nat) : Afloat S t₀ 0 start where
  held := rfl
  owed := rfl
  early := fun _ => ⟨rfl, Nat.zero_le _⟩
  late := fun hl => absurd shouldTake_zero_left hl

/-! ### The cap

Time is counted from `t₀`: the clock shows `t₀ + τ`.  `n` counts the suspensions and `W` the
bytes.  `F`, in thousandths of a byte, is what a tick may let through for nothing. -/

/-- How much a pacer has let through at a constant speed `S`, at most `B` bytes a tick.  Before the
first suspension everything is still owed.  Afterwards `D` is the deadline of the last suspension:
what was charged for fits into the time up to `D`, but for what came for nothing, and what is owed
fits into the time since. -/
inductive Capped (S B F t₀ τ : Nat) : Nat → Nat → Pacer → Prop where
  | fresh {W due : Nat} (h : due = 0 ∧ 1000 * W ≤ S * τ + F ∨
      t₀ ≤ due ∧ due ≤ t₀ + τ ∧ 1000 * W ≤ S * τ + F + 1000 * B) :
      Capped S B F t₀ τ 0 W ⟨false, due, W⟩
  | free {n W due owed : Nat} (D : Nat) (hn : t₀ + n ≤ D) (hd : D ≤ due) (hp : due ≤ t₀ + τ)
      (hw : 1000 * W + S * t₀ ≤ 1000 * owed + S * D + F * n + 1000 * B)
      (ho : 1000 * owed + S * D ≤ S * (t₀ + τ) + F) : Capped S B F t₀ τ n W ⟨false, due, owed⟩
  | held {n W due : Nat} (hd : t₀ + n ≤ due) (hn : n ≤ τ + 1)
      (hw : 1000 * W + S * t₀ ≤ S * due + F * n + 1000 * B)
      (hc : 1000 * W ≤ S * τ + F * n + 1000 * (2 * B)) : Capped S B F t₀ τ n W ⟨true, due, 0⟩

theorem capped_start (S B F t₀ τ : Nat) : Capped S B F t₀ τ 0 0 start :=
  .fresh (.inl ⟨rfl, Nat.zero_le _⟩)

section
variable {S B F t₀ τ τ' W : Nat}

theorem Capped.mono (h : Capped S B F t₀ τ n W p) (hτ : τ ≤ τ') : Capped S B F t₀ τ' n W p := by
  have scaled : S * τ ≤ S * τ' := Nat.mul_le_mul_left S hτ
  cases h with
  | fresh h =>
      refine .fresh (h.imp (fun ⟨h, hw⟩ => ⟨h, ?_⟩) fun ⟨h, hp, hw⟩ => ⟨h, by omega, ?_⟩)
      all_goals omega
  | free D hn hd hp hw ho =>
      refine .free D hn hd (by omega) hw ?_
      simp only [Nat.mul_add] at *
      omega
  | held hd hn hw hc => exact .held hd (by omega) hw (by omega)

/-- A pacer that is not held has let through what time allows, and what one tick may bring. -/
theorem Capped.le_of_free (h : Capped S B F t₀ τ n W p) (hp : p.held = false) :
    1000 * W ≤ S * τ + F * (n + 1) + 1000 * B := by
  cases h with
  | fresh h =>
      simp only [Nat.mul_add] at *
      omega
  | free D hn hd hp hw ho =>
      simp only [Nat.mul_add] at *
      omega
  | held => cases hp

theorem Capped.le (h : Capped S B F t₀ τ n W p) :
    1000 * W ≤ S * τ + F * (n + 1) + 1000 * (2 * B) := by
  cases hp : p.held with
  | false =>
      have := h.le_of_free hp
      omega
  | true =>
      cases h with
      | fresh => cases hp
      | free => cases hp
      | held _ _ _ hc =>
          rw [Nat.mul_succ]
          omega

/-- There is room for one more tick. -/
theorem Capped.add_le (h : Capped S B F t₀ τ n W p) {m : Nat} (hm : m ≤ B)
    (hh : p.held = true → m = 0) :
    1000 * (W + m) ≤ S * τ + F * (n + 1) + 1000 * (2 * B) := by
  cases hp : p.held with
  | false =>
      have := h.le_of_free hp
      omega
  | true =>
      rw [hh hp]
      exact h.le

/-- A suspension lasts a millisecond at least. -/
theorem Capped.count_le (h : Capped S B F t₀ τ n W p) : n ≤ τ + 1 := by
  cases h with
  | fresh => exact Nat.zero_le _
  | free D hn hd hp => omega
  | held _ hn => exact hn

variable {due owed m k : Nat}

/-- A held pacer waits, or is released; what was charged for fits into the time that has passed. -/
theorem Capped.waits (h : Capped S B F t₀ τ n W ⟨true, due, owed⟩) :
    Capped S B F t₀ τ n W ⟨!decide (due ≤ t₀ + τ), due, owed⟩ := by
  cases h with
  | held hn hτ hw hc =>
      by_cases hr : due ≤ t₀ + τ
      · have passed : S * due ≤ S * (t₀ + τ) := Nat.mul_le_mul_left S hr
        simp only [hr, decide_true, Bool.not_true]
        exact .free due hn (Nat.le_refl _) hr (by omega) (by omega)
      · simp only [hr, decide_false, Bool.not_false]
        exact .held hn hτ hw hc

/-- What the bytes owed may come to: what time has allowed since the deadline, or since `t₀`. -/
def Allowed (S F t₀ now due n : Nat) : Prop := 1000 * n ≤ S * (now - max due t₀) + F

/-- Nothing is charged, and nothing comes before its time. -/
theorem Capped.owes (h : Capped S B F t₀ τ n W ⟨false, due, owed⟩)
    (hm : 1000 * (owed + m) ≤ F ∨ Allowed S F t₀ (t₀ + τ) due (owed + m)) :
    Capped S B F t₀ τ n (W + m) ⟨false, due, owed + m⟩ := by
  have within : 1000 * (owed + m) ≤ S * τ + F := by
    rcases hm with hm | hm
    · omega
    · have since : S * (t₀ + τ - max due t₀) ≤ S * τ := Nat.mul_le_mul_left S (by omega)
      exact hm.trans (Nat.add_le_add_right since F)
  cases h with
  | fresh h =>
      exact .fresh (h.imp (fun h => ⟨h.1, within⟩) fun h => ⟨h.1, h.2.1, by omega⟩)
  | free D hn hd hp hw ho =>
      refine .free D hn hd hp (by omega) ?_
      rcases hm with hm | hm
      · have passed : S * D ≤ S * (t₀ + τ) := Nat.mul_le_mul_left S (hd.trans hp)
        omega
      · have since : S * (t₀ + τ - max due t₀) + S * D ≤ S * (t₀ + τ) := by
          rw [← Nat.mul_add]
          exact Nat.mul_le_mul_left S (by omega)
        rw [Allowed] at hm
        omega

/-- Late: the deadline moves up to the present, and the bytes stay owed. -/
theorem Capped.catchesUp (h : Capped S B F t₀ τ n W ⟨false, due, owed⟩) (hm : m ≤ B)
    (hd : due + k ≤ t₀ + τ)
    (paid : 1000 * (owed + m) ≤ S * k + F ∨ Allowed S F t₀ (t₀ + τ) due (owed + m)) :
    Capped S B F t₀ τ n (W + m) ⟨false, t₀ + τ, owed + m⟩ := by
  -- since any moment up to the deadline, and not before `t₀`
  have fits {D : Nat} (hD : D ≤ due) (h₀ : t₀ ≤ due) :
      1000 * (owed + m) + S * D ≤ S * (t₀ + τ) + F := by
    rcases paid with paid | paid
    · have passed : S * k + S * D ≤ S * (t₀ + τ) := by
        rw [← Nat.mul_add]
        exact Nat.mul_le_mul_left S (by omega)
      omega
    · have since : S * (t₀ + τ - max due t₀) + S * D ≤ S * (t₀ + τ) := by
        rw [← Nat.mul_add]
        exact Nat.mul_le_mul_left S (by omega)
      rw [Allowed] at paid
      omega
  cases h with
  | fresh h =>
      refine .fresh (.inr ⟨by omega, Nat.le_refl _, ?_⟩)
      rcases h with ⟨-, hw⟩ | ⟨hd', -, -⟩
      · omega
      · have := fits hd' hd'
        rw [Nat.mul_add S t₀] at this
        omega
  | free D hn hd' hp hw ho =>
      exact .free D hn (by omega) (Nat.le_refl _) (by omega) (fits hd' (by omega))

/-- Early: held until the bytes are paid for. -/
theorem Capped.stops (h : Capped S B F t₀ τ n W ⟨false, due, owed⟩) (hm : m ≤ B)
    (paid : 1000 * (owed + m) ≤ S * k + F) (hd : t₀ + τ < due + k) :
    Capped S B F t₀ τ (n + 1) (W + m) ⟨true, due + k, 0⟩ := by
  have before := h.le_of_free rfl
  cases h with
  | fresh h =>
      refine .held (by omega) (by omega) ?_ (by omega)
      rcases h with ⟨rfl, hw⟩ | ⟨hd', -, -⟩
      · have passed : S * (t₀ + τ) ≤ S * k := Nat.mul_le_mul_left S (by omega)
        simp only [Nat.mul_add] at *
        omega
      · have passed : S * t₀ ≤ S * due := Nat.mul_le_mul_left S hd'
        simp only [Nat.mul_add] at *
        omega
  | free D hn hd' hp hw ho =>
      have passed : S * D ≤ S * due := Nat.mul_le_mul_left S hd'
      refine .held (by omega) (by omega) ?_ (by omega)
      simp only [Nat.mul_add] at *
      omega

/-- A tick pays for what it lets through, but for `F`: the bytes owed are charged for in full, or
let through in their time. -/
def Pays (S F t₀ : Nat) (t : Tick) (p : Pacer) : Prop :=
  1000 * (p.owed + t.bytes) ≤ S * t.shouldTake (p.owed + t.bytes) + F ∨
    p.due + t.shouldTake (p.owed + t.bytes) ≤ t.now ∧
      Allowed S F t₀ t.now p.due (p.owed + t.bytes)

/-- **The cap is kept**, tick by tick. -/
theorem Capped.tick (h : Capped S B F t₀ τ n W p) (hS : 0 < S) (hs : t.speed = S)
    (hnow : t.now = t₀ + τ) (hb : t.bytes ≤ B) (hh : p.held = true → t.bytes = 0)
    (paid : Pays S F t₀ t p) :
    Capped S B F t₀ τ (if p.held = false ∧ (p.tick t).held = true then n + 1 else n) (W + t.bytes)
      (p.tick t) := by
  obtain ⟨held, due, owed⟩ := p
  rw [Pays, hnow] at paid
  obtain ⟨rfl, e⟩ | ⟨rfl, hz, e⟩ | ⟨rfl, -, -, hd, e⟩ | ⟨rfl, -, -, hd, e⟩ :=
    tick_cases t ⟨held, due, owed⟩
  · rw [e, if_neg (by simp), hh rfl, Nat.add_zero, hnow]
    exact h.waits
  · rw [e, if_neg (by simp)]
    refine h.owes (paid.imp (fun paid => ?_) And.right)
    rcases hz with hz | hz
    · omega
    · rwa [hz, Nat.mul_zero, Nat.zero_add] at paid
  · rw [e, if_neg (by simp), hnow]
    exact h.catchesUp hb (hnow ▸ hd) (paid.imp_right And.right)
  · rw [e, if_pos ⟨rfl, rfl⟩]
    have early := hnow ▸ hd
    exact h.stops hb (paid.resolve_right fun paid => Nat.not_le_of_lt early paid.1) early

end

end Pacer

end OldStuff.Socks
