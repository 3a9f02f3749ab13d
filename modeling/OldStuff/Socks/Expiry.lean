import OldStuff.Socks.Clock

/-!
# Socks — expiry

`has_expired` looks at `last_active` alone.  `pipeing` sets it whenever something moves, but the
handlers of the handshake never do, so it says when something last moved only if nothing moved in
the handshake after the second in which the connection was created (`expiry_iff`).  Nor does
`has_expired` ask whether the connection is suspended: what `try_suspend` adds to the deadline is
not compared with `pipe_timeout`, and a relay may be dropped while it is not allowed to move, unless
it never owes for longer than it may be inactive (`spared_iff`).
-/

namespace OldStuff.Socks
open OldStuff.Io
open OldStuff.Lib (Outcome)

section
variable {w₀ w u : World} {v : Visit} {vs us : List Visit} {b : Bool} {self : Nat}
  {client : FileDescriptor} {time : Int}

/-! ### The clocks of a run -/

theorem hasExpired_iff (cfg : Config) (t : Int) (w : World) :
    (hasExpired cfg t w).1 = true ↔ w.conn.lastActive + cfg.pipeTimeout < t := by
  unfold hasExpired
  split
  · next h => exact iff_of_true rfl h
  · next h => exact iff_of_false Bool.false_ne_true h

/-- The clocks of a visit in a run. -/
theorem Run.clocks {i : Input} {w' : World} (h : Run (.fresh self client time) vs true w)
    (hw : work i.env (w.enter i) = .ok b w') : Clocks i.env (w.enter i) b w' :=
  work_clocks rfl (fun hst => h.quiet hst) hw

/-- Until it relays, a connection was last active when it was created. -/
theorem Run.created (h : Run (.fresh self client time) vs b w) (hst : w.conn.state ≠ .pipeing) :
    w.conn.lastActive = time := by
  induction h with
  | start => rfl
  | @step vs w w' b i h hw ih =>
      have before : w.conn.state ≠ .pipeing := fun hp => hst (h.stays hw hp)
      exact ((h.clocks hw).handshake before).trans (ih before)

/-! ### Expiry and inactivity -/

/-- The seconds of the visits do not run backwards, from the connection's creation on. -/
structure Punctual (time : Int) (vs : List Visit) : Prop where
  since : ∀ v ∈ vs, time ≤ v.input.env.time
  forward : vs.Pairwise fun u v => u.input.env.time ≤ v.input.env.time

theorem Punctual.init (h : Punctual time (us ++ vs)) : Punctual time us where
  since := fun v hv => h.since v (List.mem_append_left _ hv)
  forward := (List.pairwise_append.mp h.forward).1

theorem Punctual.last (h : Punctual time (us ++ [v])) :
    ∀ u ∈ us, u.input.env.time ≤ v.input.env.time := fun u hu =>
  (List.pairwise_append.mp h.forward).2.2 u hu v (List.mem_singleton_self v)

/-- `has_expired` returns true, after the visits `vs`, only if nothing has moved for so long. -/
def ExpiresIdle (cfg : Config) (vs : List Visit) (w : World) : Prop :=
  ∀ t, (∀ v ∈ vs, v.input.env.time ≤ t) → (hasExpired cfg t w).1 = true →
    ∀ v ∈ vs, Stirred v.after.trace → v.input.env.time + cfg.pipeTimeout < t

/-- Nothing moves in the handshake after the second of the connection's creation. -/
def PromptHandshake (time : Int) (vs : List Visit) : Prop :=
  ∀ v ∈ vs, v.before.conn.state ≠ .pipeing → Stirred v.after.trace → v.input.env.time ≤ time

/-- **What `last_active` records**: whatever has moved since the handshake. -/
theorem Run.lastActive (h : Run (.fresh self client time) vs true w) (hp : Punctual time vs)
    (hh : PromptHandshake time vs) :
    ∀ v ∈ vs, Stirred v.after.trace → v.input.env.time ≤ w.conn.lastActive := by
  generalize hb : true = b at h
  induction h with
  | start => exact fun _ hv => absurd hv List.not_mem_nil
  | @step vs w w' b i h hw ih =>
      have prompt : PromptHandshake time vs := fun v hv => hh v (List.mem_append_left _ hv)
      have before := ih hp.init prompt rfl
      have clocks := h.clocks hw
      intro v hv stirred
      by_cases hst : w.conn.state = .pipeing
      · -- a visit that moves something sets the record to its own time
        by_cases moved : Stirred w'.trace
        · rw [clocks.moved hst moved]
          rcases List.mem_append.mp hv with hv | hv
          · exact hp.last v hv
          · obtain rfl := List.mem_singleton.mp hv
            exact Int.le_refl _
        · rw [clocks.still hst moved]
          rcases List.mem_append.mp hv with hv | hv
          · exact before v hv stirred
          · obtain rfl := List.mem_singleton.mp hv
            exact absurd stirred moved
      · -- a handshake leaves the record at the arrival
        rw [clocks.handshake hst]
        rcases List.mem_append.mp hv with hv | hv
        · exact before v hv stirred
        · obtain rfl := List.mem_singleton.mp hv
          rw [show (w.enter i).conn.lastActive = time from h.created hst]
          exact hh _ (List.mem_append_right _ (List.mem_singleton_self _)) hst stirred

/-- **Expiry means inactivity exactly for a prompt handshake.**  A connection that is reached in a
run is expired by a timeout of no less than zero only when nothing has moved for as long, if and
only if nothing moved in the handshake after the second of its creation.  (With a timeout below
zero it always holds.) -/
theorem expiry_iff (h : Run (.fresh self client time) vs true w) (hp : Punctual time vs)
    (cfg : Config) :
    (∀ us rest x, vs = us ++ rest → Run (.fresh self client time) us true x →
        ExpiresIdle cfg us x) ↔
      (0 ≤ cfg.pipeTimeout → PromptHandshake time vs) := by
  constructor
  · intro idle hT v hv hst stirred
    obtain ⟨us, rest, hvs, hrun, hw⟩ := h.visit hv
    have all : vs = (us ++ [v]) ++ rest := hvs.trans (List.append_cons ..)
    have here := h.upto hvs
    rw [h.alive rfl v hv] at here
    have old : v.after.conn.lastActive = time :=
      ((hrun.clocks hw).handshake hst).trans (hrun.created hst)
    -- a late move of the handshake is not recorded: `has_expired` right after it
    by_contra late
    have punctual : Punctual time (us ++ [v]) := (all ▸ hp).init
    have := idle _ _ _ all here (max v.input.env.time (time + cfg.pipeTimeout + 1))
      (fun u hu => ?_) ?_ v (by simp) stirred
    · omega
    · rcases List.mem_append.mp hu with hu | hu
      · exact (punctual.last u hu).trans (le_max_left ..)
      · obtain rfl := List.mem_singleton.mp hu
        exact le_max_left ..
    · rw [hasExpired_iff, old]
      omega
  · intro prompt us rest x hvs hrun t ht expired v hv stirred
    rw [hasExpired_iff] at expired
    -- with a negative timeout the last move is always longer ago
    by_cases hT : 0 ≤ cfg.pipeTimeout
    · have := hrun.lastActive (hvs ▸ hp).init
        (fun u hu => prompt hT u (by rw [hvs]; exact List.mem_append_left _ hu)) v hv stirred
      omega
    · have := ht v hv
      omega

end

namespace Sample

/-- A connection created in second 100, and these visits to it in these seconds. -/
def timed (visits : List (World → Input)) (seconds : List Nat) : List Visit × Bool × World :=
  play (.fresh 0 client 100) (List.zipWith
    (fun i (t : Nat) w => { i w with env := { (i w).env with time := t, timeofday := ⟨t, 0⟩ } })
    visits seconds)

/-- The timeout of the example configuration. -/
def threeMinutes : Config := { pipeTimeout := 180 }

end Sample

/-- The handshake takes no time, and the relay moves its bytes much later. -/
theorem expiry_iff_sample :
    let r := Sample.timed (Sample.connect Sample.request ++ Sample.relay) [100, 100, 200, 250]
    r.2.2.conn.lastActive = 250 ∧ PromptHandshake 100 r.1 ∧
      ∀ us rest x, r.1 = us ++ rest → Run (.fresh 0 Sample.client 100) us true x →
        ExpiresIdle Sample.threeMinutes us x := by
  have prompt : PromptHandshake 100 (Sample.timed (Sample.connect Sample.request ++ Sample.relay)
      [100, 100, 200, 250]).1 := by
    unfold PromptHandshake
    decide
  exact ⟨rfl, prompt, (expiry_iff (run_play _ _) ⟨by decide, by decide⟩ _).mpr fun _ => prompt⟩

/-- The request comes in second 200, and the reply is written in second 270.  The relay has only
begun; in second 281 it has expired. -/
theorem slow_handshake_expires :
    let r := Sample.timed (Sample.connect Sample.request) [200, 270]
    Run (.fresh 0 Sample.client 100) r.1 true r.2.2 ∧ Punctual 100 r.1 ∧
      r.2.2.conn.state = .pipeing ∧
      (∀ v ∈ r.1, (hasExpired Sample.threeMinutes v.input.env.time v.before).1 = false) ∧
      (hasExpired Sample.threeMinutes 281 r.2.2).1 = true ∧
      (∃ v ∈ r.1, v.input.env.time = 270 ∧ Stirred v.after.trace) ∧
      ¬ ExpiresIdle Sample.threeMinutes r.1 r.2.2 := by
  refine ⟨run_play _ _, ⟨by decide, by decide⟩, rfl, by decide, rfl, by decide, fun idle => ?_⟩
  have := idle 281 (by decide) rfl _ (List.mem_cons_of_mem _ List.mem_cons_self) (by decide)
  revert this
  decide

section
variable {w₀ w u : World} {v : Visit} {vs us : List Visit} {b : Bool} {self : Nat}
  {client : FileDescriptor} {time : Int}

/-! ### Expiry and the limiter -/

/-- From `now` on and until the deadline, a connection that is suspended has not expired. -/
def Spared (cfg : Config) (now : Nat) (w : World) : Prop :=
  w.conn.suspended = true → ∀ ms, now ≤ ms → ms < w.conn.suspendedTo →
    (hasExpired cfg (ms / 1000 : Nat) w).1 = false

/-- The second in which something last moved in the relay: that of this visit, or an earlier one. -/
def Visit.lastMove (v : Visit) : Int :=
  if Stirred v.after.trace then v.input.env.time else v.before.conn.lastActive

/-- When a relay that is not suspended will have paid for the bytes counted in this visit. -/
def Visit.due (v : Visit) : Nat :=
  v.before.conn.suspendedTo + shouldTake v.counted v.tick.speed

/-- The relay owes for no longer than it may be inactive: the bytes counted in this visit are paid
for before it is over, or else no later than `pipe_timeout` full seconds after the second in which
something last moved. -/
def Visit.Affordable (cfg : Config) (v : Visit) : Prop :=
  v.before.conn.state = .pipeing → v.before.conn.suspended = false →
    shouldTake v.counted v.tick.speed ≠ 0 →
      v.due ≤ v.tick.now ∨ (v.due : Int) ≤ 1000 * (v.lastMove + cfg.pipeTimeout + 1)

instance (cfg : Config) (v : Visit) : Decidable (v.Affordable cfg) :=
  inferInstanceAs (Decidable (_ → _ → _ → _))

/-- `has_expired` in terms of milliseconds. -/
theorem not_expired_iff (cfg : Config) (ms : Nat) (w : World) :
    (hasExpired cfg (ms / 1000 : Nat) w).1 = false ↔
      (ms : Int) < 1000 * (w.conn.lastActive + cfg.pipeTimeout + 1) := by
  rw [Bool.eq_false_iff, ne_eq, hasExpired_iff]
  omega

/-- What a visit does to a relay that lives. -/
theorem Run.lives (h : Run (.fresh self client time) vs true w) {i : Input} {w' : World}
    (hw : work i.env (w.enter i) = .ok true w') (hst : w.conn.state = .pipeing) :
    w'.conn.pacer = w.conn.pacer.tick (Visit.tick ⟨i, w, true, w'⟩) ∧
      w'.conn.lastActive = Visit.lastMove ⟨i, w, true, w'⟩ := by
  have clocks := h.clocks hw
  refine ⟨(visit_paced hw hst).alive rfl, ?_⟩
  unfold Visit.lastMove
  split
  · next moved => exact clocks.moved hst moved
  · next moved => exact clocks.still hst moved

/-- What a suspended connection has been promised. -/
theorem Run.within (h : Run (.fresh self client time) vs b w) (hb : b = true) {cfg : Config}
    (ha : ∀ v ∈ vs, v.Affordable cfg) (hs : w.conn.suspended = true) :
    (w.conn.suspendedTo : Int) ≤ 1000 * (w.conn.lastActive + cfg.pipeTimeout + 1) := by
  induction h with
  | start => cases hs
  | @step vs w w' b i h hw ih =>
      subst hb
      have before := ih rfl fun v hv => ha v (List.mem_append_left _ hv)
      have affordable := ha ⟨i, w, true, w'⟩ (by simp)
      -- only a relay is suspended
      have relays : w.conn.state = .pipeing := by
        by_contra hst
        have untimed := (work_untimed (w := w.enter i) hst).of_ok hw
        rw [untimed.suspended, show (w.enter i).conn.suspended = false from h.quiet hst] at hs
        cases hs
      obtain ⟨pacer, move⟩ := h.lives hw relays
      have due : w'.conn.suspendedTo = w'.conn.pacer.due := rfl
      have held : w'.conn.pacer.held = true := hs
      rw [move, due]
      rw [pacer] at held ⊢
      obtain ⟨hh, e⟩ | ⟨-, -, e⟩ | ⟨-, -, -, -, e⟩ | ⟨hh, -, take, future, e⟩ :=
        Pacer.tick_cases (Visit.tick ⟨i, w, true, w'⟩) w.conn.pacer
      · -- still waiting for the same deadline, and nothing moves
        have still : w'.conn.lastActive = w.conn.lastActive := by
          rw [work_waits (w := w.enter i) relays hh] at hw
          obtain ⟨-, rfl⟩ := Outcome.ok.inj hw
          exact tryActivate_lastActive
        rw [e, ← move, still]
        exact before hh
      · rw [e] at held
        cases held
      · rw [e] at held
        cases held
      · rw [e]
        exact (affordable relays hh take.ne').resolve_left (Nat.not_le_of_lt future)

/-- **Throttling does not kill exactly when it is affordable.**  In every run: a connection that is
left suspended has not expired before its deadline, after any visit, if and only if no visit to
the relay leaves it owing for longer than it may be inactive. -/
theorem spared_iff (h : Run (.fresh self client time) vs true w) (cfg : Config) :
    (∀ v ∈ vs, Spared cfg v.input.env.timeofday.ms v.after) ↔ ∀ v ∈ vs, v.Affordable cfg := by
  constructor
  · intro spared v hv relays awake take
    obtain ⟨us, rest, hvs, run, hw⟩ := h.visit hv
    rw [h.alive rfl v hv] at hw
    obtain ⟨pacer, move⟩ := run.lives hw relays
    refine Decidable.or_iff_not_imp_left.mpr fun future => ?_
    have future : v.tick.now < v.due := Nat.lt_of_not_le future
    have limited : 0 < v.tick.speed := Nat.pos_of_ne_zero fun hz => take (by
      rw [hz]
      exact shouldTake_zero_right)
    -- the visit suspends the relay until then
    have after : v.after.conn.pacer = ⟨true, v.due, 0⟩ := by
      rw [pacer]
      obtain ⟨hh, -⟩ | ⟨-, hz, -⟩ | ⟨-, -, -, hd, -⟩ | ⟨-, -, -, -, e⟩ :=
        Pacer.tick_cases v.tick v.before.conn.pacer
      · exact absurd (awake.symm.trans hh) Bool.false_ne_true
      · exact absurd hz (not_or.mpr ⟨limited.ne', take⟩)
      · exact absurd hd (Nat.not_le_of_lt future)
      · exact e
    have due : v.after.conn.suspendedTo = v.due := congrArg Pacer.due after
    have alive := spared v hv (congrArg Pacer.held after) (v.due - 1) (Nat.le_sub_one_of_lt future)
      (by omega)
    rw [not_expired_iff, move] at alive
    change ((v.due - 1 : Nat) : Int) < 1000 * (v.lastMove + _ + 1) at alive
    omega
  · intro affordable v hv hs ms _ hms
    obtain ⟨us, rest, hvs⟩ := List.append_of_mem hv
    have here := h.upto hvs
    have before : ∀ x ∈ us ++ [v], x ∈ vs := by
      intro x hx
      rw [hvs, List.append_cons]
      exact List.mem_append_left _ hx
    have within := here.within (h.alive rfl v hv) (fun x hx => affordable x (before x hx)) hs
    rw [not_expired_iff]
    omega

end

namespace Sample

/-- One byte a second. -/
def strict : Env := clock 1 1 0 env

def fiveSeconds : Config := { pipeTimeout := 5 }

/-- Ten bytes get through, and the limiter charges for them. -/
def burstVisits : List (World → Input) :=
  connect request ++
    [visit [7] [] { strict with read := fun _ => .data tenBytes },
      visit [] [8] { strict with write := fun _ => .wrote 10 }, visit [] [] strict]

/-- They take a second. -/
def burst : List Visit × Bool × World := timed burstVisits [100, 100, 100, 100, 101]

end Sample

/-- With three minutes nine seconds do no harm. -/
theorem spared_iff_sample :
    let r := Sample.burst
    r.2.2.conn.suspended = true ∧ r.2.2.conn.suspendedTo = 110000 ∧
      ∀ v ∈ r.1, Spared Sample.threeMinutes v.input.env.timeofday.ms v.after :=
  ⟨by decide +kernel, by decide +kernel,
    (spared_iff (.of_play (by decide +kernel)) Sample.threeMinutes).mpr (by decide +kernel)⟩

/-- With five seconds they do: the limiter holds the relay back until second 110, and in second 106
it has expired. -/
theorem suspended_expires :
    let r := Sample.burst
    Run (.fresh 0 Sample.client 100) r.1 true r.2.2 ∧
      (∀ v ∈ r.1, (hasExpired Sample.fiveSeconds v.input.env.time v.before).1 = false) ∧
      r.2.2.conn.suspended = true ∧ 106000 < r.2.2.conn.suspendedTo ∧
      (hasExpired Sample.fiveSeconds 106 r.2.2).1 = true ∧
      ¬ Spared Sample.fiveSeconds 101000 r.2.2 := by
  refine ⟨.of_play (by decide +kernel), by decide +kernel, by decide +kernel, by decide +kernel,
    by decide +kernel, fun spared => ?_⟩
  have := spared (by decide +kernel) 106000 (by decide) (by decide +kernel)
  revert this
  decide +kernel

end OldStuff.Socks
