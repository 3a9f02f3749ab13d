import OldStuff.Socks.Pacer
import OldStuff.Socks.Stages
import OldStuff.Socks.Steady

/-!
# Socks — the relay drives the limiter

`work_pacer` connects the two levels: a visit to a relay is one tick of a `Pacer`, with the speed
that `config::get_speed` answers, the time of `gettimeofday` and the bytes the visit wrote to
both ends.  What holds of ticks holds of visits.

Two promises of a limiter fail, and both for a counter that is not reset where the bytes it counts
have been dealt with.

* While there is no limit, `try_suspend` returns before it looks at `suspended_bytes_piped`, and
  `pipeing` goes on adding to it: the bytes are billed when the limit comes back.
  `suspension_paid` is what remains true.
* When a transfer is slower than its limit, `try_suspend` moves the deadline and keeps the counter:
  the bytes are charged again on every later visit.  `never_suspended_iff` says which transfers
  within the limit escape.

What a visit charges for is what was counted before it and what it relays (`Visit.counted`).  Where
a bound needs `should_take` to be no more than the exact quotient rounded down, it says so
(`Visit.Fair`); for any number of bytes that a relay will ever count, it is not
(`Visit.fair_of_lt`).
-/

namespace OldStuff.Socks
open OldStuff.Io
open OldStuff.Lib (Outcome)

/-- The fields of the limiter. -/
def SocksConnection.pacer (c : SocksConnection) : Pacer :=
  ⟨c.suspended, c.suspendedTo, c.suspendedBytesPiped⟩

section
variable (s : Side) (c : SocksConnection) (bs : Bytes) (p : Pointer) (time : Int) (n : Nat)

@[simp] theorem pacer_setPending : (c.setPending s bs).pacer = c.pacer := by cases s <;> rfl
@[simp] theorem pacer_setEndpoint : (c.setEndpoint s p).pacer = c.pacer := by cases s <;> rfl
@[simp] theorem pacer_touch : (c.touch time).pacer = c.pacer := rfl
@[simp] theorem pacer_addPiped :
    (c.addPiped n).pacer = { c.pacer with owed := c.pacer.owed + n } := rfl

end

/-- The bytes written to both ends. -/
def relayed (es : List Event) : Nat := (wroteTo .client es).length + (wroteTo .server es).length

/-- What a visit tells the limiter: the speed in force when the visit ends, the time, and the bytes
written. -/
def Visit.tick (v : Visit) : Tick where
  speed := getSpeed v.input.env v.after.conn
  now := v.input.env.timeofday.ms
  bytes := relayed v.after.trace

/-- What `try_suspend` finds counted in a visit. -/
def Visit.counted (v : Visit) : Nat := v.before.conn.suspendedBytesPiped + v.tick.bytes

/-- In this visit `should_take` is no more than the exact quotient, rounded down. -/
def Visit.Fair (v : Visit) : Prop := v.tick.Fair v.counted

/-- In this visit `should_take` is the exact quotient, rounded down. -/
def Visit.Exact (v : Visit) : Prop :=
  shouldTake v.counted v.tick.speed = 1000 * v.counted / v.tick.speed

instance (v : Visit) : Decidable v.Fair := inferInstanceAs (Decidable (v.tick.Fair v.counted))

instance (v : Visit) : Decidable v.Exact := inferInstanceAs (Decidable (_ = _))

theorem Visit.Exact.fair {v : Visit} (h : v.Exact) : v.Fair := Nat.le_of_eq h

/-- A million million bytes are not too many. -/
theorem Visit.fair_of_lt {v : Visit} (hs : 0 < v.tick.speed) (h : 1000 * v.counted < 2 ^ 50) :
    v.Fair :=
  shouldTake_le_div hs h

/-! ### A visit is a tick -/

section
variable {e : Env} {w : World} {p : Pacer}

/-- The limiter is as `p` was, but for the bytes written, which are owed. -/
def Owes (p : Pacer) (w : World) : Prop :=
  w.conn.pacer = { p with owed := p.owed + relayed w.trace }

theorem pipeRead_owes (s : Side) (h : Owes p w) : (pipeRead s e w).Always (Owes p) := by
  refine pipeRead_cases s e w (fun _ => h) (fun _ _ _ _ => h) (fun _ _ _ _ => h)
    (fun d d' _ _ => ?_) fun d d' chunk _ _ => ?_
  · simpa [Owes, Outcome.Always, World.delete, relayed, Event.wroteTo] using h
  · simpa [Owes, Outcome.Always, updateLastActive, relayed, Event.wroteTo] using h

theorem WriteResult.count_le {r : WriteResult} {len n : Nat} (h : r.count len = some n) :
    n ≤ len := by
  cases r with
  | threw => cases h
  | wrote m => obtain rfl := Option.some.inj h; exact Nat.min_le_right ..

theorem pipeWrite_owes (s : Side) (h : Owes p w) : (pipeWrite s e w).Always (Owes p) := by
  have owed {n : Nat} (hn : (e.write s).count (w.conn.pending s).length = some n) :
      relayed (w.trace ++ [Event.wrote s ((w.conn.pending s).take n)]) = relayed w.trace + n := by
    have hlen : ((w.conn.pending s).take n).length = n :=
      List.length_take_of_le (WriteResult.count_le hn)
    cases s
    · simp [relayed, Event.wroteTo, hlen, Nat.add_right_comm]
    · simp [relayed, Event.wroteTo, hlen, Nat.add_assoc]
  refine pipeWrite_cases s e w (fun _ => h) (fun _ _ _ => h) (fun d _ hn => ?_)
    fun d n _ hn _ => ?_
  · -- nothing was written, and nothing is counted
    have hadd := owed hn
    rw [Nat.add_zero] at hadd
    simp only [Owes] at h
    simp only [Owes, Outcome.Always, Outcome.sat_ok, World.sent, World.emit_conn,
      World.onConn_conn, pacer_setPending, World.emit_trace, World.onConn_trace, hadd]
    exact h
  · simp only [Owes] at h
    simp [Owes, Outcome.Always, updateLastActive, World.sent, h, owed hn, Nat.add_assoc]

theorem tryActivate_pacer (h : w.conn.suspended = true) :
    (tryActivate e w).conn.pacer =
      { w.conn.pacer with held := !decide (w.conn.suspendedTo ≤ e.timeofday.ms) } := by
  unfold tryActivate
  rw [if_neg (by simp [h])]
  split
  · next hd => simp [SocksConnection.pacer, hd]
  · next hd => simp [SocksConnection.pacer, hd, h]

theorem trySuspend_pacer (n : Nat) :
    (trySuspend e w).conn.pacer =
      Pacer.charge ⟨getSpeed e w.conn, e.timeofday.ms, n⟩ w.conn.pacer := by
  unfold trySuspend
  dsimp only
  split
  · next h₁ => exact (if_pos h₁).symm
  · next h₁ =>
      split
      · next h₂ => exact ((if_neg h₁).trans (if_pos h₂)).symm
      · next h₂ =>
          split
          · next h₃ => exact ((if_neg h₁).trans ((if_neg h₂).trans (if_pos h₃))).symm
          · next h₃ => exact ((if_neg h₁).trans ((if_neg h₂).trans (if_neg h₃))).symm

/-- `try_suspend` leaves what `get_speed` is asked for. -/
theorem getSpeed_same {w' : World} (h : SameRelay w w') :
    getSpeed e w'.conn = getSpeed e w.conn := by
  have : w'.conn.server = w.conn.server := h.endpoint .server
  rw [getSpeed, getSpeed, remotePort, remotePort, this]

/-- What a visit to a relay does to the limiter; a relay that ends is not charged. -/
structure Paced (e : Env) (p : Pacer) (b : Bool) (es : List Event) (c : SocksConnection) :
    Prop where
  alive : b = true → c.pacer = p.tick ⟨getSpeed e c, e.timeofday.ms, relayed es⟩
  dead : b = false → c.pacer.held = p.held
  held : p.held = true → relayed es = 0

theorem Owes.dead (hp : p.held = false) (h : Owes p w) : Paced e p false w.trace w.conn where
  alive := nofun
  dead := fun _ => by rw [show w.conn.pacer = _ from h]
  held := fun hh => by rw [hp] at hh; cases hh

theorem pipeFinish_paced (hp : p.held = false) (h : Owes p w) :
    Keeps (Paced e p) [] (pipeFinish e w) := by
  refine pipeFinish_cases e w (fun _ _ _ => h.dead hp) (fun _ => h.dead hp) fun _ _ => ?_
  have same := trySuspend_same (e := e) (w := w)
  refine ⟨fun _ => ?_, fun h => (by cases h), fun hh => by rw [hp] at hh; cases hh⟩
  rw [World.log, List.nil_append, same.trace, getSpeed_same same, trySuspend_pacer
    (relayed w.trace), Pacer.tick, if_neg (by rw [hp]; exact Bool.false_ne_true),
    show w.conn.pacer = _ from h]

/-- **A visit to a relay is a tick.** -/
theorem pipeing_paced (ht : w.trace = []) : Keeps (Paced e w.conn.pacer) [] (pipeing e w) := by
  unfold pipeing
  split
  · next hs =>
      have same := tryActivate_same (e := e) (w := w)
      have hn : relayed ((tryActivate e w).log []) = 0 := by
        rw [World.log, List.nil_append, same.trace, ht]
        rfl
      refine ⟨fun _ => ?_, fun h => (by cases h), fun _ => hn⟩
      rw [tryActivate_pacer hs, Pacer.tick, if_pos (show w.conn.pacer.held = true from hs)]
      rfl
  · next hs =>
      have hp : w.conn.pacer.held = false := Bool.eq_false_iff.mpr hs
      -- the four blocks count what they relay, and `try_suspend` charges for it
      have start : Owes w.conn.pacer w := by
        rw [Owes, ht]
        rfl
      have dead {w' : World} (h : Owes w.conn.pacer w') :
          Paced e w.conn.pacer false (w'.log []) w'.conn := h.dead hp
      have block {o : Outcome World Unit} (h : o.Always (Owes w.conn.pacer)) :
          o.Sat (fun _ => Owes w.conn.pacer)
            fun w' => Paced e w.conn.pacer false (w'.log []) w'.conn :=
        h.mono (fun _ _ h => h) fun _ => dead
      exact (block (pipeRead_owes .client start)).bind fun _ _ h =>
        (block (pipeRead_owes .server h)).bind fun _ _ h =>
        (block (pipeWrite_owes .client h)).bind fun _ _ h =>
        (block (pipeWrite_owes .server h)).bind fun _ w' h =>
          pipeFinish_paced (w := w'.onSelect _) hp h

theorem visit_paced {i : Input} {b : Bool} {w' : World} (hw : work i.env (w.enter i) = .ok b w')
    (hst : w.conn.state = .pipeing) : Paced i.env w.conn.pacer b w'.trace w'.conn := by
  have keeps : Keeps (Paced i.env w.conn.pacer) [] (work i.env (w.enter i)) := by
    refine keeps_work ?_
    simp only [handler, show (w.enter i).conn.state = .pipeing from hst]
    exact pipeing_paced rfl
  exact keeps.of_ok hw

/-- The limiter is at rest when `PIPEING` is entered. -/
theorem Entry.pacer {us : List Visit} (h : Entry us w) : w.conn.pacer = Pacer.start := by
  have quiet := h.handshaken.quiet
  rw [SocksConnection.pacer, quiet.suspended, quiet.suspendedTo, quiet.suspendedBytesPiped]
  rfl

variable {us vs : List Visit} {w₀ : World} {b : Bool}

/-- The limiter after some visits is the pacer after their ticks. -/
theorem Run.pacer (h : Run w₀ vs b w) (hb : b = true) (h₀ : Relaying [] w₀.conn) :
    w.conn.pacer = w₀.conn.pacer.after (vs.map Visit.tick) := by
  induction h with
  | start => rfl
  | step i h hw ih =>
      rw [List.map_append, List.map_singleton, Pacer.after_snoc, ← ih rfl]
      exact (visit_paced hw (h.relaying h₀).state).alive hb

/-! ### What a suspension costs -/

/-- `try_suspend` has suspended the connection in this visit. -/
def Visit.Suspends (v : Visit) : Prop :=
  v.before.conn.suspended = false ∧ v.after.conn.suspended = true

instance (v : Visit) : Decidable v.Suspends := inferInstanceAs (Decidable (_ ∧ _))

/-- A visit that ends the relay suspends nothing. -/
theorem Visit.Suspends.alive {v : Visit} (h : v.Suspends)
    (hw : work v.input.env (v.before.enter v.input) = .ok v.alive v.after)
    (hst : v.before.conn.state = .pipeing) : v.alive = true := by
  refine Bool.eq_true_of_not_eq_false fun ha => ?_
  have same : v.after.conn.suspended = v.before.conn.suspended := (visit_paced hw hst).dead ha
  rw [h.1, h.2] at same
  cases same

/-- Where the limit comes on, nothing is left to be charged. -/
def Reset (vs : List Visit) : Prop :=
  ∀ us u v ts, vs = us ++ u :: v :: ts → u.tick.speed = 0 → v.tick.speed ≠ 0 →
    v.before.conn.suspendedBytesPiped = 0

/-- The clock does not run backwards. -/
def Clocked (vs : List Visit) : Prop := vs.Pairwise fun u v => u.tick.now ≤ v.tick.now

instance : Decidable (Clocked vs) :=
  inferInstanceAs (Decidable (vs.Pairwise fun u v => u.tick.now ≤ v.tick.now))

theorem Reset.init {ws : List Visit} (h : Reset (vs ++ ws)) : Reset vs := fun us u v ts he =>
  h us u v (ts ++ ws) (by rw [he, List.append_assoc]; rfl)

theorem Clocked.init {ws : List Visit} (h : Clocked (vs ++ ws)) : Clocked vs :=
  (List.pairwise_append.mp h).1

theorem Reset.owed {v : Visit} (h : Reset (vs ++ [v])) (hu : Pacer.Unlimited (vs.map Visit.tick))
    (hs : v.tick.speed ≠ 0) : v.before.conn.pacer.owed = 0 := by
  obtain ⟨t, ht, hz⟩ := hu
  rw [List.getLast?_map, Option.map_eq_some_iff] at ht
  obtain ⟨u, hu, rfl⟩ := ht
  obtain ⟨us, rfl⟩ := List.getLast?_eq_some_iff.mp hu
  exact h us u v [] (List.append_assoc ..) hz hs

theorem Clocked.last {v : Visit} (h : Clocked (vs ++ [v])) :
    ∀ t ∈ vs.map Visit.tick, t.now ≤ v.tick.now := by
  intro t ht
  obtain ⟨u, hu, rfl⟩ := List.mem_map.mp ht
  exact (List.pairwise_append.mp h).2.2 u hu v (List.mem_singleton_self v)

theorem Run.billing (h : Run w₀ vs b w) (hb : b = true) (h₀ : Relaying [] w₀.conn)
    (hp : w₀.conn.pacer = Pacer.start) (hr : Reset vs) (hc : Clocked vs) :
    Pacer.Billing (vs.map Visit.tick) w.conn.pacer := by
  induction h with
  | start => rw [hp]; exact Pacer.billing_start
  | step i h hw ih =>
      subst hb
      have paced := visit_paced hw (h.relaying h₀).state
      have billing := ih rfl hr.init hc.init
      rw [List.map_append, List.map_singleton, paced.alive rfl]
      exact billing.tick paced.held hr.owed hc.last

/-- **Every suspension is paid for by bytes relayed under the limit**, in every run in which the
limit comes on only where nothing is left to be charged: it lasts at most 1000*B/S milliseconds,
where S is the speed in force and B the bytes relayed since the limit last came on, if
`should_take` is no more than the exact quotient. -/
theorem suspension_paid (he : Entry us w₀) (h : Run w₀ vs b w) (hc : Clocked vs) (hr : Reset vs)
    {ts rest : List Visit} {v : Visit} (hv : vs = ts ++ v :: rest) (hf : v.Fair)
    (hs : v.Suspends) :
    (v.after.conn.suspendedTo - v.tick.now) * v.tick.speed ≤
      1000 * Pacer.billed ((ts ++ [v]).map Visit.tick) := by
  have relaying := he.handshaken.relaying he.state
  obtain ⟨hrun, hw⟩ := h.split hv
  have hpre : vs = (ts ++ [v]) ++ rest := hv.trans (List.append_cons ..)
  have reset : Reset (ts ++ [v]) := (hpre ▸ hr).init
  have clocked : Clocked (ts ++ [v]) := (hpre ▸ hc).init
  have billing := hrun.billing rfl relaying he.pacer reset.init clocked.init
  have relays := (hrun.relaying relaying).state
  have after : v.after.conn.pacer = v.before.conn.pacer.tick v.tick :=
    (visit_paced hw relays).alive (hs.alive hw relays)
  have held : (v.before.conn.pacer.tick v.tick).held = true := by rw [← after]; exact hs.2
  have := billing.suspension (t := v.tick) reset.owed clocked.last hf hs.1 held
  rw [← after] at this
  rw [List.map_append, List.map_singleton]
  exact this

end

namespace Sample

/-- The limit is `speed` from one o'clock on; it is `hour` o'clock, `ms` milliseconds after some
moment. -/
def clock (speed hour ms : Nat) (env : Env) : Env :=
  { env with
    config := { env.config with speed := fun _ => [⟨1, 0, 24, 0, speed⟩] }
    tm := { env.tm with hour, min := 0 }
    timeofday := ⟨1000000000 + ms / 1000, ms % 1000 * 1000⟩ }

def tenBytes : Chunk := ⟨[0, 1, 2, 3, 4, 5, 6, 7, 8, 9], nofun, by decide⟩

/-- Ten bytes come from the client and, at the next visit, go to the server; then nothing moves for
two visits.  `clocks` lists the hours and the milliseconds. -/
def transfer (speed : Nat) (clocks : List (Nat × Nat)) : List Visit × Bool × World :=
  play (handshake request).2.2 (List.zipWith
    (fun i c w => { i w with env := clock speed c.1 c.2 (i w).env })
    [visit [7] [] { env with read := fun _ => .data tenBytes },
      visit [] [8] { env with write := fun _ => .wrote 10 }, visit [] [] env, visit [] [] env]
    clocks)

theorem run_transfer (speed : Nat) (clocks : List (Nat × Nat)) :
    Run (handshake request).2.2 (transfer speed clocks).1 (transfer speed clocks).2.1
      (transfer speed clocks).2.2 :=
  run_play _ _

end Sample

/-- Ten bytes at one byte a second, charged for once they have been sent. -/
theorem suspension_paid_sample :
    let r := Sample.transfer 1 [(1, 0), (1, 1), (1, 2)]
    ∃ ts v, r.1 = ts ++ [v] ∧ v.Suspends ∧
      (v.after.conn.suspendedTo - v.tick.now) * v.tick.speed ≤
        1000 * Pacer.billed ((ts ++ [v]).map Visit.tick) := by
  have clocked : Clocked (Sample.transfer 1 [(1, 0), (1, 1), (1, 2)]).1 := by decide +kernel
  have limited : ∀ v ∈ (Sample.transfer 1 [(1, 0), (1, 1), (1, 2)]).1, v.tick.speed ≠ 0 := by
    decide +kernel
  have reset : Reset (Sample.transfer 1 [(1, 0), (1, 1), (1, 2)]).1 := fun us u v ts he hz =>
    absurd hz (limited u (by rw [he]; simp))
  have split := (List.dropLast_append_getLast (l := (Sample.transfer 1 [(1, 0), (1, 1), (1, 2)]).1)
    (by decide +kernel)).symm
  exact ⟨_, _, split, by decide +kernel, suspension_paid Sample.entry (Sample.run_transfer _ _)
    clocked reset split (by decide +kernel) (by decide +kernel)⟩

/-- Ten bytes relayed before one o'clock, none since: at one o'clock they are charged all the same.
The suspension of almost ten seconds is for no byte at all. -/
theorem suspension_unpaid :
    let r := Sample.transfer 1 [(0, 0), (0, 1), (1, 2), (1, 3)]
    Entry (Sample.handshake Sample.request).1 (Sample.handshake Sample.request).2.2 ∧
      Run (Sample.handshake Sample.request).2.2 r.1 r.2.1 r.2.2 ∧ Clocked r.1 ∧
      (∀ v ∈ r.1, v.Exact) ∧
      ∃ ts v, r.1 = ts ++ [v] ∧ v.Suspends ∧ v.after.conn.suspendedTo - v.tick.now = 9999 ∧
        Pacer.billed ((ts ++ [v]).map Visit.tick) = 0 ∧
        ¬ (v.after.conn.suspendedTo - v.tick.now) * v.tick.speed ≤
          1000 * Pacer.billed ((ts ++ [v]).map Visit.tick) :=
  ⟨Sample.entry, Sample.run_transfer _ _, by decide +kernel, by decide +kernel, _, _,
    (List.dropLast_append_getLast (by decide +kernel)).symm, by decide +kernel, by decide +kernel,
    by decide +kernel, by decide +kernel⟩

/-! ### What all suspensions cost -/

/-- How long this visit suspends the connection for. -/
def Visit.delay (v : Visit) : Nat :=
  if v.Suspends then v.after.conn.suspendedTo - v.tick.now else 0

def delays (vs : List Visit) : Nat := (vs.map Visit.delay).sum

section
variable {w w₀ : World} {us vs : List Visit} {b : Bool} {S : Nat}

@[simp] theorem delays_snoc (vs : List Visit) (v : Visit) :
    delays (vs ++ [v]) = delays vs + v.delay := by
  simp [delays]

theorem relayed_append (es fs : List Event) : relayed (es ++ fs) = relayed es + relayed fs := by
  simp only [relayed, wroteTo_append, List.length_append]
  omega

/-- A visit that ends the relay delays nothing. -/
theorem Visit.delay_eq {v : Visit} {fs : List Event}
    (hw : work v.input.env (v.before.enter v.input) = .ok v.alive v.after)
    (hr : Relaying fs v.before.conn) :
    v.delay = if v.alive then v.before.conn.pacer.delay v.tick else 0 := by
  have paced := visit_paced hw hr.state
  cases ha : v.alive with
  | true =>
      have after : v.after.conn.pacer = v.before.conn.pacer.tick v.tick := paced.alive ha
      rw [if_pos rfl, Pacer.delay, ← after]
      rfl
  | false =>
      have same : v.after.conn.suspended = v.before.conn.suspended := paced.dead ha
      rw [if_neg Bool.false_ne_true, Visit.delay, if_neg]
      rintro ⟨hs, hs'⟩
      rw [same, hs] at hs'
      cases hs'

/-- **The account of the limiter.**  All suspensions so far and what is owed are covered by the
bytes relayed. -/
theorem Run.delays_le (h : Run w₀ vs b w) (hb : b = true) (h₀ : Relaying [] w₀.conn)
    (hp : w₀.conn.pacer = Pacer.start) (hS : 0 < S) (hs : ∀ v ∈ vs, v.tick.speed = S)
    (hc : Clocked vs) (hf : ∀ v ∈ vs, v.Fair) :
    S * delays vs + 1000 * w.conn.suspendedBytesPiped ≤ 1000 * relayed (events vs) := by
  induction h with
  | start =>
      rw [show w₀.conn.suspendedBytesPiped = 0 from congrArg Pacer.owed hp]
      exact Nat.le_refl 0
  | @step vs w w' b i h hw ih =>
      subst hb
      have speed : ∀ v ∈ vs, v.tick.speed = S := fun v hv => hs v (List.mem_append_left _ hv)
      have before := ih rfl speed hc.init fun v hv => hf v (List.mem_append_left _ hv)
      have relaying := h.relaying h₀
      have paced := visit_paced hw relaying.state
      have unlimited : Reset vs := fun us u v ts he hz =>
        absurd (speed u (by rw [he]; simp)) (by rw [hz]; exact Nat.ne_of_lt hS)
      have billing := h.billing rfl h₀ hp unlimited hc.init
      -- the tick pays for its delay with bytes that were owed
      have paid := Pacer.delay_le (t := Visit.tick ⟨i, w, true, w'⟩) paced.held
        (fun hf => billing.passed hf _ hc.last)
        (hf _ (List.mem_append_right _ (List.mem_singleton_self _)))
      have after : w'.conn.pacer = w.conn.pacer.tick (Visit.tick ⟨i, w, true, w'⟩) :=
        paced.alive rfl
      rw [hs _ (by simp), ← after] at paid
      have delay := Visit.delay_eq (v := ⟨i, w, true, w'⟩) hw relaying
      rw [if_pos rfl] at delay
      rw [delays_snoc, events_append, events_singleton, relayed_append, delay, Nat.mul_add]
      have owed : w.conn.pacer.owed = w.conn.suspendedBytesPiped := rfl
      have owed' : w'.conn.pacer.owed = w'.conn.suspendedBytesPiped := rfl
      have bytes : (Visit.tick ⟨i, w, true, w'⟩).bytes = relayed w'.trace := rfl
      dsimp only
      omega

/-- **Throttling delays no more than the traffic warrants.**  With a constant limit of `S` bytes a
second: a connection that is not suspended has a deadline that has passed; and all suspensions
up to any of them, that one included, come to no more than the time that the bytes relayed before
it take at `S`, if `should_take` has been no more than the exact quotient. -/
theorem delays_warranted (he : Entry us w₀) (h : Run w₀ vs b w) (hS : 0 < S)
    (hs : ∀ v ∈ vs, v.tick.speed = S) (hc : Clocked vs) :
    (∀ v ∈ vs, (v.before.conn.suspended = false → v.before.conn.suspendedTo ≤ v.tick.now) ∧
      (v.alive = true → v.after.conn.suspended = false →
        v.after.conn.suspendedTo ≤ v.tick.now)) ∧
    ∀ ts v rest, vs = ts ++ v :: rest → (∀ u ∈ ts ++ [v], u.Fair) → v.Suspends →
      S * delays (ts ++ [v]) ≤ 1000 * relayed (events (ts ++ [v])) := by
  have relaying := he.handshaken.relaying he.state
  have unlimited : Reset vs := fun us u v ts he hz =>
    absurd (hs u (by rw [he]; simp)) (by rw [hz]; exact Nat.ne_of_lt hS)
  -- what holds between two visits
  have passed {ts : List Visit} {w₁ : World} {rest : List Visit} (hv : vs = ts ++ rest)
      (hr : Run w₀ ts true w₁) (hf : w₁.conn.suspended = false) {now : Nat}
      (hn : ∀ u ∈ ts, u.tick.now ≤ now) : w₁.conn.suspendedTo ≤ now := by
    have billing := hr.billing rfl relaying he.pacer (hv ▸ unlimited).init (hv ▸ hc).init
    refine billing.passed hf now fun t ht => ?_
    obtain ⟨u, hu, rfl⟩ := List.mem_map.mp ht
    exact hn u hu
  refine ⟨fun v hv => ?_, fun ts v rest hv hf hsus => ?_⟩
  · obtain ⟨ts, rest, hv, hrun, hw⟩ := h.visit hv
    have clocked : Clocked (ts ++ [v]) := by
      have all : vs = (ts ++ [v]) ++ rest := hv.trans (List.append_cons ..)
      exact (all ▸ hc).init
    -- the clock does not run backwards
    have early : ∀ u ∈ ts, u.tick.now ≤ v.tick.now := fun u hu =>
      (List.pairwise_append.mp clocked).2.2 u hu v (List.mem_singleton_self v)
    refine ⟨fun hf => passed hv hrun hf early, fun ha hf => ?_⟩
    have here := h.upto hv
    rw [ha] at here
    refine passed (hv.trans (List.append_cons ..)) here hf fun u hu => ?_
    rcases List.mem_append.mp hu with hu | hu
    · exact early u hu
    · obtain rfl := List.mem_singleton.mp hu
      exact Nat.le_refl _
  · obtain ⟨hrun, hw⟩ := h.split hv
    have all : vs = (ts ++ [v]) ++ rest := hv.trans (List.append_cons ..)
    have alive := hsus.alive hw (hrun.relaying relaying).state
    have := (h.upto hv).delays_le alive relaying he.pacer hS
      (fun u hu => hs u (by rw [all]; exact List.mem_append_left _ hu)) (all ▸ hc).init hf
    omega

end

/-- Ten bytes at one byte a second: one suspension, of 9999 milliseconds. -/
theorem delays_warranted_sample :
    let r := Sample.transfer 1 [(1, 0), (1, 1), (1, 2)]
    ∃ ts v, r.1 = ts ++ [v] ∧ v.Suspends ∧ delays (ts ++ [v]) = 9999 ∧
      1 * delays (ts ++ [v]) ≤ 1000 * relayed (events (ts ++ [v])) := by
  have clocked : Clocked (Sample.transfer 1 [(1, 0), (1, 1), (1, 2)]).1 := by decide +kernel
  have constant : ∀ v ∈ (Sample.transfer 1 [(1, 0), (1, 1), (1, 2)]).1, v.tick.speed = 1 := by
    decide +kernel
  have split := (List.dropLast_append_getLast (l := (Sample.transfer 1 [(1, 0), (1, 1), (1, 2)]).1)
    (by decide +kernel)).symm
  refine ⟨_, _, split, by decide +kernel, by decide +kernel, ?_⟩
  exact (delays_warranted Sample.entry (Sample.run_transfer _ _) Nat.one_pos constant clocked).2
    _ _ [] split (by decide +kernel) (by decide +kernel)

section
variable {w w₀ : World} {us vs : List Visit} {b : Bool}

/-! ### How much a visit relays -/

/-- A visit writes no more to an end than waits for it or comes for it. -/
theorem visit_relayed_le {theirs : Watch} {past : List Event} {i : Input} {w' : World}
    (hw : work i.env (w.enter i) = .ok b w') (hr : Rely theirs (w.enter i))
    (hs : Sound past w.conn) (hst : w.conn.state = .pipeing) :
    relayed w'.trace ≤ 4 * maxBuffSize := by
  obtain ⟨hne, -⟩ | ⟨-, fs, h⟩ := hs.cases
  · exact absurd hst hne
  · have peak := visit_peak hw hr hs
    have wrote (s : Side) : (wroteTo s.other w'.trace).length ≤ 2 * maxBuffSize := by
      have conserved := congrArg List.length (visit_conserved hw h s)
      have := peak.relay s
      simp only [List.length_append] at conserved
      omega
    have client := wrote .server
    have server := wrote .client
    simp only [Side.other] at client server
    rw [relayed]
    omega

theorem Entry.steady (he : Entry us w₀) (h : Run w₀ vs true w) (hh : ∀ v ∈ us ++ vs, v.Honest) :
    Steady (events (us ++ vs)) w := by
  obtain ⟨self, client, time, hrun⟩ := he.run
  exact (hrun.trans h).steady hh rfl

theorem Run.bytes_le (h : Run w₀ vs b w) (he : Entry us w₀) (hh : ∀ v ∈ us ++ vs, v.Honest) :
    ∀ v ∈ vs, v.tick.bytes ≤ 4 * maxBuffSize := by
  intro v hv
  obtain ⟨ts, rest, rfl, run, call⟩ := h.visit hv
  have honest : ∀ u ∈ us ++ ts, u.Honest := fun u hu => hh u (by
    rw [← List.append_assoc]
    exact List.mem_append_left _ hu)
  have steady := he.steady run honest
  have rely := (hh v (List.mem_append_right _ hv)).rely steady
  exact visit_relayed_le call rely steady.sound
    (run.relaying (he.handshaken.relaying he.state)).state

/-! ### Traffic within the limit -/

theorem Run.neverHeld_iff (h : Run w₀ vs b w) (hb : b = true) (h₀ : Relaying [] w₀.conn) :
    Pacer.NeverHeld w₀.conn.pacer (vs.map Visit.tick) ↔
      ∀ v ∈ vs, v.after.conn.suspended = false := by
  induction h with
  | start => exact ⟨fun _ _ h => (List.not_mem_nil h).elim, fun _ => trivial⟩
  | step i h hw ih =>
      subst hb
      have after := (visit_paced hw (h.relaying h₀).state).alive rfl
      rw [List.map_append, List.map_singleton, Pacer.neverHeld_snoc, ih rfl, ← h.pacer rfl h₀]
      simp only [List.mem_append, List.mem_singleton, or_imp, forall_and, forall_eq]
      have held := (congrArg Pacer.held after).symm
      exact and_congr_right fun _ => iff_of_eq (congrArg (· = false) held)

/-- **A transfer within a constant limit is never suspended exactly when it is unhurried**: once the
bytes relayed so far are said to take a millisecond, every visit must come late enough after the
last for *all* the bytes relayed since `PIPEING` was entered.  (A visit that ends the relay
suspends nothing, so the runs are those that live.) -/
theorem never_suspended_iff (he : Entry us w₀) (h : Run w₀ vs true w)
    (hh : ∀ v ∈ us ++ vs, v.Honest) {S t₀ : Nat} (hS : 0 < S)
    (hs : ∀ v ∈ vs, v.tick.speed = S) (hc : Pacer.Compliant S t₀ (vs.map Visit.tick)) :
    (∀ v ∈ vs, v.after.conn.suspended = false) ↔
      Pacer.Unhurried S t₀ 0 (vs.map Visit.tick) := by
  have afloat : Pacer.Afloat S t₀ 0 w₀.conn.pacer := by
    rw [he.pacer]
    exact Pacer.afloat_start S t₀
  rw [← h.neverHeld_iff rfl (he.handshaken.relaying he.state)]
  refine Pacer.neverHeld_iff hS afloat (fun t ht => ?_) (fun t ht => ?_) hc
  · obtain ⟨v, hv, rfl⟩ := List.mem_map.mp ht
    exact hs v hv
  · obtain ⟨v, hv, rfl⟩ := List.mem_map.mp ht
    have := h.bytes_le he hh v hv
    rw [maxBuffSize] at this
    omega

end

/-- Ten bytes, ten milliseconds after the visit before, at 1000 bytes a second. -/
theorem never_suspended_sample :
    (∀ v ∈ (Sample.transfer 1000 [(1, 0), (1, 10)]).1, v.after.conn.suspended = false) ↔
      Pacer.Unhurried 1000 1000000000000 0
        ((Sample.transfer 1000 [(1, 0), (1, 10)]).1.map Visit.tick) :=
  never_suspended_iff Sample.entry (Sample.run_transfer _ _) (by decide +kernel) (by decide)
    (by decide +kernel) (by decide +kernel)

/-- The same transfer and another visit a millisecond later: the ten bytes are charged again, and
the relay, which is within its limit at every visit, is suspended. -/
theorem compliant_suspended :
    let r := Sample.transfer 1000 [(1, 0), (1, 10), (1, 11)]
    Entry (Sample.handshake Sample.request).1 (Sample.handshake Sample.request).2.2 ∧
      Run (Sample.handshake Sample.request).2.2 r.1 true r.2.2 ∧
      (∀ v ∈ (Sample.handshake Sample.request).1 ++ r.1, v.Honest) ∧
      (∀ v ∈ r.1, v.tick.speed = 1000) ∧
      Pacer.Compliant 1000 1000000000000 (r.1.map Visit.tick) ∧
      ∃ v ∈ r.1, v.after.conn.suspended = true :=
  ⟨Sample.entry, .of_play (by decide +kernel), by decide +kernel, by decide +kernel,
    by decide +kernel, by decide +kernel⟩

end OldStuff.Socks
