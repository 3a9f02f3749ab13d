import OldStuff.Socks.Throttle

/-!
# Socks — the cap on a relay

What a relay writes in a visit is bounded by its buffers and by what the visit reads
(`Run.bytes_le`), so that a visit is a tick of bounded size, and the cap of the limiter by itself
(`Pacer.Capped`) is the cap of the relay.

`should_take` counts whole milliseconds: bytes worth less than one are let through at once, and
every charge drops the fraction and resets the counter.  A relay keeps its cap, with a burst of two
full rounds of its buffers, if there is never a fraction to drop (`bandwidth_cap`).  Otherwise
every suspension may let through what a millisecond is worth (`bandwidth_bound`), and no burst
allowance is enough (`allowance_exceeded`).
-/

namespace OldStuff.Socks
open OldStuff.Io

/-- How many of the visits suspended the connection. -/
def suspensions (vs : List Visit) : Nat := vs.countP fun v => v.Suspends

/-- There is no fraction of a millisecond to drop: what is counted takes no longer than the time
since the deadline, or since `t₀`, or it takes a whole number of milliseconds. -/
def Visit.Whole (t₀ : Nat) (v : Visit) : Prop :=
  1000 * v.counted ≤ v.tick.speed * (v.tick.now - max v.before.conn.suspendedTo t₀) ∨
    v.tick.speed ∣ 1000 * v.counted

instance (t₀ : Nat) (v : Visit) : Decidable (v.Whole t₀) := inferInstanceAs (Decidable (_ ∨ _))

section
variable {w w₀ : World} {b : Bool} {us vs : List Visit} {v : Visit} {S F t₀ t τ : Nat}

/-! ### What a visit lets through for nothing -/

/-- A visit pays for what it lets through, but for `F` thousandths of a byte. -/
def Visit.Pays (F t₀ : Nat) (v : Visit) : Prop :=
  Pacer.Pays v.tick.speed F t₀ v.tick v.before.conn.pacer

/-- What is rounded down drops a fraction of a millisecond. -/
theorem Visit.Exact.pays (h : v.Exact) (hs : 0 < v.tick.speed) : v.Pays v.tick.speed t₀ := by
  refine .inl ?_
  have floor := Nat.lt_div_mul_add (a := 1000 * v.counted) hs
  have take : shouldTake v.counted v.tick.speed = 1000 * v.counted / v.tick.speed := h
  rw [← take, Nat.mul_comm _ v.tick.speed] at floor
  exact floor.le

/-- The quotient of `double`s drops two milliseconds at most. -/
theorem Visit.pays_of_lt (hs : 0 < v.tick.speed) (h : 1000 * v.counted < 2 ^ 50) :
    v.Pays (2 * v.tick.speed) t₀ := by
  refine .inl ?_
  have small : 1000 * v.counted < 2 ^ 50 * v.tick.speed :=
    h.trans_le (Nat.le_mul_of_pos_right _ hs)
  have := (lt_shouldTake hs small).le
  rwa [Nat.mul_add, Nat.mul_comm _ 2] at this

/-- Where there is no fraction, nothing is dropped. -/
theorem Visit.Whole.pays (h : v.Whole t₀) (he : v.Exact) : v.Pays 0 t₀ := by
  rcases h with h | h
  · by_cases hd : max v.before.conn.suspendedTo t₀ ≤ v.tick.now
    · -- the deadline is still in the past when the bytes have been charged for
      have take : shouldTake v.counted v.tick.speed ≤
          v.tick.now - max v.before.conn.suspendedTo t₀ :=
        he.trans_le (Nat.div_le_of_le_mul h)
      refine .inr ⟨?_, h⟩
      change v.before.conn.suspendedTo + shouldTake v.counted v.tick.speed ≤ _
      omega
    · rw [Nat.sub_eq_zero_of_le (Nat.le_of_not_le hd), Nat.mul_zero] at h
      exact .inl (h.trans (Nat.zero_le _))
  · refine .inl (Nat.le_of_eq ?_)
    change 1000 * v.counted = v.tick.speed * shouldTake v.counted v.tick.speed
    rw [he, Nat.mul_div_cancel' h]

/-! ### A relay is a pacer -/

theorem suspensions_snoc (vs : List Visit) (v : Visit) :
    suspensions (vs ++ [v]) = if v.Suspends then suspensions vs + 1 else suspensions vs := by
  rw [suspensions, List.countP_append, List.countP_singleton]
  simp only [decide_eq_true_eq]
  split <;> rfl

/-- One more visit to a relay. -/
structure Next (us : List Visit) (w₀ : World) (vs : List Visit) (v : Visit) : Prop where
  entry : Entry us w₀
  run : Run w₀ vs true v.before
  call : work v.input.env (v.before.enter v.input) = .ok v.alive v.after
  honest : ∀ u ∈ us ++ (vs ++ [v]), u.Honest

namespace Next

theorem paced (h : Next us w₀ vs v) :
    Paced v.input.env v.before.conn.pacer v.alive v.after.trace v.after.conn :=
  visit_paced h.call (h.run.relaying (h.entry.handshaken.relaying h.entry.state)).state

theorem bytes_le (h : Next us w₀ vs v) : v.tick.bytes ≤ 4 * maxBuffSize :=
  (Run.step v.input h.run h.call).bytes_le h.entry h.honest v
    (List.mem_append_right _ (List.mem_singleton_self v))

theorem relayed_eq (vs : List Visit) (v : Visit) :
    relayed (events (vs ++ [v])) = relayed (events vs) + v.tick.bytes := by
  rw [events_append, events_singleton, relayed_append]
  rfl

/-- A visit that goes on is a tick. -/
theorem capped (h : Next us w₀ vs v) (hS : 0 < S) (hs : v.tick.speed = S)
    (hτ : v.tick.now = t₀ + τ) (hp : v.Pays F t₀) (ha : v.alive = true)
    (hc : Pacer.Capped S (4 * maxBuffSize) F t₀ τ (suspensions vs) (relayed (events vs))
      v.before.conn.pacer) :
    Pacer.Capped S (4 * maxBuffSize) F t₀ τ (suspensions (vs ++ [v]))
      (relayed (events (vs ++ [v]))) v.after.conn.pacer := by
  have after : v.after.conn.pacer = v.before.conn.pacer.tick v.tick := h.paced.alive ha
  have suspends : v.Suspends ↔ v.before.conn.pacer.held = false ∧
      (v.before.conn.pacer.tick v.tick).held = true := by
    rw [← after]
    exact Iff.rfl
  rw [relayed_eq, suspensions_snoc, after, if_congr suspends rfl rfl]
  exact hc.tick hS hs hτ h.bytes_le h.paced.held (hs ▸ hp)

/-- A visit that ends the relay adds its bytes. -/
theorem ended (h : Next us w₀ vs v) (ha : v.alive = false)
    (hc : Pacer.Capped S (4 * maxBuffSize) F t₀ τ (suspensions vs) (relayed (events vs))
      v.before.conn.pacer) :
    1000 * relayed (events (vs ++ [v])) ≤
        S * τ + F * (suspensions (vs ++ [v]) + 1) + 1000 * (2 * (4 * maxBuffSize)) ∧
      suspensions (vs ++ [v]) ≤ τ + 1 := by
  have still : ¬ v.Suspends := by
    rintro ⟨hs, hs'⟩
    have : v.after.conn.suspended = v.before.conn.suspended := h.paced.dead ha
    rw [hs, hs'] at this
    cases this
  rw [relayed_eq, suspensions_snoc, if_neg still]
  exact ⟨hc.add_le h.bytes_le h.paced.held, hc.count_le⟩

end Next

/-- The limiter of a relay, after each of its visits. -/
theorem Run.capped (he : Entry us w₀) (h : Run w₀ vs b w) (hh : ∀ v ∈ us ++ vs, v.Honest)
    (hS : 0 < S) (hs : ∀ v ∈ vs, v.tick.speed = S) (hc : Clocked vs)
    (ht : ∀ v ∈ vs, t₀ ≤ v.tick.now ∧ v.tick.now ≤ t₀ + τ) (hp : ∀ v ∈ vs, v.Pays F t₀)
    (hb : b = true) :
    Pacer.Capped S (4 * maxBuffSize) F t₀ τ (suspensions vs) (relayed (events vs))
      w.conn.pacer := by
  induction h generalizing τ with
  | start =>
      rw [he.pacer]
      exact Pacer.capped_start _ _ _ _ _
  | @step vs w w' b i h hw ih =>
      have last := List.mem_append_right vs (List.mem_singleton_self (⟨i, w, b, w'⟩ : Visit))
      have past {v u : Visit} (hu : u ∈ vs) : u ∈ vs ++ [v] := List.mem_append_left _ hu
      obtain ⟨σ, hσ⟩ := Nat.exists_eq_add_of_le (ht _ last).1
      have hle : σ ≤ τ := by
        have := (ht _ last).2
        omega
      have before : Pacer.Capped S _ F t₀ σ _ _ _ := ih
        (fun u hu => hh u (by
          rcases List.mem_append.mp hu with hu | hu
          · exact List.mem_append_left _ hu
          · exact List.mem_append_right _ (past hu)))
        (fun u hu => hs u (past hu)) hc.init
        (fun u hu => ⟨(ht u (past hu)).1, hσ ▸ hc.last _ (List.mem_map_of_mem hu)⟩)
        (fun u hu => hp u (past hu)) rfl
      exact (Next.capped ⟨he, h, hw, hh⟩ hS (hs _ last) hσ (hp _ last) hb before).mono hle

/-- **The bound.**  At a constant speed `S`, and a clock that does not run backwards, a relay that
started at `t₀` has written by the time `t` at most what the speed allows, two full rounds of its
buffers, and what it let through for nothing, at the start and at every suspension so far; and
there are no more of these than milliseconds. -/
theorem bandwidth_bound (he : Entry us w₀) (h : Run w₀ vs b w) (hh : ∀ v ∈ us ++ vs, v.Honest)
    (hS : 0 < S) (hs : ∀ v ∈ vs, v.tick.speed = S) (hc : Clocked vs)
    (ht : ∀ v ∈ vs, t₀ ≤ v.tick.now ∧ v.tick.now ≤ t) (hp : ∀ v ∈ vs, v.Pays F t₀) :
    1000 * relayed (events vs) ≤ S * (t - t₀) + F * (suspensions vs + 1) + 1000 * 32768 ∧
      suspensions vs ≤ t - t₀ + 1 := by
  have within {v : Visit} (hv : v ∈ vs) : t₀ ≤ v.tick.now ∧ v.tick.now ≤ t₀ + (t - t₀) := by
    have := ht v hv
    omega
  rw [show 32768 = 2 * (4 * maxBuffSize) by decide]
  cases h with
  | start =>
      have capped := Run.capped he .start hh hS hs hc (fun v => within) hp rfl
      exact ⟨capped.le, capped.count_le⟩
  | @step vs w _ _ i h hw =>
      cases b with
      | true =>
          have capped := Run.capped he (.step i h hw) hh hS hs hc (fun v => within) hp rfl
          exact ⟨capped.le, capped.count_le⟩
      | false =>
          have past {v u : Visit} (hu : u ∈ vs) : u ∈ vs ++ [v] := List.mem_append_left _ hu
          have before := Run.capped he h
            (fun u hu => hh u (by
              rcases List.mem_append.mp hu with hu | hu
              · exact List.mem_append_left _ hu
              · exact List.mem_append_right _ (past hu)))
            hS (fun u hu => hs u (past hu)) hc.init (fun u hu => within (past hu))
            (fun u hu => hp u (past hu)) rfl
          exact Next.ended ⟨he, h, hw, hh⟩ rfl before

/-- With `should_take` rounded down exactly, a millisecond comes for nothing at the start and one
with every suspension. -/
theorem bandwidth_bound_exact (he : Entry us w₀) (h : Run w₀ vs b w)
    (hh : ∀ v ∈ us ++ vs, v.Honest) (hS : 0 < S) (hs : ∀ v ∈ vs, v.tick.speed = S)
    (hc : Clocked vs) (ht : ∀ v ∈ vs, t₀ ≤ v.tick.now ∧ v.tick.now ≤ t)
    (hx : ∀ v ∈ vs, v.Exact) :
    1000 * relayed (events vs) ≤ S * (t - t₀) + S * (suspensions vs + 1) + 1000 * 32768 ∧
      suspensions vs ≤ t - t₀ + 1 := by
  refine bandwidth_bound he h hh hS hs hc ht fun v hv => ?_
  have paid : v.Pays v.tick.speed t₀ := (hx v hv).pays (by rw [hs v hv]; exact hS)
  rwa [hs v hv] at paid

/-- With the `double`s, two milliseconds do, as long as a relay does not count a million million
bytes. -/
theorem bandwidth_bound_double (he : Entry us w₀) (h : Run w₀ vs b w)
    (hh : ∀ v ∈ us ++ vs, v.Honest) (hS : 0 < S) (hs : ∀ v ∈ vs, v.tick.speed = S)
    (hc : Clocked vs) (ht : ∀ v ∈ vs, t₀ ≤ v.tick.now ∧ v.tick.now ≤ t)
    (hx : ∀ v ∈ vs, 1000 * v.counted < 2 ^ 50) :
    1000 * relayed (events vs) ≤ S * (t - t₀) + 2 * S * (suspensions vs + 1) + 1000 * 32768 ∧
      suspensions vs ≤ t - t₀ + 1 := by
  refine bandwidth_bound he h hh hS hs hc ht fun v hv => ?_
  have paid : v.Pays (2 * v.tick.speed) t₀ :=
    Visit.pays_of_lt (by rw [hs v hv]; exact hS) (hx v hv)
  rwa [hs v hv] at paid

/-- **The cap.**  A relay that started at `t₀`, at a constant speed `S`, a clock that does not run
backwards, and with `should_take` rounded down exactly: if there is never a fraction to drop, it
has written by the time `t` at most what the speed allows and two full rounds of its buffers. -/
theorem bandwidth_cap (he : Entry us w₀) (h : Run w₀ vs b w) (hh : ∀ v ∈ us ++ vs, v.Honest)
    (hS : 0 < S) (hs : ∀ v ∈ vs, v.tick.speed = S) (hc : Clocked vs)
    (ht : ∀ v ∈ vs, t₀ ≤ v.tick.now ∧ v.tick.now ≤ t) (hx : ∀ v ∈ vs, v.Exact)
    (hw : ∀ v ∈ vs, v.Whole t₀) :
    1000 * relayed (events vs) ≤ S * (t - t₀) + 1000 * 32768 := by
  have := (bandwidth_bound (F := 0) he h hh hS hs hc ht fun v hv => (hw v hv).pays (hx v hv)).1
  rw [Nat.zero_mul] at this
  omega

end

namespace Sample

/-! ### Two bytes a millisecond -/

/-- The server of the sample: descriptor 8. -/
def far : FileDescriptor := ⟨1, 8, ⟨20480, 16777226⟩⟩

def twoBytes : Chunk := ⟨[1, 2], nofun, by decide⟩

/-- At 1001 bytes a second two bytes take 1998 microseconds. -/
def limited (ms : Nat) (e : Env) : Env := clock 1001 1 ms e

/-- The client sends two bytes. -/
def arrival (ms : Nat) : World → Input :=
  visit [7] [] (limited ms { env with read := fun _ => .data twoBytes })

/-- The server takes them. -/
def departure (ms : Nat) : World → Input :=
  visit [] [8] (limited ms { env with write := fun _ => .wrote 2 })

/-- Nothing is ready. -/
def idle (ms : Nat) : World → Input := visit [] [] (limited ms env)

/-- The relay of the sample: its deadline in milliseconds, whether it is suspended, and what waits
for the server. -/
structure Dripping (due : Nat) (held : Bool) (out : Bytes) (w : World) : Prop where
  conn : w.conn = { SocksConnection.new client 0 with
    server := some far
    state := .pipeing
    suspended := held
    suspendedTo := 1000000000000 + due
    suspendedDescriptorsSet := ⟨true, false, true, false⟩
    serverWriteBuff := out }
  read : w.select.fileDescriptorsRead.toList = if held then [] else [some client, some far]
  write : w.select.fileDescriptorsWrite.toList = if out = [] then [] else [some far]
  nextId : w.nextId = 2

/-- The first charge finds the deadline in the past, and is made twice. -/
def prelude : List (World → Input) := [arrival 0, departure 0, idle 0, idle 1]

theorem dripping_prelude :
    Dripping 1 false [] (play (handshake request).2.2 prelude).2.2 :=
  ⟨by decide +kernel, by decide +kernel, by decide +kernel, by decide +kernel⟩

section
variable {k ms : Nat} {held : Bool} {out : Bytes} {w : World}

theorem limited_ms (e : Env) : (limited ms e).timeofday.ms = 1000000000000 + ms := by
  simp only [limited, clock, Timeval.ms]
  omega

theorem limited_speed (e : Env) (he : e.config.speedPort = ∅) (c : SocksConnection) :
    getSpeed (limited ms e) c = 1001 := by
  simp [getSpeed, Config.getSpeed, limited, clock, he, Config.getSpeedTime]

/-- Two bytes are charged one millisecond. -/
theorem take_twoBytes : shouldTake 2 1001 = 1 := by decide +kernel

theorem limited_read (e : Env) : (limited ms e).read = e.read := rfl
theorem limited_write (e : Env) : (limited ms e).write = e.write := rfl

theorem arrival_sat (h : Dripping k false [] w) :
    (work (arrival k w).env (w.enter (arrival k w))).Sat
      (fun b w' => b = true ∧ Dripping k false [1, 2] w' ∧ w'.trace = [.read .client [1, 2]])
      fun _ => False := by
  obtain ⟨self, conn, ⟨⟨rs, hr⟩, ⟨ws, hw⟩, _, _⟩, tv, status, nextId, trace⟩ := w
  obtain ⟨hc, hr, hw, hi⟩ := h
  dsimp only [if_true, Bool.false_eq_true, if_false] at hc hr hw hi
  subst hc hr hw hi
  simp [arrival, visit, World.enter, work, handler, pipeing, pipeRead, SocksConnection.endpoint,
    Side.other, Select.canRead, client, far, SocksConnection.new, updateLastActive, limited_read,
    World.onConn, World.emit, World.onSelect, SocksConnection.pending, twoBytes,
    SocksConnection.setPending, SocksConnection.touch, addWriteIf, Select.addWrite,
    Lib.Roster.add, pipeWrite, Select.canWrite, registerRead, maxBuffSize, Select.addRead,
    pipeFinish, trySuspend]
  exact ⟨rfl, rfl, rfl, rfl⟩

theorem departure_sat (h : Dripping k false [1, 2] w) :
    (work (departure k w).env (w.enter (departure k w))).Sat
      (fun b w' => b = true ∧ Dripping (k + 1) true [] w' ∧ w'.trace = [.wrote .server [1, 2]])
      fun _ => False := by
  obtain ⟨self, conn, ⟨⟨rs, hr⟩, ⟨ws, hw⟩, _, _⟩, tv, status, nextId, trace⟩ := w
  obtain ⟨hc, hr, hw, hi⟩ := h
  dsimp only [Bool.false_eq_true, if_false] at hc hr hw hi
  subst hc hr hi
  simp at hw
  subst hw
  simp [departure, visit, World.enter, work, handler, pipeing, pipeRead, SocksConnection.endpoint,
    Side.other, Select.canRead, client, far, SocksConnection.new, updateLastActive, limited_write,
    World.onConn, World.emit, World.onSelect, SocksConnection.pending, send, WriteResult.count,
    SocksConnection.setPending, SocksConnection.touch, removeWriteIf, Select.removeWrite,
    SocksConnection.addPiped, Lib.Roster.remove,
    Lib.Roster.add, pipeWrite, Select.canWrite, registerRead, maxBuffSize, Select.addRead,
    pipeFinish, trySuspend, limited_speed, take_twoBytes, env, limited_ms]
  exact ⟨rfl, rfl, rfl, rfl⟩

theorem idle_sat (h : Dripping (k + 1) true [] w) :
    (work (idle (k + 1) w).env (w.enter (idle (k + 1) w))).Sat
      (fun b w' => b = true ∧ Dripping (k + 1) false [] w' ∧ w'.trace = [])
      fun _ => False := by
  obtain ⟨self, conn, ⟨⟨rs, hr⟩, ⟨ws, hw⟩, _, _⟩, tv, status, nextId, trace⟩ := w
  obtain ⟨hc, hr, hw, hi⟩ := h
  dsimp only [if_true] at hc hr hw hi
  subst hc hr hw hi
  simp [idle, visit, World.enter, work, handler, pipeing, client, far, SocksConnection.new,
    World.onConn, World.onSelect, tryActivate, limited_ms, addReadIf, addWriteIf, Select.addRead,
    Lib.Roster.add]
  exact ⟨rfl, rfl, rfl, rfl⟩

/-- The relay of the sample has nothing registered but its ends, and these both unless it is
suspended. -/
theorem Dripping.honest (h : Dripping k held out w) (rs ws : List Nat)
    (hrs : held = true → rs = []) (e : Env) (b : Bool) (w' : World) :
    (⟨visit rs ws e w, w, b, w'⟩ : Visit).Honest := by
  have owned : w.conn.owned = [client, far] := by rw [h.conn]; rfl
  have ids : ∀ d ∈ w.conn.owned, d.id < w.nextId := by
    rw [owned, h.nextId]
    decide
  have ends {p : Pointer} (hp : p ∈ [client, far].map some) :
      ∃ d, p = some d ∧ d.id < w.nextId := by
    obtain ⟨d, hd, rfl⟩ := List.mem_map.mp hp
    exact ⟨d, rfl, ids d (owned ▸ hd)⟩
  refine ⟨fun _ _ => Iff.rfl, fun _ _ => Iff.rfl, fun p hp => ends ?_, ids, fun d hd hc => ?_⟩
  · rcases hp with hp | hp
    · have hp : p ∈ w.select.fileDescriptorsRead.toList := hp
      rw [h.read] at hp
      split at hp
      · cases hp
      · exact hp
    · have hp : p ∈ w.select.fileDescriptorsWrite.toList := hp
      rw [h.write] at hp
      split at hp
      · cases hp
      · exact List.mem_cons_of_mem _ hp
  · have awake : held = false := by
      by_contra hn
      have hc : d.fd ∈ rs := of_decide_eq_true hc
      rw [hrs (Bool.eq_true_of_not_eq_false hn)] at hc
      cases hc
    change some d ∈ w.select.fileDescriptorsRead.toList
    rw [h.read, awake]
    rw [owned] at hd
    exact List.mem_map_of_mem (f := some) hd

/-- Visits at the sample's speed, up to `n` milliseconds after the first. -/
structure Drips (n : Nat) (vs : List Visit) : Prop where
  honest : ∀ v ∈ vs, v.Honest
  speed : ∀ v ∈ vs, v.tick.speed = 1001
  clocked : Clocked vs
  time : ∀ v ∈ vs, 1000000000000 ≤ v.tick.now ∧ v.tick.now ≤ 1000000000000 + n
  exact : ∀ v ∈ vs, v.Exact

theorem Drips.snoc {n m : Nat} {vs : List Visit} {v : Visit} (h : Drips n vs) (hh : v.Honest)
    (hs : v.tick.speed = 1001) (ht : v.tick.now = 1000000000000 + m) (hm : n ≤ m) (hx : v.Exact) :
    Drips m (vs ++ [v]) where
  honest := List.forall_mem_append.mpr ⟨h.honest, List.forall_mem_singleton.mpr hh⟩
  speed := List.forall_mem_append.mpr ⟨h.speed, List.forall_mem_singleton.mpr hs⟩
  clocked := by
    refine List.pairwise_append.mpr ⟨h.clocked, List.pairwise_singleton _ _, fun u hu u' hu' => ?_⟩
    obtain rfl := List.mem_singleton.mp hu'
    have := h.time u hu
    omega
  time := by
    refine List.forall_mem_append.mpr ⟨fun u hu => ?_, List.forall_mem_singleton.mpr ?_⟩
    · have := h.time u hu
      omega
    · omega
  exact := List.forall_mem_append.mpr ⟨h.exact, List.forall_mem_singleton.mpr hx⟩

theorem Drips.visit {n m : Nat} {vs : List Visit} (past : Drips n vs) (h : Dripping k held out w)
    (rs ws : List Nat) (hrs : held = true → rs = []) (hm : n ≤ m) {e : Env} (b : Bool) (w' : World)
    (he : e.config.speedPort = ∅)
    (hx : shouldTake (relayed w'.trace) 1001 = 1000 * relayed w'.trace / 1001) :
    Drips m (vs ++ [⟨Sample.visit rs ws (limited m e) w, w, b, w'⟩]) := by
  have speed : (⟨Sample.visit rs ws (limited m e) w, w, b, w'⟩ : Visit).tick.speed = 1001 :=
    limited_speed e he _
  refine past.snoc (h.honest rs ws hrs _ b w') speed (limited_ms e) hm ?_
  have counted : (⟨Sample.visit rs ws (limited m e) w, w, b, w'⟩ : Visit).counted =
      relayed w'.trace := by
    rw [Visit.counted, h.conn]
    exact Nat.zero_add _
  rw [Visit.Exact, counted, speed]
  exact hx

/-- Two bytes a millisecond, for as long as one likes. -/
theorem drips (n : Nat) :
    ∃ vs w, Run (handshake request).2.2 vs true w ∧ Dripping (n + 1) false [] w ∧
      relayed (events vs) = 2 * (n + 1) ∧ Drips (n + 1) vs := by
  induction n with
  | zero =>
      refine ⟨_, _, .of_play (by decide +kernel), dripping_prelude, by decide +kernel, ?_⟩
      exact ⟨by decide +kernel, by decide +kernel, by decide +kernel, by decide +kernel,
        by decide +kernel⟩
  | succ n ih =>
      obtain ⟨vs, w, run, h, count, past⟩ := ih
      obtain ⟨_, w₁, call₁, rfl, h₁, trace₁⟩ := (arrival_sat h).exists_ok
      obtain ⟨_, w₂, call₂, rfl, h₂, trace₂⟩ := (departure_sat h₁).exists_ok
      obtain ⟨_, w₃, call₃, rfl, h₃, trace₃⟩ := (idle_sat h₂).exists_ok
      refine ⟨_, w₃, .step _ (.step _ (.step _ run call₁) call₂) call₃, h₃, ?_, ?_⟩
      · simp only [events_append, events_singleton, relayed_append, count, trace₁, trace₂, trace₃]
        rfl
      · refine Drips.visit (Drips.visit (past.visit h [7] [] nofun (Nat.le_refl _) true w₁ rfl ?_)
          h₁ [] [8] nofun (Nat.le_refl _) true w₂ rfl ?_) h₂ [] [] (fun _ => rfl) (Nat.le_succ _)
          true w₃ rfl ?_
        · rw [trace₁]
          decide +kernel
        · rw [trace₂]
          decide +kernel
        · rw [trace₃]
          decide +kernel

end

end Sample

/-- Ten bytes at a byte a second: a whole number of milliseconds. -/
theorem bandwidth_cap_sample :
    let r := Sample.transfer 1 [(1, 0), (1, 1), (1, 2)]
    relayed (events r.1) = 10 ∧ suspensions r.1 = 1 ∧
      1000 * relayed (events r.1) ≤ 1 * (1000000000002 - 1000000000000) + 1000 * 32768 :=
  ⟨by decide +kernel, by decide +kernel, bandwidth_cap Sample.entry (Sample.run_transfer _ _)
    (by decide +kernel) Nat.one_pos (by decide +kernel) (by decide +kernel) (by decide +kernel)
    (by decide +kernel) (by decide +kernel)⟩

/-- No burst allowance does, at a speed of 1001 bytes a second: two bytes are charged one
millisecond, so that two go through in each. -/
theorem allowance_exceeded (K : Nat) :
    ¬ ∀ us w₀ vs b w t₀ t, Entry us w₀ → Run w₀ vs b w → (∀ v ∈ us ++ vs, v.Honest) →
      (∀ v ∈ vs, v.tick.speed = 1001) → Clocked vs → (∀ v ∈ vs, v.Exact) →
      us.getLast?.map (·.tick.now) = some t₀ → (∀ v ∈ vs, t₀ ≤ v.tick.now ∧ v.tick.now ≤ t) →
      1000 * relayed (events vs) ≤ 1001 * (t - t₀) + 1000 * K := by
  intro claim
  obtain ⟨vs, w, run, -, count, past⟩ := Sample.drips (2 * K)
  have honest : ∀ v ∈ (Sample.handshake Sample.request).1 ++ vs, v.Honest := by
    have entered : ∀ v ∈ (Sample.handshake Sample.request).1, v.Honest := by decide
    exact List.forall_mem_append.mpr ⟨entered, past.honest⟩
  have bound := claim _ _ vs true w 1000000000000 (1000000000000 + (2 * K + 1)) Sample.entry run
    honest past.speed past.clocked past.exact (by decide) past.time
  rw [count] at bound
  omega

theorem bandwidth_exceeded :
    ¬ ∀ us w₀ vs b w S t₀ t, Entry us w₀ → Run w₀ vs b w → (∀ v ∈ us ++ vs, v.Honest) → 0 < S →
      (∀ v ∈ vs, v.tick.speed = S) → Clocked vs → (∀ v ∈ vs, v.Exact) →
      us.getLast?.map (·.tick.now) = some t₀ → (∀ v ∈ vs, t₀ ≤ v.tick.now ∧ v.tick.now ≤ t) →
      1000 * relayed (events vs) ≤ S * (t - t₀) + 1000 * 32768 := by
  intro claim
  refine allowance_exceeded 32768 fun us w₀ vs b w t₀ t he hr hh hs hc hx hl ht => ?_
  exact claim us w₀ vs b w 1001 t₀ t he hr hh (by decide) hs hc hx hl ht

end OldStuff.Socks
