import OldStuff.Socks.Clock
import OldStuff.Socks.Custody

/-!
# Socks — the timeout of the next `select`

`main` hands the timeout to every connection it visits, and a connection that is left suspended
shortens it to its own deadline.  A pass of the loop visits every connection once, while others are
erased (`Sweep`); what the timeout comes to is the least of ten seconds and of all deadlines that
were left (`no_wakeup_missed`).
-/

namespace OldStuff.Socks
open OldStuff.Io
open OldStuff.Lib (Outcome)

/-! ### The comparison -/

/-- The microseconds of a `timeval`. -/
def Timeval.us (tv : Timeval) : Nat := tv.tvSec * 1000000 + tv.tvUsec

/-- **The comparison of `try_activate` and `try_suspend`** takes the lesser of two times. -/
theorem Timeval.shorten_us {tv : Timeval} (h : tv.tvUsec < 1000000) (ms : Nat) :
    (tv.shorten ms).tvUsec < 1000000 ∧ (tv.shorten ms).us = min (1000 * ms) tv.us := by
  have parts : (ms - ms % 1000 * 1000 / 1000) / 1000 = ms / 1000 := by omega
  unfold Timeval.shorten Timeval.us
  dsimp only
  rw [parts]
  by_cases hlt : ms / 1000 < tv.tvSec
  · rw [if_pos hlt]
    dsimp only
    omega
  · rw [if_neg hlt]
    by_cases heq : ms / 1000 = tv.tvSec ∧ tv.tvUsec > ms % 1000 * 1000
    · rw [if_pos heq]
      dsimp only
      omega
    · rw [if_neg heq]
      omega

/-! ### A visit of the loop -/

/-- A visit of the inner loop: its calls, the entry it found, and what it left. -/
structure Sighting where
  calls : Calls
  slot : Slot
  left : Left

namespace Sighting

/-- The entry that stays in the vector. -/
def remains (x : Sighting) : Option Slot := x.left.conn.map (Slot.mk x.slot.id)

/-- The microseconds from the time that was read at the visit to the deadline of a connection that
is left suspended. -/
def wait (x : Sighting) : Option Nat :=
  match x.left.conn with
  | some (.socks c) =>
    if c.suspended then some (1000 * (c.suspendedTo - x.calls.env.timeofday.ms)) else none
  | _ => none

/-- The deadline of a connection that is left suspended is yet to come. -/
def Early (x : Sighting) : Prop :=
  ∀ c, x.left.conn = some (.socks c) → c.suspended = true →
    x.calls.env.timeofday.ms < c.suspendedTo

end Sighting

/-- What a visit does to the timeout `tv`. -/
def Times (tv : Timeval) (x : Sighting) : Prop :=
  x.Early ∧ (x.wait = none ∧ x.left.tv = tv ∨
    ∃ ms, x.wait = some (1000 * ms) ∧ x.left.tv = tv.shorten ms)

section
variable {s s' s₀ : Server} {t : Calls} {slot : Slot} {l : Left} {xs : List Sighting}

/-- An entry that is erased, or that belongs to the other kind, leaves the timeout. -/
theorem Times.plain {tv : Timeval} (hc : ∀ c, l.conn ≠ some (.socks c)) (ht : l.tv = tv) :
    Times tv ⟨t, slot, l⟩ := by
  refine ⟨fun c hc' => absurd hc' (hc c), .inl ⟨?_, ht⟩⟩
  unfold Sighting.wait
  split
  · next c hc' => exact absurd hc' (hc c)
  · rfl

theorem visitSocks_times {id : Nat} {c : SocksConnection} {b : Bool} {w : World}
    (htr : (Connection.socks c).Tracked id) (hw : s.visitSocks t id c = .ok b w) :
    Times s.tv ⟨t, ⟨id, .socks c⟩, Server.leftSocks b w⟩ := by
  unfold Server.visitSocks hasExpired at hw
  by_cases he : (s.world id c).conn.lastActive + t.config.pipeTimeout < t.now
  · rw [if_pos he] at hw
    obtain ⟨rfl, rfl⟩ := Outcome.ok.inj hw
    exact .plain (fun c hc => by cases hc) rfl
  · rw [if_neg he] at hw
    obtain ⟨es, sound⟩ := htr.sound
    -- a handshake is never suspended
    have quiet : c.state ≠ .pipeing → c.suspended = false := by
      intro hst
      obtain ⟨-, h⟩ | ⟨hp, -⟩ := sound.cases
      · exact h.quiet.suspended
      · exact absurd hp hst
    obtain ⟨b', w', ho, hw⟩ := Outcome.bind_eq_ok.mp hw
    obtain ⟨rfl, rfl⟩ := Outcome.ok.inj hw
    have clocks : Clocks t.env (s.world id c) b' w' := work_clocks rfl quiet ho
    cases b' with
    | false => exact .plain (fun c hc => by cases hc) clocks.tv
    | true =>
        have tv := clocks.tv
        refine ⟨fun c' hc' hs => ?_, ?_⟩
        · obtain rfl : w'.conn = c' := by injection hc' with h; injection h
          exact clocks.later rfl hs
        · cases hs : w'.conn.suspended with
          | false =>
              rw [hs] at tv
              refine .inl ⟨?_, tv⟩
              simp [Sighting.wait, Server.leftSocks, hs]
          | true =>
              rw [hs] at tv
              refine .inr ⟨w'.conn.suspendedTo - t.env.timeofday.ms, ?_, tv⟩
              simp [Sighting.wait, Server.leftSocks, hs]

/-- **A visit** of a connection that got where it is by a run. -/
theorem visit_times (htr : slot.conn.Tracked slot.id) (hl : s.visit t slot = .ok () l) :
    Times s.tv ⟨t, slot, l⟩ := by
  obtain ⟨id, conn⟩ := slot
  cases conn with
  | socks c =>
      obtain ⟨b, w, ho, rfl⟩ := Outcome.lift_eq_ok.mp hl
      exact visitSocks_times htr ho
  | http c =>
      obtain ⟨b, w, -, rfl⟩ := Outcome.lift_eq_ok.mp hl
      refine .plain (fun c' hc => ?_) rfl
      cases b <;> cases hc

/-! ### A pass -/

/-- The inner loop from `s₀` on, visit by visit. -/
inductive Sweep (s₀ : Server) : List Sighting → Server → Prop where
  | start : Sweep s₀ [] s₀
  | visit {xs : List Sighting} {s : Server} {slot : Slot} {rest : List Slot} {l : Left}
      (t : Calls) (h : Sweep s₀ xs s) (ht : t.Honest s) (hs : s.pending = slot :: rest)
      (hl : s.visit t slot = .ok () l) : Sweep s₀ (xs ++ [⟨t, slot, l⟩]) (s.settle slot rest l)

/-- A pass of the outer loop from `s`, waiting in `try_select`, to `s'`, about to wait again: the
two sockets are asked, and from `s₀` on the connections are visited. -/
inductive Pass (s s₀ : Server) (xs : List Sighting) (s' : Server) : Prop where
  | turn {s₁ s₂ s₃ : Server} {t₁ t₂ t₃ t₄ : Calls} (hp : s.phase = .select)
      (h₁ : t₁.Honest s) (poll : s.step t₁ = .ok () s₁)
      (h₂ : t₂.Honest s₁) (socks : s₁.step t₂ = .ok () s₂)
      (h₃ : t₃.Honest s₂) (http : s₂.step t₃ = .ok () s₀)
      (sweep : Sweep s₀ xs s₃) (h₄ : t₄.Honest s₃) (done : s₃.step t₄ = .ok () s')
      (hp' : s'.phase = .select)

/-- What has become of the vector and of the timeout after some visits. -/
structure Swept (s₀ : Server) (xs : List Sighting) (s : Server) : Prop where
  reachable : Reachable s
  phase : s.phase = .sweep
  order : xs.map (·.slot) ++ s.pending = s₀.pending
  visited : s.visited = xs.filterMap Sighting.remains
  normal : s.tv.tvUsec < 1000000
  early : ∀ x ∈ xs, x.Early
  least : IsLeast (insert s₀.tv.us {d | ∃ x ∈ xs, x.wait = some d}) s.tv.us

theorem waits_snoc (xs : List Sighting) (x : Sighting) :
    {d | ∃ y ∈ xs ++ [x], y.wait = some d} =
      {d | ∃ y ∈ xs, y.wait = some d} ∪ {d | x.wait = some d} := by
  ext d
  simp only [List.mem_append, List.mem_singleton, or_and_right, exists_or, exists_eq_left,
    Set.mem_ofPred_eq, Set.mem_union]

/-- The timeout is the least of some waits, and stays the least with one wait more. -/
theorem Times.least {tv : Timeval} {x : Sighting} {S : Set Nat} (h : Times tv x)
    (hn : tv.tvUsec < 1000000) (hl : IsLeast S tv.us) :
    x.left.tv.tvUsec < 1000000 ∧ IsLeast (S ∪ {d | x.wait = some d}) x.left.tv.us := by
  obtain ⟨-, ⟨hw, htv⟩ | ⟨ms, hw, htv⟩⟩ := h
  · have none : {d : Nat | (Option.none : Option Nat) = some d} = ∅ := by
      ext d
      simp
    rw [htv, hw, none, Set.union_empty]
    exact ⟨hn, hl⟩
  · have one : {d : Nat | some (1000 * ms) = some d} = {1000 * ms} := by
      ext d
      simp [eq_comm]
    obtain ⟨normal, us⟩ := Timeval.shorten_us hn ms
    rw [htv, us, hw, one, Set.union_singleton]
    exact ⟨normal, hl.insert _⟩

/-- One more visit. -/
theorem Swept.visit {rest : List Slot} (h : Swept s₀ xs s) (ht : t.Honest s)
    (hs : s.pending = slot :: rest) (hl : s.visit t slot = .ok () l) :
    Swept s₀ (xs ++ [⟨t, slot, l⟩]) (s.settle slot rest l) := by
  have step : s.step t = .ok () (s.settle slot rest l) := by
    rw [Server.step, h.phase]
    dsimp only
    rw [Server.sweep, hs]
    dsimp only
    rw [hl]
    rfl
  have tracked : slot.conn.Tracked slot.id :=
    h.reachable.orderly.tracked slot (by rw [Server.connections, hs]; simp)
  have times : Times s.tv ⟨t, slot, l⟩ := visit_times tracked hl
  obtain ⟨normal, least⟩ := times.least h.normal h.least
  refine ⟨.step t h.reachable ht step, h.phase, ?_, ?_, normal, fun x hx => ?_, ?_⟩
  · rw [← h.order, hs]
    simp [Server.settle]
  · rw [List.filterMap_append, ← h.visited]
    simp only [Server.settle, Sighting.remains, List.filterMap_cons, List.filterMap_nil]
    cases l.conn <;> rfl
  · rcases List.mem_append.mp hx with hx | hx
    · exact h.early x hx
    · obtain rfl := List.mem_singleton.mp hx
      exact times.1
  · -- one wait more to take the least of
    rw [waits_snoc, ← Set.insert_union]
    exact least

theorem Sweep.swept (h : Sweep s₀ xs s) (hr : Reachable s₀) (hp : s₀.phase = .sweep)
    (hv : s₀.visited = []) (hn : s₀.tv.tvUsec < 1000000) : Swept s₀ xs s := by
  induction h with
  | start =>
      refine ⟨hr, hp, rfl, hv, hn, fun _ hx => absurd hx List.not_mem_nil, ?_⟩
      simp
  | visit t _ ht hs hl ih => exact ih.visit ht hs hl

/-- After `try_select` the timeout is ten seconds again. -/
theorem poll_ok (h : s.poll t = .ok () s') :
    s'.tv = ⟨10, 0⟩ ∧ s'.phase = .acceptSocks ∧ s'.connections = s.connections := by
  obtain ⟨b, sel, -, rfl⟩ := Outcome.lift_eq_ok.mp h
  exact ⟨rfl, rfl, rfl⟩

/-- A socket of `main` at most adds a connection at the end. -/
theorem Server.Accepted.front {sock : FileDescriptor} {make : FileDescriptor → Int → Connection}
    (h : s.Accepted t sock make s') : s'.tv = s.tv ∧ s.visited <+: s'.visited := by
  cases h with
  | nobody => exact ⟨rfl, List.prefix_rfl⟩
  | somebody => exact ⟨rfl, List.prefix_append ..⟩

theorem acceptSocks_ok (h : s.acceptSocks t = .ok () s') :
    s'.tv = s.tv ∧ s.visited <+: s'.visited ∧ s'.phase = .acceptHttp := by
  obtain ⟨_, s₁, ho, rfl⟩ := Outcome.lift_eq_ok.mp h
  obtain ⟨tv, front⟩ := (Server.acceptOn_cases ho).front
  exact ⟨tv, front, rfl⟩

theorem acceptHttp_ok (h : s.acceptHttp t = .ok () s') :
    s'.tv = s.tv ∧ s.visited <+: s'.pending ∧ s'.visited = [] ∧ s'.phase = .sweep := by
  obtain ⟨_, s₁, ho, rfl⟩ := Outcome.lift_eq_ok.mp h
  obtain ⟨tv, front⟩ := (Server.acceptOn_cases ho).front
  exact ⟨tv, front, rfl, rfl⟩

/-- The iterator is at the end when the sweep ends. -/
theorem sweep_done (hp : s.phase = .sweep) (h : s.step t = .ok () s') (hp' : s'.phase = .select) :
    s.pending = [] ∧ s'.connections = s.connections ∧ s'.tv = s.tv := by
  cases Server.step_cases h with
  | poll hq | acceptSocks hq | acceptHttp hq => cases hp.symm.trans hq
  | turn _ hs => exact ⟨hs, rfl, rfl⟩
  | visit hq =>
      -- the iterator has only moved on
      cases hp'.symm.trans hq

/-- **No wake-up is missed.**  In a pass of the loop every connection that was in the vector, and
every one that was added, is visited once, whichever are erased; the timeout of the next `select`
is a proper `timeval`, and it is the least of ten seconds and of the times that the connections left
suspended still have to wait. -/
theorem no_wakeup_missed (h : Reachable s) (pass : Pass s s₀ xs s') :
    s.connections <+: s₀.connections ∧ xs.map (·.slot) = s₀.connections ∧
      (s₀.connections.map (·.id)).Nodup ∧ s'.connections = xs.filterMap Sighting.remains ∧
      (∀ x ∈ xs, x.Early) ∧ s'.tv.tvUsec < 1000000 ∧ s'.tv.us ≤ 10 * 1000000 ∧
      IsLeast (insert (10 * 1000000) {d | ∃ x ∈ xs, x.wait = some d}) s'.tv.us := by
  rcases pass with @⟨s₁, s₂, s₃, t₁, t₂, t₃, t₄, hp, h₁, poll, h₂, socks, h₃, http, sweep, h₄, done,
    hp'⟩
  have r₁ := Reachable.step _ h h₁ poll
  have r₂ := Reachable.step _ r₁ h₂ socks
  have r₀ := Reachable.step _ r₂ h₃ http
  rw [Server.step, hp] at poll
  obtain ⟨ten, p₁, same⟩ := poll_ok poll
  rw [Server.step, p₁] at socks
  obtain ⟨tv₂, front₂, p₂⟩ := acceptSocks_ok socks
  rw [Server.step, p₂] at http
  obtain ⟨tv₀, front₀, start, p₀⟩ := acceptHttp_ok http
  have tv : s₀.tv = ⟨10, 0⟩ := (tv₀.trans tv₂).trans ten
  have all : s₀.connections = s₀.pending := by rw [Server.connections, start, List.nil_append]
  have old : s.connections = s₁.visited := by
    rw [← same, Server.connections, r₁.orderly.idle (by rw [p₁]; exact fun hn => by cases hn),
      List.append_nil]
  have swept := sweep.swept r₀ p₀ start (by rw [tv]; decide)
  obtain ⟨rest, left, tv'⟩ := sweep_done swept.phase done hp'
  have least := swept.least
  rw [← tv', tv] at least
  refine ⟨?_, ?_, r₀.orderly.slots, ?_, swept.early, ?_, ?_, least⟩
  · rw [all, old]
    exact front₂.trans front₀
  · rw [all, ← swept.order, rest, List.append_nil]
  · rw [left, Server.connections, rest, List.append_nil, swept.visited]
  · rw [tv']
    exact swept.normal
  · exact least.2 (Set.mem_insert ..)

end

namespace Sample

/-- The server takes the three bytes, at one byte a second; the clock has just begun. -/
def trickle : Calls :=
  { env := { clock 1 1 0 env with timeofday := ⟨0, 0⟩, write := fun _ => .wrote 3 }
    call := .ready [] [8] }

def after (n : Nat) : Server := served.play (List.replicate n trickle)

/-- The connection then. -/
def held : SocksConnection :=
  { relaying with
    serverWriteBuff := []
    suspended := true
    suspendedTo := 3000
    suspendedDescriptorsSet := ⟨true, false, true, false⟩ }

/-- The visit to it. -/
def sighting : Sighting where
  calls := trickle
  slot := ⟨0, .socks relaying⟩
  left := ⟨some (.socks held), (after 4).select, ⟨3, 0⟩, (after 4).status, 4,
    [.wrote .server [1, 2, 3]]⟩

/-- The server when it is to wait again. -/
def turned : Server := { (after 3).settle sighting.slot [] sighting.left with phase := .select }

set_option maxRecDepth 10000 in
theorem a_pass : Pass served (after 3) [sighting] turned := by
  refine @Pass.turn _ _ _ _ (after 1) (after 2) ((after 3).settle sighting.slot [] sighting.left)
    trickle trickle trickle trickle rfl (by decide) rfl (by decide) rfl (by decide) rfl ?_
    (by decide) rfl rfl
  exact @Sweep.visit _ [] _ sighting.slot [] sighting.left trickle .start (by decide) rfl
    (by with_unfolding_all rfl)

end Sample

/-- Three bytes at one byte a second: the connection is suspended for three seconds. -/
theorem no_wakeup_missed_sample :
    Sample.sighting.wait = some 3000000 ∧ Sample.turned.tv = ⟨3, 0⟩ ∧
      IsLeast (insert (10 * 1000000) {d | ∃ x ∈ [Sample.sighting], x.wait = some d})
        Sample.turned.tv.us :=
  ⟨by decide, rfl, (no_wakeup_missed Sample.served_reachable Sample.a_pass).2.2.2.2.2.2.2⟩

end OldStuff.Socks
