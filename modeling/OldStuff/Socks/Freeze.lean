import OldStuff.Socks.Expiry
import OldStuff.Socks.Steady

/-!
# Socks — a suspension and its end

`try_suspend` takes the two ends out of the lists and writes down in four flags where they were;
`try_activate` puts them back.  In between the connection does nothing, and the other connections
edit the same lists.  The flags speak of the connection's own descriptors only, so what is restored
is what there was, whatever the others have done (`mem_restored_read`, `suspension_frozen`).
-/

namespace OldStuff.Socks
open OldStuff.Io
open OldStuff.Lib (Outcome)

/-! ### The lists -/

/-- The lists without the ends of `c`, as `try_suspend` leaves them. -/
def takeEnds (c : SocksConnection) (s : Select) : Select :=
  takeWrite c.server (takeRead c.server (takeWrite c.client (takeRead c.client s)))

/-- The lists with the ends of `c` where `set` says, as `try_activate` leaves them. -/
def restoreEnds (set : DescriptorsSet) (c : SocksConnection) (s : Select) : Select :=
  addWriteIf set.serverWrite c.server (addReadIf set.serverRead c.server
    (addWriteIf set.clientWrite c.client (addReadIf set.clientRead c.client s)))

/-- None of the descriptors of `c` is registered. -/
def Unlisted (c : SocksConnection) (s : Select) : Prop :=
  ∀ d ∈ c.owned, some d ∉ s.fileDescriptorsRead ∧ some d ∉ s.fileDescriptorsWrite

/-- What is not a descriptor of `c` is registered after as before. -/
def SameOthers (c : SocksConnection) (s s' : Select) : Prop :=
  ∀ p, (∀ d ∈ c.owned, p ≠ some d) →
    (p ∈ s'.fileDescriptorsRead ↔ p ∈ s.fileDescriptorsRead) ∧
      (p ∈ s'.fileDescriptorsWrite ↔ p ∈ s.fileDescriptorsWrite)

section
variable {c : SocksConnection} {s s₀ : Select} {p : Pointer} {d : FileDescriptor}

theorem endpoint_cases : (∃ t, p = c.endpoint t) ↔ p = c.client ∨ p = c.server :=
  Side.exists_iff .client

theorem mem_takeEnds_read : p ∈ (takeEnds c s).fileDescriptorsRead ↔
    p ∈ s.fileDescriptorsRead ∧ ((∃ t, p = c.endpoint t) → p = none) := by
  simp only [takeEnds, mem_takeRead, takeWrite_read, endpoint_cases]
  grind

theorem mem_takeEnds_write : p ∈ (takeEnds c s).fileDescriptorsWrite ↔
    p ∈ s.fileDescriptorsWrite ∧ ((∃ t, p = c.endpoint t) → p = none) := by
  simp only [takeEnds, mem_takeWrite, takeRead_write, endpoint_cases]
  grind

/-- **What is restored to the read list**, after any other edits: what was there of the ends when
the flags were set. -/
theorem mem_restored_read :
    p ∈ (restoreEnds (registrations c s₀) c s).fileDescriptorsRead ↔
      p ∈ s.fileDescriptorsRead ∨
        (∃ t, p = c.endpoint t) ∧ p ≠ none ∧ p ∈ s₀.fileDescriptorsRead := by
  simp only [restoreEnds, registrations, mem_addReadIf, addWriteIf_read, endpoint_cases,
    Select.readContains, Bool.and_eq_true, decide_eq_true_eq, Option.isSome_iff_ne_none]
  grind

/-- The same of the write list. -/
theorem mem_restored_write :
    p ∈ (restoreEnds (registrations c s₀) c s).fileDescriptorsWrite ↔
      p ∈ s.fileDescriptorsWrite ∨
        (∃ t, p = c.endpoint t) ∧ p ≠ none ∧ p ∈ s₀.fileDescriptorsWrite := by
  simp only [restoreEnds, registrations, mem_addWriteIf, addReadIf_write, endpoint_cases,
    Select.writeContains, Bool.and_eq_true, decide_eq_true_eq, Option.isSome_iff_ne_none]
  grind

/-- A relay has its two ends, and no listener. -/
theorem mem_owned_iff (hl : c.listen = none) : d ∈ c.owned ↔ ∃ t, some d = c.endpoint t := by
  rw [SocksConnection.mem_owned, endpoint_cases, hl]
  grind

/-- A pointer that is not to a descriptor of `c` is none of its ends, or `NULL`. -/
theorem none_of_not_owned (hp : ∀ d ∈ c.owned, p ≠ some d) (he : ∃ t, p = c.endpoint t) :
    p = none := by
  obtain ⟨t, rfl⟩ := he
  by_contra hne
  obtain ⟨d, hd⟩ := Option.ne_none_iff_exists'.mp hne
  exact hp d (SocksConnection.endpoint_mem_owned hd) hd

theorem takeEnds_unlisted (hl : c.listen = none) : Unlisted c (takeEnds c s) := by
  intro d hd
  have mine := (mem_owned_iff hl).mp hd
  refine ⟨fun hm => ?_, fun hm => ?_⟩
  · exact Option.some_ne_none d ((mem_takeEnds_read.mp hm).2 mine)
  · exact Option.some_ne_none d ((mem_takeEnds_write.mp hm).2 mine)

theorem takeEnds_others : SameOthers c s (takeEnds c s) := by
  intro p hp
  rw [mem_takeEnds_read, mem_takeEnds_write]
  exact ⟨and_iff_left (none_of_not_owned hp), and_iff_left (none_of_not_owned hp)⟩

theorem restoreEnds_others : SameOthers c s (restoreEnds (registrations c s₀) c s) := by
  intro p hp
  rw [mem_restored_read, mem_restored_write]
  refine ⟨or_iff_left ?_, or_iff_left ?_⟩
  · rintro ⟨he, hne, -⟩
    exact hne (none_of_not_owned hp he)
  · rintro ⟨he, hne, -⟩
    exact hne (none_of_not_owned hp he)

/-- **The activation undoes the suspension**: to lists that have nothing of `c` it restores what
the others had. -/
theorem restoreEnds_own (hl : c.listen = none) (hu : Unlisted c s) (hd : d ∈ c.owned) :
    (some d ∈ (restoreEnds (registrations c s₀) c s).fileDescriptorsRead ↔
        some d ∈ s₀.fileDescriptorsRead) ∧
      (some d ∈ (restoreEnds (registrations c s₀) c s).fileDescriptorsWrite ↔
        some d ∈ s₀.fileDescriptorsWrite) := by
  have mine := (mem_owned_iff hl).mp hd
  have there := Option.some_ne_none d
  rw [mem_restored_read, mem_restored_write, or_iff_right (hu d hd).1, or_iff_right (hu d hd).2]
  exact ⟨⟨fun h => h.2.2, fun h => ⟨mine, there, h⟩⟩, ⟨fun h => h.2.2, fun h => ⟨mine, there, h⟩⟩⟩

end

/-! ### The visits -/

/-- A visit before the deadline: nothing moves, and nothing of the connection or of the lists
changes. -/
structure Frozen (v : Visit) : Prop where
  alive : v.alive = true
  trace : v.after.trace = []
  conn : v.after.conn = v.before.conn
  select : v.after.select = v.input.select

/-- The first visit from the deadline on, of a connection that was suspended in `u`: its descriptors
are in the lists where they were in `u`, what is not its own stays where it is, and no `NULL` is
registered. -/
structure Thawed (u : World) (v : Visit) : Prop where
  alive : v.alive = true
  trace : v.after.trace = []
  conn : v.after.conn = { v.before.conn with suspended := false }
  owned : v.after.conn.owned = u.conn.owned
  own : ∀ d ∈ v.after.conn.owned,
    (some d ∈ v.after.select.fileDescriptorsRead ↔ some d ∈ u.select.fileDescriptorsRead) ∧
      (some d ∈ v.after.select.fileDescriptorsWrite ↔ some d ∈ u.select.fileDescriptorsWrite)
  others : SameOthers v.after.conn v.input.select v.after.select
  real : none ∉ v.after.select.fileDescriptorsRead ∧ none ∉ v.after.select.fileDescriptorsWrite

/-- What a suspension in `u` leaves, and what the visits before the deadline keep. -/
structure Asleep (u : World) (w : World) : Prop where
  relays : w.conn.state = .pipeing
  suspended : w.conn.suspended = true
  owned : w.conn.owned = u.conn.owned
  listen : w.conn.listen = none
  saved : w.conn.suspendedDescriptorsSet = registrations w.conn u.select
  unlisted : Unlisted w.conn w.select

section
variable {u w w' : World} {i : Input} {v : Visit} {vs ts us rest : List Visit} {b : Bool}
  {self : Nat} {client : FileDescriptor} {time : Int}

/-- The rest of the server registers nothing of a connection's own. -/
theorem Visit.Honest.unlisted (h : v.Honest) (hu : Unlisted v.before.conn v.before.select) :
    Unlisted v.before.conn v.input.select := by
  intro d hd
  rw [h.read d hd, h.write d hd]
  exact hu d hd

/-- The rest of the server registers no `NULL`. -/
theorem Visit.Honest.real (h : v.Honest) : none ∉ v.input.select.fileDescriptorsRead ∧
    none ∉ v.input.select.fileDescriptorsWrite := by
  refine ⟨fun hn => ?_, fun hn => ?_⟩
  · obtain ⟨d, hd, -⟩ := h.known none (.inl hn)
    cases hd
  · obtain ⟨d, hd, -⟩ := h.known none (.inr hn)
    cases hd

/-- **A visit before the deadline.** -/
theorem Asleep.frozen (h : Asleep u v.before)
    (hw : work v.input.env (v.before.enter v.input) = .ok v.alive v.after)
    (hd : v.input.env.timeofday.ms < v.before.conn.suspendedTo) : Frozen v := by
  rw [work_waits (w := v.before.enter v.input) h.relays h.suspended,
    tryActivate_early (w := v.before.enter v.input) h.suspended hd] at hw
  obtain ⟨alive, after⟩ := Outcome.ok.inj hw
  refine ⟨alive.symm, ?_, ?_, ?_⟩ <;> rw [← after] <;> rfl

/-- **The first visit from the deadline on.** -/
theorem Asleep.thawed (h : Asleep u v.before)
    (hw : work v.input.env (v.before.enter v.input) = .ok v.alive v.after) (hh : v.Honest)
    (hd : v.before.conn.suspendedTo ≤ v.input.env.timeofday.ms) : Thawed u v := by
  rw [work_waits (w := v.before.enter v.input) h.relays h.suspended,
    tryActivate_due (w := v.before.enter v.input) h.suspended hd] at hw
  obtain ⟨alive, after⟩ := Outcome.ok.inj hw
  have select : v.after.select =
      restoreEnds (registrations v.before.conn u.select) v.before.conn v.input.select := by
    rw [← after, ← h.saved]
    rfl
  have conn : v.after.conn = { v.before.conn with suspended := false } := by
    rw [← after]
    rfl
  have owned : v.after.conn.owned = v.before.conn.owned := by
    rw [conn]
    rfl
  have others : SameOthers v.after.conn v.input.select v.after.select := by
    unfold SameOthers
    rw [owned, select]
    exact restoreEnds_others
  -- `NULL` is no descriptor of the connection, so it came from outside if at all
  have unowned : ∀ d ∈ v.after.conn.owned, (none : Pointer) ≠ some d :=
    fun d _ => (Option.some_ne_none d).symm
  refine ⟨alive.symm, ?_, conn, owned.trans h.owned, fun d hd => ?_, others, ?_, ?_⟩
  · rw [← after]
    rfl
  · rw [owned] at hd
    rw [select]
    exact restoreEnds_own h.listen (hh.unlisted h.unlisted) hd
  · rw [(others none unowned).1]
    exact hh.real.1
  · rw [(others none unowned).2]
    exact hh.real.2

/-- A connection sleeps through the visits before the deadline. -/
theorem Run.asleep (h : Run w us b w') (hb : b = true) (ha : Asleep u w) (hh : ∀ z ∈ us, z.Honest)
    (hd : ∀ z ∈ us, z.input.env.timeofday.ms < w.conn.suspendedTo) :
    Asleep u w' ∧ w'.conn = w.conn := by
  induction h with
  | start => exact ⟨ha, rfl⟩
  | @step us x x' b i h hw ih =>
      obtain ⟨asleep, same⟩ := ih rfl (fun z hz => hh z (List.mem_append_left _ hz))
        fun z hz => hd z (List.mem_append_left _ hz)
      have honest := hh _ (List.mem_append_right _ (List.mem_singleton_self _))
      have early := hd _ (List.mem_append_right _ (List.mem_singleton_self _))
      rw [← same] at early
      have frozen := asleep.frozen (v := ⟨i, x, b, x'⟩) hw early
      have conn : x'.conn = x.conn := frozen.conn
      refine ⟨?_, conn.trans same⟩
      have unlisted : Unlisted x'.conn x'.select := by
        rw [conn, show x'.select = i.select from frozen.select]
        exact honest.unlisted asleep.unlisted
      have saved := asleep.saved
      rw [← conn] at saved
      exact ⟨conn ▸ asleep.relays, conn ▸ asleep.suspended, conn ▸ asleep.owned,
        conn ▸ asleep.listen, saved, unlisted⟩

/-- **A suspension puts a connection to sleep.** -/
theorem Visit.Limits.asleep (h : v.Limits u)
    (hw : work v.input.env (v.before.enter v.input) = .ok v.alive v.after)
    (hq : u.conn.suspended = false) (hs : v.after.conn.suspended = true)
    (hst : v.after.conn.state = .pipeing) (hl : v.after.conn.listen = none) :
    Asleep u v.after ∧ SameOthers v.after.conn u.select v.after.select := by
  have after := h.after hw
  rw [after] at hs hst hl ⊢
  have overdrawn := overdrawn_of_suspended hq hs
  rw [trySuspend_overdrawn overdrawn] at hst hl ⊢
  exact ⟨⟨hst, rfl, rfl, hl, rfl, takeEnds_unlisted (c := u.conn) hl⟩,
    takeEnds_others (c := u.conn)⟩

/-- Only `try_suspend` suspends. -/
theorem Visit.Suspends.limits (hs : v.Suspends)
    (hw : work v.input.env (v.before.enter v.input) = .ok v.alive v.after) : ∃ u, v.Limits u := by
  have relays : v.before.conn.state = .pipeing := by
    by_contra hst
    have untimed := (work_untimed (w := v.before.enter v.input) hst).of_ok hw
    have same : v.after.conn.suspended = v.before.conn.suspended := untimed.suspended
    rw [hs.1, hs.2] at same
    cases same
  have alive := hs.alive hw relays
  obtain ⟨u, round, -⟩ :=
    work_limits (w := v.before.enter v.input) relays hs.1 (by rw [hw, alive])
  exact ⟨u, relays, hs.1, alive, round⟩

/-- **A suspension freezes the relay, and its end undoes it.**  Among other connections that edit
the lists: `try_suspend`, called in a world `u`, takes every descriptor of the connection out of
both lists; until the deadline every visit moves nothing and changes nothing of the connection or of
the lists; the first visit from the deadline on puts the descriptors back where they were in `u`,
and no `NULL`; and what is not the connection's stays where it is. -/
theorem suspension_frozen (h : Run (.fresh self client time) vs b w) (hh : ∀ v ∈ vs, v.Honest)
    (hv : vs = ts ++ v :: rest) (hs : v.Suspends) :
    ∃ u, v.Limits u ∧ Unlisted v.after.conn v.after.select ∧
      v.after.conn.owned = u.conn.owned ∧ SameOthers v.after.conn u.select v.after.select ∧
      ∀ us y rest', rest = us ++ y :: rest' →
        (∀ z ∈ us, z.input.env.timeofday.ms < v.after.conn.suspendedTo) →
        y.before.conn = v.after.conn ∧
          (y.input.env.timeofday.ms < v.after.conn.suspendedTo → Frozen y) ∧
          (v.after.conn.suspendedTo ≤ y.input.env.timeofday.ms → Thawed u y) := by
  obtain ⟨hrun, hw⟩ := h.split hv
  obtain ⟨u, hl⟩ := hs.limits hw
  have here := h.upto hv
  rw [hl.alive] at here
  have steady : Steady (events (ts ++ [v])) v.after := by
    refine here.steady (fun z hz => hh z ?_) rfl
    rw [hv, List.append_cons]
    exact List.mem_append_left _ hz
  have relays : v.after.conn.state = .pipeing := hrun.stays hw hl.relays
  have listen : v.after.conn.listen = none := by
    have shaped := steady.sound.shaped
    rw [Shaped, relays] at shaped
    exact shaped.2.1
  -- the round of reads and writes ran awake, and `try_suspend` put it to sleep
  have stirs : Stirs v.input.env (v.before.enter v.input) u := (pipeRound_stirs rfl).of_ok hl.round
  obtain ⟨asleep, others⟩ := hl.asleep hw (stirs.suspended.trans hl.awake) hs.2 relays listen
  refine ⟨u, hl, asleep.unlisted, asleep.owned, others, fun us y rest' he early => ?_⟩
  have honest {z : Visit} (hz : z ∈ rest) : z.Honest :=
    hh z (by rw [hv]; exact List.mem_append_right _ (List.mem_cons_of_mem _ hz))
  -- from here on every visit finds it asleep, until the deadline
  obtain ⟨later, hy⟩ := (h.rest hv hl.alive).split he
  obtain ⟨asleep, same⟩ := later.asleep rfl asleep
    (fun z hz => honest (by rw [he]; exact List.mem_append_left _ hz)) early
  refine ⟨same, fun hd => asleep.frozen hy (by rwa [same]), fun hd => ?_⟩
  exact asleep.thawed hy (honest (by rw [he]; simp)) (by rwa [same])

end

namespace Sample

/-- A descriptor of another connection. -/
def neighbour : FileDescriptor := ⟨9, 20, ⟨0, 0⟩⟩

/-- Another connection has registered its descriptor. -/
def crowded (i : World → Input) (w : World) : Input :=
  { i w with select := (i w).select.addWrite (some neighbour), nextId := 10 }

/-- The ten bytes are charged for in second 101; the relay is visited before its deadline and at
it, in second 110, and then the other connection is there. -/
def nap : List Visit × Bool × World :=
  timed (burstVisits ++ [crowded (visit [] [] strict), crowded (visit [] [] strict)])
    [100, 100, 100, 100, 101, 105, 110]

end Sample

theorem suspension_frozen_sample :
    ∃ ts v x y, Sample.nap.1 = ts ++ v :: [x, y] ∧ v.Suspends ∧ Frozen x ∧
      some Sample.neighbour ∈ y.after.select.fileDescriptorsWrite ∧
      ∃ u, v.Limits u ∧ Thawed u y := by
  have honest : ∀ z ∈ Sample.nap.1, z.Honest := by decide +kernel
  have seven (l : List Visit) (h : l.length = 7) : l = l.take 4 ++ l.get ⟨4, by omega⟩ ::
      [l.get ⟨5, by omega⟩, l.get ⟨6, by omega⟩] := by
    conv_lhs =>
      rw [← List.take_append_drop 4 l, List.drop_eq_getElem_cons (by omega),
        List.drop_eq_getElem_cons (by omega), List.drop_eq_getElem_cons (by omega),
        List.drop_of_length_le h.le]
    rfl
  have split := seven Sample.nap.1 (by decide +kernel)
  have suspends : (Sample.nap.1.get ⟨4, by decide +kernel⟩).Suspends := by decide +kernel
  obtain ⟨u, limits, -, -, -, later⟩ := suspension_frozen (run_play _ _) honest split suspends
  refine ⟨_, _, _, _, split, suspends, ?_, by decide +kernel, u, limits, ?_⟩
  · exact (later [] _ [_] rfl (by decide +kernel)).2.1 (by decide +kernel)
  · exact (later [_] _ [] rfl (by decide +kernel)).2.2 (by decide +kernel)

end OldStuff.Socks
