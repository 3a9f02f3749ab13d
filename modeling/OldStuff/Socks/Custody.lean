import OldStuff.Socks.Order

/-!
# Socks — what holds in every state of the server

Four guarantees of the whole server, read off its invariant.

* `custody`: the lists point to objects that exist, and every object is deleted once, by its owner.
* `buffers_bounded`: no buffer of a connection ever holds more than two chunks.
* `write_interest`: a relay has an end in the write list exactly while something waits for it.
* `state_table`: outside the relay the state fixes the pointers and the registrations.
-/

namespace OldStuff.Socks
open OldStuff.Io
open OldStuff.Lib (Outcome)

/-- One of the three pointers of `conn` is `d`. -/
def Connection.PointsTo (conn : Connection) (d : FileDescriptor) : Prop :=
  conn.client = some d ∨ conn.server = some d ∨ conn.listen = some d

theorem Connection.mem_owned {conn : Connection} {d : FileDescriptor} :
    d ∈ conn.owned ↔ conn.PointsTo d := by
  cases conn with
  | socks c => exact SocksConnection.mem_owned
  | http c =>
      constructor
      · intro hd
        exact .inl (congrArg some (List.mem_singleton.mp hd).symm)
      · rintro (hd | hd | hd)
        · exact List.mem_singleton.mpr (Option.some.inj hd).symm
        · cases hd
        · cases hd

namespace Sample

/-! ### A state to look at -/

/-- One pass of the loop: what `::select` and the two calls of `accept` answer, and what the visit
to the one connection comes to. -/
def pass (readFds writeFds : List Nat) (socks : AcceptResult) (e : Env) : List Calls :=
  [{ env, call := .ready readFds writeFds }, { env, accept := socks }, { env }, { env := e },
    { env }]

/-- A client connects, asks for a server, gets its reply, and sends three bytes. -/
def served : Server :=
  (Server.boot 5 6 ⟨0, 0⟩ ⟨0, 0⟩).play
    (pass [5] [] (.socket 7 ⟨0, 0⟩) env ++
      pass [7] [] .null { env with
        read := fun _ => .data request, newSocket := some 8, tryConnect := .connected } ++
      pass [] [7] .null { env with write := fun _ => .wrote 8 } ++
      pass [7] [] .null { env with read := fun _ => .data threeBytes })

theorem served_reachable : Reachable served :=
  reachable_play (.boot 5 6 ⟨0, 0⟩ ⟨0, 0⟩ (by decide)) _

/-- Its connection. -/
def relaying : SocksConnection :=
  { SocksConnection.new ⟨2, 7, ⟨0, 0⟩⟩ 0 with
    server := some ⟨3, 8, ⟨20480, 16777226⟩⟩, state := .pipeing, serverWriteBuff := [1, 2, 3] }

theorem mem_served : ⟨0, .socks relaying⟩ ∈ served.connections :=
  List.mem_singleton_self (⟨0, .socks relaying⟩ : Slot)

end Sample

section
variable {s : Server} {slot : Slot} {c : SocksConnection} {d : FileDescriptor} {p : Pointer}

/-! ### Custody -/

/-- Two connections share no object. -/
theorem Orderly.owner_unique (h : Orderly s) {slot' : Slot} (hs : slot ∈ s.connections)
    (hs' : slot' ∈ s.connections) (hd : d ∈ slot.conn.owned) (hd' : d ∈ slot'.conn.owned) :
    slot' = slot := by
  obtain ⟨xs, ys, hc⟩ := List.append_of_mem hs
  by_contra hne
  have nodup : (slot.conn.owned ++ s.among (xs ++ ys)).Nodup := by
    rw [← (s.among_split xs ys slot).nodup_iff, ← hc]
    exact h.owned_nodup
  have other : slot' ∈ xs ++ ys := by
    rw [hc] at hs'
    grind
  exact List.disjoint_of_nodup_append nodup hd
    (List.mem_append_right _ (List.mem_flatMap.mpr ⟨slot', other, hd'⟩))

/-- A registered pointer is one of the sockets of `main`, or a pointer of one connection. -/
def Server.Placed (s : Server) (p : Pointer) : Prop :=
  p = some s.socksSock ∨ p = some s.httpSock ∨
    ∃ d, p = some d ∧ ∃! slot, slot ∈ s.connections ∧ slot.conn.PointsTo d

theorem Orderly.placed (h : Orderly s)
    (hp : p ∈ s.select.fileDescriptorsRead ∨ p ∈ s.select.fileDescriptorsWrite) : s.Placed p := by
  have registered : (Watch.all (s.watches s.connections)).read p ∨
      (Watch.all (s.watches s.connections)).write p := by
    rcases hp with hp | hp
    · exact .inl (((h.holds.read p).mp hp).resolve_left id)
    · exact .inr (((h.holds.write p).mp hp).resolve_left id)
  obtain ⟨d, hd, rfl⟩ := Orderly.watches_of h.tracked p registered
  rcases List.mem_append.mp hd with hd | hd
  · rcases List.mem_cons.mp hd with rfl | hd
    · exact .inr (.inl rfl)
    · exact .inl (congrArg some (List.mem_singleton.mp hd))
  · obtain ⟨slot, hs, hd⟩ := List.mem_flatMap.mp hd
    refine .inr (.inr ⟨d, rfl, slot, ⟨hs, Connection.mem_owned.mp hd⟩, ?_⟩)
    rintro slot' ⟨hs', hd'⟩
    exact h.owner_unique hs hs' hd (Connection.mem_owned.mpr hd')

/-- **Custody.**  In every state of the loop a registered pointer is one of the sockets of `main` or
a pointer of exactly one connection of the vector; the objects created, each once, are those that
`main` and the connections have and those that were deleted, each once; a line of the status page
belongs to a connection of the vector; and in every step a pointer is assigned to only where it is
`NULL` or its object has been deleted, and nothing undefined happens but `FD_SET` of a number that
it has no room for. -/
theorem custody (h : Reachable s) :
    (∀ p, p ∈ s.select.fileDescriptorsRead ∨ p ∈ s.select.fileDescriptorsWrite → s.Placed p) ∧
      s.created.Nodup ∧ s.created.Perm (s.owned ++ s.deleted) ∧
      (∀ k ∈ s.status, ∃ slot ∈ s.connections, slot.id = k) ∧
      ∀ t : Calls, t.Honest s → (s.step t = .fault ↔ t.Overruns s) ∧
        ∀ s', s.step t = .ok () s' → Carried s s' := by
  have orderly := h.orderly
  refine ⟨fun p => orderly.placed, orderly.created_nodup, orderly.books,
    fun k hk => List.mem_map.mp (orderly.status k hk), fun t ht => ?_⟩
  exact ⟨orderly.step_fault ht, fun s' hs' => (orderly.step_ok ht hs').2⟩

theorem custody_sample :
    Sample.served.created.length = 4 ∧ Sample.served.created.Perm
      (Sample.served.owned ++ Sample.served.deleted) ∧
    ∀ p, p ∈ Sample.served.select.fileDescriptorsRead ∨
      p ∈ Sample.served.select.fileDescriptorsWrite → Sample.served.Placed p :=
  ⟨rfl, (custody Sample.served_reachable).2.2.1, (custody Sample.served_reachable).1⟩

/-! ### Bounded buffers -/

/-- A connection of the vector is sound after the events of its own run. -/
theorem Orderly.sound (h : Orderly s) (hs : slot ∈ s.connections) (hc : slot.conn = .socks c) :
    ∃ es, Sound es c := by
  have tracked := h.tracked slot hs
  rw [hc] at tracked
  exact tracked.sound

/-- What a connection finds bounds the buffers throughout the visit. -/
theorem Found.peak {theirs : Watch} {id : Nat} {e : Env} {b : Bool} {w : World}
    (h : Found theirs s ⟨id, .socks c⟩) (hw : work e (s.world id c) = .ok b w) :
    Peak c w.trace ∧ Sized b w.conn := by
  obtain ⟨client, time, vs, w₀, run, honest, rfl, rfl⟩ := h.tracked
  have sound := (run.steady honest rfl).sound
  have rely : Rely theirs (w₀.enter ⟨e, s.select, s.tv, s.status, s.nextDescriptor⟩) :=
    ⟨h.holds, h.aloof, h.ids, h.ready⟩
  have call : work e (w₀.enter ⟨e, s.select, s.tv, s.status, s.nextDescriptor⟩) = .ok b w := hw
  exact ⟨visit_peak call rely sound, visit_sized call rely sound⟩

/-- **Bounded buffers.**  In every state of the loop each buffer of a connection holds at most two
chunks, and so it does at every moment of a visit to the connection. -/
theorem buffers_bounded (h : Reachable s) (hs : slot ∈ s.connections)
    (hc : slot.conn = .socks c) :
    (c.clientReadBuff.length ≤ 8192 ∧ c.clientWriteBuff.length ≤ 8192 ∧
        c.serverReadBuff.length ≤ 8192 ∧ c.serverWriteBuff.length ≤ 8192) ∧
      ∀ e b w, s.phase = .sweep → s.pending.head? = some slot →
        work e (s.world slot.id c) = .ok b w → Peak c w.trace ∧ Sized b w.conn := by
  have orderly := h.orderly
  obtain ⟨es, sound⟩ := orderly.sound hs hc
  have sized := sound.sized
  refine ⟨⟨sized.clientReadBuff, sized.clientWriteBuff, ?_, sized.serverWriteBuff⟩, ?_⟩
  · rw [sized.serverReadBuff]
    exact Nat.zero_le _
  · intro e b w hp hn hw
    obtain ⟨rest, hr⟩ := List.head?_eq_some_iff.mp hn
    have ready : s.Ready slot := by
      refine orderly.ready slot ?_
      rw [Server.unvisited, hp, hr]
      exact List.mem_cons_self
    have found := orderly.found (by rw [Server.connections, hr]) ready
    obtain ⟨id, conn⟩ := slot
    obtain rfl : conn = .socks c := hc
    exact found.peak hw

theorem buffers_bounded_sample :
    Sample.relaying.serverWriteBuff = [1, 2, 3] ∧ Sample.relaying.serverWriteBuff.length ≤ 8192 :=
  ⟨rfl, (buffers_bounded Sample.served_reachable Sample.mem_served rfl).1.2.2.2⟩

/-! ### Write interest -/

/-- A relay that lives wants something. -/
theorem Shaped.wants (h : Shaped c) (hst : c.state = .pipeing) :
    ∃ t, c.WantsRead t ∨ c.WantsWrite t := by
  rw [Shaped, hst] at h
  obtain ⟨hne, -, forClient, forServer⟩ := h
  by_cases hs : c.server = none
  · have hc : c.client ≠ none := hne.resolve_right fun hn => hn hs
    exact ⟨.client, .inr ⟨hc, forClient hs⟩⟩
  · by_cases hl : c.clientWriteBuff.length ≤ maxBuffSize
    · exact ⟨.server, .inl ⟨hs, .inl rfl, hl⟩⟩
    · by_cases hc : c.client = none
      · exact ⟨.server, .inr ⟨hs, forServer hc⟩⟩
      · refine ⟨.client, .inr ⟨hc, fun hn => hl ?_⟩⟩
        have hn : c.clientWriteBuff = [] := hn
        rw [hn]
        exact Nat.zero_le _

/-- It then has something to come back to after a suspension. -/
theorem SocksConnection.wants_ne_empty {t : Side} (h : c.WantsRead t ∨ c.WantsWrite t) :
    c.wants ≠ {} := by
  intro hn
  cases t with
  | client =>
      have read : ¬ c.WantsRead .client :=
        of_decide_eq_false (congrArg DescriptorsSet.clientRead hn)
      have write : ¬ c.WantsWrite .client :=
        of_decide_eq_false (congrArg DescriptorsSet.clientWrite hn)
      exact h.elim read write
  | server =>
      have read : ¬ c.WantsRead .server :=
        of_decide_eq_false (congrArg DescriptorsSet.serverRead hn)
      have write : ¬ c.WantsWrite .server :=
        of_decide_eq_false (congrArg DescriptorsSet.serverWrite hn)
      exact h.elim read write

/-- The descriptors of a connection stand in the lists as its state says. -/
theorem Orderly.own_socks (h : Orderly s) (hs : slot ∈ s.connections) (hc : slot.conn = .socks c)
    {d : FileDescriptor} (hd : d ∈ c.owned) :
    (some d ∈ s.select.fileDescriptorsRead ↔ c.watch.read (some d)) ∧
      (some d ∈ s.select.fileDescriptorsWrite ↔ c.watch.write (some d)) := by
  have own := h.own hs (d := d) (by rw [hc]; exact hd)
  rwa [hc] at own

/-- **Write interest.**  In every state of the loop, of a connection that relays: an end that is
there is in the write list exactly while something waits for it, and something of the connection is
registered; while it is suspended nothing is, and the flags say what it comes back to. -/
theorem write_interest (h : Reachable s) (hs : slot ∈ s.connections) (hc : slot.conn = .socks c)
    (hst : c.state = .pipeing) :
    (c.client ≠ none ∨ c.server ≠ none) ∧
      (c.suspended = false →
        (∀ side d, c.endpoint side = some d →
          (some d ∈ s.select.fileDescriptorsWrite ↔ c.pending side ≠ [])) ∧
        ∃ d ∈ c.owned, some d ∈ s.select.fileDescriptorsRead ∨
          some d ∈ s.select.fileDescriptorsWrite) ∧
      (c.suspended = true →
        (∀ d ∈ c.owned, some d ∉ s.select.fileDescriptorsRead ∧
          some d ∉ s.select.fileDescriptorsWrite) ∧
        (c.suspendedDescriptorsSet.clientWrite = true ↔
          c.client ≠ none ∧ c.clientWriteBuff ≠ []) ∧
        (c.suspendedDescriptorsSet.serverWrite = true ↔
          c.server ≠ none ∧ c.serverWriteBuff ≠ []) ∧
        c.suspendedDescriptorsSet ≠ {}) := by
  have orderly := h.orderly
  obtain ⟨es, sound⟩ := orderly.sound hs hc
  have own {d : FileDescriptor} (hd : d ∈ c.owned) := orderly.own_socks hs hc hd
  obtain ⟨side, wanted⟩ := sound.shaped.wants hst
  refine ⟨?_, fun hq => ?_, fun hq => ?_⟩
  · have := sound.shaped
    rw [Shaped, hst] at this
    exact this.1
  · -- not suspended: the lists are as the relay wants them
    rw [SocksConnection.watch_relay hst hq] at own
    refine ⟨fun side d hd => ?_, ?_⟩
    · rw [(own (SocksConnection.endpoint_mem_owned hd)).2, sound.distinct.writes hd]
      refine and_iff_right ?_
      rw [hd]
      exact Option.some_ne_none d
    · have there : c.endpoint side ≠ none := wanted.elim And.left And.left
      obtain ⟨d, hd⟩ := Option.ne_none_iff_exists'.mp there
      have mine := SocksConnection.endpoint_mem_owned hd
      refine ⟨d, mine, wanted.imp (fun hr => ?_) fun hw => ?_⟩
      · exact (own mine).1.mpr ((sound.distinct.reads hd).mpr hr)
      · exact (own mine).2.mpr ((sound.distinct.writes hd).mpr hw)
  · -- suspended: the lists have nothing, and the flags are those saved by `try_suspend`
    rw [SocksConnection.watch_suspended hst hq] at own
    rw [sound.saved hq]
    exact ⟨fun d hd => ⟨(own hd).1.not.mpr id, (own hd).2.not.mpr id⟩, decide_eq_true_iff,
      decide_eq_true_iff, SocksConnection.wants_ne_empty wanted⟩

theorem write_interest_sample :
    Sample.relaying.pending .server = [1, 2, 3] ∧
      (some ⟨3, 8, ⟨20480, 16777226⟩⟩ ∈ Sample.served.select.fileDescriptorsWrite ↔
        Sample.relaying.pending .server ≠ []) :=
  ⟨rfl, ((write_interest Sample.served_reachable Sample.mem_served rfl rfl).2.1 rfl).1
    .server _ rfl⟩

/-! ### The table of states -/

/-- Of the descriptors of `c` only `r` is in the read list, and only `w` in the write list. -/
def Server.Registers (s : Server) (c : SocksConnection) (r w : Pointer) : Prop :=
  ∀ d ∈ c.owned, (some d ∈ s.select.fileDescriptorsRead ↔ some d = r) ∧
    (some d ∈ s.select.fileDescriptorsWrite ↔ some d = w)

/-- A connection has registered what its state says. -/
theorem Orderly.registers (h : Orderly s) (hs : slot ∈ s.connections) (hc : slot.conn = .socks c)
    {r w : Pointer} (hr : ∀ d, c.watch.read (some d) ↔ some d = r)
    (hw : ∀ d, c.watch.write (some d) ↔ some d = w) : s.Registers c r w := by
  intro d hd
  have own := h.own_socks hs hc hd
  exact ⟨own.1.trans (hr d), own.2.trans (hw d)⟩

/-- **The table of states.**  In every state of the loop the state of a connection says which of its
pointers are not `NULL` and which stand in which list; `NULL` stands in no list, and no step follows
a `NULL` pointer: what can be undefined in it is `FD_SET` of a number that it has no room for. -/
theorem state_table (h : Reachable s) (hs : slot ∈ s.connections) (hc : slot.conn = .socks c) :
    (c.state ∈ [.readingInitialRequest, .socks5ReadingRequest] →
        c.client ≠ none ∧ s.Registers c c.client none) ∧
      (c.state ∈ [.writingResponseSuccess, .writingResponseFailure, .socks4WritingBindResponse,
          .socks5WritingBindResponse, .socks5WritingAuthResponseSuccess] →
        c.client ≠ none ∧ s.Registers c none c.client) ∧
      (c.state ∈ [.socks4ConnectingServer, .socks5ConnectingServer] →
        c.client ≠ none ∧ c.server ≠ none ∧ s.Registers c c.server c.server) ∧
      (c.state ∈ [.socks4WaitingConnection, .socks5WaitingConnection] →
        c.client ≠ none ∧ c.listen ≠ none ∧ s.Registers c c.listen c.listen) ∧
      (c.state = .writingResponseSuccess → c.server ≠ none) ∧
      (c.state ∈ [.socks4WritingBindResponse, .socks5WritingBindResponse] → c.listen ≠ none) ∧
      (c.state = .pipeing → c.client ≠ none ∨ c.server ≠ none) ∧
      none ∉ s.select.fileDescriptorsRead ∧ none ∉ s.select.fileDescriptorsWrite ∧
      ∀ t : Calls, t.Honest s → (s.step t = .fault ↔ t.Overruns s) := by
  have orderly := h.orderly
  obtain ⟨es, sound⟩ := orderly.sound hs hc
  have shaped := sound.shaped
  have both {p : Pointer} (hw : c.watch = .both p) : s.Registers c p p :=
    orderly.registers hs hc (fun d => by rw [hw]; rfl) fun d => by rw [hw]; rfl
  have reads (hw : c.watch = .reading c.client) : s.Registers c c.client none :=
    orderly.registers hs hc (fun d => by rw [hw]; rfl)
      fun d => by rw [hw]; exact iff_of_false id (Option.some_ne_none d)
  have writes (hw : c.watch = .writing c.client) : s.Registers c none c.client :=
    orderly.registers hs hc (fun d => by rw [hw]; exact iff_of_false id (Option.some_ne_none d))
      fun d => by rw [hw]; rfl
  refine ⟨fun hst => ?_, fun hst => ?_, fun hst => ?_, fun hst => ?_, fun hst => ?_, fun hst => ?_,
    fun hst => ?_, orderly.not_none.1, orderly.not_none.2, fun t => orderly.step_fault⟩
  · refine ⟨shaped.client fun hp => absurd (hp ▸ hst) (by decide), reads ?_⟩
    simp only [List.mem_cons, List.not_mem_nil, or_false] at hst
    rcases hst with hst | hst <;> rw [SocksConnection.watch, hst]
  · refine ⟨shaped.client fun hp => absurd (hp ▸ hst) (by decide), writes ?_⟩
    simp only [List.mem_cons, List.not_mem_nil, or_false] at hst
    rcases hst with hst | hst | hst | hst | hst <;> rw [SocksConnection.watch, hst]
  · simp only [List.mem_cons, List.not_mem_nil, or_false] at hst
    rcases hst with hst | hst <;> rw [Shaped, hst] at shaped
    · exact ⟨shaped.1, shaped.2.1, both (by rw [SocksConnection.watch, hst])⟩
    · exact ⟨shaped.1, shaped.2.1, both (by rw [SocksConnection.watch, hst])⟩
  · simp only [List.mem_cons, List.not_mem_nil, or_false] at hst
    rcases hst with hst | hst <;> rw [Shaped, hst] at shaped
    · exact ⟨shaped.1, shaped.2.2, both (by rw [SocksConnection.watch, hst])⟩
    · exact ⟨shaped.1, shaped.2.2, both (by rw [SocksConnection.watch, hst])⟩
  · rw [Shaped, hst] at shaped
    exact shaped.2.1
  · simp only [List.mem_cons, List.not_mem_nil, or_false] at hst
    rcases hst with hst | hst <;> rw [Shaped, hst] at shaped
    · exact shaped.2.2
    · exact shaped.2.2
  · rw [Shaped, hst] at shaped
    exact shaped.1

namespace Sample

/-- A client asks for a peer, and has been told where it may come. -/
def expecting : Server :=
  (Server.boot 5 6 ⟨0, 0⟩ ⟨0, 0⟩).play
    (pass [5] [] (.socket 7 ⟨0, 0⟩) env ++
      pass [7] [] .null { env with
        read := fun _ => .data bindRequest, newServerSocket := some (9, ⟨36895, 0⟩) } ++
      pass [] [7] .null { env with write := fun _ => .wrote 8 })

theorem expecting_reachable : Reachable expecting :=
  reachable_play (.boot 5 6 ⟨0, 0⟩ ⟨0, 0⟩ (by decide)) _

/-- Its connection. -/
def bound : SocksConnection :=
  { SocksConnection.new ⟨2, 7, ⟨0, 0⟩⟩ 0 with
    listen := some ⟨3, 9, ⟨36895, 0⟩⟩, state := .socks4WaitingConnection
    clientReadBuff := bindRequest.bytes }

end Sample

/-- The peer is waited for: the listener is registered, and the client is not. -/
theorem state_table_sample :
    Sample.bound.listen ≠ none ∧
      Sample.expecting.Registers Sample.bound Sample.bound.listen Sample.bound.listen :=
  have mem := List.mem_singleton_self (⟨0, .socks Sample.bound⟩ : Slot)
  ((state_table Sample.expecting_reachable mem rfl).2.2.2.1 (by decide)).2

end

end OldStuff.Socks
