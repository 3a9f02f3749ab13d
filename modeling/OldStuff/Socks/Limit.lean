import OldStuff.Socks.Readiness
import OldStuff.Socks.Reload

/-!
# Socks — how many clients there are

`max clients` is read from the file and asked for by nobody: `main` accepts whoever comes.  So the
limit holds as long as the clients keep to it themselves (`client_limit_iff`), and so does what
rests on it.  The kernel hands out the least number that is free, a connection holds at most three,
and `FD_SET` has room for every number as long as there are not too many in use.
-/

namespace OldStuff.Socks
open OldStuff.Io
open OldStuff.Io.Select (Direction)
open OldStuff.Lib (Outcome Accounted)

/-- `n` is the least number that is not in use. -/
def Lowest (used : List Nat) (n : Nat) : Prop := n ∉ used ∧ ∀ k < n, k ∈ used

instance (used : List Nat) (n : Nat) : Decidable (Lowest used n) :=
  inferInstanceAs (Decidable (n ∉ used ∧ ∀ k < n, k ∈ used))

/-- All smaller numbers are in use. -/
theorem Lowest.le_length {used : List Nat} {n : Nat} (h : Lowest used n) : n ≤ used.length := by
  have below : List.range n ⊆ used := fun k hk => h.2 k (List.mem_range.mp hk)
  have := (List.subperm_of_subset List.nodup_range below).length_le
  rwa [List.length_range] at this

def Connection.isSocks : Connection → Bool
  | .socks _ => true
  | .http _ => false

namespace Server

/-- The `socks_connection` objects in the vector. -/
def clients (s : Server) : Nat := s.connections.countP (·.conn.isSocks)

/-- The `http_connection` objects in the vector. -/
def pages (s : Server) : Nat := s.connections.countP (!·.conn.isSocks)

/-- The numbers that `try_select` hands to `FD_SET`. -/
def selected (s : Server) : List Nat :=
  (Select.fds s.select.fileDescriptorsRead.toList).getD [] ++
    (Select.fds s.select.fileDescriptorsWrite.toList).getD []

end Server

/-- One step of the loop: the state it is made in, its calls, the state it leads to. -/
structure Lap where
  before : Server
  calls : Calls
  after : Server

/-- A run of the loop in a process that has at most `k` other descriptors open, whichever they are
at the time. -/
inductive Loop (k : Nat) : List Lap → Server → Prop where
  | boot (socksFd httpFd : Nat) (socksAddr httpAddr : SockaddrIn) (others : List Nat)
      (hk : others.length ≤ k) (hs : Lowest others socksFd)
      (hh : Lowest (socksFd :: others) httpFd) :
      Loop k [] (.boot socksFd httpFd socksAddr httpAddr)
  | step {ts : List Lap} {s s' : Server} (t : Calls) (others : List Nat) (h : Loop k ts s)
      (hk : others.length ≤ k) (ht : ∀ n ∈ t.numbers, Lowest (s.owned.map (·.fd) ++ others) n)
      (hs : s.step t = .ok () s') : Loop k (ts ++ [⟨s, t, s'⟩]) s'

/-- This lap lets a client in. -/
def Lap.LetsIn (x : Lap) : Prop :=
  x.before.phase = .acceptSocks ∧ x.before.select.canRead x.before.socksSock = true ∧
    ∃ fd addr, x.calls.accept = .socket fd addr

instance : (a : AcceptResult) → Decidable (∃ fd addr, a = .socket fd addr)
  | .threw | .null => isFalse (by simp)
  | .socket fd addr => isTrue ⟨fd, addr, rfl⟩

instance (x : Lap) : Decidable x.LetsIn :=
  inferInstanceAs (Decidable (x.before.phase = .acceptSocks ∧
    x.before.select.canRead x.before.socksSock = true ∧
      ∃ fd addr, x.calls.accept = .socket fd addr))

section
variable {s s' : Server} {t : Calls} {slot : Slot} {l : Left} {k : Nat} {ts : List Lap}

theorem Loop.honest {others : List Nat}
    (ht : ∀ n ∈ t.numbers, Lowest (s.owned.map (·.fd) ++ others) n) : t.Honest s :=
  fun n hn hm => (ht n hn).1 (List.mem_append_left _ hm)

theorem Loop.reachable (h : Loop k ts s) : Reachable s := by
  induction h with
  | boot socksFd httpFd socksAddr httpAddr _ _ _ hh =>
      refine .boot socksFd httpFd socksAddr httpAddr fun he => hh.1 ?_
      rw [he]
      exact List.mem_cons_self
  | step t _ _ _ ht hs ih => exact .step t ih (Loop.honest ht) hs

/-! ### The connections -/

/-- A visit makes no connection one of the other kind. -/
theorem visit_isSocks (hv : s.visit t slot = .ok () l) {conn : Connection}
    (hc : l.conn = some conn) : conn.isSocks = slot.conn.isSocks := by
  unfold Server.visit at hv
  cases hs : slot.conn with
  | socks c =>
      rw [hs] at hv
      obtain ⟨b, w, -, rfl⟩ := Outcome.lift_eq_ok.mp hv
      unfold Server.leftSocks at hc
      cases b with
      | false => cases hc
      | true =>
          obtain rfl := Option.some.inj hc
          rfl
  | http c =>
      rw [hs] at hv
      obtain ⟨b, w, -, rfl⟩ := Outcome.lift_eq_ok.mp hv
      unfold Server.leftHttp at hc
      cases b with
      | false => cases hc
      | true =>
          obtain rfl := Option.some.inj hc
          rfl

/-- **One step.**  It adds a client only if it lets one in. -/
theorem step_clients (h : Orderly s) (hs : s.step t = .ok () s') :
    s'.clients ≤ s.clients ∨ (Lap.mk s t s').LetsIn ∧ s'.clients = s.clients + 1 := by
  rcases h.step_connections hs with same | ⟨fd, addr, conn, ha, came, kind⟩ |
    ⟨slot, rest, l, hp, hrest, hv, rfl⟩
  · exact .inl (by rw [Server.clients, same, Server.clients])
  · have count : s'.clients = s.clients + if conn.isSocks then 1 else 0 := by
      rw [Server.clients, came, List.countP_append, List.countP_singleton, Server.clients]
    rcases kind with ⟨hp, hr, rfl⟩ | ⟨-, -, rfl⟩
    · exact .inr ⟨⟨hp, hr, fd, addr, ha⟩, count⟩
    · exact .inl (le_of_eq count)
  · left
    rw [Server.clients, Orderly.settle_connections, Server.clients, Orderly.before_settle hrest]
    simp only [List.countP_append, List.countP_cons]
    -- the slot stays in its place, with a connection of its kind, or it goes
    cases hc : l.conn with
    | none => simp
    | some conn =>
        have kind := visit_isSocks hv hc
        simp only [Option.map_some, Option.toList_some, List.countP_singleton, kind]
        omega

/-- A client that is let in is one more. -/
theorem Lap.LetsIn.clients (hl : (Lap.mk s t s').LetsIn) (h : Orderly s)
    (hs : s.step t = .ok () s') : s'.clients = s.clients + 1 := by
  obtain ⟨hp, hr, fd, addr, ha⟩ := hl
  have idle : s.phase ≠ .sweep := by rw [show s.phase = .acceptSocks from hp]; decide
  have enlisted : s.acceptOn s.socksSock (fun d time => .socks (.new d time)) t = .ok ()
      (s.enlist ⟨s.nextDescriptor, fd, addr⟩
        (.socks (.new ⟨s.nextDescriptor, fd, addr⟩ t.now))) := by
    rw [Server.acceptOn, if_pos hr]
    simp only [show t.accept = .socket fd addr from ha]
  rw [Server.step, show s.phase = .acceptSocks from hp] at hs
  dsimp only at hs
  rw [Server.acceptSocks, enlisted] at hs
  obtain rfl := (Outcome.ok.inj hs).2
  have came : (s.enlist ⟨s.nextDescriptor, fd, addr⟩
      (.socks (.new ⟨s.nextDescriptor, fd, addr⟩ t.now))).connections = _ :=
    h.enlist_connections idle
  have count := congrArg (List.countP (·.conn.isSocks)) came
  rwa [List.countP_append, List.countP_singleton] at count

/-- A connection holds at most three descriptors. -/
theorem Connection.owned_length (conn : Connection) :
    conn.owned.length ≤ if conn.isSocks then 3 else 1 := by
  cases conn with
  | socks c =>
      have single (p : Pointer) : p.toList.length ≤ 1 := by cases p <;> simp
      have client := single c.client
      have server := single c.server
      have listen := single c.listen
      simp only [Connection.owned, SocksConnection.owned, List.length_append]
      rw [Connection.isSocks, if_pos rfl]
      omega
  | http c => exact Nat.le_refl 1

theorem owned_length (s : Server) : s.owned.length ≤ 2 + (3 * s.clients + s.pages) := by
  have all (slots : List Slot) : (slots.flatMap (·.conn.owned)).length ≤
      3 * slots.countP (·.conn.isSocks) + slots.countP (!·.conn.isSocks) := by
    induction slots with
    | nil => exact Nat.zero_le _
    | cons slot slots ih =>
        have own := slot.conn.owned_length
        rw [List.flatMap_cons, List.length_append, List.countP_cons, List.countP_cons]
        cases hk : slot.conn.isSocks with
        | false =>
            simp only [hk, Bool.false_eq_true, if_false, Bool.not_false, if_true] at own ⊢
            omega
        | true =>
            simp only [hk, Bool.false_eq_true, if_false, Bool.not_true, if_true] at own ⊢
            omega
  have := all s.connections
  rw [Server.owned, List.length_append, Server.clients, Server.pages]
  exact Nat.add_le_add_left this 2

/-- **The numbers.**  What a step adds, the kernel has handed out. -/
theorem step_owned (h : Orderly s) (hs : s.step t = .ok () s') {d : FileDescriptor}
    (hd : d ∈ s'.owned) : d ∈ s.owned ∨ d.fd ∈ t.numbers := by
  have enlisted {fd : Nat} {addr : SockaddrIn} (conn : Connection) (hp : s.phase ≠ .sweep)
      (ha : t.accept = .socket fd addr) (ho : conn.owned = [⟨s.nextDescriptor, fd, addr⟩])
      (hd : d ∈ (s.enlist ⟨s.nextDescriptor, fd, addr⟩ conn).owned) :
      d ∈ s.owned ∨ d.fd ∈ t.numbers := by
    rw [h.enlist_owned hp ho] at hd
    rcases List.mem_append.mp hd with hd | hd
    · exact .inl hd
    · obtain rfl := List.mem_singleton.mp hd
      exact .inr (by simp [Calls.numbers, ha, AcceptResult.numbers])
  cases Server.step_cases hs with
  | poll => exact .inl hd
  | acceptSocks hp hu =>
      cases hu with
      | nobody => exact .inl hd
      | somebody _ ha => exact enlisted _ (by rw [hp]; decide) ha rfl hd
  | acceptHttp hp hu =>
      have idle : s.phase ≠ .sweep := by rw [hp]; decide
      cases hu with
      | nobody =>
          rw [Server.owned, h.connections_visited idle]
          exact .inl hd
      | @somebody fd addr _ ha =>
          refine enlisted (.http (.new ⟨s.nextDescriptor, fd, addr⟩ t.now)) idle ha rfl ?_
          rw [Server.owned, h.enlist_connections idle, h.connections_visited idle]
          exact hd
  | turn => exact .inl hd
  | visit hp hrest hv =>
      have leaves := (visit_leaves (h.current hp hrest)).of_ok hv
      have books := Orderly.settle_books hrest leaves (Accounted.refl s.owned)
      rcases books.mem_iff.mpr (.inl hd) with hd | hd
      · exact .inl hd
      · right
        rcases leaves.supply with ⟨hnew, -⟩ | ⟨d', hnew, -, hm, -⟩
        · rw [hnew] at hd
          cases hd
        · rw [hnew] at hd
          obtain rfl := List.mem_singleton.mp hd
          exact List.mem_append_right _ hm

/-! ### The runs -/

/-- What `try_select` is given exists. -/
theorem Orderly.owned_of_selected (h : Orderly s) {n : Nat} (hn : n ∈ s.selected) :
    ∃ d ∈ s.owned, d.fd = n := by
  have listed (k : Direction) {ns : List Nat} (hns : Select.fds (s.select.list k).toList = some ns)
      (hn : n ∈ ns) : ∃ d ∈ s.owned, d.fd = n := by
    obtain ⟨d, hd, rfl⟩ := (Select.mem_fds hns).mp hn
    exact ⟨d, h.owned_of_list (k := k) hd, rfl⟩
  rcases List.mem_append.mp hn with hn | hn
  · cases hf : Select.fds s.select.fileDescriptorsRead.toList with
    | none => simp [hf] at hn
    | some ns => exact listed .read hf (by simpa [hf] using hn)
  · cases hf : Select.fds s.select.fileDescriptorsWrite.toList with
    | none => simp [hf] at hn
    | some ns => exact listed .write hf (by simpa [hf] using hn)

/-- The states of a run. -/
def states (ts : List Lap) (s : Server) : List Server := ts.map (·.before) ++ [s]

theorem forall_states_step {P : Server → Prop} :
    (∀ u ∈ states (ts ++ [⟨s, t, s'⟩]) s', P u) ↔ (∀ u ∈ states ts s, P u) ∧ P s' := by
  simp [states, or_imp, forall_and, and_assoc]

theorem Loop.orderly (h : Loop k ts s) : ∀ u ∈ states ts s, Orderly u := by
  induction h with
  | boot _ _ _ _ _ hk hs hh =>
      intro u hu
      obtain rfl := List.mem_singleton.mp hu
      exact (Loop.boot _ _ _ _ _ hk hs hh).reachable.orderly
  | step t others h hk ht hs ih =>
      exact forall_states_step.mpr ⟨ih, (Loop.step t others h hk ht hs).reachable.orderly⟩

/-- The limit is kept exactly if nobody is let in when it is reached. -/
theorem Loop.clients_iff {m : Int} (h : Loop k ts s) (hm : 0 ≤ m) :
    (∀ u ∈ states ts s, (u.clients : Int) ≤ m) ↔
      ∀ x ∈ ts, x.LetsIn → (x.before.clients : Int) < m := by
  induction h with
  | boot => simpa [states, Server.clients, Server.connections, Server.boot] using hm
  | @step ts s s' t _ h _ _ hs ih =>
      rw [forall_states_step, ih, List.forall_mem_append, List.forall_mem_singleton]
      refine and_congr_right fun hc => ?_
      have here : (s.clients : Int) ≤ m := ih.mpr hc s (by simp [states])
      constructor
      · intro after hl
        have := hl.clients h.reachable.orderly hs
        dsimp only at this ⊢
        omega
      · intro room
        rcases step_clients h.reachable.orderly hs with fewer | ⟨hl, more⟩
        · omega
        · have := room hl
          dsimp only at this
          omega

/-- **The numbers in use** stay small while there is room for the connections. -/
theorem Loop.owned_lt {m : Int} {size : Nat} (h : Loop k ts s) (hm : 0 ≤ m)
    (hc : ∀ x ∈ ts, x.LetsIn → (x.before.clients : Int) < m)
    (hb : ∀ u ∈ states ts s, 3 * m + (2 + k + u.pages : Nat) < size) :
    ∀ u ∈ states ts s, ∀ d ∈ u.owned, d.fd < size := by
  induction h with
  | boot socksFd httpFd _ _ others hk hs hh =>
      have budget := hb _ (List.mem_singleton_self _)
      have first := hs.le_length
      have second := hh.le_length
      rw [List.length_cons] at second
      intro u hu d hd
      obtain rfl := List.mem_singleton.mp hu
      simp only [Server.owned, Server.boot, Server.connections, List.flatMap_nil, List.append_nil,
        List.mem_cons, List.not_mem_nil, or_false] at hd
      rcases hd with rfl | rfl <;> dsimp only <;> omega
  | @step ts s s' t others h hk ht hs ih =>
      rw [forall_states_step] at hb ⊢
      have hc₀ : ∀ x ∈ ts, x.LetsIn → (x.before.clients : Int) < m :=
        fun x hx => hc x (List.mem_append_left _ hx)
      have before := ih hc₀ hb.1
      have last : s ∈ states ts s := by simp [states]
      refine ⟨before, fun d hd => ?_⟩
      rcases step_owned h.reachable.orderly hs hd with hd | hd
      · exact before s last d hd
      · have clients := (h.clients_iff hm).mpr hc₀ s last
        have budget := hb.1 s last
        have number := (ht _ hd).le_length
        have used := owned_length s
        rw [List.length_append, List.length_map] at number
        omega

end

/-- **The client limit.**  In a process that has at most `k` descriptors open besides those of the
sockets: there are never more clients than `max clients` says, and `FD_SET` has room for every
number as long as it has room for three numbers for each of them and one for everything else,
exactly if no client is let in while there are as many. -/
theorem client_limit_iff {cfg : Instance} {k size : Nat} {ts : List Lap} {s : Server}
    (h : Loop k ts s) (hm : 1 ≤ cfg.maxClients) :
    ((∀ u ∈ states ts s, (u.clients : Int) ≤ cfg.maxClients) ∧
      ((∀ u ∈ states ts s, 3 * cfg.maxClients + (2 + k + u.pages : Nat) < size) →
        ∀ u ∈ states ts s, ∀ n ∈ u.selected, n < size)) ↔
      ∀ x ∈ ts, x.LetsIn → (x.before.clients : Int) < cfg.maxClients := by
  have positive : 0 ≤ cfg.maxClients := by omega
  refine ⟨fun hp => (h.clients_iff positive).mp hp.1, fun hc => ⟨(h.clients_iff positive).mpr hc,
    fun hb u hu n hn => ?_⟩⟩
  obtain ⟨d, hd, rfl⟩ := (h.orderly u hu).owned_of_selected hn
  exact h.owned_lt positive hc hb u hu d hd

/-- The run that the given calls lead to; it ends early where one cannot be. -/
def Server.trace (others : List Nat) (s : Server) : List Calls → List Lap × Server
  | [] => ([], s)
  | t :: ts =>
    if ∀ n ∈ t.numbers, Lowest (s.owned.map (·.fd) ++ others) n then
      match s.step t with
      | .ok () s' => (⟨s, t, s'⟩ :: (s'.trace others ts).1, (s'.trace others ts).2)
      | _ => ([], s)
    else ([], s)

theorem loop_trace {k : Nat} {others : List Nat} (hk : others.length ≤ k) {us : List Lap}
    {s : Server} (h : Loop k us s) (ts : List Calls) :
    Loop k (us ++ (s.trace others ts).1) (s.trace others ts).2 := by
  induction ts generalizing us s with
  | nil => rwa [Server.trace, List.append_nil]
  | cons t ts ih =>
      unfold Server.trace
      split
      · next ht =>
          split
          · next s' hs =>
              have := ih (.step t others h hk ht hs)
              rwa [List.append_assoc] at this
          · rwa [List.append_nil]
      · rwa [List.append_nil]

namespace Sample

/-- Room for one client. -/
def narrowConf : Text := "max clients = 1\n".toList

/-- One client comes. -/
def lone : List Lap × Server :=
  (Server.boot 4 5 ⟨0, 0⟩ ⟨0, 0⟩).trace [0, 1, 2, 3] (pass [4] [] (.socket 6 ⟨0, 0⟩) env)

/-- Another one comes. -/
def pair : List Lap × Server :=
  lone.2.trace [0, 1, 2, 3]
    [{ env, call := .ready [4] [] }, { env, accept := .socket 7 ⟨0, 0⟩ }]

theorem loop_lone : Loop 4 ([] ++ lone.1) lone.2 :=
  loop_trace (by decide)
    (.boot 4 5 ⟨0, 0⟩ ⟨0, 0⟩ [0, 1, 2, 3] (by decide) (by decide) (by decide)) _

theorem loop_pair : Loop 4 ([] ++ lone.1 ++ pair.1) pair.2 :=
  loop_trace (by decide) loop_lone _

end Sample

set_option maxRecDepth 10000 in
theorem client_limit_sample :
    ∃ cfg, load .littleEndian Sample.whole (some Sample.narrowConf) {} = .ok () cfg ∧
      ∀ u ∈ states Sample.lone.1 Sample.lone.2, (u.clients : Int) ≤ cfg.maxClients := by
  refine ⟨{ maxClients := 1 }, rfl, ?_⟩
  have room : ∀ x ∈ [] ++ Sample.lone.1, x.LetsIn → (x.before.clients : Int) < 1 := by decide
  have one : 1 ≤ ({ maxClients := 1 } : Instance).maxClients := by decide
  have limit := @client_limit_iff { maxClients := 1 } 4 1024 _ _ Sample.loop_lone one
  exact (limit.mpr room).1

set_option maxRecDepth 10000 in
/-- `max clients` is 1, and there are two. -/
theorem client_limit_exceeded :
    ∃ cfg, load .littleEndian Sample.whole (some Sample.narrowConf) {} = .ok () cfg ∧
      cfg.maxClients = 1 ∧ Loop 4 (Sample.lone.1 ++ Sample.pair.1) Sample.pair.2 ∧
      Sample.pair.2.clients = 2 :=
  ⟨{ maxClients := 1 }, rfl, rfl, Sample.loop_pair, rfl⟩

end OldStuff.Socks
