import OldStuff.Socks.Server

/-!
# Socks — order in the server

`Orderly` is the invariant of the main loop: the lists of the `select` object are the sockets of
`main` and what the state of every connection says, the descriptor objects balance, no number is in
use twice, the status page has no line of a connection that is gone, and every connection has got
where it is by an honest run of its own (`Tracked`).

A visit is seen from two sides.  `Found` is what a connection relies on, and `Leaves` what it
guarantees; `visit_leaves` leads from the one to the other, for both kinds of connections.
`Orderly` supplies `Found` and is restored by `Leaves`.
-/

namespace OldStuff.Socks
open OldStuff.Io
open OldStuff.Lib (Outcome Accounted)
open OldStuff.Io.Select (Holds)

/-! ### A visit from the outside -/

/-- A connection at the address `id` that got where it is by an honest run. -/
def Connection.Tracked (id : Nat) : Connection → Prop
  | .socks c => ∃ client time vs w, Run (.fresh id client time) vs true w ∧
      (∀ v ∈ vs, v.Honest) ∧ w.self = id ∧ w.conn = c
  | .http _ => True

theorem Connection.Tracked.sound {id : Nat} {c : SocksConnection}
    (h : (Connection.socks c).Tracked id) : ∃ es, Sound es c := by
  obtain ⟨client, time, vs, w, run, honest, -, rfl⟩ := h
  exact ⟨_, (run.steady honest rfl).sound⟩

theorem Connection.Tracked.watch_of {id : Nat} {conn : Connection} (h : conn.Tracked id) :
    conn.watch.Of conn.owned := by
  cases conn with
  | socks c =>
      obtain ⟨es, sound⟩ := h.sound
      exact SocksConnection.watch_of sound.shaped
  | http c =>
      have own := List.mem_singleton_self c.client
      unfold Connection.watch HttpConnection.watch
      dsimp only
      split
      · exact .reading own
      · exact .writing own

/-- What a visit finds. -/
structure Found (theirs : Watch) (s : Server) (slot : Slot) : Prop where
  holds : Holds theirs slot.conn.watch s.select
  aloof : theirs.Aloof s.nextDescriptor slot.conn.owned
  ids : ∀ d ∈ slot.conn.owned, d.id < s.nextDescriptor
  ready : ∀ d ∈ slot.conn.owned, s.select.canRead d = true →
    some d ∈ s.select.fileDescriptorsRead
  tracked : slot.conn.Tracked slot.id

/-- The registrations of a connection, if it is still there. -/
def Left.watch (l : Left) : Watch := l.conn.elim .nothing (·.watch)

/-- The descriptor objects of a connection, if it is still there. -/
def Left.owned (l : Left) : List FileDescriptor := l.conn.elim [] (·.owned)

/-- The three pointers of a connection keep their objects until these are deleted. -/
structure Keeps3 (gone : List FileDescriptor) (c c' : Connection) : Prop where
  client : Stays gone c.client c'.client
  server : Stays gone c.server c'.server
  listen : Stays gone c.listen c'.listen

/-- What a visit leaves. -/
structure Leaves (theirs : Watch) (fds : List Nat) (s : Server) (slot : Slot) (l : Left) :
    Prop where
  holds : Holds theirs l.watch l.select
  readSet : l.select.readSet = s.select.readSet
  writeSet : l.select.writeSet = s.select.writeSet
  status : ∀ k ∈ l.status, k ∈ s.status ∨ k = slot.id
  gone : l.conn = none → slot.id ∉ l.status
  books : Accounted slot.conn.owned (created l.trace) l.owned (deleted l.trace)
  supply : Supply fds s.nextDescriptor (created l.trace) l.nextDescriptor
  tracked : ∀ c, l.conn = some c → c.Tracked slot.id
  pointers : ∀ c, l.conn = some c → Keeps3 (deleted l.trace) slot.conn c

section
variable {theirs : Watch} {s : Server} {t : Calls} {slot : Slot} {id : Nat}

theorem Found.rely {w : World} (h : Found theirs s ⟨id, .socks w.conn⟩) :
    Rely theirs (w.enter ⟨t.env, s.select, s.tv, s.status, s.nextDescriptor⟩) :=
  ⟨h.holds, h.aloof, h.ids, h.ready⟩

/-- A connection that is deleted once its registrations are gone. -/
theorem destroy_leaves {w w' : World}
    (hk : Kept t.env (w.enter ⟨t.env, s.select, s.tv, s.status, s.nextDescriptor⟩) w')
    (hn : Holds theirs .nothing w'.select) :
    Leaves theirs t.env.numbers s ⟨w.self, .socks w.conn⟩
      (Server.leftSocks false (destroy w')) where
  holds := hn
  readSet := hk.readSet
  writeSet := hk.writeSet
  status := fun k hk' => hk.status k (AList.mem_erase.mp hk').2
  gone := fun _ hm => (AList.mem_erase.mp hm).1 hk.self.symm
  books := by
    have books : Accounted w.conn.owned (created w'.trace) [] (deleted w'.trace ++ w'.conn.owned) :=
      hk.books.close
    simpa [Server.leftSocks, destroy, Left.owned, Connection.owned] using books
  supply := by
    have supply : Supply t.env.numbers s.nextDescriptor (created w'.trace) w'.nextId := hk.supply
    simpa [Server.leftSocks, destroy] using supply
  tracked := fun c hc => by cases hc
  pointers := fun c hc => by cases hc

theorem visitSocks_leaves {c : SocksConnection} (h : Found theirs s ⟨id, .socks c⟩) :
    (s.visitSocks t id c).Sat
      (fun b w => Leaves theirs t.env.numbers s ⟨id, .socks c⟩ (Server.leftSocks b w))
      fun _ => False := by
  obtain ⟨client, time, vs, w, run, honest, rfl, rfl⟩ := h.tracked
  have steady := run.steady honest rfl
  have rely : Rely theirs (w.enter ⟨t.env, s.select, s.tv, s.status, s.nextDescriptor⟩) := h.rely
  have start : Kept t.env (w.enter ⟨t.env, s.select, s.tv, s.status, s.nextDescriptor⟩)
      (w.enter ⟨t.env, s.select, s.tv, s.status, s.nextDescriptor⟩) := .refl _ rfl
  obtain ⟨b, w', hw⟩ := visit_total ⟨t.env, s.select, s.tv, s.status, s.nextDescriptor⟩ steady.sound
  have tended := visit_tended hw rely steady.sound
  unfold Server.visitSocks hasExpired
  by_cases expired : w.conn.lastActive + t.config.pipeTimeout < t.now
  · -- `has_expired`: `main` deletes it without a visit
    rw [if_pos (by exact expired)]
    refine destroy_leaves (start.select _ (by simp) (by simp)) ?_
    exact SocksConnection.clearSelect_holds h.holds
      (SocksConnection.watch_of steady.sound.shaped) fun d hd => start.without h.aloof hd
  · rw [if_neg (by exact expired)]
    dsimp only
    rw [show work t.env (s.world w.self w.conn) = .ok b w' from hw, Outcome.bind_ok]
    cases b with
    | false => exact destroy_leaves tended.kept (tended.ended rfl)
    | true =>
        have kept := tended.kept
        refine ⟨tended.live rfl, kept.readSet, kept.writeSet, kept.status, nofun, kept.books,
          kept.supply, ?_, ?_⟩
        · intro c hc
          obtain rfl := Option.some.inj hc
          refine ⟨client, time, _, w', run.step _ hw, fun v hv => ?_, kept.self, rfl⟩
          rcases List.mem_append.mp hv with hv | hv
          · exact honest v hv
          · obtain rfl := List.mem_singleton.mp hv
            exact rely.honest steady ..
        · intro c hc
          obtain rfl := Option.some.inj hc
          exact ⟨kept.client, kept.server, kept.listen⟩

theorem visitHttp_leaves {c : HttpConnection} (h : Found theirs s ⟨id, .http c⟩) :
    (s.visitHttp t id c).Sat
      (fun b w => Leaves theirs t.env.numbers s ⟨id, .http c⟩ (s.leftHttp b w))
      fun _ => False := by
  have own := List.mem_singleton_self c.client
  have alone : theirs.Without (some c.client) := h.aloof.without own
  -- deleted, after a visit or without one
  have destroyed {w' : HttpWorld}
      (hw : HttpTended theirs ⟨id, c, s.select, s.status, []⟩ false w') :
      Leaves theirs t.env.numbers s ⟨id, .http c⟩ (s.leftHttp false (httpDestroy w')) := by
    have client : w'.conn.client = c.client := hw.client
    have books := (Accounted.refl [c.client]).close
    refine ⟨hw.ended rfl, hw.readSet, hw.writeSet, fun k hk => ?_, fun _ hm => ?_, ?_, ?_,
      fun c hc => ?_, fun c hc => ?_⟩
    · exact .inl (hw.status k (AList.mem_erase.mp hk).2)
    · exact (AList.mem_erase.mp hm).1 hw.self.symm
    · simpa [Server.leftHttp, httpDestroy, Left.owned, Connection.owned, hw.created, hw.deleted,
        client, Event.creates, Event.deletes] using books
    · exact .inl ⟨by simp [Server.leftHttp, httpDestroy, hw.created, Event.creates], rfl⟩
    · cases hc
    · cases hc
  unfold Server.visitHttp httpHasExpired
  by_cases expired : c.lastActive + t.config.pipeTimeout < t.now
  · simp only [expired, if_true]
    exact destroyed (HttpTended.expired (w := ⟨id, c, s.select, s.status, []⟩) alone rfl h.holds)
  · simp only [expired, if_false]
    refine (httpWork_tended alone rfl h.holds).bind fun b w' hw => ?_
    cases b with
    | false => exact destroyed hw
    | true =>
        have client : w'.conn.client = c.client := hw.client
        refine ⟨hw.live rfl, hw.readSet, hw.writeSet, fun k hk => .inl (hw.status k hk),
          fun hn => ?_, ?_, .inl ⟨hw.created, rfl⟩, fun c' hc => ?_, fun c' hc => ?_⟩
        · cases hn
        · have books := Accounted.refl [c.client]
          simpa [Server.leftHttp, Left.owned, Connection.owned, hw.created, hw.deleted,
            client] using books
        · obtain rfl := Option.some.inj hc
          trivial
        · obtain rfl := Option.some.inj hc
          refine ⟨fun d hd => .inl ?_, .refl, .refl⟩
          exact (congrArg some client).trans hd

theorem visit_leaves (h : Found theirs s slot) :
    (s.visit t slot).Sat (fun _ l => Leaves theirs t.env.numbers s slot l) fun _ => False := by
  obtain ⟨id, conn⟩ := slot
  unfold Server.visit
  cases conn with
  | socks c => exact (visitSocks_leaves h).lift (fun _ _ h => h) fun _ h => h
  | http c => exact (visitHttp_leaves h).lift (fun _ _ h => h) fun _ h => h

end

/-! ### The invariant -/

namespace Server

/-- The registrations of `main` and of some connections. -/
def watches (s : Server) (slots : List Slot) : List Watch :=
  [.reading (some s.httpSock), .reading (some s.socksSock)] ++ slots.map (·.conn.watch)

/-- The descriptor objects of `main` and of some connections. -/
def among (s : Server) (slots : List Slot) : List FileDescriptor :=
  [s.httpSock, s.socksSock] ++ slots.flatMap (·.conn.owned)

theorem watches_append (s : Server) (xs ys : List Slot) :
    s.watches (xs ++ ys) = s.watches xs ++ ys.map (·.conn.watch) := by
  simp [watches]

theorem watches_split (s : Server) (xs ys : List Slot) (slot : Slot) :
    s.watches (xs ++ slot :: ys) = s.watches xs ++ slot.conn.watch :: ys.map (·.conn.watch) := by
  simp [watches]

/-- One connection's descriptors out of all. -/
theorem among_split (s : Server) (xs ys : List Slot) (slot : Slot) :
    (s.among (xs ++ slot :: ys)).Perm (slot.conn.owned ++ s.among (xs ++ ys)) := by
  have front : (xs ++ slot :: ys).Perm (slot :: (xs ++ ys)) := List.perm_middle
  have front := front.flatMap_right (·.conn.owned)
  refine (front.append_left [s.httpSock, s.socksSock]).trans ?_
  rw [List.flatMap_cons, among, ← List.append_assoc, ← List.append_assoc]
  exact List.perm_append_comm.append_right _

/-- The connections that are still to be visited in this pass. -/
def unvisited (s : Server) : List Slot :=
  match s.phase with
  | .select => []
  | .acceptSocks | .acceptHttp => s.visited
  | .sweep => s.pending

/-- Of the descriptors of a connection only registered ones have been reported ready. -/
def Ready (s : Server) (slot : Slot) : Prop :=
  ∀ d ∈ slot.conn.owned, s.select.canRead d = true → slot.conn.watch.read (some d)

end Server

structure Orderly (s : Server) : Prop where
  holds : Holds .nothing (.all (s.watches s.connections)) s.select
  supply : s.created.map (·.id) = List.range s.nextDescriptor
  books : Accounted [] s.created s.owned s.deleted
  fds : (s.owned.map (·.fd)).Nodup
  slots : (s.connections.map (·.id)).Nodup
  next : ∀ slot ∈ s.connections, slot.id < s.nextConnection
  status : ∀ k ∈ s.status, k ∈ s.connections.map (·.id)
  tracked : ∀ slot ∈ s.connections, slot.conn.Tracked slot.id
  idle : s.phase ≠ .sweep → s.pending = []
  ready : ∀ slot ∈ s.unvisited, s.Ready slot

/-- A connection that lives on keeps the objects of its pointers, unless they are deleted. -/
def Carried (s s' : Server) : Prop :=
  ∀ slot ∈ s.connections, ∀ slot' ∈ s'.connections, slot'.id = slot.id →
    Keeps3 s'.deleted slot.conn slot'.conn

namespace Orderly

variable {s : Server} {slot slot' : Slot} {d : FileDescriptor} {xs ys : List Slot}

theorem created_nodup (h : Orderly s) : s.created.Nodup := by
  have ids : (s.created.map (·.id)).Nodup := by
    rw [h.supply]
    exact List.nodup_range
  exact ids.of_map _

/-- Every object has one place: one owner, or the list of those deleted. -/
theorem nodup (h : Orderly s) : (s.owned ++ s.deleted).Nodup :=
  h.books.nodup_iff.mp h.created_nodup

theorem owned_nodup (h : Orderly s) : s.owned.Nodup := (List.nodup_append.mp h.nodup).1

theorem id_lt (h : Orderly s) (hd : d ∈ s.owned) : d.id < s.nextDescriptor := by
  have came := (h.books.mem_iff.mpr (.inl hd)).resolve_left List.not_mem_nil
  have := List.mem_map_of_mem (f := (·.id)) came
  rw [h.supply] at this
  exact List.mem_range.mp this

theorem eq_of_id (h : Orderly s) (hs : slot ∈ s.connections) (hs' : slot' ∈ s.connections)
    (he : slot'.id = slot.id) : slot' = slot :=
  List.inj_on_of_nodup_map h.slots hs' hs he

/-- The rest are connections too, at other addresses. -/
theorem others (h : Orderly s) (hc : s.connections = xs ++ slot :: ys) (hs : slot' ∈ xs ++ ys) :
    slot' ∈ s.connections ∧ slot'.id ≠ slot.id := by
  have ids := h.slots
  rw [hc, (List.perm_middle.map _).nodup_iff, List.map_cons, List.nodup_cons] at ids
  refine ⟨?_, fun he => ids.1 (he ▸ List.mem_map_of_mem hs)⟩
  rw [hc]
  exact List.perm_middle.mem_iff.mpr (List.mem_cons_of_mem _ hs)

/-- Nothing is registered but descriptors of `main` and of connections. -/
theorem watches_of (ht : ∀ slot ∈ xs, slot.conn.Tracked slot.id) :
    (Watch.all (s.watches xs)).Of (s.among xs) := by
  have of_watch {w : Watch} (hw : w ∈ s.watches xs) : w.Of (s.among xs) := by
    rcases List.mem_append.mp hw with hw | hw
    · rcases List.mem_cons.mp hw with rfl | hw
      · exact .reading List.mem_cons_self
      · obtain rfl := List.mem_singleton.mp hw
        exact .reading (List.mem_cons_of_mem _ List.mem_cons_self)
    · obtain ⟨slot, hs, rfl⟩ := List.mem_map.mp hw
      intro p hp
      obtain ⟨d, hd, rfl⟩ := (ht slot hs).watch_of p hp
      exact ⟨d, List.mem_append_right _ (List.mem_flatMap.mpr ⟨slot, hs, hd⟩), rfl⟩
  rintro p (⟨w, hw, hp⟩ | ⟨w, hw, hp⟩)
  · exact of_watch hw p (.inl hp)
  · exact of_watch hw p (.inr hp)

/-- One connection and the rest: the lists are shared between them, and the rest has nothing of the
connection's. -/
theorem apart (h : Orderly s) (hc : s.connections = xs ++ slot :: ys) :
    Holds (.all (s.watches (xs ++ ys))) slot.conn.watch s.select ∧
      (Watch.all (s.watches (xs ++ ys))).Aloof s.nextDescriptor slot.conn.owned := by
  have holds := h.holds
  have split := s.among_split xs ys slot
  rw [hc, Server.watches_split] at holds
  refine ⟨?_, fun p hp => ?_⟩
  · rw [Server.watches_append]
    exact Holds.focus.mp holds
  · -- an object of another connection has another place in `among`
    have rest (slot') (hs : slot' ∈ xs ++ ys) : slot'.conn.Tracked slot'.id :=
      h.tracked slot' (h.others hc hs).1
    obtain ⟨d, hd, rfl⟩ := watches_of rest p hp
    have nodup : (slot.conn.owned ++ s.among (xs ++ ys)).Nodup := by
      rw [← split.nodup_iff, ← hc]
      exact h.owned_nodup
    refine ⟨d, rfl, h.id_lt ?_, fun hm => List.disjoint_of_nodup_append nodup hm hd⟩
    rw [Server.owned, hc]
    exact split.mem_iff.mpr (List.mem_append_right _ hd)

theorem mem_owned (hs : slot ∈ s.connections) (hd : d ∈ slot.conn.owned) : d ∈ s.owned :=
  List.mem_append_right _ (List.mem_flatMap.mpr ⟨slot, hs, hd⟩)

/-- A connection's own descriptors are registered as its state says. -/
theorem own (h : Orderly s) (hs : slot ∈ s.connections) (hd : d ∈ slot.conn.owned) :
    (some d ∈ s.select.fileDescriptorsRead ↔ slot.conn.watch.read (some d)) ∧
      (some d ∈ s.select.fileDescriptorsWrite ↔ slot.conn.watch.write (some d)) := by
  obtain ⟨xs, ys, hc⟩ := List.append_of_mem hs
  obtain ⟨holds, aloof⟩ := h.apart hc
  have without := aloof.without hd
  exact ⟨(holds.read _).trans (or_iff_right without.1),
    (holds.write _).trans (or_iff_right without.2)⟩

theorem found (h : Orderly s) (hc : s.connections = xs ++ slot :: ys) (hr : s.Ready slot) :
    Found (.all (s.watches (xs ++ ys))) s slot := by
  have hs : slot ∈ s.connections := by
    rw [hc]
    exact List.mem_append_right _ List.mem_cons_self
  obtain ⟨holds, aloof⟩ := h.apart hc
  exact ⟨holds, aloof, fun d hd => h.id_lt (mem_owned hs hd),
    fun d hd hcan => (h.own hs hd).1.mpr (hr d hd hcan), h.tracked slot hs⟩

theorem still (h : Orderly s) {s' : Server} (hc : s'.connections = s.connections) :
    Carried s s' := by
  intro slot hs slot' hs' he
  rw [hc] at hs'
  obtain rfl := h.eq_of_id hs hs' he
  exact ⟨.refl, .refl, .refl⟩

/-! ### The steps -/

/-- The iterator moves, and nothing else. -/
theorem move (h : Orderly s) (visited pending : List Slot) (phase : Phase)
    (hc : visited ++ pending = s.connections) (hi : phase ≠ .sweep → pending = [])
    (hr : ∀ slot ∈ Server.unvisited { s with visited, pending, phase }, s.Ready slot) :
    Orderly { s with visited, pending, phase } := by
  have same : Server.connections { s with visited, pending, phase } = s.connections := hc
  have owned : Server.owned { s with visited, pending, phase } = s.owned := by
    rw [Server.owned, same]
    rfl
  refine ⟨?_, h.supply, ?_, ?_, ?_, ?_, ?_, ?_, hi, hr⟩
  · rw [same]; exact h.holds
  · rw [owned]; exact h.books
  · rw [owned]; exact h.fds
  · rw [same]; exact h.slots
  · rw [same]; exact h.next
  · rw [same]; exact h.status
  · rw [same]; exact h.tracked

theorem eq_of_fd (h : Orderly s) {d' : FileDescriptor} (hd : d ∈ s.owned) (hd' : d' ∈ s.owned)
    (he : d'.fd = d.fd) : d' = d :=
  List.inj_on_of_nodup_map h.fds hd' hd he

/-- A registered object exists. -/
theorem owned_of_read (h : Orderly s) (hd : some d ∈ s.select.fileDescriptorsRead) :
    d ∈ s.owned := by
  rcases (h.holds.read _).mp hd with hp | hp
  · cases hp
  · obtain ⟨d', hm, he⟩ := watches_of h.tracked _ (.inl hp)
    obtain rfl := Option.some.inj he
    exact hm

theorem not_none (h : Orderly s) : none ∉ s.select.fileDescriptorsRead.toList ∧
    none ∉ s.select.fileDescriptorsWrite.toList := by
  have real {p : Pointer} (hp : (Watch.all (s.watches s.connections)).read p ∨
      (Watch.all (s.watches s.connections)).write p) : p ≠ none := by
    obtain ⟨d, -, rfl⟩ := watches_of h.tracked p hp
    nofun
  refine ⟨fun hn => ?_, fun hn => ?_⟩
  · rcases (h.holds.read _).mp hn with hp | hp
    · cases hp
    · exact real (.inl hp) rfl
  · rcases (h.holds.write _).mp hn with hp | hp
    · cases hp
    · exact real (.inr hp) rfl

/-- `try_select`: what it reports ready is registered, and no number is in use twice. -/
theorem poll {t : Calls} (h : Orderly s) (hp : s.phase = .select) (hf : ¬ t.Overruns s) :
    (s.poll t).Sat (fun _ s' => Orderly s' ∧ Carried s s') fun _ => True := by
  have idle : s.pending = [] := h.idle (by rw [hp]; nofun)
  have room (n : Nat) (hn : s.select.Lists n) : n < t.fdSetSize :=
    Nat.lt_of_not_le fun hl => hf ⟨hp, n, hn, hl⟩
  refine (Select.trySelect_sat t.call h.not_none.1 h.not_none.2 room).lift (fun _ sel hsel => ?_)
    fun _ _ => trivial
  obtain ⟨hr, hw, set⟩ := hsel
  refine ⟨⟨⟨?_, ?_⟩, h.supply, h.books, h.fds, h.slots, h.next, h.status, h.tracked, fun _ => idle,
    fun slot hs d hd hcan => ?_⟩, h.still rfl⟩
  · dsimp only
    rw [hr]
    exact h.holds.read
  · dsimp only
    rw [hw]
    exact h.holds.write
  · have hs : slot ∈ s.connections := List.mem_append_left _ hs
    obtain ⟨d', hd', he⟩ := set d.fd (of_decide_eq_true hcan)
    obtain rfl := h.eq_of_fd (mem_owned hs hd) (h.owned_of_read hd') he
    exact (h.own hs hd).1.mp hd'

section
variable {conn : Connection}

/-- Between two passes every connection counts as visited. -/
theorem connections_visited (h : Orderly s) (hp : s.phase ≠ .sweep) :
    s.connections = s.visited := by
  rw [Server.connections, h.idle hp, List.append_nil]

theorem enlist_connections (h : Orderly s) (hp : s.phase ≠ .sweep) :
    (s.enlist d conn).connections = s.connections ++ [⟨s.nextConnection, conn⟩] := by
  rw [h.connections_visited hp, Server.connections, Server.enlist, h.idle hp, List.append_nil]

theorem mem_enlist (h : Orderly s) (hp : s.phase ≠ .sweep)
    (hs : slot ∈ (s.enlist d conn).connections) :
    slot ∈ s.connections ∨ slot = ⟨s.nextConnection, conn⟩ := by
  rw [h.enlist_connections hp] at hs
  exact (List.mem_append.mp hs).imp_right List.mem_singleton.mp

theorem enlist_owned (h : Orderly s) (hp : s.phase ≠ .sweep) (ho : conn.owned = [d]) :
    (s.enlist d conn).owned = s.owned ++ [d] := by
  rw [Server.owned, h.enlist_connections hp, List.flatMap_append, ← List.append_assoc,
    List.flatMap_singleton, ho]
  rfl

/-- A new connection's address is its own. -/
theorem enlist_slots (h : Orderly s) (hp : s.phase ≠ .sweep) :
    ((s.enlist d conn).connections.map (·.id)).Nodup := by
  rw [h.enlist_connections hp, List.map_append, List.map_singleton, ← List.concat_eq_append]
  refine List.Nodup.concat (fun hm => ?_) h.slots
  obtain ⟨slot, hs, he⟩ := List.mem_map.mp hm
  exact Nat.ne_of_lt (h.next slot hs) he

theorem enlist_ready (h : Orderly s) (hp : s.phase = .acceptSocks ∨ s.phase = .acceptHttp)
    (hw : conn.watch = .reading (some d)) (ho : conn.owned = [d]) :
    ∀ slot ∈ (s.enlist d conn).unvisited, (s.enlist d conn).Ready slot := by
  have waiting : (s.enlist d conn).unvisited = s.unvisited ++ [⟨s.nextConnection, conn⟩] := by
    rcases hp with hp | hp <;> simp [Server.unvisited, Server.enlist, hp]
  rw [waiting]
  intro slot hs
  rcases List.mem_append.mp hs with hs | hs
  · exact h.ready slot hs
  · -- a new connection is registered, whatever the bit of its number says
    obtain rfl := List.mem_singleton.mp hs
    intro d' hd' _
    rw [ho] at hd'
    obtain rfl := List.mem_singleton.mp hd'
    rw [hw]
    rfl

theorem enlist_carried (h : Orderly s) (hp : s.phase ≠ .sweep) :
    Carried s (s.enlist d conn) := by
  rintro slot hs slot' hs' he
  rcases h.mem_enlist hp hs' with hs' | rfl
  · obtain rfl := h.eq_of_id hs hs' he
    exact ⟨.refl, .refl, .refl⟩
  · exact absurd he.symm (Nat.ne_of_lt (h.next slot hs))

/-- A new connection, around an object with a number that was free. -/
theorem enlist (h : Orderly s) (hp : s.phase = .acceptSocks ∨ s.phase = .acceptHttp)
    (hd : d.id = s.nextDescriptor) (hf : d.fd ∉ s.owned.map (·.fd))
    (hw : conn.watch = .reading (some d)) (ho : conn.owned = [d])
    (ht : conn.Tracked s.nextConnection) :
    Orderly (s.enlist d conn) ∧ Carried s (s.enlist d conn) := by
  have between : s.phase ≠ .sweep := by
    rcases hp with hp | hp <;> rw [hp] <;> exact fun he => by cases he
  have owned := h.enlist_owned between ho
  refine ⟨⟨?_, ?_, ?_, ?_, h.enlist_slots between, ?_, ?_, ?_, fun _ => h.idle between,
    h.enlist_ready hp hw ho⟩, h.enlist_carried between⟩
  · rw [h.enlist_connections between, Server.watches_split, hw]
    refine Holds.focus.mpr ?_
    rw [List.map_nil, List.append_nil]
    exact (Holds.nothing_iff.mpr h.holds).watchRead
  · rw [Server.enlist, List.map_append, h.supply, List.map_singleton, hd]
    exact List.range_succ.symm
  · rw [owned]
    exact h.books.acquire (List.perm_append_singleton d _)
  · rw [owned, List.map_append, List.map_singleton, ← List.concat_eq_append]
    -- the system gives no number that is still in use
    exact List.Nodup.concat hf h.fds
  · intro slot hs
    rcases h.mem_enlist between hs with hs | rfl
    · exact Nat.lt_succ_of_lt (h.next slot hs)
    · exact Nat.lt_succ_self _
  · rw [h.enlist_connections between, List.map_append]
    exact fun k hk => List.mem_append_left _ (h.status k hk)
  · intro slot hs
    rcases h.mem_enlist between hs with hs | rfl
    · exact h.tracked slot hs
    · exact ht

end

theorem acceptOn {sock : FileDescriptor} {make : FileDescriptor → Int → Connection} {t : Calls}
    (h : Orderly s) (hp : s.phase = .acceptSocks ∨ s.phase = .acceptHttp) (ht : t.Honest s)
    (hm : ∀ d time id, (make d time).watch = .reading (some d) ∧ (make d time).owned = [d] ∧
      (make d time).Tracked id) :
    (s.acceptOn sock make t).Sat
      (fun _ s' => Orderly s' ∧ Carried s s' ∧ s'.phase = s.phase) fun _ => True := by
  unfold Server.acceptOn
  split
  · split
    · trivial
    · exact ⟨h, h.still rfl, rfl⟩
    · next fd addr hacc =>
        have free : fd ∉ s.owned.map (·.fd) :=
          ht fd (by simp [Calls.numbers, hacc, AcceptResult.numbers])
        obtain ⟨watch, owned, tracked⟩ := hm ⟨s.nextDescriptor, fd, addr⟩ t.now s.nextConnection
        obtain ⟨after, carried⟩ := h.enlist hp rfl free watch owned tracked
        exact ⟨after, carried, rfl⟩
  · exact ⟨h, h.still rfl, rfl⟩

section
variable {t : Calls} {fds : List Nat} {rest : List Slot} {l : Left}

theorem before_settle (hs : s.pending = slot :: rest) :
    s.connections = s.visited ++ slot :: rest := by
  rw [Server.connections, hs]

theorem mem_of_pending (hs : s.pending = slot :: rest) : slot ∈ s.connections :=
  before_settle hs ▸ List.mem_append_right _ List.mem_cons_self

/-- What is left of the connection stands between those visited and the rest. -/
theorem settle_connections : (s.settle slot rest l).connections =
    s.visited ++ (l.conn.map (Slot.mk slot.id)).toList ++ rest := rfl

theorem mem_settle (hm : slot' ∈ (s.settle slot rest l).connections) :
    slot' ∈ s.visited ++ rest ∨ ∃ c, l.conn = some c ∧ slot' = ⟨slot.id, c⟩ := by
  rw [settle_connections] at hm
  -- the slot stays in its place, unless the connection was erased
  cases hc : l.conn with
  | none => simpa [hc] using hm
  | some c =>
      simp only [hc, Option.map_some, Option.toList_some, List.mem_append,
        List.mem_singleton] at hm
      rcases hm with (hm | hm) | hm
      · exact .inl (List.mem_append_left _ hm)
      · exact .inr ⟨c, rfl, hm⟩
      · exact .inl (List.mem_append_right _ hm)

theorem settle_owned :
    (s.settle slot rest l).owned.Perm (l.owned ++ s.among (s.visited ++ rest)) := by
  rw [Server.owned, settle_connections]
  unfold Left.owned
  cases l.conn with
  | none => simp [Server.among, Server.settle]
  | some c =>
      have := s.among_split s.visited rest ⟨slot.id, c⟩
      simpa [Server.among, Server.settle] using this

/-- The connection's part of the lists is exchanged for what it leaves. -/
theorem settle_holds (hl : Leaves (.all (s.watches (s.visited ++ rest))) fds s slot l) :
    Holds .nothing (.all (s.watches (s.settle slot rest l).connections)) l.select := by
  rw [settle_connections]
  have holds := hl.holds
  unfold Left.watch at holds
  cases hc : l.conn with
  | none =>
      rw [hc] at holds
      simpa using Holds.nothing_iff.mp holds
  | some c =>
      rw [hc, Server.watches_append] at holds
      have := Holds.focus.mpr holds
      simpa [Server.watches] using this

/-- The books of the visit are a part of any that are kept of the server's objects. -/
theorem settle_books {held came gone : List FileDescriptor} (hs : s.pending = slot :: rest)
    (hl : Leaves (.all (s.watches (s.visited ++ rest))) fds s slot l)
    (books : Accounted held came s.owned gone) :
    Accounted held (came ++ created l.trace) (s.settle slot rest l).owned
      (gone ++ deleted l.trace) := by
  have split : s.owned.Perm (slot.conn.owned ++ s.among (s.visited ++ rest)) := by
    rw [Server.owned, before_settle hs]
    exact s.among_split s.visited rest slot
  exact (books.part split hl.books).trans (settle_owned.symm.append_right _)

/-- No number is in use twice: the one that may be new was free, and all others were apart. -/
theorem settle_fds (h : Orderly s) (ht : t.Honest s) (hs : s.pending = slot :: rest)
    (hl : Leaves (.all (s.watches (s.visited ++ rest))) t.env.numbers s slot l) :
    ((s.settle slot rest l).owned.map (·.fd)).Nodup := by
  have all : ((s.owned ++ created l.trace).map (·.fd)).Nodup := by
    rcases hl.supply with ⟨hnew, -⟩ | ⟨d, hnew, -, hd, -⟩
    · rw [hnew, List.append_nil]
      exact h.fds
    · rw [hnew, List.map_append, List.map_singleton, ← List.concat_eq_append]
      exact List.Nodup.concat (ht d.fd (List.mem_append_right _ hd)) h.fds
  -- what is left is a part of what was there and what is new
  have books := settle_books hs hl (.refl s.owned)
  have apart := (books.map (·.fd)).nodup_iff.mp all
  rw [List.map_append] at apart
  exact (List.nodup_append.mp apart).1

theorem settle_supply (h : Orderly s) {theirs : Watch} (hl : Leaves theirs fds s slot l) :
    (s.settle slot rest l).created.map (·.id) = List.range l.nextDescriptor := by
  rw [Server.settle, List.map_append, h.supply]
  rcases hl.supply with ⟨hnew, hid⟩ | ⟨d, hnew, hd, -, hid⟩
  · rw [hnew, hid, List.map_nil, List.append_nil]
  · rw [hnew, hid, List.map_singleton, hd, ← List.range_succ]

theorem settle_slots (h : Orderly s) (hs : s.pending = slot :: rest) :
    ((s.settle slot rest l).connections.map (·.id)).Nodup := by
  have sub : ((s.settle slot rest l).connections.map (·.id)).Sublist
      (s.connections.map (·.id)) := by
    rw [settle_connections, before_settle hs]
    cases l.conn with
    | none => simp
    | some c => simp
  exact sub.nodup h.slots

/-- The status page: a line is the connection's own, which goes with it, or another's, which is
still there. -/
theorem settle_status (h : Orderly s) (hs : s.pending = slot :: rest) {theirs : Watch}
    (hl : Leaves theirs fds s slot l) :
    ∀ k ∈ l.status, k ∈ (s.settle slot rest l).connections.map (·.id) := by
  intro k hk
  by_cases hid : k = slot.id
  · cases hc : l.conn with
    | none => exact absurd (hid ▸ hk) (hl.gone hc)
    | some c =>
        exact List.mem_map.mpr ⟨⟨slot.id, c⟩, by simp [settle_connections, hc], hid.symm⟩
  · obtain ⟨slot', hm, rfl⟩ := List.mem_map.mp (h.status k ((hl.status k hk).resolve_right hid))
    have other : slot' ≠ slot := fun he => hid (congrArg _ he)
    refine List.mem_map_of_mem ?_
    rw [before_settle hs] at hm
    rw [settle_connections]
    grind

/-- Those still to be visited wait on what the last `try_select` reported. -/
theorem settle_ready (h : Orderly s) (hp : s.phase = .sweep) (hs : s.pending = slot :: rest)
    {theirs : Watch} (hl : Leaves theirs fds s slot l) :
    ∀ slot' ∈ (s.settle slot rest l).unvisited, (s.settle slot rest l).Ready slot' := by
  intro slot' hm d hd hcan
  have later : slot' ∈ rest := by
    rwa [Server.unvisited, show (s.settle slot rest l).phase = .sweep from hp] at hm
  have waiting : slot' ∈ s.unvisited := by
    rw [Server.unvisited, hp, hs]
    exact List.mem_cons_of_mem _ later
  refine h.ready slot' waiting d hd ?_
  rwa [Select.canRead, show (s.settle slot rest l).select.readSet = s.select.readSet from
    hl.readSet] at hcan

theorem settle_carried (h : Orderly s) (hs : s.pending = slot :: rest) {theirs : Watch}
    (hl : Leaves theirs fds s slot l) : Carried s (s.settle slot rest l) := by
  intro slot₁ h₁ slot₂ h₂ he
  have mine : slot ∈ s.connections :=
    before_settle hs ▸ List.mem_append_right _ List.mem_cons_self
  rcases mem_settle h₂ with h₂ | ⟨c, hc, rfl⟩
  · -- not the one visited: nothing happened to it
    obtain rfl := h.eq_of_id h₁ (h.others (before_settle hs) h₂).1 he
    exact ⟨.refl, .refl, .refl⟩
  · obtain rfl := h.eq_of_id mine h₁ he.symm
    obtain ⟨client, server, listen⟩ := hl.pointers c hc
    have late {p q : Pointer} (hq : Stays (deleted l.trace) p q) :
        Stays (s.settle slot₁ rest l).deleted p q :=
      fun d hd => (hq d hd).imp_right (List.mem_append_right _)
    exact ⟨late client, late server, late listen⟩

/-- A visit: the connection's part of the lists, of the objects and of the status page is exchanged
for what it leaves. -/
theorem settle (h : Orderly s) (ht : t.Honest s) (hp : s.phase = .sweep)
    (hs : s.pending = slot :: rest)
    (hl : Leaves (.all (s.watches (s.visited ++ rest))) t.env.numbers s slot l) :
    Orderly (s.settle slot rest l) ∧ Carried s (s.settle slot rest l) := by
  have mine : slot ∈ s.connections :=
    before_settle hs ▸ List.mem_append_right _ List.mem_cons_self
  refine ⟨⟨settle_holds hl, h.settle_supply hl, settle_books hs hl h.books, h.settle_fds ht hs hl,
    h.settle_slots hs, ?_, h.settle_status hs hl, ?_, fun hn => absurd hp hn,
    h.settle_ready hp hs hl⟩, h.settle_carried hs hl⟩
  · intro slot' hm
    rcases mem_settle hm with hm | ⟨c, -, rfl⟩
    · exact h.next slot' (h.others (before_settle hs) hm).1
    · exact h.next slot mine
  · intro slot' hm
    rcases mem_settle hm with hm | ⟨c, hc, rfl⟩
    · exact h.tracked slot' (h.others (before_settle hs) hm).1
    · exact hl.tracked c hc

end

/-- What the connection at the iterator finds. -/
theorem current {slot : Slot} {rest : List Slot} (h : Orderly s) (hp : s.phase = .sweep)
    (hs : s.pending = slot :: rest) : Found (.all (s.watches (s.visited ++ rest))) s slot := by
  refine h.found (by rw [Server.connections, hs]) (h.ready slot ?_)
  rw [Server.unvisited, hp, hs]
  exact List.mem_cons_self

theorem sweep {t : Calls} (h : Orderly s) (ht : t.Honest s) (hp : s.phase = .sweep) :
    (s.sweep t).Sat (fun _ s' => Orderly s' ∧ Carried s s') fun _ => False := by
  unfold Server.sweep
  split
  · next hs =>
      exact ⟨h.move s.visited s.pending .select rfl (fun _ => hs)
        fun _ hm => absurd hm List.not_mem_nil, h.still rfl⟩
  · next slot rest hs =>
      exact (visit_leaves (h.current hp hs)).lift (fun _ l hl => h.settle ht hp hs hl) fun _ => id

/-- **One step of the loop** keeps the server in order, and nothing undefined happens in it if there
is room for the numbers. -/
theorem step {t : Calls} (h : Orderly s) (ht : t.Honest s) (hf : ¬ t.Overruns s) :
    (s.step t).Sat (fun _ s' => Orderly s' ∧ Carried s s') fun _ => True := by
  unfold Server.step
  cases hp : s.phase with
  | select => exact h.poll hp hf
  | acceptSocks =>
      have made (d : FileDescriptor) (time : Int) (id : Nat) :
          (Connection.socks (.new d time)).Tracked id :=
        ⟨d, time, [], _, .start, fun _ hv => absurd hv List.not_mem_nil, rfl, rfl⟩
      refine (h.acceptOn (.inl hp) ht fun d time id => ⟨rfl, rfl, made d time id⟩).lift
        (fun _ s' hs' => ?_) fun _ _ => trivial
      obtain ⟨after, carried, hp'⟩ := hs'
      have idle : s'.pending = [] := after.idle (by rw [hp', hp]; nofun)
      refine ⟨after.move s'.visited s'.pending .acceptHttp rfl (fun _ => idle) ?_, carried⟩
      have := after.ready
      rwa [Server.unvisited, hp', hp] at this
  | acceptHttp =>
      have made (d : FileDescriptor) (time : Int) (id : Nat) :
          (Connection.http (.new d time)).Tracked id := trivial
      refine (h.acceptOn (.inr hp) ht fun d time id => ⟨rfl, rfl, made d time id⟩).lift
        (fun _ s' hs' => ?_) fun _ _ => trivial
      obtain ⟨after, carried, hp'⟩ := hs'
      have idle : s'.pending = [] := after.idle (by rw [hp', hp]; nofun)
      have same : [] ++ s'.visited = s'.connections := by
        rw [Server.connections, idle, List.append_nil, List.nil_append]
      refine ⟨after.move [] s'.visited .sweep same (fun hn => absurd rfl hn) ?_,
        fun slot hs slot' hs' => ?_⟩
      · have := after.ready
        rwa [Server.unvisited, hp', hp] at this
      · exact carried slot hs slot' (same ▸ hs')
  | sweep => exact (h.sweep ht hp).mono (fun _ _ => id) fun _ => False.elim

/-- **Undefined** is a step without room for the numbers, and no other. -/
theorem step_fault {t : Calls} (h : Orderly s) (ht : t.Honest s) :
    s.step t = .fault ↔ t.Overruns s := by
  constructor
  · intro hs
    by_contra hf
    exact (h.step ht hf).ne_fault hs
  · rintro ⟨hp, n, hn, beyond⟩
    rw [Server.step, hp]
    dsimp only
    rw [Server.poll, Select.trySelect_fault t.call hn beyond]
    rfl

/-- A step that goes through. -/
theorem step_ok {t : Calls} {s' : Server} (h : Orderly s) (ht : t.Honest s)
    (hs : s.step t = .ok () s') : Orderly s' ∧ Carried s s' := by
  refine (h.step ht fun hf => ?_).of_ok hs
  rw [(h.step_fault ht).mpr hf] at hs
  cases hs

end Orderly

/-- The server before the loop. -/
theorem boot_orderly (socksFd httpFd : Nat) (socksAddr httpAddr : SockaddrIn)
    (hne : socksFd ≠ httpFd) : Orderly (.boot socksFd httpFd socksAddr httpAddr) where
  holds := by
    refine ⟨fun p => ?_, fun p => ?_⟩
    · simp [Server.boot, Server.watches, Server.connections, Select.mem_addRead, Watch.nothing,
        Watch.all, Watch.reading, Select.empty]
    · simp [Server.boot, Server.watches, Server.connections, Watch.nothing, Watch.all,
        Watch.reading, Select.empty]
  supply := rfl
  books := List.Perm.swap ..
  fds := by simp [Server.boot, Server.owned, Server.connections, hne.symm]
  slots := List.nodup_nil
  next := fun _ hm => absurd hm List.not_mem_nil
  status := fun _ hk => absurd hk (AList.notMem_empty _)
  tracked := fun _ hm => absurd hm List.not_mem_nil
  idle := fun _ => rfl
  ready := fun _ hm => absurd hm List.not_mem_nil

/-- **Order.** -/
theorem Reachable.orderly {s : Server} (h : Reachable s) : Orderly s := by
  induction h with
  | boot socksFd httpFd socksAddr httpAddr hne => exact boot_orderly _ _ _ _ hne
  | step t _ ht hs ih => exact (ih.step_ok ht hs).1

/-- **Every connection has a run of its own**, in which the rest of the server is as honest as the
results about runs ask for. -/
theorem Reachable.run {s : Server} {slot : Slot} {c : SocksConnection} (h : Reachable s)
    (hs : slot ∈ s.connections) (hc : slot.conn = .socks c) :
    ∃ client time vs w, Run (.fresh slot.id client time) vs true w ∧ (∀ v ∈ vs, v.Honest) ∧
      w.self = slot.id ∧ w.conn = c := by
  have tracked := h.orderly.tracked slot hs
  rwa [hc] at tracked

/-! ### What a step can do -/

/-- One of the sockets of `main` has been looked at: somebody has been let in, or nobody. -/
inductive Server.Accepted (t : Calls) (sock : FileDescriptor)
    (make : FileDescriptor → Int → Connection) (s : Server) : Server → Prop where
  | nobody : Accepted t sock make s s
  | somebody {fd : Nat} {addr : SockaddrIn} (hr : s.select.canRead sock = true)
      (ha : t.accept = .socket fd addr) :
      Accepted t sock make s
        (s.enlist ⟨s.nextDescriptor, fd, addr⟩ (make ⟨s.nextDescriptor, fd, addr⟩ t.now))

/-- The ways in which a step goes through. -/
inductive Server.Stepped (t : Calls) (s : Server) : Server → Prop where
  | poll {b : Bool} {sel : Select} (hp : s.phase = .select)
      (ho : s.select.trySelect t.fdSetSize t.call = .ok b sel) :
      Stepped t s { s with select := sel, tv := ⟨10, 0⟩, phase := .acceptSocks }
  | acceptSocks {u : Server} (hp : s.phase = .acceptSocks)
      (hu : s.Accepted t s.socksSock (fun d time => .socks (.new d time)) u) :
      Stepped t s { u with phase := .acceptHttp }
  | acceptHttp {u : Server} (hp : s.phase = .acceptHttp)
      (hu : s.Accepted t s.httpSock (fun d time => .http (.new d time)) u) :
      Stepped t s { u with visited := [], pending := u.visited, phase := .sweep }
  | turn (hp : s.phase = .sweep) (hs : s.pending = []) : Stepped t s { s with phase := .select }
  | visit {slot : Slot} {rest : List Slot} {l : Left} (hp : s.phase = .sweep)
      (hs : s.pending = slot :: rest) (hv : s.visit t slot = .ok () l) :
      Stepped t s (s.settle slot rest l)

section
variable {s s' : Server} {t : Calls}

theorem Server.acceptOn_cases {sock : FileDescriptor} {make : FileDescriptor → Int → Connection}
    (ho : s.acceptOn sock make t = .ok () s') : s.Accepted t sock make s' := by
  unfold Server.acceptOn at ho
  split at ho
  · next hr =>
      split at ho
      · cases ho
      · obtain rfl := (Outcome.ok.inj ho).2
        exact .nobody
      · next fd addr ha =>
          obtain rfl := (Outcome.ok.inj ho).2
          exact .somebody hr ha
  · obtain rfl := (Outcome.ok.inj ho).2
    exact .nobody

theorem Server.step_cases (hs : s.step t = .ok () s') : s.Stepped t s' := by
  unfold Server.step at hs
  split at hs
  · next hp =>
      obtain ⟨b, sel, ho, rfl⟩ := Outcome.lift_eq_ok.mp hs
      exact .poll hp ho
  · next hp =>
      obtain ⟨_, u, ho, rfl⟩ := Outcome.lift_eq_ok.mp hs
      exact .acceptSocks hp (Server.acceptOn_cases ho)
  · next hp =>
      obtain ⟨_, u, ho, rfl⟩ := Outcome.lift_eq_ok.mp hs
      exact .acceptHttp hp (Server.acceptOn_cases ho)
  · next hp =>
      unfold Server.sweep at hs
      split at hs
      · next hpend =>
          obtain rfl := (Outcome.ok.inj hs).2
          exact .turn hp hpend
      · next hpend =>
          obtain ⟨_, l, hv, rfl⟩ := Outcome.lift_eq_ok.mp hs
          exact .visit hp hpend hv

/-- A visit: the connection has expired, or `work` is called. -/
theorem Server.visitSocks_cases {id : Nat} {c : SocksConnection} {b : Bool} {w : World}
    (hw : s.visitSocks t id c = .ok b w) :
    b = false ∧ w = destroy ((s.world id c).onSelect c.clearSelect) ∨
      ∃ w', work t.env (s.world id c) = .ok b w' ∧ w = if b then w' else destroy w' := by
  unfold Server.visitSocks hasExpired at hw
  by_cases he : (s.world id c).conn.lastActive + t.config.pipeTimeout < t.now
  · rw [if_pos he] at hw
    obtain ⟨rfl, rfl⟩ := Outcome.ok.inj hw
    exact .inl ⟨rfl, rfl⟩
  · rw [if_neg he] at hw
    obtain ⟨b', w', ho, hw⟩ := Outcome.bind_eq_ok.mp hw
    obtain ⟨rfl, rfl⟩ := Outcome.ok.inj hw
    exact .inr ⟨w', ho, rfl⟩

theorem Server.visitHttp_cases {id : Nat} {c : HttpConnection} {b : Bool} {w : HttpWorld}
    (hw : s.visitHttp t id c = .ok b w) :
    b = false ∧ w = httpDestroy ⟨id, c, c.clearSelect s.select, s.status.erase id, []⟩ ∨
      ∃ w', httpWork t.address t.env ⟨id, c, s.select, s.status, []⟩ = .ok b w' ∧
        w = if b then w' else httpDestroy w' := by
  unfold Server.visitHttp httpHasExpired at hw
  by_cases he : c.lastActive + t.config.pipeTimeout < t.now
  · rw [if_pos (by exact he)] at hw
    obtain ⟨rfl, rfl⟩ := Outcome.ok.inj hw
    exact .inl ⟨rfl, rfl⟩
  · rw [if_neg (by exact he)] at hw
    obtain ⟨b', w', ho, hw⟩ := Outcome.bind_eq_ok.mp hw
    obtain ⟨rfl, rfl⟩ := Outcome.ok.inj hw
    exact .inr ⟨w', ho, rfl⟩

/-- **The vector after a step**: it is the same, has a new connection at its end, or one of its
connections has been visited. -/
theorem Orderly.step_connections (h : Orderly s) (hs : s.step t = .ok () s') :
    s'.connections = s.connections ∨
    (∃ fd addr conn, t.accept = .socket fd addr ∧
      s'.connections = s.connections ++ [⟨s.nextConnection, conn⟩] ∧
      (s.phase = .acceptSocks ∧ s.select.canRead s.socksSock = true ∧
          conn = .socks (.new ⟨s.nextDescriptor, fd, addr⟩ t.now) ∨
        s.phase = .acceptHttp ∧ s.select.canRead s.httpSock = true ∧
          conn = .http (.new ⟨s.nextDescriptor, fd, addr⟩ t.now))) ∨
    ∃ slot rest l, s.phase = .sweep ∧ s.pending = slot :: rest ∧ s.visit t slot = .ok () l ∧
      s' = s.settle slot rest l := by
  cases Server.step_cases hs with
  | poll => exact .inl rfl
  | acceptSocks hp hu =>
      have idle : s.phase ≠ .sweep := by rw [hp]; decide
      cases hu with
      | nobody => exact .inl rfl
      | @somebody fd addr hr ha =>
          refine .inr (.inl ⟨fd, addr, _, ha, ?_, .inl ⟨hp, hr, rfl⟩⟩)
          exact h.enlist_connections (d := ⟨s.nextDescriptor, fd, addr⟩) idle
  | acceptHttp hp hu =>
      have idle : s.phase ≠ .sweep := by rw [hp]; decide
      -- what has been visited is to be visited now
      cases hu with
      | nobody => exact .inl (h.connections_visited idle).symm
      | somebody hr ha =>
          refine .inr (.inl ⟨_, _, _, ha, ?_, .inr ⟨hp, hr, rfl⟩⟩)
          rw [h.connections_visited idle]
          rfl
  | turn => exact .inl rfl
  | visit hp hpend hv => exact .inr (.inr ⟨_, _, _, hp, hpend, hv, rfl⟩)

/-- Where a connection of the next state is from: it was there, it is new, or it was visited. -/
theorem Orderly.step_slots {slot' : Slot} (h : Orderly s) (hs : s.step t = .ok () s')
    (hm : slot' ∈ s'.connections) :
    slot' ∈ s.connections ∨
      (∃ d, slot'.conn = .socks (.new d t.now) ∨ slot'.conn = .http (.new d t.now)) ∨
      ∃ slot rest l, s.phase = .sweep ∧ s.pending = slot :: rest ∧ s.visit t slot = .ok () l ∧
        slot'.id = slot.id ∧ l.conn = some slot'.conn := by
  rcases h.step_connections hs with same | ⟨fd, addr, conn, -, came, kind⟩ |
    ⟨slot, rest, l, hp, hpend, hv, rfl⟩
  · exact .inl (same ▸ hm)
  · rw [came] at hm
    rcases List.mem_append.mp hm with hm | hm
    · exact .inl hm
    · obtain rfl := List.mem_singleton.mp hm
      exact .inr (.inl ⟨_, kind.imp (·.2.2) (·.2.2)⟩)
  · rcases Orderly.mem_settle hm with hm | ⟨c, hc, rfl⟩
    · exact .inl (h.others (Orderly.before_settle hpend) hm).1
    · exact .inr (.inr ⟨slot, rest, l, hp, hpend, hv, rfl, hc⟩)

end

end OldStuff.Socks
