import OldStuff.Socks.Custody
import OldStuff.Socks.Exchange

/-!
# Socks — the history of the server, and those of its connections

What is proved about the runs of one connection says something about the server if the server's
history is made of such runs.  `Chronicle` is a run of the loop with what each step was told, and
with all that its visits did, each event under the address of the connection that was visited.

`Chronicle.recorded`: the events under one address are those of a run of that connection, as `Run`
and `HttpRun` have them, and behind them, when it is gone, the deletion of its objects; and the
visits of the run are told what steps of the server were told, in their order.  `no_crosstalk` reads
off what every end was ever sent: it comes from the same connection.
-/

namespace OldStuff.Socks
open OldStuff.Io
open OldStuff.Lib (Outcome)

/-! ### Histories -/

/-- What a step does for the connections, under their addresses. -/
def Server.log (t : Calls) (s : Server) : List (Nat × Event) :=
  match s.phase, s.pending with
  | .sweep, slot :: _ =>
    match s.visit t slot with
    | .ok _ l => l.trace.map fun ev => (slot.id, ev)
    | _ => []
  | _, _ => []

/-- A run of the loop, as in `Reachable`, what its steps were told, and what was done in it. -/
inductive Chronicle : List Calls → List (Nat × Event) → Server → Prop where
  | boot (socksFd httpFd : Nat) (socksAddr httpAddr : SockaddrIn) (h : socksFd ≠ httpFd) :
      Chronicle [] [] (.boot socksFd httpFd socksAddr httpAddr)
  | step {ts : List Calls} {log : List (Nat × Event)} {s s' : Server} (t : Calls)
      (h : Chronicle ts log s) (ht : t.Honest s) (hs : s.step t = .ok () s') :
      Chronicle (ts ++ [t]) (log ++ s.log t) s'

/-- The events under one address. -/
def eventsOf (id : Nat) (log : List (Nat × Event)) : List Event :=
  log.filterMap fun r => if r.1 = id then some r.2 else none

/-- The environments of the visits, and those of the steps among which they are, in order. -/
def Told (envs : List Env) (ts : List Calls) : Prop := envs.Sublist (ts.map (·.env))

/-- The socket of the client is what `accept` gave in a step. -/
def Came (ts : List Calls) (client : FileDescriptor) : Prop :=
  ∃ t ∈ ts, t.accept = .socket client.fd client.addr

/-- The events `es` of the connection at `id` with this client, of which `conn` is left: an honest
run, told what the steps `ts` were told, and at its end the destructor. -/
inductive Life (ts : List Calls) (id : Nat) (client : FileDescriptor) :
    List Event → Option Connection → Prop where
  | socks {time : Int} {vs : List Visit} {w : World} (run : Run (.fresh id client time) vs true w)
      (honest : ∀ v ∈ vs, v.Honest) (told : Told (vs.map (·.input.env)) ts) (self : w.self = id) :
      Life ts id client (events vs) (some (.socks w.conn))
  | socksGone {time : Int} {vs : List Visit} {w : World} {b : Bool}
      (run : Run (.fresh id client time) vs b w) (honest : ∀ v ∈ vs, v.Honest)
      (told : Told (vs.map (·.input.env)) ts) :
      Life ts id client (events vs ++ w.conn.owned.map .closed) none
  | http {time : Int} {vs : List HttpVisit} {w : HttpWorld}
      (run : HttpRun (.fresh id client time) vs true w) (undisturbed : ∀ v ∈ vs, v.Undisturbed)
      (told : Told (vs.map (·.input.env)) ts) (self : w.self = id) :
      Life ts id client (httpEvents vs) (some (.http w.conn))
  | httpGone {time : Int} {vs : List HttpVisit} {w : HttpWorld} {b : Bool}
      (run : HttpRun (.fresh id client time) vs b w) (undisturbed : ∀ v ∈ vs, v.Undisturbed)
      (told : Told (vs.map (·.input.env)) ts) :
      Life ts id client (httpEvents vs ++ [.closed w.conn.client]) none

section
variable {id : Nat} {log log' : List (Nat × Event)} {es : List Event} {s s' : Server} {t : Calls}
  {slot : Slot} {l : Left} {theirs : Watch} {ts : List Calls} {client : FileDescriptor}
  {conn : Option Connection}

@[simp] theorem eventsOf_append :
    eventsOf id (log ++ log') = eventsOf id log ++ eventsOf id log' := List.filterMap_append

theorem eventsOf_mine : eventsOf id (es.map fun ev => (id, ev)) = es := by simp [eventsOf]

theorem eventsOf_other {k : Nat} (h : k ≠ id) : eventsOf id (es.map fun ev => (k, ev)) = [] := by
  simp [eventsOf, h]

theorem Chronicle.reachable (h : Chronicle ts log s) : Reachable s := by
  induction h with
  | boot socksFd httpFd socksAddr httpAddr h => exact .boot socksFd httpFd socksAddr httpAddr h
  | step t _ ht hs ih => exact ih.step t ht hs

/-! ### A visit -/

theorem Told.later {envs : List Env} (h : Told envs ts) (t : Calls) : Told envs (ts ++ [t]) :=
  h.trans (by simp)

theorem Told.next {envs : List Env} (h : Told envs ts) (t : Calls) :
    Told (envs ++ [t.env]) (ts ++ [t]) := by
  rw [Told, List.map_append]
  exact List.Sublist.append h (List.Sublist.refl _)

theorem Came.later (h : Came ts client) (t : Calls) : Came (ts ++ [t]) client :=
  h.imp fun _ ⟨hm, ha⟩ => ⟨List.mem_append_left _ hm, ha⟩

theorem Life.later (h : Life ts id client es conn) (t : Calls) :
    Life (ts ++ [t]) id client es conn := by
  cases h with
  | socks run honest told self => exact .socks run honest (told.later t) self
  | socksGone run honest told => exact .socksGone run honest (told.later t)
  | http run undisturbed told self => exact .http run undisturbed (told.later t) self
  | httpGone run undisturbed told => exact .httpGone run undisturbed (told.later t)

/-- **A visit** is one more of the connection's run, or the end of it. -/
theorem visitSocks_life {c : SocksConnection} (hf : Found theirs s ⟨id, .socks c⟩)
    (hl : Life ts id client es (some (.socks c))) {b : Bool} {w : World}
    (hv : s.visitSocks t id c = .ok b w) :
    Life (ts ++ [t]) id client (es ++ (Server.leftSocks b w).trace)
      (Server.leftSocks b w).conn := by
  obtain ⟨time, vs, u, run, honest, told, rfl, rfl, rfl⟩ : ∃ time vs u,
      Run (.fresh id client time) vs true u ∧ (∀ v ∈ vs, v.Honest) ∧
        Told (vs.map (·.input.env)) ts ∧ u.self = id ∧ u.conn = c ∧ es = events vs := by
    cases hl with
    | socks run honest told self => exact ⟨_, _, _, run, honest, told, self, rfl, rfl⟩
  rcases Server.visitSocks_cases hv with ⟨rfl, rfl⟩ | ⟨w', hw, rfl⟩
  · exact .socksGone (w := u) run honest (told.later t)
  · let i : Input := ⟨t.env, s.select, s.tv, s.status, s.nextDescriptor⟩
    have steady := run.steady honest rfl
    have rely : Rely theirs (u.enter i) := hf.rely
    have hw : work i.env (u.enter i) = .ok b w' := hw
    have run' := run.step i hw
    have honest' : ∀ v ∈ vs ++ [⟨i, u, b, w'⟩], v.Honest := fun v hv => by
      rcases List.mem_append.mp hv with hv | hv
      · exact honest v hv
      · obtain rfl := List.mem_singleton.mp hv
        exact rely.honest steady ..
    have told' : Told (List.map (fun v : Visit => v.input.env) (vs ++ [⟨i, u, b, w'⟩]))
        (ts ++ [t]) := by
      rw [List.map_append]
      exact told.next t
    have kept := visit_kept hw rely steady.sound
    have events' : events vs ++ w'.trace = events (vs ++ [⟨i, u, b, w'⟩]) := by
      rw [events_append, events_singleton]
    cases b with
    | true =>
        have := Life.socks run' honest' told' kept.self
        rwa [← events'] at this
    | false =>
        have := Life.socksGone run' honest' told'
        rwa [← events', List.append_assoc] at this

theorem visitHttp_life {c : HttpConnection} (hf : Found theirs s ⟨id, .http c⟩)
    (hl : Life ts id client es (some (.http c))) {b : Bool} {w : HttpWorld}
    (hv : s.visitHttp t id c = .ok b w) :
    Life (ts ++ [t]) id client (es ++ (s.leftHttp b w).trace) (s.leftHttp b w).conn := by
  obtain ⟨time, vs, u, run, undisturbed, told, self, rfl, rfl⟩ : ∃ time vs u,
      HttpRun (.fresh id client time) vs true u ∧ (∀ v ∈ vs, v.Undisturbed) ∧
        Told (vs.map (·.input.env)) ts ∧ u.self = id ∧ u.conn = c ∧ es = httpEvents vs := by
    cases hl with
    | http run undisturbed told self =>
        exact ⟨_, _, _, run, undisturbed, told, self, rfl, rfl⟩
  rcases Server.visitHttp_cases hv with ⟨rfl, rfl⟩ | ⟨w', hw, rfl⟩
  · exact .httpGone (w := u) run undisturbed (told.later t)
  · let i : HttpInput := ⟨t.env, t.address, s.select, s.status⟩
    have own := List.mem_singleton_self u.conn.client
    have found := enrolled_of_holds hf.holds (hf.aloof.without own)
    obtain ⟨same, enrolled⟩ := run.enrolled undisturbed
    rw [← same] at enrolled
    have entered : u.enter i = ⟨id, u.conn, s.select, s.status, []⟩ := by
      rw [HttpWorld.enter, self]
    have run' := run.step i (entered ▸ hw)
    have undisturbed' : ∀ v ∈ vs ++ [⟨i, u, b, w'⟩], v.Undisturbed := fun v hv => by
      rcases List.mem_append.mp hv with hv | hv
      · exact undisturbed v hv
      · obtain rfl := List.mem_singleton.mp hv
        exact ⟨found.1.trans enrolled.1.symm, found.2.trans enrolled.2.symm⟩
    have told' : Told (List.map (fun v : HttpVisit => v.input.env) (vs ++ [⟨i, u, b, w'⟩]))
        (ts ++ [t]) := by
      rw [List.map_append]
      exact told.next t
    have tended := (httpWork_tended (w := ⟨id, u.conn, s.select, s.status, []⟩)
      (hf.aloof.without own) rfl hf.holds).of_ok hw
    have events' : httpEvents vs ++ w'.trace = httpEvents (vs ++ [⟨i, u, b, w'⟩]) := by
      rw [httpEvents_append, httpEvents_singleton]
    cases b with
    | true =>
        have := Life.http run' undisturbed' told' tended.self
        rwa [← events'] at this
    | false =>
        have := Life.httpGone run' undisturbed' told'
        rwa [← events', List.append_assoc] at this

theorem visit_life (hf : Found theirs s slot) (hl : Life ts slot.id client es (some slot.conn))
    (hv : s.visit t slot = .ok () l) : Life (ts ++ [t]) slot.id client (es ++ l.trace) l.conn := by
  obtain ⟨id, conn⟩ := slot
  cases conn with
  | socks c =>
      obtain ⟨b, w, hw, rfl⟩ := Outcome.lift_eq_ok.mp hv
      exact visitSocks_life hf hl hw
  | http c =>
      obtain ⟨b, w, hw, rfl⟩ := Outcome.lift_eq_ok.mp hv
      exact visitHttp_life hf hl hw

theorem Life.newSocks (d : FileDescriptor) (time : Int) :
    Life ts id d [] (some (.socks (.new d time))) :=
  .socks (w := .fresh id d time) .start (fun _ hv => absurd hv List.not_mem_nil)
    (List.nil_sublist _) rfl

theorem Life.newHttp (d : FileDescriptor) (time : Int) :
    Life ts id d [] (some (.http (.new d time))) :=
  .http (w := .fresh id d time) .start (fun _ hv => absurd hv List.not_mem_nil)
    (List.nil_sublist _) rfl

/-! ### The run -/

/-- Every connection there is or has been has its life in the history, and none to come has. -/
structure Recorded (ts : List Calls) (log : List (Nat × Event)) (s : Server) : Prop where
  lives : ∀ slot ∈ s.connections,
    ∃ client, Came ts client ∧ Life ts slot.id client (eventsOf slot.id log) (some slot.conn)
  gone : ∀ id < s.nextConnection, id ∉ s.connections.map (·.id) →
    ∃ client, Came ts client ∧ Life ts id client (eventsOf id log) none
  future : ∀ id ≥ s.nextConnection, eventsOf id log = []

namespace Recorded

/-- Only visits are recorded. -/
theorem log_idle (hp : s.phase ≠ .sweep) : s.log t = [] := by
  unfold Server.log
  split
  · next h _ => exact absurd h hp
  · rfl

theorem log_turn (hp : s.phase = .sweep) (hs : s.pending = []) : s.log t = [] := by
  simp only [Server.log, hp, hs]

theorem log_visit {rest : List Slot} (hp : s.phase = .sweep) (hs : s.pending = slot :: rest)
    (hv : s.visit t slot = .ok () l) : s.log t = l.trace.map fun ev => (slot.id, ev) := by
  simp only [Server.log, hp, hs, hv]

/-- A step in which no connection comes, goes or is visited. -/
theorem still (h : Recorded ts log s) (hc : s'.connections = s.connections)
    (hn : s'.nextConnection = s.nextConnection) : Recorded ts log s' where
  lives := fun slot hm => h.lives slot (hc ▸ hm)
  gone := fun id hid hm => h.gone id (hn ▸ hid) (hc ▸ hm)
  future := fun id hid => h.future id (hn ▸ hid)

theorem later (h : Recorded ts log s) (t : Calls) : Recorded (ts ++ [t]) log s where
  lives := fun slot hm => (h.lives slot hm).imp fun _ ⟨hc, hl⟩ => ⟨hc.later t, hl.later t⟩
  gone := fun id hid hm => (h.gone id hid hm).imp fun _ ⟨hc, hl⟩ => ⟨hc.later t, hl.later t⟩
  future := h.future

/-- A connection begins its life. -/
theorem enlist {d : FileDescriptor} {conn : Connection} (h : Recorded ts log s) (ho : Orderly s)
    (hp : s.phase ≠ .sweep) (hd : Came ts d) (hc : ∀ id, Life ts id d [] (some conn)) :
    Recorded ts log (s.enlist d conn) := by
  have there : (s.enlist d conn).connections = _ := ho.enlist_connections hp
  refine ⟨fun slot hm => ?_, fun id hid hm => ?_, fun id hid => ?_⟩
  · rcases ho.mem_enlist hp hm with hm | rfl
    · exact h.lives slot hm
    · rw [h.future _ (Nat.le_refl _)]
      exact ⟨d, hd, hc _⟩
  · rw [there, List.map_append, List.mem_append, not_or] at hm
    have fresh : id ≠ s.nextConnection := fun he => hm.2 (List.mem_singleton.mpr he)
    have old : id < s.nextConnection + 1 := hid
    exact h.gone id (by omega) hm.1
  · exact h.future id (Nat.le_of_succ_le hid)

theorem accepted {sock : FileDescriptor} {make : FileDescriptor → Int → Connection}
    (h : Recorded ts log s) (ht : t ∈ ts) (ho : Orderly s) (hp : s.phase ≠ .sweep)
    (hm : ∀ id d time, Life ts id d [] (some (make d time))) (hu : s.Accepted t sock make s') :
    Recorded ts log s' := by
  cases hu with
  | nobody => exact h
  | somebody _ ha => exact h.enlist ho hp ⟨t, ht, ha⟩ fun id => hm id _ _

theorem step (h : Recorded ts log s) (ho : Orderly s) (hs : s.step t = .ok () s') :
    Recorded (ts ++ [t]) (log ++ s.log t) s' := by
  have now : t ∈ ts ++ [t] := List.mem_append_right _ (List.mem_singleton_self t)
  cases Server.step_cases hs with
  | poll hp =>
      rw [log_idle (by rw [hp]; decide), List.append_nil]
      exact (h.later t).still rfl rfl
  | @acceptSocks u hp hu =>
      have idle : s.phase ≠ .sweep := by rw [hp]; decide
      rw [log_idle idle, List.append_nil]
      have recorded : Recorded (ts ++ [t]) log u :=
        (h.later t).accepted now ho idle (fun _ => .newSocks) hu
      exact recorded.still rfl rfl
  | @acceptHttp u hp hu =>
      have idle : s.phase ≠ .sweep := by rw [hp]; decide
      rw [log_idle idle, List.append_nil]
      have recorded : Recorded (ts ++ [t]) log u :=
        (h.later t).accepted now ho idle (fun _ => .newHttp) hu
      have none : u.pending = [] := by cases hu <;> exact ho.idle idle
      refine recorded.still ?_ rfl
      rw [Server.connections, Server.connections, none, List.append_nil, List.nil_append]
  | turn hp hpend =>
      rw [log_turn hp hpend, List.append_nil]
      exact (h.later t).still rfl rfl
  | @visit slot rest l hp hpend hv =>
      rw [log_visit hp hpend hv]
      have hc := Orderly.before_settle hpend
      have mine := Orderly.mem_of_pending hpend
      obtain ⟨client, came, before⟩ := h.lives slot mine
      have life := visit_life (ho.current hp hpend) before hv
      have same {id : Nat} (hid : id ≠ slot.id) :
          eventsOf id (log ++ l.trace.map fun ev => (slot.id, ev)) = eventsOf id log := by
        rw [eventsOf_append, eventsOf_other hid.symm, List.append_nil]
      have next : eventsOf slot.id (log ++ l.trace.map fun ev => (slot.id, ev)) =
          eventsOf slot.id log ++ l.trace := by
        rw [eventsOf_append, eventsOf_mine]
      have h := h.later t
      refine ⟨fun slot' hm => ?_, fun id hid hm => ?_, fun id hid => ?_⟩
      · rcases Orderly.mem_settle hm with hm | ⟨conn, hconn, rfl⟩
        · obtain ⟨there, apart⟩ := ho.others hc hm
          rw [same apart]
          exact h.lives slot' there
        · rw [next, ← hconn]
          exact ⟨client, came.later t, life⟩
      · rw [Orderly.settle_connections] at hm
        by_cases he : id = slot.id
        · subst he
          rw [next]
          cases hl : l.conn with
          | none => exact ⟨client, came.later t, hl ▸ life⟩
          | some conn =>
              rw [hl] at hm
              exact absurd (by simp) hm
        · rw [same he]
          refine h.gone id hid fun hm' => hm ?_
          rw [hc] at hm'
          simp only [List.map_append, List.map_cons, List.mem_append, List.mem_cons] at hm' ⊢
          rcases hm' with hm' | rfl | hm'
          · exact .inl (.inl hm')
          · exact absurd rfl he
          · exact .inr hm'
      · have before := ho.next slot mine
        have after : s.nextConnection ≤ id := hid
        rw [same (by omega)]
        exact h.future id after

/-- Every connection there is or has been has its life. -/
theorem life (h : Recorded ts log s) {id : Nat} (hid : id < s.nextConnection) :
    ∃ client conn, Came ts client ∧ Life ts id client (eventsOf id log) conn := by
  by_cases hm : id ∈ s.connections.map (·.id)
  · obtain ⟨slot, hs, rfl⟩ := List.mem_map.mp hm
    obtain ⟨client, came, life⟩ := h.lives slot hs
    exact ⟨client, _, came, life⟩
  · obtain ⟨client, came, life⟩ := h.gone id hid hm
    exact ⟨client, _, came, life⟩

end Recorded

theorem Chronicle.recorded (h : Chronicle ts log s) : Recorded ts log s := by
  induction h with
  | boot =>
      exact ⟨fun _ hm => absurd hm List.not_mem_nil, fun _ hid => absurd hid (Nat.not_lt_zero _),
        fun _ _ => rfl⟩
  | step t h ht hs ih => exact ih.step h.reachable.orderly hs

/-! ### Whose bytes they are -/

/-- What was written to the server is what the client sent behind its requests, as far as it goes;
what was written to the client is the replies, and then what the server sent. -/
structure Unmixed (es : List Event) : Prop where
  server : wroteTo .server es <+: (readFrom .client es).drop (parsedBytes es).length
  client : wroteTo .client es <+: queuedBytes es ++ readFrom .server es

theorem Staged.parsedBytes_relays {es : List Event} (h : ∀ ev ∈ es, ev.relays = true) :
    parsedBytes es = [] := by
  refine List.flatMap_eq_nil_iff.mpr fun ev hev => ?_
  cases ev with
  | parsed => cases h _ hev
  | _ => rfl

theorem Staged.unmixed {b : Bool} {c : SocksConnection} (h : Staged b es c) : Unmixed es := by
  refine ⟨?_, _, h.sent⟩
  cases h with
  | handshake h =>
      rw [h.toServer]
      exact List.nil_prefix
  | @relay hs fs c₀ _ h₀ hst h =>
      have unparsed : unparsed c₀ = [] := by
        unfold Socks.unparsed
        rw [hst]
        rfl
      have received := h₀.received rfl
      rw [unparsed, List.append_nil] at received
      rw [wroteTo_append, h₀.toServer, List.nil_append, readFrom_append, parsedBytes_append,
        Staged.parsedBytes_relays h.relays, List.append_nil, received, List.drop_left]
      exact ⟨_, (h.balanced .client).symm⟩

/-- What an `http_connection` has written is of the page it has built, and it has created
nothing. -/
structure Posted (es : List Event) (c : HttpConnection) : Prop where
  client : wroteTo .client es ++ (if c.state = .sendingReply then c.clientWriteBuff else []) =
    queuedBytes es
  server : wroteTo .server es = []
  created : created es = []

namespace Posted

variable {c c' : HttpConnection}

/-- An event with which nothing is written or built. -/
theorem note (h : Posted es c) (ev : Event) (hw : ∀ s, ev.wroteTo s = [])
    (hq : ev.queuedBytes = []) (hc : ev.creates = []) (hs : c'.state = c.state)
    (hb : c'.clientWriteBuff = c.clientWriteBuff) : Posted (es ++ [ev]) c' where
  client := by simpa [hw, hq, hs, hb] using h.client
  server := by simpa [hw] using h.server
  created := by simpa [hc] using h.created

theorem build (h : Posted es c) (hst : c.state = .readingRequest) (reply : Bytes) :
    Posted (es ++ [.queued reply]) { c with clientWriteBuff := reply, state := .sendingReply } where
  client := by
    have sent := h.client
    rw [hst, if_neg (by decide), List.append_nil] at sent
    simp [Event.wroteTo, Event.queuedBytes, sent]
  server := by simpa [Event.wroteTo] using h.server
  created := by simpa [Event.creates] using h.created

theorem send (h : Posted es c) (hst : c.state = .sendingReply) (n : Nat) :
    Posted (es ++ [.wrote .client (c.clientWriteBuff.take n)])
      { c with clientWriteBuff := c.clientWriteBuff.drop n } where
  client := by
    have sent := h.client
    rw [if_pos hst] at sent
    simpa [Event.wroteTo, Event.queuedBytes, hst] using sent
  server := by simpa [Event.wroteTo] using h.server
  created := by simpa [Event.creates] using h.created

end Posted

theorem httpWork_posted {past : List Event} {address : Nat → Nat} {e : Env} {w : HttpWorld}
    (h : Posted (past ++ w.trace) w.conn) :
    (httpWork address e w).Within fun w' => Posted (past ++ w'.trace) w'.conn := by
  have buffer {w : HttpWorld} (hst : w.conn.state = .readingRequest)
      (h : Posted (past ++ w.trace) w.conn) :
      (requestBuffer address w).Within fun w' => Posted (past ++ w'.trace) w'.conn := by
    unfold requestBuffer
    split
    · exact h
    · split
      · have built := h.build hst (createReply address w.status)
        rwa [List.append_assoc] at built
      · exact h
  refine Outcome.Within.recover ?_ fun _ h => h
  split
  · next hst =>
      unfold readingRequest
      split
      · split
        · exact h
        · exact buffer hst h
        · have noted : Posted _ w.conn := h.note (.eof .client) (fun _ => rfl) rfl rfl rfl rfl
          rwa [List.append_assoc] at noted
        · next chunk _ =>
            refine buffer hst ?_
            have noted : Posted _
                { w.conn with clientReadBuff := w.conn.clientReadBuff ++ chunk.bytes } :=
              h.note (.read .client chunk.bytes) (fun _ => rfl) rfl rfl rfl rfl
            rwa [List.append_assoc] at noted
      · exact h
  · next hst =>
      unfold sendingReply
      split
      · split
        · exact h
        · next n _ =>
            have sent := h.send hst n
            rw [List.append_assoc] at sent
            dsimp only
            split <;> exact sent
      · exact h

theorem HttpRun.posted {client : FileDescriptor} {time : Int} {vs : List HttpVisit} {b : Bool}
    {w : HttpWorld} (h : HttpRun (.fresh id client time) vs b w) :
    Posted (httpEvents vs) w.conn := by
  induction h with
  | start => exact ⟨rfl, rfl, rfl⟩
  | @step vs w _ _ i _ hw ih =>
      have entered : Posted (httpEvents vs ++ (w.enter i).trace) (w.enter i).conn := by
        rw [HttpWorld.enter, List.append_nil]
        exact ih
      rw [httpEvents_append, httpEvents_singleton]
      exact (httpWork_posted entered).of_ok hw

theorem Unmixed.closed (h : Unmixed es) (ds : List FileDescriptor) :
    Unmixed (es ++ ds.map .closed) := by
  have wrote (s : Side) : wroteTo s (ds.map .closed) = [] := by
    simp [wroteTo, List.flatMap_map, Event.wroteTo]
  have read (s : Side) : readFrom s (ds.map .closed) = [] := by
    simp [readFrom, List.flatMap_map, Event.readFrom]
  have parsed : parsedBytes (ds.map .closed) = [] := by
    simp [parsedBytes, List.flatMap_map, Event.parsedBytes]
  have queued : queuedBytes (ds.map .closed) = [] := by
    simp [queuedBytes, List.flatMap_map, Event.queuedBytes]
  refine ⟨?_, ?_⟩
  · rw [wroteTo_append, readFrom_append, parsedBytes_append, wrote, read, parsed]
    simpa using h.server
  · rw [wroteTo_append, readFrom_append, queuedBytes_append, wrote, read, queued]
    simpa using h.client

theorem Posted.unmixed {c : HttpConnection} (h : Posted es c) : Unmixed es where
  server := by
    rw [h.server]
    exact List.nil_prefix
  client := by
    rw [← h.client, List.append_assoc]
    exact List.prefix_append _ _

theorem Life.unmixed (h : Life ts id client es conn) : Unmixed es := by
  cases h with
  | socks run => exact run.staged.unmixed
  | socksGone run => exact run.staged.unmixed.closed _
  | http run => exact run.posted.unmixed
  | @httpGone _ _ w _ run => exact run.posted.unmixed.closed [w.conn.client]

/-- **Every connection lives by itself.**  In any run of the server the events under an address are
those of one run of a connection there, to its present state or to its end, for a client that came
in through `accept`; the run was told what steps of the server were told, in their order.  And what
an end was sent is, in order, what the other end of the same connection sent behind its requests, or
the replies and then what the server sent: no byte gets from one connection to another. -/
theorem no_crosstalk (h : Chronicle ts log s) :
    (∀ slot ∈ s.connections,
        ∃ client, Came ts client ∧
          Life ts slot.id client (eventsOf slot.id log) (some slot.conn)) ∧
      (∀ id < s.nextConnection, id ∉ s.connections.map (·.id) →
        ∃ client, Came ts client ∧ Life ts id client (eventsOf id log) none) ∧
      ∀ id, Unmixed (eventsOf id log) := by
  have recorded := h.recorded
  refine ⟨recorded.lives, recorded.gone, fun id => ?_⟩
  by_cases hid : id < s.nextConnection
  · obtain ⟨client, conn, -, life⟩ := recorded.life hid
    exact life.unmixed
  · rw [recorded.future id (Nat.le_of_not_lt hid)]
    exact ⟨List.nil_prefix, List.nil_prefix⟩

/-- What is done on the way that `Server.play` goes, and the steps that are taken. -/
def Server.recount (s : Server) : List Calls → List Calls × List (Nat × Event)
  | [] => ([], [])
  | t :: ts =>
    if t.Honest s then
      match s.step t with
      | .ok () s' => (t :: (s'.recount ts).1, s.log t ++ (s'.recount ts).2)
      | _ => ([], [])
    else ([], [])

theorem mem_of_recount {us : List Calls} (h : t ∈ (s.recount us).1) : t ∈ us := by
  induction us generalizing s with
  | nil => exact h
  | cons u us ih =>
      unfold Server.recount at h
      split at h
      · split at h
        · exact (List.mem_cons.mp h).elim (fun e => e ▸ List.mem_cons_self) fun h =>
            List.mem_cons_of_mem u (ih h)
        · exact absurd h List.not_mem_nil
      · exact absurd h List.not_mem_nil

theorem chronicle_play (h : Chronicle ts log s) (us : List Calls) :
    Chronicle (ts ++ (s.recount us).1) (log ++ (s.recount us).2) (s.play us) := by
  induction us generalizing s log ts with
  | nil => simpa [Server.recount, Server.play] using h
  | cons t us ih =>
      unfold Server.recount Server.play
      by_cases ht : t.Honest s
      · rw [if_pos ht, if_pos ht]
        cases hs : s.step t with
        | ok _ s' =>
            dsimp only
            rw [← List.append_assoc, ← List.singleton_append, ← List.append_assoc]
            exact ih (.step t h ht hs)
        | thrown _ => simpa using h
        | fault => simpa using h
      · rw [if_neg ht, if_neg ht]
        simpa using h

namespace Sample

/-- One pass of the loop over several connections. -/
def sweepPass (readFds writeFds : List Nat) (socks : AcceptResult) (es : List Env) : List Calls :=
  { env, call := .ready readFds writeFds } :: { env, accept := socks } :: { env := env } ::
    (es.map fun e => { env := e }) ++ [{ env := env }]

/-- Two clients come, each gets a server, and both send. -/
def talking : List Calls :=
  sweepPass [5] [] (.socket 7 ⟨0, 0⟩) [env] ++ sweepPass [5] [] (.socket 9 ⟨0, 0⟩) [env, env] ++
    sweepPass [7, 9] [] .null
      ([8, 10].map fun fd => { env with
        read := fun _ => .data request, newSocket := some fd, tryConnect := .connected }) ++
    sweepPass [] [7, 9] .null ([8, 8].map fun n => { env with write := fun _ => .wrote n }) ++
    sweepPass [7, 9] [] .null
      ([threeBytes, ⟨[6, 7], nofun, by decide⟩].map fun chunk => { env with
        read := fun _ => .data chunk }) ++
    sweepPass [] [8, 10] .null ([3, 1].map fun n => { env with write := fun _ => .wrote n })

end Sample

theorem no_crosstalk_sample :
    let log := ((Server.boot 5 6 ⟨0, 0⟩ ⟨0, 0⟩).recount Sample.talking).2
    wroteTo .server (eventsOf 0 log) = [1, 2, 3] ∧ wroteTo .server (eventsOf 1 log) = [6] ∧
      Unmixed (eventsOf 0 log) ∧ Unmixed (eventsOf 1 log) := by
  intro log
  have history : Chronicle _ log ((Server.boot 5 6 ⟨0, 0⟩ ⟨0, 0⟩).play Sample.talking) :=
    chronicle_play (.boot 5 6 ⟨0, 0⟩ ⟨0, 0⟩ (by decide)) Sample.talking
  have unmixed := (no_crosstalk history).2.2
  exact ⟨by decide +kernel, by decide +kernel, unmixed 0, unmixed 1⟩

end

end OldStuff.Socks
