import OldStuff.Socks.Exchange
import OldStuff.Socks.Tariff

/-!
# Socks — who may answer a `BIND`

A `BIND` leaves nothing of its request behind but the listener: the address in the request is
compared with nothing.  `Bound` follows a connection from its first reply on: it waits on the
listener, and the first socket that `accept` returns there is its server, whoever it is.
-/

namespace OldStuff.Socks
open OldStuff.Io
open OldStuff.Lib (Outcome)

def Event.taken : Event → List FileDescriptor
  | .accepted d => [d]
  | _ => []

/-- The sockets accepted. -/
def accepted (es : List Event) : List FileDescriptor := es.flatMap Event.taken

section
variable (es fs : List Event) (ev : Event)

@[simp] theorem accepted_nil : accepted [] = [] := rfl
@[simp] theorem accepted_append : accepted (es ++ fs) = accepted es ++ accepted fs :=
  List.flatMap_append
@[simp] theorem accepted_cons : accepted (ev :: es) = ev.taken ++ accepted es := rfl

end

/-- After the wait: one peer, one reply, and no server but the peer. -/
structure Peered (v : Version) (d : FileDescriptor) (es : List Event) (c : SocksConnection) :
    Prop where
  server : ∀ d', c.server = some d' → d' = d
  peer : accepted es = [d]
  reply : ∃ abi, replies es = [create abi v.type v.granted 0 0]

/-- A `BIND` whose listener is `l`, after `es`: nobody has been accepted, or one peer has,
whose socket is the server as long as there is one. -/
inductive Bound (v : Version) (l : FileDescriptor) (es : List Event) (c : SocksConnection) :
    Prop where
  | offered (hst : c.state = v.writingBindResponse ∨ c.state = v.waitingConnection)
      (listen : c.listen = some l) (server : c.server = none) (nobody : accepted es = [])
      (silent : replies es = [])
  | taken {d : FileDescriptor} (hst : c.state = .writingResponseSuccess ∨ c.state = .pipeing)
      (h : Peered v d es c)

section
variable {v : Version} {l d : FileDescriptor} {past es : List Event} {e : Env} {w w' : World}
  {b : Bool}

theorem accepted_relays {es : List Event} (h : ∀ ev ∈ es, ev.relays = true) :
    accepted es = [] ∧ replies es = [] := by
  refine ⟨List.flatMap_eq_nil_iff.mpr ?_, List.flatMap_eq_nil_iff.mpr ?_⟩
  · intro ev hev
    have := h ev hev
    cases ev <;> first | rfl | cases this
  · intro ev hev
    have := h ev hev
    cases ev <;> first | rfl | cases this

/-- The first reply. -/
theorem bindWriting_bound (hst : w.conn.state = v.writingBindResponse)
    (listen : w.conn.listen = some l) (server : w.conn.server = none)
    (nobody : accepted (w.log past) = []) (silent : replies (w.log past) = []) :
    (writeReply (bindResponseWritten v) e w).Within fun w' => Bound v l (w'.log past) w'.conn := by
  have here : Bound v l (w.log past) w.conn := .offered (.inl hst) listen server nobody silent
  unfold writeReply
  refine deref_within fun client => ?_
  split
  · unfold send
    split
    · exact here
    · rw [Outcome.bind_ok]
      split
      · refine .offered (.inr rfl) listen server ?_ ?_
        · simpa [bindResponseWritten, Event.taken] using nobody
        · simpa [bindResponseWritten, Event.reply] using silent
      · refine .offered (.inl hst) listen server ?_ ?_
        · simpa [Event.taken] using nobody
        · simpa [Event.reply] using silent
  · exact here

/-- **The wait**, and the one who ends it. -/
theorem waitingConnection_bound (hst : w.conn.state = v.waitingConnection)
    (listen : w.conn.listen = some l) (server : w.conn.server = none)
    (nobody : accepted (w.log past) = []) (silent : replies (w.log past) = []) :
    (waitingConnection v e w).Within fun w' => Bound v l (w'.log past) w'.conn := by
  have here : Bound v l (w.log past) w.conn := .offered (.inr hst) listen server nobody silent
  unfold waitingConnection
  refine deref_within fun listen' => ?_
  split
  · split
    · exact here
    · exact .offered (.inr hst) listen rfl nobody silent
    · next fd addr _ =>
        refine .taken (d := ⟨w.nextId, fd, addr⟩) (.inl rfl) ⟨?_, ?_, e.abi, ?_⟩
        · intro d' hd'
          exact (Option.some.inj hd').symm
        · simp [World.queue, World.newServer, nobody, Event.taken]
        · simp [World.queue, World.newServer, silent, Event.reply]
  · exact here

theorem Peered.congr {fs : List Event} {c c' : SocksConnection} (h : Peered v d es c)
    (server : c'.server = c.server) (one : accepted fs = accepted es)
    (reply : replies fs = replies es) : Peered v d fs c' :=
  ⟨fun d' hd' => h.server d' (server ▸ hd'), one.trans h.peer, by rw [reply]; exact h.reply⟩

theorem startPipeing_bound (h : Peered v d (w.log past) w.conn) :
    (startPipeing e w).Within fun w' => Bound v l (w'.log past) w'.conn := by
  unfold startPipeing
  dsimp only
  refine Outcome.Within.bind (R := fun w' : World => Bound v l (w'.log past) w'.conn) ?_ ?_
  · refine deref_within fun client => deref_within fun server => ?_
    split
    · exact .taken (.inr rfl) (h.congr rfl rfl rfl)
    · exact .taken (.inr rfl) (h.congr rfl rfl rfl)
  · exact fun _ _ h => h

/-- The second reply. -/
theorem writingSuccess_bound (hst : w.conn.state = .writingResponseSuccess)
    (h : Peered v d (w.log past) w.conn) :
    (writingResponseSuccess e w).Within fun w' => Bound v l (w'.log past) w'.conn := by
  unfold writingResponseSuccess writeReply
  refine deref_within fun client => ?_
  split
  · unfold send
    split
    · exact .taken (.inl hst) h
    · next n _ =>
        rw [Outcome.bind_ok]
        have server : (w.conn.setPending .client ((w.conn.pending .client).drop n)).server =
            w.conn.server := rfl
        have sent : Peered v d (((w.onConn fun c => c.setPending .client
            ((c.pending .client).drop n)).emit
              (.wrote .client ((w.conn.pending .client).take n))).log past) _ :=
          h.congr server
            (by simp [Event.taken]) (by simp [Event.reply])
        split
        · exact startPipeing_bound sent
        · exact .taken (.inl hst) sent
  · exact .taken (.inl hst) h

/-- A relay puts no end in the place of another. -/
theorem pipeing_endpoint (s : Side) :
    (pipeing e w).Within fun w' =>
      ∀ d, w'.conn.endpoint s = some d → w.conn.endpoint s = some d := by
  have read {u : World} (t : Side)
      (h : ∀ d, u.conn.endpoint s = some d → w.conn.endpoint s = some d) :
      (pipeRead t e u).Within fun w' =>
        ∀ d, w'.conn.endpoint s = some d → w.conn.endpoint s = some d :=
    (pipeRead_inert t).mono fun _ hi d hd => h d (hi.endpoint s d hd)
  have write {u : World} (t : Side)
      (h : ∀ d, u.conn.endpoint s = some d → w.conn.endpoint s = some d) :
      (pipeWrite t e u).Within fun w' =>
        ∀ d, w'.conn.endpoint s = some d → w.conn.endpoint s = some d :=
    (pipeWrite_inert t).mono fun _ hi d hd => h d (hi.endpoint s d hd)
  unfold pipeing
  split
  · intro d hd
    rwa [tryActivate_same.endpoint] at hd
  · refine (read .client fun _ => id).bind fun _ _ h => (read .server h).bind fun _ _ h =>
      (write .client h).bind fun _ _ h => (write .server h).bind fun _ u h => ?_
    refine pipeFinish_cases e _ (fun _ _ _ => h) (fun _ => h) fun _ _ d hd => ?_
    rw [trySuspend_same.endpoint] at hd
    exact h d hd

/-- What a relay does in a visit, whatever waits for either end. -/
theorem visit_relays {i : Input} (hst : w.conn.state = .pipeing)
    (hw : work i.env (w.enter i) = .ok b w') :
    w'.conn.state = .pipeing ∧ ∀ ev ∈ w'.trace, ev.relays = true := by
  -- as if what waits had just been read
  have start : Relaying [.read .client (w.conn.pending .server),
      .read .server (w.conn.pending .client)] w.conn :=
    ⟨hst, fun s => by cases s <;> simp [Lib.Conserved, Event.readFrom, Event.wroteTo, Side.other],
      by simp [Event.relays]⟩
  have := visit_relaying hw start
  exact ⟨this.state, fun ev hev => this.relays ev (List.mem_append_right _ hev)⟩

theorem handler_bindWriting (hst : w.conn.state = v.writingBindResponse) :
    handler e w = writeReply (bindResponseWritten v) e w := by
  rw [handler, hst]
  cases v with
  | socks4 => rfl
  | socks5 => rfl

theorem handler_waiting (hst : w.conn.state = v.waitingConnection) :
    handler e w = waitingConnection v e w := by
  rw [handler, hst]
  cases v with
  | socks4 => rfl
  | socks5 => rfl

/-- **One visit to a `BIND`.** -/
theorem visit_bound {i : Input} (hw : work i.env (w.enter i) = .ok b w')
    (h : Bound v l es w.conn) : Bound v l (es ++ w'.trace) w'.conn := by
  have start : (w.enter i).log es = es := List.append_nil es
  -- an exception is the end of the connection, which changes registrations only
  have caught (hh : (handler i.env (w.enter i)).Within fun w' => Bound v l (w'.log es) w'.conn) :
      Bound v l (es ++ w'.trace) w'.conn := by
    refine (Outcome.Within.recover hh ?_).of_ok hw
    exact fun _ h => h
  rcases h with ⟨hst | hst, listen, server, nobody, silent⟩ | ⟨hst | hst, taken⟩
  · refine caught ?_
    rw [handler_bindWriting (w := w.enter i) hst]
    exact bindWriting_bound (w := w.enter i) hst listen server (by rwa [start]) (by rwa [start])
  · refine caught ?_
    rw [handler_waiting (w := w.enter i) hst]
    exact waitingConnection_bound (w := w.enter i) hst listen server (by rwa [start])
      (by rwa [start])
  · refine caught ?_
    rw [handler, World.enter, hst]
    exact writingSuccess_bound (w := w.enter i) hst (by rwa [start])
  · obtain ⟨state, relays⟩ := visit_relays hst hw
    obtain ⟨nobody, silent⟩ := accepted_relays relays
    obtain ⟨server, one, abi, reply⟩ := taken
    have ends : ∀ d, w'.conn.endpoint .server = some d → w.conn.endpoint .server = some d := by
      rw [work, handler, World.enter, hst] at hw
      refine (Outcome.Within.recover (pipeing_endpoint (w := w.enter i) .server) ?_).of_ok hw
      exact fun _ h => h
    refine .taken (.inr state) ⟨fun d' hd' => server d' (ends d' hd'), ?_, abi, ?_⟩
    · rw [accepted_append, nobody, List.append_nil, one]
    · rw [replies_append, silent, List.append_nil, reply]

/-- A `BIND`, from its first reply on. -/
theorem Run.bound {vs : List Visit} {w₀ : World} (h : Run w₀ vs b w)
    (hb : Bound v l [] w₀.conn) : Bound v l (events vs) w.conn := by
  induction h with
  | start => exact hb
  | step i _ hw ih =>
      rw [events_append, events_singleton]
      exact visit_bound hw ih

/-- The two states of the wait are those of nothing else. -/
theorem Version.unrelated (v : Version) :
    (v.writingBindResponse ≠ .writingResponseSuccess ∧ v.writingBindResponse ≠ .pipeing) ∧
      v.waitingConnection ≠ .writingResponseSuccess ∧ v.waitingConnection ≠ .pipeing := by
  cases v <;> decide

/-- A listener is all that the request leaves. -/
theorem bound_start {self : Nat} {client : FileDescriptor} {time : Int} {us : List Visit}
    {w₀ : World} (h₀ : Run (World.fresh self client time) us true w₀)
    (hst : w₀.conn.state = v.writingBindResponse) : ∃ l, Bound v l [] w₀.conn := by
  have handshaken : Handshaken true (events us) w₀.conn := by
    refine h₀.staged.handshaken ?_
    rw [hst]
    exact v.unrelated.1.2
  have shaped : w₀.conn.server = none ∧ w₀.conn.listen ≠ none := by
    have := handshaken.shaped
    cases v with
    | socks4 =>
        rw [Shaped, hst] at this
        exact this.2
    | socks5 =>
        rw [Shaped, hst] at this
        exact this.2
  obtain ⟨l, hl⟩ := Option.ne_none_iff_exists'.mp shaped.2
  exact ⟨l, .offered (.inl hst) hl shaped.1 rfl rfl⟩

/-- The step in which somebody comes. -/
theorem work_accepts {fd : Nat} {addr : SockaddrIn} (hst : w.conn.state = v.waitingConnection)
    (hl : w.conn.listen = some l)
    (hc : (w.select.canRead l || w.select.canWrite l) = true) (ha : e.accept = .socket fd addr) :
    ∃ w', work e w = .ok true w' ∧ w'.conn.state = .writingResponseSuccess ∧
      w'.conn.server = some ⟨w.nextId, fd, addr⟩ ∧
      w'.conn.clientWriteBuff = create e.abi v.type v.granted 0 0 := by
  rw [work, handler_waiting hst, waitingConnection, hl, deref_some, if_pos hc]
  simp only [ha]
  exact ⟨_, rfl, rfl, rfl, rfl⟩

/-- **The first who comes.**  In every run of a `BIND`, whatever its request asked for: after the
wait, and then in the relay, the server is the first socket that `accept` returned, the only one
that was accepted, and the second reply says that the request was granted.  While the `BIND` waits
on its listener, any socket that `accept` returns ends the wait like this, whatever its address. -/
theorem bind_first_peer {self : Nat} {client : FileDescriptor} {time : Int} {us vs : List Visit}
    {w₀ : World} (h₀ : Run (World.fresh self client time) us true w₀)
    (hst : w₀.conn.state = v.writingBindResponse) (h : Run w₀ vs b w) :
    (w.conn.state = .writingResponseSuccess ∨ w.conn.state = .pipeing →
      ∃ d abi, accepted (events vs) = [d] ∧ (∀ d', w.conn.server = some d' → d' = d) ∧
        replies (events vs) = [create abi v.type v.granted 0 0]) ∧
    (w.conn.state = v.waitingConnection → ∃ listen, w.conn.listen = some listen ∧
      ∀ (i : Input) (fd : Nat) (addr : SockaddrIn),
        (i.select.canRead listen || i.select.canWrite listen) = true →
        i.env.accept = .socket fd addr →
        ∃ w', work i.env (w.enter i) = .ok true w' ∧ w'.conn.state = .writingResponseSuccess ∧
          w'.conn.server = some ⟨i.nextId, fd, addr⟩ ∧
          w'.conn.clientWriteBuff = create i.env.abi v.type v.granted 0 0) := by
  obtain ⟨l, start⟩ := bound_start h₀ hst
  rcases h.bound start with ⟨hw, listen, server, nobody, silent⟩ | ⟨hw, server, one, abi, reply⟩
  · refine ⟨fun hr => ?_, fun waits => ⟨l, listen, fun i fd addr hc ha => ?_⟩⟩
    · exfalso
      rcases hw with hw | hw
      · rw [hw] at hr
        exact hr.elim v.unrelated.1.1 v.unrelated.1.2
      · rw [hw] at hr
        exact hr.elim v.unrelated.2.1 v.unrelated.2.2
    · exact work_accepts (w := w.enter i) waits listen hc ha
  · refine ⟨fun _ => ⟨_, abi, one, server, reply⟩, fun waits => ?_⟩
    rw [waits] at hw
    exact absurd hw (not_or.mpr v.unrelated.2)

end

namespace Sample

/-- The request is granted, and the listener is descriptor 9. -/
def announce : List (World → Input) :=
  [visit [7] []
    { env with read := fun _ => .data bindRequest, newServerSocket := some (9, ⟨36895, 0⟩) }]

/-- Somebody comes from 10.0.0.2. -/
def stranger : List (World → Input) :=
  [visit [] [7] { env with write := fun _ => .wrote 8 },
    visit [9] [] { env with accept := .socket 10 ⟨4660, 33554442⟩ },
    visit [] [7] { env with write := fun _ => .wrote 8 }]

def announced : List Visit × Bool × World := play (.fresh 0 client 0) announce

def joined : List Visit × Bool × World := play announced.2.2 stranger

theorem run_announced : Run (.fresh 0 client 0) announced.1 true announced.2.2 := run_play _ _

theorem run_joined : Run announced.2.2 joined.1 joined.2.1 joined.2.2 := run_play _ _

end Sample

theorem bind_first_peer_sample :
    ∃ d abi, accepted (events Sample.joined.1) = [d] ∧
      (∀ d', Sample.joined.2.2.conn.server = some d' → d' = d) ∧
      replies (events Sample.joined.1) = [create abi .socks4 Version.socks4.granted 0 0] :=
  (bind_first_peer (v := .socks4) Sample.run_announced rfl Sample.run_joined).1 (.inr rfl)

set_option maxRecDepth 10000 in
/-- 10.0.0.1 was asked for, 10.0.0.2 was accepted, and the two relay. -/
theorem bind_stranger :
    Run (.fresh 0 Sample.client 0) Sample.announced.1 true Sample.announced.2.2 ∧
      Run Sample.announced.2.2 Sample.joined.1 true Sample.joined.2.2 ∧
      ∃ req d, SocksRequest.parse Sample.env.abi Sample.env.request Sample.bindRequest.bytes true =
          .accepted req ∧ .parsed true Sample.bindRequest.bytes ∈ events Sample.announced.1 ∧
        req.command = requestCommandBind ∧
        Sample.joined.2.2.conn.state = .pipeing ∧
        Sample.joined.2.2.conn.server = some d ∧ d.getRemoteAddress ≠ req.address ∧
        replies (events Sample.joined.1) = [[0, 90, 0, 0, 0, 0, 0, 0]] := by
  refine ⟨Sample.run_announced, Sample.run_joined, _, ⟨2, 10, ⟨4660, 33554442⟩⟩, rfl, ?_⟩
  decide

end OldStuff.Socks
