import OldStuff.Socks.Flow

/-!
# Socks — the course of a handshake

Before the relay, the state of a connection says almost everything about its past.  `Handshaken`
puts this down: which of its pointers are `NULL` (`Shaped`), which decisions were taken and which
replies queued, in which order (`Course`), that what the client has been sent and what waits for
it make up these replies, and that what the client has sent is the messages acted on, followed in
a reading state by `client_read_buff`.

Every handler of the handshake keeps it, up to and including the step that enters `PIPEING`.
-/

namespace OldStuff.Socks
open OldStuff.Io
open OldStuff.Lib (Outcome)

/-! ### What the events say -/

/-- The events that decide how a handshake goes. -/
def Event.milestone : Event → Bool
  | .asked (some _) | .connected | .listening _ | .accepted _ | .queued _ => true
  | _ => false

def Event.queuedBytes : Event → Bytes
  | .queued reply => reply
  | _ => []

def Event.parsedBytes : Event → Bytes
  | .parsed _ buf => buf
  | _ => []

def milestones (es : List Event) : List Event := es.filter Event.milestone

/-- The replies queued, one after the other. -/
def queuedBytes (es : List Event) : Bytes := es.flatMap Event.queuedBytes

/-- The buffers acted on, one after the other. -/
def parsedBytes (es : List Event) : Bytes := es.flatMap Event.parsedBytes

section
variable (es fs : List Event) (ev : Event)

@[simp] theorem milestones_nil : milestones [] = [] := rfl
@[simp] theorem queuedBytes_nil : queuedBytes [] = [] := rfl
@[simp] theorem parsedBytes_nil : parsedBytes [] = [] := rfl
@[simp] theorem milestones_append : milestones (es ++ fs) = milestones es ++ milestones fs :=
  List.filter_append ..
@[simp] theorem queuedBytes_append : queuedBytes (es ++ fs) = queuedBytes es ++ queuedBytes fs :=
  List.flatMap_append
@[simp] theorem parsedBytes_append : parsedBytes (es ++ fs) = parsedBytes es ++ parsedBytes fs :=
  List.flatMap_append
@[simp] theorem milestones_cons :
    milestones (ev :: es) = if ev.milestone then ev :: milestones es else milestones es :=
  List.filter_cons
@[simp] theorem queuedBytes_cons :
    queuedBytes (ev :: es) = ev.queuedBytes ++ queuedBytes es := rfl
@[simp] theorem parsedBytes_cons :
    parsedBytes (ev :: es) = ev.parsedBytes ++ parsedBytes es := rfl

end

/-! ### The replies -/

/-- A reply of `v` with the success code. -/
def SuccessReply (v : Version) (reply : Bytes) : Prop :=
  ∃ abi port address, reply = create abi v.type v.granted port address

/-- A reply of `v` with another code. -/
def FailureReply (v : Version) (reply : Bytes) : Prop :=
  ∃ abi code port address, code ≠ v.granted ∧ reply = create abi v.type code port address

/-- The two bytes that answer a greeting. -/
def methodReply : Bytes := [socks5ReplyVersion, socks5AuthReplyNoAuth]

/-- What goes before the request of `v`. -/
def Version.opening : Version → List Event
  | .socks4 => []
  | .socks5 => [.queued methodReply]

/-! ### The states -/

/-- The state in which the request of `v` is read. -/
def Version.readingRequest : Version → ConnectionState
  | .socks4 => .readingInitialRequest
  | .socks5 => .socks5ReadingRequest

/-- Nothing waits to be written in these states. -/
def ConnectionState.idle : ConnectionState → Bool
  | .readingInitialRequest | .socks5ReadingRequest | .pipeing
  | .socks4ConnectingServer | .socks5ConnectingServer
  | .socks4WaitingConnection | .socks5WaitingConnection => true
  | _ => false

def ConnectionState.reading : ConnectionState → Bool
  | .readingInitialRequest | .socks5ReadingRequest => true
  | _ => false

/-- The decisions of a granted request. -/
inductive Granted : List Event → Prop where
  | connect {v : Version} {r : Bytes} (h : SuccessReply v r) :
      Granted (v.opening ++ [.asked (some true), .connected, .queued r])
  | bind {v : Version} {r r' : Bytes} {l d : FileDescriptor} (h : SuccessReply v r)
      (h' : SuccessReply v r') :
      Granted (v.opening ++
        [.asked (some true), .listening l, .queued r, .accepted d, .queued r'])

/-- The decisions of a request that was turned down, by the access check or later. -/
def Refused (ms : List Event) : Prop :=
  ∃ v a r, FailureReply v r ∧ ms = v.opening ++ [.asked (some a), .queued r]

/-- The first reply to a `BIND` has been queued. -/
def Announced (v : Version) (ms : List Event) : Prop :=
  ∃ l r, SuccessReply v r ∧ ms = v.opening ++ [.asked (some true), .listening l, .queued r]

/-- The decisions that lead to a state. -/
def Course : ConnectionState → List Event → Prop
  | .readingInitialRequest, ms => ms = Version.opening .socks4
  | .socks5ReadingRequest, ms | .socks5WritingAuthResponseSuccess, ms =>
    ms = Version.opening .socks5
  | .writingResponseFailure, ms => Refused ms
  | .socks4ConnectingServer, ms => ms = Version.opening .socks4 ++ [.asked (some true)]
  | .socks5ConnectingServer, ms => ms = Version.opening .socks5 ++ [.asked (some true)]
  | .socks4WritingBindResponse, ms | .socks4WaitingConnection, ms => Announced .socks4 ms
  | .socks5WritingBindResponse, ms | .socks5WaitingConnection, ms => Announced .socks5 ms
  | .writingResponseSuccess, ms | .pipeing, ms => Granted ms

/-- Which pointers a state guarantees, and which it excludes.  A relay that has lost one end has
something for the other. -/
def Shaped (c : SocksConnection) : Prop :=
  match c.state with
  | .readingInitialRequest | .socks5ReadingRequest | .socks5WritingAuthResponseSuccess =>
    c.client ≠ none ∧ c.server = none ∧ c.listen = none
  | .writingResponseFailure => c.client ≠ none ∧ c.listen = none
  | .writingResponseSuccess | .socks4ConnectingServer | .socks5ConnectingServer =>
    c.client ≠ none ∧ c.server ≠ none ∧ c.listen = none
  | .socks4WritingBindResponse | .socks5WritingBindResponse
  | .socks4WaitingConnection | .socks5WaitingConnection =>
    c.client ≠ none ∧ c.server = none ∧ c.listen ≠ none
  | .pipeing =>
    (c.client ≠ none ∨ c.server ≠ none) ∧ c.listen = none ∧
      (c.server = none → c.clientWriteBuff ≠ []) ∧ (c.client = none → c.serverWriteBuff ≠ [])

/-- What the relay finds untouched when it starts. -/
structure Quiet (c : SocksConnection) : Prop where
  serverWriteBuff : c.serverWriteBuff = []
  suspended : c.suspended = false
  suspendedTo : c.suspendedTo = 0
  suspendedBytesPiped : c.suspendedBytesPiped = 0

/-- The bytes read and not acted on yet. -/
def unparsed (c : SocksConnection) : Bytes :=
  if c.state.reading then c.clientReadBuff else []

@[simp] theorem unparsed_setPending (s : Side) (bs : Bytes) (c : SocksConnection) :
    unparsed (c.setPending s bs) = unparsed c := by
  cases s <;> rfl

/-- A connection in its handshake, after the events `es`; `alive` says that `work` has not given
up. -/
structure Handshaken (alive : Bool) (es : List Event) (c : SocksConnection) : Prop where
  shaped : Shaped c
  course : Course c.state (milestones es)
  received : alive = true → readFrom .client es = parsedBytes es ++ unparsed c
  sent : wroteTo .client es ++ c.clientWriteBuff = queuedBytes es
  idle : c.state.idle = true → c.clientWriteBuff = []
  busy : alive = true → c.state.idle = false → c.clientWriteBuff ≠ []
  denied : .asked none ∈ es → alive = false ∧ c.state.reading = true
  quiet : Quiet c
  ends : c.state = .pipeing → c.client ≠ none ∧ c.server ≠ none
  fromServer : readFrom .server es = []
  toServer : wroteTo .server es = []

theorem handshaken_new (client : FileDescriptor) (time : Int) :
    Handshaken true [] (.new client time) where
  shaped := ⟨nofun, rfl, rfl⟩
  course := rfl
  received := fun _ => rfl
  sent := rfl
  idle := fun _ => rfl
  busy := nofun
  denied := nofun
  quiet := ⟨rfl, rfl, rfl, rfl⟩
  ends := nofun
  fromServer := rfl
  toServer := rfl

theorem Handshaken.dead {b : Bool} {es : List Event} {c : SocksConnection}
    (h : Handshaken true es c) : Handshaken b es c :=
  { h with
    received := fun _ => h.received rfl
    busy := fun _ => h.busy rfl
    denied := fun hd => absurd (h.denied hd).1 nofun }

theorem Handshaken.undenied {es : List Event} {c : SocksConnection} (h : Handshaken true es c) :
    .asked none ∉ es :=
  fun hd => absurd (h.denied hd).1 nofun

/-! ### Between two moves

Most handlers act at a moment at which the handshake has nothing in flight: everything read was
acted on, everything queued was written. -/

/-- Nothing waits to be parsed and nothing waits to be written. -/
structure Settled (es : List Event) (c : SocksConnection) : Prop where
  received : readFrom .client es = parsedBytes es
  sent : wroteTo .client es = queuedBytes es
  undenied : .asked none ∉ es
  quiet : Quiet c
  fromServer : readFrom .server es = []
  toServer : wroteTo .server es = []

/-- The events that carry no bytes, a throw of the access check apart. -/
def Event.silent : Event → Bool
  | .asked (some _) | .opened _ | .listening _ | .accepted _ | .connected | .closed _
  | .eof _ => true
  | _ => false

theorem ConnectionState.idle_of_reading {st : ConnectionState} (h : st.reading = true) :
    st.idle = true := by
  cases st <;> first | rfl | cases h

section
variable {v : Version} {a b : Bool} {past es : List Event} {e : Env} {w : World}
  {c c' : SocksConnection}

namespace Settled

theorem note (h : Settled es c) (ev : Event) (hev : ev.silent = true) : Settled (es ++ [ev]) c := by
  obtain ⟨received, sent, undenied, quiet, fromServer, toServer⟩ := h
  cases ev with
  | read | wrote | parsed | queued => cases hev
  | asked a =>
      cases a with
      | none => cases hev
      | some a =>
          exact ⟨by simpa [Event.readFrom, Event.parsedBytes] using received,
            by simpa [Event.wroteTo, Event.queuedBytes] using sent, by simpa using undenied, quiet,
            by simpa [Event.readFrom] using fromServer, by simpa [Event.wroteTo] using toServer⟩
  | _ =>
      exact ⟨by simpa [Event.readFrom, Event.parsedBytes] using received,
        by simpa [Event.wroteTo, Event.queuedBytes] using sent, by simpa using undenied, quiet,
        by simpa [Event.readFrom] using fromServer, by simpa [Event.wroteTo] using toServer⟩

/-- Of the connection, only what `Quiet` looks at matters. -/
theorem congr (h : Settled es c) (c' : SocksConnection)
    (hw : c'.serverWriteBuff = c.serverWriteBuff) (hs : c'.suspended = c.suspended)
    (ht : c'.suspendedTo = c.suspendedTo)
    (hb : c'.suspendedBytesPiped = c.suspendedBytesPiped) : Settled es c' where
  received := h.received
  sent := h.sent
  undenied := h.undenied
  quiet := ⟨hw.trans h.quiet.1, hs.trans h.quiet.2, ht.trans h.quiet.3, hb.trans h.quiet.4⟩
  fromServer := h.fromServer
  toServer := h.toServer

/-- The next reply. -/
theorem queue (h : Settled es c) (hr : c.clientWriteBuff ≠ []) (hi : c.state.idle = false)
    (hs : Shaped c) (hc : Course c.state (milestones es ++ [Event.queued c.clientWriteBuff])) :
    Handshaken b (es ++ [Event.queued c.clientWriteBuff]) c where
  shaped := hs
  course := by simpa [Event.milestone] using hc
  received := fun _ => by
    have hu : c.state.reading = false :=
      Bool.eq_false_iff.mpr fun hr => by rw [ConnectionState.idle_of_reading hr] at hi; cases hi
    simpa [unparsed, hu, Event.readFrom, Event.parsedBytes] using h.received
  sent := by simp [Event.wroteTo, Event.queuedBytes, h.sent]
  idle := fun h => by rw [hi] at h; cases h
  busy := fun _ _ => hr
  denied := fun hd => absurd (by simpa using hd) h.undenied
  quiet := h.quiet
  ends := fun h => by rw [h] at hi; cases hi
  fromServer := by simpa [Event.readFrom] using h.fromServer
  toServer := by simpa [Event.wroteTo] using h.toServer

/-- A state in which nothing is written. -/
theorem rest (h : Settled es c) (hw : c.clientWriteBuff = []) (hi : c.state.idle = true)
    (hu : unparsed c = []) (hs : Shaped c) (hc : Course c.state (milestones es))
    (he : c.state = .pipeing → c.client ≠ none ∧ c.server ≠ none) : Handshaken b es c where
  shaped := hs
  course := hc
  received := fun _ => by rw [hu, List.append_nil]; exact h.received
  sent := by rw [hw, List.append_nil]; exact h.sent
  idle := fun _ => hw
  busy := fun _ h => by rw [hi] at h; cases h
  denied := fun hd => absurd hd h.undenied
  quiet := h.quiet
  ends := he
  fromServer := h.fromServer
  toServer := h.toServer

end Settled

/-- A waiting state outside the reading ones has nothing in flight. -/
theorem Handshaken.settled (h : Handshaken true es c) (hi : c.state.idle = true)
    (hr : c.state.reading = false) : Settled es c where
  received := by simpa [unparsed, hr] using h.received rfl
  sent := by simpa [h.idle hi] using h.sent
  undenied := h.undenied
  quiet := h.quiet
  fromServer := h.fromServer
  toServer := h.toServer

/-! ### Serving a request -/

/-- The access check has answered `a`, and no reply to the request is queued yet. -/
structure Served (v : Version) (a : Bool) (es : List Event) (c : SocksConnection) : Prop where
  settled : Settled es c
  client : c.client ≠ none
  listen : c.listen = none
  course : milestones es = v.opening ++ [.asked (some a)]

theorem create_ne_nil (abi : Abi) (type : ReplyType) (command : UInt8) (port : UInt16)
    (address : Nat) : create abi type command port address ≠ [] := by
  cases type <;> exact List.cons_ne_nil _ _

theorem refuse_handshaken (h : Served v a (w.log past) w.conn) {code : UInt8}
    (hc : code ≠ v.granted) :
    Handshaken b ((refuse v code e w).log past) (refuse v code e w).conn := by
  have settled := h.settled.congr (refuse v code e w).conn rfl rfl rfl rfl
  have refused : Refused (milestones (w.log past) ++
      [Event.queued (create e.abi v.type code 0 0)]) :=
    ⟨v, a, _, ⟨e.abi, code, 0, 0, hc, rfl⟩, by rw [h.course, List.append_assoc]; rfl⟩
  have := settled.queue (b := b) (create_ne_nil _ _ _ _ _) rfl ⟨h.client, h.listen⟩ refused
  rwa [refuse, World.queue, World.log_onSelect, World.log_emit]

theorem grant_handshaken (h : Served v true (w.log past) w.conn) {server : FileDescriptor}
    (hs : w.conn.server ≠ none) :
    Handshaken b ((grant v server e w).log past) (grant v server e w).conn := by
  have settled := (h.settled.note .connected rfl).congr (grant v server e w).conn rfl rfl rfl rfl
  have granted : Granted (milestones (w.log past ++ [Event.connected]) ++ [Event.queued
      (create e.abi v.type v.granted server.getRemotePort server.getRemoteAddress)]) := by
    have := Granted.connect (v := v) ⟨e.abi, server.getRemotePort, server.getRemoteAddress, rfl⟩
    simpa [h.course, Event.milestone] using this
  have := settled.queue (b := b) (create_ne_nil _ _ _ _ _) rfl ⟨h.client, hs, h.listen⟩ granted
  rwa [grant, World.queue, World.log_onSelect, World.log_emit, World.log_onConn, World.log_emit]

/-- `set_status` changes the status map and nothing else, or throws. -/
theorem setStatus_bind {what : String} {k : Unit → World → Outcome World Bool}
    {P : Bool → World → Prop} {E : World → Prop} (hc : w.conn.client ≠ none)
    (hs : w.conn.server ≠ none) (hE : E w)
    (hk : ∀ line, (k () { w with status := w.status.insert w.self line }).Sat P E) :
    ((setStatus what e w).bind k).Sat P E := by
  obtain ⟨client, hc⟩ := Option.ne_none_iff_exists'.mp hc
  obtain ⟨server, hs⟩ := Option.ne_none_iff_exists'.mp hs
  simp only [setStatus, hc, hs, deref_some]
  split
  · exact hE
  · exact hk _

theorem newServer_served (h : Served v a (w.log past) w.conn) (d : FileDescriptor) :
    Served v a ((w.newServer d (.opened d)).log past) (w.newServer d (.opened d)).conn where
  settled := by
    rw [World.newServer, World.log_emit]
    exact (h.settled.note _ rfl).congr _ rfl rfl rfl rfl
  client := h.client
  listen := h.listen
  course := by simpa [World.newServer, Event.milestone] using h.course

/-- Waiting for the connection to `server`: nothing is queued. -/
theorem connecting_handshaken (h : Served v true es c) (hs : c.server ≠ none)
    (hw : c.clientWriteBuff = []) : Handshaken b es { c with state := v.connectingServer } := by
  have settled := h.settled.congr { c with state := v.connectingServer } rfl rfl rfl rfl
  have course := h.course
  cases v with
  | socks4 => exact settled.rest hw rfl rfl ⟨h.client, hs, h.listen⟩ course nofun
  | socks5 => exact settled.rest hw rfl rfl ⟨h.client, hs, h.listen⟩ course nofun

/-- The guarded block of a `CONNECT`: an exception leaves the request served and not answered. -/
theorem openServer_sat {req : SocksRequest} (h : Served v true (w.log past) w.conn)
    (hw : w.conn.clientWriteBuff = []) :
    (openServer v req e w).Sat (fun b w' => Handshaken b (w'.log past) w'.conn)
      (fun w' => Served v true (w'.log past) w'.conn) := by
  unfold openServer
  split
  · exact h
  · next fd _ =>
      have opened := newServer_served h ⟨w.nextId, fd, .ofRequest req.address req.port⟩
      refine setStatus_bind opened.client (Option.some_ne_none _) opened fun st => ?_
      split
      · exact opened
      · exact grant_handshaken opened (Option.some_ne_none _)
      · exact connecting_handshaken opened (Option.some_ne_none _) hw

/-- The guarded block of a `BIND`. -/
theorem openListener_sat (h : Served v true (w.log past) w.conn) (hs : w.conn.server = none) :
    (openListener v e w).Sat (fun b w' => Handshaken b (w'.log past) w'.conn)
      (fun w' => Served v true (w'.log past) w'.conn) := by
  unfold openListener
  split
  · exact h
  · next fd servaddr _ =>
      let listen : FileDescriptor := ⟨w.nextId, fd, servaddr⟩
      let reply := create e.abi v.type v.granted listen.getRemotePort listen.getRemoteAddress
      let c' : SocksConnection :=
        { w.conn with
          listen := some listen, clientWriteBuff := reply, state := v.writingBindResponse }
      have settled : Settled (w.log past ++ [Event.listening listen]) c' :=
        (h.settled.note _ rfl).congr _ rfl rfl rfl rfl
      have announced : Announced v
          (milestones (w.log past ++ [Event.listening listen]) ++ [Event.queued reply]) :=
        ⟨listen, reply, ⟨e.abi, _, _, rfl⟩, by simp [h.course, Event.milestone]⟩
      have hr : c'.clientWriteBuff ≠ [] :=
        create_ne_nil e.abi v.type v.granted listen.getRemotePort listen.getRemoteAddress
      have queued : Handshaken true
          (w.log past ++ [Event.listening listen] ++ [Event.queued reply]) c' := by
        cases v with
        | socks4 => exact settled.queue hr rfl ⟨h.client, hs, nofun⟩ announced
        | socks5 => exact settled.queue hr rfl ⟨h.client, hs, nofun⟩ announced
      simpa [World.queue, World.newListen] using queued

/-- An event that decides nothing and moves no byte of a reply. -/
theorem Handshaken.note (h : Handshaken false es c) (ev : Event) (hm : ev.milestone = false)
    (hq : ev.queuedBytes = []) (hw : ∀ s, ev.wroteTo s = []) (hr : ev.readFrom .server = [])
    (hd : ev = .asked none → c.state.reading = true) : Handshaken false (es ++ [ev]) c where
  shaped := h.shaped
  course := by simpa [hm] using h.course
  received := nofun
  sent := by simpa [hq, hw] using h.sent
  idle := h.idle
  busy := nofun
  denied := fun hmem => by
    rcases List.mem_append.mp hmem with hmem | hmem
    · exact h.denied hmem
    · exact ⟨rfl, hd (List.mem_singleton.mp hmem).symm⟩
  quiet := h.quiet
  ends := h.ends
  fromServer := by simpa [hr] using h.fromServer
  toServer := by simpa [hw] using h.toServer

/-- A message of `v` has just been parsed. -/
structure Accepted (v : Version) (es : List Event) (c : SocksConnection) : Prop where
  state : c.state = v.readingRequest
  handshaken : Handshaken false es c
  settled : Settled es c

namespace Accepted

theorem shaped (h : Accepted v es c) : c.client ≠ none ∧ c.server = none ∧ c.listen = none := by
  have := h.handshaken.shaped
  rw [Shaped, h.state] at this
  cases v <;> exact this

theorem course (h : Accepted v es c) : milestones es = v.opening := by
  have := h.handshaken.course
  rw [h.state] at this
  cases v <;> exact this

theorem clientWriteBuff (h : Accepted v es c) : c.clientWriteBuff = [] :=
  h.handshaken.idle (by rw [h.state]; cases v <;> rfl)

/-- The access check. -/
theorem asked (h : Accepted v es c) (a : Bool) : Served v a (es ++ [Event.asked (some a)]) c where
  settled := h.settled.note _ rfl
  client := h.shaped.1
  listen := h.shaped.2.2
  course := by simp [h.course, Event.milestone]

end Accepted

theorem serveRequest_keeps {client : FileDescriptor} {req : SocksRequest}
    (h : Accepted v (w.log past) w.conn) :
    Keeps Handshaken past (serveRequest v client req e w) := by
  unfold serveRequest
  cases canConnect e client with
  | none =>
      -- `can_connect` threw, and the connection is where it was
      have reading : w.conn.state.reading = true := by rw [h.state]; cases v <;> rfl
      have := h.handshaken.note (.asked none) rfl rfl (fun _ => rfl) rfl fun _ => reading
      rw [← World.log_emit] at this
      exact this
  | some a =>
      have served : Served v a ((w.emit (.asked (some a))).log past) w.conn := by
        rw [World.log_emit]; exact h.asked a
      have notAllowed : v.notAllowed ≠ v.granted := by cases v <;> decide
      have unreachable : v.unreachable ≠ v.granted := by cases v <;> decide
      have failure : v.failure ≠ v.granted := by cases v <;> decide
      cases a with
      | false =>
          dsimp only
          split
          · exact refuse_handshaken served notAllowed
          · exact refuse_handshaken served notAllowed
      | true =>
          dsimp only
          split
          · exact (openServer_sat served h.clientWriteBuff).recover fun _ h' =>
              refuse_handshaken h' unreachable
          · split
            · exact (openListener_sat served h.shaped.2.1).recover fun _ h' =>
                refuse_handshaken h' failure
            · exact refuse_handshaken served failure

/-! ### Reading a message -/

theorem actInitial_keeps {client : FileDescriptor} {req : SocksRequest}
    (h : Accepted .socks4 (w.log past) w.conn) :
    Keeps Handshaken past (actInitial client req e w) := by
  unfold actInitial
  split
  · exact serveRequest_keeps h
  · have settled := h.settled.congr
      { w.conn with clientWriteBuff := methodReply, state := .socks5WritingAuthResponseSuccess }
      rfl rfl rfl rfl
    have queued := settled.queue (b := true) nofun rfl h.shaped (by rw [h.course]; rfl)
    simpa [World.queue, create, Keeps, methodReply] using queued

variable {initial : Bool} {act : FileDescriptor → SocksRequest → Env → World → Outcome World Bool}

theorem parseBuffer_keeps {client : FileDescriptor}
    (ha : ∀ req w, Accepted v (w.log past) w.conn → Keeps Handshaken past (act client req e w))
    (hst : w.conn.state = v.readingRequest) (h : Handshaken true (w.log past) w.conn) :
    Keeps Handshaken past (parseBuffer initial act client e w) := by
  unfold parseBuffer
  split
  · exact h.dead
  · split
    · have reading : w.conn.state.reading = true := by rw [hst]; cases v <;> rfl
      have idle := ConnectionState.idle_of_reading reading
      refine ha _ _ ⟨hst, ?_, ?_, ?_, ?_, h.quiet, ?_, ?_⟩
      · have := h.dead.note (.parsed initial w.conn.clientReadBuff) rfl rfl (fun _ => rfl) rfl
          nofun
        rw [← World.log_emit] at this
        exact this
      · simpa [unparsed, reading, Event.readFrom, Event.parsedBytes] using h.received rfl
      · simpa [h.idle idle, Event.wroteTo, Event.queuedBytes] using h.sent
      · simpa using h.undenied
      · simpa [Event.readFrom] using h.fromServer
      · simpa [Event.wroteTo] using h.toServer
    · exact h
    · next hp => exact (SocksRequest.parse_ne_overread _ _ _ _ hp).elim

/-- What the client sends in a reading state is kept. -/
theorem Handshaken.append (h : Handshaken true es c) (hst : c.state = v.readingRequest)
    (bs : Bytes) :
    Handshaken true (es ++ [Event.read .client bs])
      { c with clientReadBuff := c.clientReadBuff ++ bs } where
  shaped := h.shaped
  course := by simpa [Event.milestone] using h.course
  received := fun _ => by
    have reading : c.state.reading = true := by rw [hst]; cases v <;> rfl
    have := h.received rfl
    simp only [unparsed, reading, if_true] at this ⊢
    simp [Event.readFrom, Event.parsedBytes, this]
  sent := by simpa [Event.wroteTo, Event.queuedBytes] using h.sent
  idle := h.idle
  busy := h.busy
  denied := fun hd => absurd (by simpa using hd) h.undenied
  quiet := ⟨h.quiet.1, h.quiet.2, h.quiet.3, h.quiet.4⟩
  ends := h.ends
  fromServer := by simpa [Event.readFrom] using h.fromServer
  toServer := by simpa [Event.wroteTo] using h.toServer

theorem Shaped.client (h : Shaped c) (hs : c.state ≠ .pipeing) : c.client ≠ none := by
  unfold Shaped at h
  split at h
  all_goals first
    | exact h.1
    | exact absurd ‹_› hs

/-- Outside the relay the buffers do not matter. -/
theorem Shaped.setPending (h : Shaped c) (hs : c.state ≠ .pipeing) (s : Side) (bs : Bytes) :
    Shaped (c.setPending s bs) := by
  unfold Shaped at *
  cases s <;> dsimp only [SocksConnection.setPending] <;> split at h
  all_goals first
    | exact h
    | exact absurd ‹_› hs

theorem readMessage_keeps
    (ha : ∀ client req w, Accepted v (w.log past) w.conn →
      Keeps Handshaken past (act client req e w))
    (hst : w.conn.state = v.readingRequest) (h : Handshaken true (w.log past) w.conn) :
    Keeps Handshaken past (readMessage initial act e w) := by
  have hne : w.conn.state ≠ .pipeing := by rw [hst]; cases v <;> nofun
  obtain ⟨client, hc⟩ := Option.ne_none_iff_exists'.mp (h.shaped.client hne)
  simp only [readMessage, hc, deref_some]
  split
  · split
    · exact h.dead
    · exact parseBuffer_keeps (ha client) hst h
    · have := h.dead.note (.eof .client) rfl rfl (fun _ => rfl) rfl nofun
      rw [← World.log_emit] at this
      exact this
    · next chunk _ =>
        have := h.append hst chunk.bytes
        refine parseBuffer_keeps (ha client) (by exact hst) ?_
        rw [World.log_emit]
        exact this
  · exact h

/-! ### Waiting for the other end -/

theorem waitingConnection_keeps (hst : w.conn.state = v.waitingConnection)
    (h : Handshaken true (w.log past) w.conn) :
    Keeps Handshaken past (waitingConnection v e w) := by
  have hs : w.conn.client ≠ none ∧ w.conn.server = none ∧ w.conn.listen ≠ none := by
    have := h.shaped
    rw [Shaped, hst] at this
    cases v <;> exact this
  have hc : Announced v (milestones (w.log past)) := by
    have := h.course
    rw [hst] at this
    cases v <;> exact this
  have settled : Settled (w.log past) w.conn :=
    h.settled (by rw [hst]; cases v <;> rfl) (by rw [hst]; cases v <;> rfl)
  obtain ⟨listen, hl⟩ := Option.ne_none_iff_exists'.mp hs.2.2
  simp only [waitingConnection, hl, deref_some]
  split
  · split
    · exact h.dead
    · -- `server=NULL`, which it was
      have : { w.conn with server := none } = w.conn := by rw [← hs.2.1]
      simpa [Keeps, this] using h
    · next fd addr _ =>
        obtain ⟨l, r, hr, hm⟩ := hc
        let server : FileDescriptor := ⟨w.nextId, fd, addr⟩
        let reply := create e.abi v.type v.granted 0 0
        have success : SuccessReply v reply := ⟨e.abi, 0, 0, rfl⟩
        have settled : Settled (w.log past ++ [Event.accepted server] ++ [Event.closed listen])
            { w.conn with
              server := some server
              listen := none
              clientWriteBuff := reply
              state := .writingResponseSuccess } :=
          ((settled.note _ rfl).note _ rfl).congr _ rfl rfl rfl rfl
        have granted : Granted (milestones (w.log past ++ [Event.accepted server] ++
            [Event.closed listen]) ++ [Event.queued reply]) := by
          have : Granted (v.opening ++ [Event.asked (some true), Event.listening l, Event.queued r,
            .accepted server, Event.queued reply]) := .bind hr success
          simpa [hm, Event.milestone] using this
        have queued := settled.queue (b := true) (create_ne_nil _ _ _ _ _) rfl ⟨hs.1, nofun, rfl⟩
          granted
        simpa [World.queue, World.newServer, Keeps] using queued
  · exact h

theorem connectingServer_keeps (hst : w.conn.state = v.connectingServer)
    (h : Handshaken true (w.log past) w.conn) :
    Keeps Handshaken past (connectingServer v e w) := by
  have hs : w.conn.client ≠ none ∧ w.conn.server ≠ none ∧ w.conn.listen = none := by
    have := h.shaped
    rw [Shaped, hst] at this
    cases v <;> exact this
  have hc : milestones (w.log past) = v.opening ++ [Event.asked (some true)] := by
    have := h.course
    rw [hst] at this
    cases v <;> exact this
  have settled : Settled (w.log past) w.conn :=
    h.settled (by rw [hst]; cases v <;> rfl) (by rw [hst]; cases v <;> rfl)
  have served : Served v true (w.log past) w.conn := ⟨settled, hs.1, hs.2.2, hc⟩
  obtain ⟨server, hsv⟩ := Option.ne_none_iff_exists'.mp hs.2.1
  simp only [connectingServer, hsv, deref_some]
  split
  · split
    · exact h.dead
    · exact grant_handshaken served hs.2.1
    · exact refuse_handshaken served (by cases v <;> decide)
  · exact h

/-! ### Writing a reply -/

/-- Between the `write` and the test of what is left: the last byte may be gone. -/
theorem send_handshaken (hi : w.conn.state.idle = false)
    (h : Handshaken true (w.log past) w.conn) :
    (send .client e w).Sat
      (fun _ w' => w'.conn.state = w.conn.state ∧ Handshaken false (w'.log past) w'.conn ∧
        readFrom .client (w'.log past) = parsedBytes (w'.log past) ∧ .asked none ∉ w'.log past)
      (fun w' => Handshaken false (w'.log past) w'.conn) := by
  -- a state that writes has no request in the buffer
  have hu : unparsed w.conn = [] := by
    rw [unparsed, if_neg]
    exact fun hr => by rw [ConnectionState.idle_of_reading hr] at hi; cases hi
  unfold send
  split
  · exact h.dead
  · next n _ =>
      have hne : w.conn.state ≠ .pipeing := by
        intro hst
        rw [hst] at hi
        cases hi
      refine ⟨rfl, ⟨h.shaped.setPending hne .client _, ?_, nofun, ?_, ?_, nofun, ?_, ?_, h.ends, ?_,
        ?_⟩, ?_, ?_⟩
      · simpa [SocksConnection.setPending, Event.milestone] using h.course
      · simpa [SocksConnection.setPending, SocksConnection.pending, Event.wroteTo,
          Event.queuedBytes] using h.sent
      · intro hi'
        exact absurd hi' (by simp [SocksConnection.setPending, hi])
      · exact fun hd => absurd (by simpa using hd) h.undenied
      · exact ⟨h.quiet.1, h.quiet.2, h.quiet.3, h.quiet.4⟩
      · simpa [Event.readFrom] using h.fromServer
      · simpa [Event.wroteTo] using h.toServer
      · simpa [hu, Event.readFrom, Event.parsedBytes] using h.received rfl
      · simpa using h.undenied

theorem writeReply_keeps {done : Env → World → Outcome World Bool} {st : ConnectionState}
    (hd : ∀ w, w.conn.state = st → w.conn.clientWriteBuff = [] →
      Handshaken false (w.log past) w.conn → Settled (w.log past) w.conn →
      Keeps Handshaken past (done e w))
    (hi : st.idle = false) (hst : w.conn.state = st) (h : Handshaken true (w.log past) w.conn) :
    Keeps Handshaken past (writeReply done e w) := by
  have hne : w.conn.state ≠ .pipeing := by rintro h'; rw [← hst, h'] at hi; cases hi
  obtain ⟨client, hc⟩ := Option.ne_none_iff_exists'.mp (h.shaped.client hne)
  simp only [writeReply, hc, deref_some]
  split
  · refine (send_handshaken (by rwa [hst]) h).bind fun _ w' ⟨hst', h', hr, hn⟩ => ?_
    split
    · next hl =>
        have hw := List.length_eq_zero_iff.mp hl
        -- the whole reply is out: the handler of the state goes on
        have hs : wroteTo .client (w'.log past) = queuedBytes (w'.log past) := by
          simpa [hw] using h'.sent
        exact hd w' (hst'.trans hst) hw h' ⟨hr, hs, hn, h'.quiet, h'.fromServer, h'.toServer⟩
    · next hl =>
        have hu : unparsed w'.conn = [] := by
          rw [unparsed, if_neg]
          rw [hst', hst]
          exact fun hr => by rw [ConnectionState.idle_of_reading hr] at hi; cases hi
        exact { h' with
          received := fun _ => by rw [hu, List.append_nil]; exact hr
          busy := fun _ _ => mt List.length_eq_zero_iff.mpr hl
          denied := fun hd => absurd hd hn }
  · exact h

theorem bindResponseWritten_keeps (hst : w.conn.state = v.writingBindResponse)
    (hw : w.conn.clientWriteBuff = []) (h : Handshaken false (w.log past) w.conn)
    (settled : Settled (w.log past) w.conn) :
    Keeps Handshaken past (bindResponseWritten v e w) := by
  have shaped := h.shaped
  have course := h.course
  have settled := settled.congr { w.conn with state := v.waitingConnection } rfl rfl rfl rfl
  rw [Shaped, hst] at shaped
  rw [hst] at course
  cases v with
  | socks4 => exact settled.rest hw rfl rfl shaped course nofun
  | socks5 => exact settled.rest hw rfl rfl shaped course nofun

theorem authResponseWritten_keeps (hst : w.conn.state = .socks5WritingAuthResponseSuccess)
    (hw : w.conn.clientWriteBuff = []) (h : Handshaken false (w.log past) w.conn)
    (settled : Settled (w.log past) w.conn) :
    Keeps Handshaken past (authResponseWritten e w) := by
  have shaped := h.shaped
  have course := h.course
  have settled := settled.congr
    { w.conn with clientReadBuff := [], state := .socks5ReadingRequest } rfl rfl rfl rfl
  rw [Shaped, hst] at shaped
  rw [hst] at course
  exact settled.rest hw rfl rfl shaped course nofun

/-- The relay starts with both ends there and with empty buffers. -/
theorem startPipeing_keeps (hst : w.conn.state = .writingResponseSuccess)
    (h : Handshaken false (w.log past) w.conn) (settled : Settled (w.log past) w.conn) :
    Keeps Handshaken past (startPipeing e w) := by
  have shaped := h.shaped
  have course := h.course
  have settled := settled.congr
    { w.conn with
      clientWriteBuff := []
      clientReadBuff := []
      serverReadBuff := []
      serverWriteBuff := []
      state := .pipeing } settled.quiet.1.symm rfl rfl rfl
  rw [Shaped, hst] at shaped
  rw [hst] at course
  obtain ⟨client, server, listen⟩ := shaped
  have started (b : Bool) := settled.rest (b := b) rfl rfl rfl
    ⟨.inl client, listen, fun hs => absurd hs server, fun hc => absurd hc client⟩ course
    fun _ => ⟨client, server⟩
  exact setStatus_bind client server (started false) fun st => started true

/-! ### The handlers together -/

/-- **The handshake.**  Every call of `work` on a connection in its handshake keeps `Handshaken`;
the step that enters `PIPEING` is still one of these. -/
theorem work_handshaken (hst : w.conn.state ≠ .pipeing) (h : Handshaken true (w.log past) w.conn) :
    Keeps Handshaken past (work e w) := by
  refine keeps_work ?_
  unfold handler
  split
  · next hs =>
      exact readMessage_keeps (v := .socks4) (fun _ _ _ => actInitial_keeps) hs h
  · next hs => exact connectingServer_keeps (v := .socks4) hs h
  · next hs => exact writeReply_keeps (fun _ hs _ => startPipeing_keeps hs) rfl hs h
  · next hs =>
      refine writeReply_keeps (fun w _ _ h _ => ?_) rfl hs h
      exact h
  · next hs => exact writeReply_keeps (fun _ => authResponseWritten_keeps) rfl hs h
  · next hs => exact connectingServer_keeps (v := .socks5) hs h
  · next hs =>
      exact readMessage_keeps (v := .socks5) (fun _ _ _ => serveRequest_keeps) hs h
  · next hs => exact waitingConnection_keeps (v := .socks4) hs h
  · next hs => exact waitingConnection_keeps (v := .socks5) hs h
  · next hs =>
      exact writeReply_keeps (fun _ => bindResponseWritten_keeps (v := .socks4)) rfl hs h
  · next hs =>
      exact writeReply_keeps (fun _ => bindResponseWritten_keeps (v := .socks5)) rfl hs h
  · next hs => exact absurd hs hst

end

end OldStuff.Socks
