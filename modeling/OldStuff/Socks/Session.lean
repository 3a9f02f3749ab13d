import OldStuff.Socks.Client
import OldStuff.Socks.Dialect

/-!
# Socks — a session

The connection together with its client: the two are joined by a queue of bytes in each direction,
and speak, hear and are visited in any order.  What is lost between the handshake and the relay
(`handshake_bytes_kept_iff`) a client can avoid by waiting for its turn: the request of version 5
goes out when a byte of the method reply has been heard, the payload when one of the reply to the
request has.

`transparency`: for such a client the proxy is a wire.  The server is sent the payload, and the
client hears the replies and what the server has sent, whatever the order of events.
-/

namespace OldStuff.Socks
open OldStuff.Io
open OldStuff.Lib (Outcome)
open Client (Socks4 Socks5 Greeting Message Whole)
open SocksRequest (complete parse)

/-! ### The client -/

/-- What a client asks for. -/
inductive Plan where
  | socks4 (request : Socks4)
  | socks5 (greeting : Greeting) (request : Socks5)

/-- The messages, each with the number of bytes to be heard first. -/
def Plan.script : Plan → List (Nat × Bytes)
  | .socks4 q => [(0, (Message.socks4 q).encode)]
  | .socks5 g q => [(0, (Message.greeting g).encode), (1, (Message.socks5 q).encode)]

def Plan.messages (p : Plan) : List Bytes := p.script.map (·.2)

/-- The bytes to be heard before anything may follow the messages. -/
def Plan.free : Plan → Nat
  | .socks4 _ => 1
  | .socks5 .. => 3

/-- A connection of the server, its client, and what is on the way between them. -/
structure Session where
  plan : Plan
  script : List (Nat × Bytes)
  payload : Bytes
  said : Bytes
  heard : Bytes
  up : Bytes
  down : Bytes
  proxy : World
  alive : Bool
  visits : List Visit

/-- One step: of the client, which says its next message or some of its payload or takes bytes from
the queue; or of the server, which visits the connection. -/
inductive Move where
  | speak
  | send (bs : Bytes)
  | hear (n : Nat)
  | visit (i : World → Input)

namespace Session

def start (p : Plan) (self : Nat) (client : FileDescriptor) (time : Int) : Session where
  plan := p
  script := p.script
  payload := []
  said := []
  heard := []
  up := []
  down := []
  proxy := .fresh self client time
  alive := true
  visits := []

/-- What a visit reads from the client comes from the queue. -/
def step : Move → Session → Option Session
  | .speak, s =>
    match s.script with
    | (n, m) :: rest =>
      if n ≤ s.heard.length then
        some { s with script := rest, said := s.said ++ m, up := s.up ++ m }
      else none
    | [] => none
  | .send bs, s =>
    if s.script = [] ∧ s.plan.free ≤ s.heard.length then
      some { s with payload := s.payload ++ bs, said := s.said ++ bs, up := s.up ++ bs }
    else none
  | .hear n, s => some { s with heard := s.heard ++ s.down.take n, down := s.down.drop n }
  | .visit i, s =>
    if s.alive = true then
      match work (i s.proxy).env (s.proxy.enter (i s.proxy)) with
      | .ok b w =>
        if readFrom .client w.trace <+: s.up then
          some { s with
            up := s.up.drop (readFrom .client w.trace).length
            down := s.down ++ wroteTo .client w.trace
            proxy := w
            alive := b
            visits := s.visits ++ [⟨i s.proxy, s.proxy, b, w⟩] }
        else none
      | _ => none
    else none

/-- The sessions of a client with the plan `p`. -/
inductive Reached (p : Plan) : Session → Prop where
  | start (self : Nat) (client : FileDescriptor) (time : Int) :
      Reached p (.start p self client time)
  | step {s s' : Session} (m : Move) (h : Reached p s) (hs : s.step m = some s') : Reached p s'

/-- What the visits did. -/
def events (s : Session) : List Event := Socks.events s.visits

/-! ### What one visit says -/

/-- What a visit to the reading state of `v` says: nothing, or one message is acted on. -/
inductive Hears (v : Version) (e : Env) (w : World) (client : FileDescriptor) (b : Bool)
    (fs : List Event) (c : SocksConnection) : Prop where
  | nothing (h : ∀ ev ∈ fs, ev.Plain) (hst : b = true → c.state = w.conn.state)
  | message {buf : Bytes} {r : SocksRequest} (ht : Takes e w client buf)
      (hp : parse e.abi e.request buf v.initial = .accepted r) (hm : messages fs = [buf])
      (greeting : v = .socks4 → r.version ≠ 4 → c.state = .socks5WritingAuthResponseSuccess)
      (request : (v = .socks4 → r.version = 4) → b = true →
        c.state = .writingResponseFailure ∨ c.state.served = true)

section
variable {v : Version} {e : Env} {i : Input} {w w' : World} {client : FileDescriptor} {b : Bool}
  {buf : Bytes} {r : SocksRequest} {es fs : List Event}

theorem plain_of_adds (ht : w.trace = []) (h : Adds Event.Plain w.trace fs) :
    ∀ ev ∈ fs, ev.Plain := by
  obtain ⟨tail, rfl, plain⟩ := h
  rw [ht]
  exact plain

/-- What is done on a request adds no message to it. -/
theorem messages_servedOn {pre : List Event} {c : SocksConnection} {initial : Bool}
    (plain : ∀ ev ∈ pre, ev.Plain)
    (h : ServedOn e client r (pre ++ [Event.parsed initial buf]) b fs c) :
    messages fs = [buf] := by
  obtain ⟨tail, rfl, mute⟩ := h.mute
  rw [messages_append, messages_append, messages_mute mute,
    messages_mute fun ev hev => (plain ev hev).1]
  rfl

theorem readMessage_hears (ht : w.trace = []) (hc : w.conn.client = some client) :
    (readMessage v.initial v.act e w).Sat (fun b w' => Hears v e w client b w'.trace w'.conn)
      fun w' => Hears v e w client false w'.trace w'.conn := by
  by_cases takes : ∃ buf, Takes e w client buf
  · obtain ⟨buf, takes⟩ := takes
    cases hp : parse e.abi e.request buf v.initial with
    | overread => exact absurd hp (SocksRequest.parse_ne_overread _ _ _ _)
    | rejected =>
        obtain ⟨w', conn, plain, he⟩ := readMessage_takes v.initial v.act takes
        have buff : w'.conn.clientReadBuff = buf := by rw [conn]
        rw [he, parseBuffer_waits (buff ▸ takes.2.2.1) (by rw [buff]; exact rejected_iff.mp hp)]
        exact .nothing (plain_of_adds ht plain) fun _ => by rw [conn]
    | accepted r =>
        obtain ⟨w', there, ⟨pre, plain, trace⟩, he⟩ := readMessage_accepts takes hp
        have plain := plain_of_adds ht plain
        have request (v' : Version) (hv : v = .socks4 → r.version = 4) :
            (serveRequest v' client r e w').Sat
              (fun b w₂ => Hears v e w client b w₂.trace w₂.conn)
              fun w₂ => Hears v e w client false w₂.trace w₂.conn := by
          have hears {b : Bool} {w₂ : World}
              (h : ServedOn e client r (pre ++ [Event.parsed v.initial buf]) b w₂.trace w₂.conn) :
              Hears v e w client b w₂.trace w₂.conn :=
            .message takes hp (messages_servedOn plain h) (fun h4 hn => absurd (hv h4) hn)
              fun _ hb => (h.state hb).imp_right And.left
          exact (serve_accepted v' there trace).mono (fun _ _ => hears) fun _ => hears
        rw [he]
        cases v with
        | socks5 => exact request .socks5 fun h => by cases h
        | socks4 =>
            rw [Version.act, actInitial]
            by_cases h4 : r.version = 4
            · rw [if_pos h4]
              exact request .socks4 fun _ => h4
            · rw [if_neg h4]
              refine .message takes hp ?_ (fun _ _ => rfl) fun h => absurd (h rfl) h4
              rw [World.onSelect_trace, World.queue, World.emit_trace, World.onConn_trace, trace,
                messages_append, messages_append, messages_mute fun ev hev => (plain ev hev).1]
              rfl
  · exact (readMessage_idle hc fun buf h => takes ⟨buf, h⟩).mono
      (fun _ _ h => .nothing (plain_of_adds ht h.1) h.2)
      fun _ h => .nothing (plain_of_adds ht h) fun hb => by cases hb

theorem visit_hears (hw : work i.env (w.enter i) = .ok b w')
    (hst : w.conn.state = v.readingRequest) (hc : w.conn.client = some client) :
    Hears v i.env (w.enter i) client b w'.trace w'.conn := by
  have hears := readMessage_hears (v := v) (e := i.env) (w := w.enter i) rfl hc
  rw [← handler_reading (by exact hst)] at hears
  have worked : (work i.env (w.enter i)).Sat
      (fun b w' => Hears v i.env (w.enter i) client b w'.trace w'.conn) fun _ => False :=
    hears.recover fun _ h => h
  exact worked.of_ok hw

end

/-- The relay has begun: a visit has found the connection in `PIPEING`, or the next one will. -/
def Relays (s : Session) : Prop :=
  (∃ x ∈ s.visits, x.before.conn.state = .pipeing) ∨
    s.alive = true ∧ s.proxy.conn.state = .pipeing

/-! ### The relay begins -/

theorem messages_eq_nil {es : List Event} (h : ∀ ev ∈ es, ∀ initial buf, ev ≠ .parsed initial buf) :
    messages es = [] := by
  refine List.filterMap_eq_nil_iff.mpr fun ev hev => ?_
  cases ev with
  | parsed initial buf => exact absurd rfl (h _ hev initial buf)
  | _ => rfl

theorem messages_relays {es : List Event} (h : ∀ ev ∈ es, ev.relays = true) : messages es = [] :=
  messages_eq_nil fun ev hev _ _ he => by
    subst he
    cases h _ hev

theorem parsedBytes_eq_flatten (es : List Event) : parsedBytes es = (messages es).flatten := by
  induction es with
  | nil => rfl
  | cons ev es ih =>
      rw [parsedBytes_cons, ih]
      cases ev <;> rfl

/-- A handshake, and then a relay. -/
inductive Begun : List Event → SocksConnection → Prop where
  | intro {es fs : List Event} {c₀ c : SocksConnection} (h₀ : Handshaken true es c₀)
      (hs : c₀.state = .pipeing) (h : Relaying fs c) : Begun (es ++ fs) c

section
variable {es : List Event} {c : SocksConnection}

theorem begun_of_staged (h : Staged true es c) (hst : c.state = .pipeing) : Begun es c := by
  cases h with
  | handshake h =>
      have := Begun.intro h hst (h.relaying hst)
      rwa [List.append_nil] at this
  | relay h₀ hs h => exact .intro h₀ hs h

theorem Begun.state (h : Begun es c) : c.state = .pipeing := by
  cases h with
  | intro _ _ h => exact h.state

/-- What was read from the client is the messages, what was written to the server and what waits
for it. -/
theorem Begun.fromClient (h : Begun es c) : readFrom .client es =
    (messages es).flatten ++ (wroteTo .server es ++ c.serverWriteBuff) := by
  cases h with
  | intro h₀ hs h =>
      have settled := h₀.settled (by rw [hs]; rfl) (by rw [hs]; rfl)
      have balanced : readFrom .client _ = wroteTo .server _ ++ c.serverWriteBuff :=
        h.balanced .client
      rw [readFrom_append, wroteTo_append, messages_append, messages_relays h.relays, balanced,
        settled.received, settled.toServer, parsedBytes_eq_flatten, List.append_nil,
        List.nil_append]

theorem Begun.visit {i : Input} {w w' : World} {b : Bool} (h : Begun es w.conn)
    (hw : work i.env (w.enter i) = .ok b w') : Begun (es ++ w'.trace) w'.conn := by
  generalize hc : w.conn = c at h
  cases h with
  | intro h₀ hs h =>
      rw [List.append_assoc]
      exact .intro h₀ hs (visit_relaying hw (hc ▸ h))

theorem begun_of_run {w : World} {vs : List Visit} {b : Bool} {self : Nat}
    {client : FileDescriptor} {time : Int} (h : Run (World.fresh self client time) vs b w)
    (hr : (∃ x ∈ vs, x.before.conn.state = .pipeing) ∨ b = true ∧ w.conn.state = .pipeing) :
    Begun (Socks.events vs) w.conn := by
  have whole := h
  induction h with
  | start =>
      exact begun_of_staged whole.staged (hr.elim (fun ⟨_, hx, _⟩ => (by cases hx)) And.right)
  | @step vs w w' b i h hw ih =>
      rw [events_append, events_singleton]
      by_cases hp : w.conn.state = .pipeing
      · exact (begun_of_staged h.staged hp).visit hw
      · obtain ⟨x, hx, hst⟩ | ⟨rfl, hst⟩ := hr
        · rcases List.mem_append.mp hx with hx | hx
          · exact absurd (ih (.inl ⟨x, hx, hst⟩) h).state hp
          · obtain rfl := List.mem_singleton.mp hx
            exact absurd hst hp
        · have := begun_of_staged whole.staged hst
          rwa [events_append, events_singleton] at this

end

/-! ### The invariant -/

end Session

/-- The messages that a connection in the state `st` has acted on. -/
def Plan.Acted (p : Plan) (ms : List Bytes) : ConnectionState → Prop
  | .readingInitialRequest => ms = []
  | .socks5WritingAuthResponseSuccess | .socks5ReadingRequest =>
    ∃ g q, p = .socks5 g q ∧ ms = [(Message.greeting g).encode]
  | _ => ms = p.messages

namespace Session

/-- What holds of a session: the queues hold what one side has sent and the other has not taken, the
client has kept to its plan, and the messages acted on are the first of the plan. -/
structure Kept (p : Plan) (s : Session) : Prop where
  plan : s.plan = p
  run : ∃ self client time, Run (World.fresh self client time) s.visits s.alive s.proxy
  up : s.said = readFrom .client s.events ++ s.up
  down : wroteTo .client s.events = s.heard ++ s.down
  spoken : ∃ done, p.script = done ++ s.script ∧
    s.said = (done.map (·.2)).flatten ++ s.payload ∧ ∀ m ∈ done, m.1 ≤ s.heard.length
  payload : s.payload ≠ [] → s.script = [] ∧ p.free ≤ s.heard.length
  acted : s.alive = true ∨ (∃ x ∈ s.visits, x.before.conn.state = .pipeing) →
    p.Acted (messages s.events) s.proxy.conn.state

section
variable {p : Plan} {s s' : Session}

theorem kept_start (self : Nat) (client : FileDescriptor) (time : Int) :
    Kept p (.start p self client time) where
  plan := rfl
  run := ⟨self, client, time, .start⟩
  up := rfl
  down := rfl
  spoken := ⟨[], rfl, rfl, fun _ h => (List.not_mem_nil h).elim⟩
  payload := fun h => absurd rfl h
  acted := fun _ => rfl

/-- What is read before a message is acted on is that message. -/
theorem whole_front {initial : Bool} {m buf : Bytes} (h : Whole initial m) (hb : buf <+: m)
    (hc : complete initial buf = true) : buf = m := by
  obtain ⟨more, rfl⟩ := hb
  rcases Nat.lt_or_ge buf.length (buf ++ more).length with short | long
  · have := h.2 _ short
    rw [List.take_left, hc] at this
    cases this
  · rw [List.length_append] at long
    rw [List.eq_nil_of_length_eq_zero (show more.length = 0 by omega), List.append_nil]

section
variable {v : Version} {buf rest : Bytes}

/-- A client that reads as told has heard, at most, what goes before the request. -/
theorem Kept.hearing (h : Kept p s)
    (hst : s.proxy.conn.state = v.readingRequest) : s.heard.length ≤ v.greeting.length := by
  obtain ⟨self, client, time, run⟩ := h.run
  have hp : s.proxy.conn.state ≠ .pipeing := by
    rw [hst]
    cases v <;> exact fun h => by cases h
  have course := (run.staged.handshaken hp).course
  have sent := (run.staged.handshaken hp).sent
  rw [hst] at course
  have queued : queuedBytes (Socks.events s.visits) = v.greeting := by
    rw [← queuedBytes_milestones, ← queuedBytes_opening]
    cases v <;> exact congrArg queuedBytes course
  have down : wroteTo .client (Socks.events s.visits) = s.heard ++ s.down := h.down
  have := congrArg List.length (sent.trans queued)
  rw [down, List.length_append, List.length_append] at this
  omega

/-- **The message that is acted on** is the next one of the plan. -/
theorem Kept.next (h : Kept p s) (ha : s.alive = true)
    (hst : s.proxy.conn.state = v.readingRequest)
    (front : s.said = (messages s.events).flatten ++ (buf ++ rest))
    (hc : complete v.initial buf = true) :
    (v = .socks4 ∧ messages s.events = [] ∧ ∃ q, p = .socks4 q ∧ buf = (Message.socks4 q).encode) ∨
    (v = .socks4 ∧ messages s.events = [] ∧
      ∃ g q, p = .socks5 g q ∧ buf = (Message.greeting g).encode) ∨
    (v = .socks5 ∧ ∃ g q, p = .socks5 g q ∧ messages s.events = [(Message.greeting g).encode] ∧
      buf = (Message.socks5 q).encode) := by
  obtain ⟨done, script, said, turns⟩ := h.spoken
  have hearing := h.hearing hst
  have acted := h.acted (.inl ha)
  rw [hst] at acted
  -- too little has been heard for the payload
  have silent : s.payload = [] := by
    by_contra hp
    have free := (h.payload hp).2
    cases v with
    | socks4 =>
        have one : 1 ≤ p.free := by cases p <;> simp [Plan.free]
        exact absurd ((one.trans free).trans hearing) (by decide)
    | socks5 =>
        obtain ⟨g, q, rfl, -⟩ := acted
        have three : 3 ≤ 2 := free.trans hearing
        exact absurd three (by decide)
  rw [silent, List.append_nil] at said
  have spoken : s.said <+: p.messages.flatten := by
    rw [said, Plan.messages, script, List.map_append, List.flatten_append]
    exact List.prefix_append _ _
  cases v with
  | socks4 =>
      have none : messages s.events = [] := acted
      rw [none, List.flatten_nil, List.nil_append] at front
      rw [front] at spoken
      cases p with
      | socks4 q =>
          have one : (Plan.socks4 q).messages.flatten = (Message.socks4 q).encode :=
            List.append_nil _
          rw [one] at spoken
          exact .inl ⟨rfl, none, q, rfl, whole_front (Client.socks4_whole q true)
            ((List.prefix_append _ _).trans spoken) hc⟩
      | socks5 g q =>
          refine .inr (.inl ⟨rfl, none, g, q, rfl, ?_⟩)
          refine whole_front (Client.greeting_whole g) ?_ hc
          -- the request waits for a byte of the method reply
          have first : (done.map (·.2)).flatten <+: (Message.greeting g).encode := by
            rcases done with _ | ⟨x, _ | ⟨y, done⟩⟩
            · exact List.nil_prefix
            · obtain ⟨rfl, -⟩ := List.cons.inj script
              rw [List.map_singleton, List.flatten_singleton]
            · obtain ⟨rfl, second⟩ := List.cons.inj script
              obtain ⟨rfl, -⟩ := List.cons.inj second
              have early : 1 ≤ s.heard.length :=
                turns _ (List.mem_cons_of_mem _ (List.mem_cons_self ..))
              exact absurd (early.trans hearing) (by decide)
          rw [← said, front] at first
          exact (List.prefix_append _ _).trans first
  | socks5 =>
      obtain ⟨g, q, rfl, greeted⟩ := acted
      refine .inr (.inr ⟨rfl, g, q, rfl, greeted, whole_front (Client.socks5_whole q) ?_ hc⟩)
      have both : (Plan.socks5 g q).messages.flatten =
          (Message.greeting g).encode ++ (Message.socks5 q).encode := by
        simp [Plan.messages, Plan.script]
      rw [both, front, greeted, List.flatten_singleton, List.prefix_append_right_inj] at spoken
      exact (List.prefix_append _ _).trans spoken

end

theorem Kept.speak (h : Kept p s) (hs : s.step .speak = some s') : Kept p s' := by
  obtain ⟨done, script, said, turns⟩ := h.spoken
  simp only [step] at hs
  split at hs
  · next n m rest he =>
      split at hs
      · next hn =>
          obtain rfl := Option.some.inj hs
          -- nothing goes before a message but messages
          have silent : s.payload = [] := by
            by_contra hp
            rw [(h.payload hp).1] at he
            cases he
          refine ⟨h.plan, h.run, ?_, h.down, ⟨done ++ [(n, m)], ?_, ?_, ?_⟩, ?_, h.acted⟩
          · rw [h.up]
            exact List.append_assoc ..
          · rw [script, he, List.append_assoc]
            rfl
          · rw [said, silent]
            simp
          · intro x hx
            rcases List.mem_append.mp hx with hx | hx
            · exact turns x hx
            · obtain rfl := List.mem_singleton.mp hx
              exact hn
          · exact fun hp => absurd silent hp
      · cases hs
  · cases hs

theorem Kept.send {bs : Bytes} (h : Kept p s) (hs : s.step (.send bs) = some s') : Kept p s' := by
  obtain ⟨done, script, said, turns⟩ := h.spoken
  simp only [step] at hs
  split at hs
  · next hf =>
      obtain rfl := Option.some.inj hs
      rw [h.plan] at hf
      refine ⟨h.plan, h.run, ?_, h.down, ⟨done, script, ?_, turns⟩, fun _ => hf, h.acted⟩
      · rw [h.up]
        exact List.append_assoc ..
      · rw [said]
        exact List.append_assoc ..
  · cases hs

theorem Kept.hear {n : Nat} (h : Kept p s) (hs : s.step (.hear n) = some s') : Kept p s' := by
  obtain ⟨done, script, said, turns⟩ := h.spoken
  obtain rfl := Option.some.inj hs
  have more : s.heard.length ≤ (s.heard ++ s.down.take n).length := by
    rw [List.length_append]
    omega
  refine ⟨h.plan, h.run, h.up, ?_, ⟨done, script, said, fun m hm => (turns m hm).trans more⟩,
    fun hp => ⟨(h.payload hp).1, (h.payload hp).2.trans more⟩, h.acted⟩
  rw [List.append_assoc, List.take_append_drop]
  exact h.down

/-- The states in which all messages have been acted on. -/
theorem Plan.acted_iff {ms : List Bytes} {st : ConnectionState}
    (h : st = .writingResponseFailure ∨ st.served = true) :
    p.Acted ms st ↔ ms = p.messages := by
  rcases h with rfl | h
  · exact Iff.rfl
  · cases st <;> first | exact Iff.rfl | cases h

section
variable {i : Input} {w' : World} {b : Bool} {v : Version} {client : FileDescriptor}

/-- What is acted on stands behind what is left in `client_read_buff`, and comes with the visit. -/
theorem turn_buffer {c c' : SocksConnection} {fs : List Event} {buf : Bytes} {initial : Bool}
    {e : Env} {sel : Select} (h : Turn initial e sel client [] c b fs c')
    (hm : messages fs = [buf]) :
    ∃ bs, buf = c.clientReadBuff ++ bs ∧ bs <+: readFrom .client fs := by
  have parsed {es : List Event} {c : SocksConnection} {buf' : Bytes} (none : messages es = [])
      (h : Parsed initial buf' e client es c b fs c') : buf = buf' ∧ es <+: fs := by
    cases h with
    | kept => rw [none] at hm; cases hm
    | taken _ ht =>
        obtain ⟨⟨tail, rfl, follows⟩, -⟩ := ht
        have mute : messages tail = [] := messages_eq_nil fun ev hev _ _ he => by
          subst he
          exact follows _ hev
        rw [messages_append, messages_append, none, mute] at hm
        refine ⟨((List.cons.inj hm).1).symm, ?_⟩
        rw [List.append_assoc]
        exact List.prefix_append _ _
  cases h with
  | none _ h =>
      obtain ⟨_, rfl, apart⟩ := h
      have mute : messages fs = [] := messages_eq_nil fun ev hev _ _ he => by
        subst he
        cases apart _ hev
      rw [mute] at hm
      cases hm
  | again _ h =>
      obtain ⟨rfl, -⟩ := parsed rfl h
      exact ⟨[], (List.append_nil _).symm, List.nil_prefix⟩
  | data hr h =>
      rename_i chunk
      obtain ⟨rfl, tail, rfl⟩ := parsed rfl h
      exact ⟨chunk.bytes, rfl, List.prefix_append _ _⟩

/-- **A visit acts on the next message of the plan**, or on none. -/
theorem Kept.acts (h : Kept p s) (ha : s.alive = true)
    (hw : work i.env (s.proxy.enter i) = .ok b w')
    (queue : readFrom .client w'.trace <+: s.up)
    (hb : b = true ∨ ∃ x ∈ s.visits ++ [⟨i, s.proxy, b, w'⟩], x.before.conn.state = .pipeing) :
    p.Acted (messages (s.events ++ w'.trace)) w'.conn.state := by
  obtain ⟨self, client, time, run⟩ := h.run
  rw [ha] at run
  have acted := h.acted (.inl ha)
  rw [messages_append]
  by_cases hp : s.proxy.conn.state = .pipeing
  · -- a relay reads no messages
    obtain ⟨fs, relaying⟩ := run.staged.relays hp
    have after := visit_relaying hw relaying
    rw [messages_relays fun ev hev => after.relays ev (List.mem_append_right _ hev),
      List.append_nil, after.state, ← hp]
    exact acted
  · obtain rfl : b = true := by
      refine hb.resolve_right fun ⟨x, hx, hst⟩ => hp ?_
      rcases List.mem_append.mp hx with hx | hx
      · exact (begun_of_run run (.inl ⟨x, hx, hst⟩)).state
      · obtain rfl := List.mem_singleton.mp hx
        exact hst
    have handshaken : Handshaken true s.events s.proxy.conn := run.staged.handshaken hp
    obtain ⟨client, hc⟩ := Option.ne_none_iff_exists'.mp (handshaken.shaped.client hp)
    cases hr : s.proxy.conn.state.reading with
    | true =>
        obtain ⟨v, hv⟩ := s.proxy.conn.state.reading_cases hr
        cases visit_hears hw hv hc with
        | nothing plain same =>
            rw [messages_mute fun ev hev => (plain ev hev).1, List.append_nil, same rfl]
            exact acted
        | @message buf r ht hparse hm greeting request =>
            rw [hm]
            obtain ⟨bs, hbuf, hbs⟩ := turn_buffer (visit_turn hw hv hc) hm
            obtain ⟨rest, hrest⟩ := hbs.trans queue
            have received := handshaken.received rfl
            rw [unparsed, if_pos hr, parsedBytes_eq_flatten] at received
            have front : s.said = (messages s.events).flatten ++ (buf ++ rest) := by
              rw [h.up, received, ← hrest, hbuf, List.append_assoc, List.append_assoc]
            have whole : complete v.initial buf = true := by
              rw [← SocksRequest.parse_accepts i.env.abi i.env.request, hparse]
              rfl
            have first := (SocksRequest.parse_layout hparse).first
            have all (hv : v = .socks4 → r.version = 4)
                (he : messages s.events ++ [buf] = p.messages) :
                p.Acted (messages s.events ++ [buf]) w'.conn.state :=
              (Plan.acted_iff (request hv rfl)).mpr he
            obtain ⟨-, none, q, rfl, rfl⟩ | ⟨rfl, none, g, q, rfl, rfl⟩ |
              ⟨rfl, g, q, rfl, greeted, rfl⟩ := h.next ha hv front whole
            · exact all (fun _ => (Option.some.inj first).symm) (by rw [none]; rfl)
            · rw [greeting rfl (fun h4 => by rw [h4] at first; cases first), none]
              exact ⟨g, q, rfl, rfl⟩
            · exact all (fun h => by cases h) (by rw [greeted]; rfl)
    | false =>
        have proceeds : (work i.env (s.proxy.enter i)).Sat
            (fun b w' => Proceeds s.proxy.conn.state b [] w'.trace w'.conn) fun _ => False :=
          work_proceeds (w := s.proxy.enter i) hp hr handshaken.shaped
        cases proceeds.of_ok hw with
        | served hs h next =>
            obtain ⟨_, rfl, mute⟩ := h
            rw [messages_mute mute, List.append_nil]
            exact (Plan.acted_iff (next rfl).symm).mpr ((Plan.acted_iff (.inr hs)).mp acted)
        | unserved hs h next =>
            obtain ⟨_, rfl, plain⟩ := h
            obtain ⟨unserved, failure⟩ := next rfl
            rw [messages_mute fun ev hev => (plain ev hev).1, List.append_nil]
            by_cases hf : s.proxy.conn.state = .writingResponseFailure
            · rw [failure.mpr hf, ← hf]
              exact acted
            · have greeted : s.proxy.conn.state = .socks5WritingAuthResponseSuccess := by
                cases hst : s.proxy.conn.state <;> rw [hst] at hr hs hf <;>
                  first | rfl | cases hr; done | cases hs; done | exact absurd rfl hf
              have after : Handshaken true (s.events ++ w'.trace) w'.conn := by
                have entered : Handshaken true ((s.proxy.enter i).log s.events) s.proxy.conn := by
                  rwa [World.log, World.enter, List.append_nil]
                exact (work_handshaken (w := s.proxy.enter i) hp entered).of_ok hw
              have course := handshaken.course
              have course' := after.course
              rw [greeted] at acted course
              rw [milestones_append, course] at course'
              -- the connection does not go back to its first message
              cases hst : w'.conn.state with
              | readingInitialRequest => rw [hst] at course'; cases course'
              | socks5WritingAuthResponseSuccess => exact acted
              | socks5ReadingRequest => exact acted
              | writingResponseFailure => exact absurd (failure.mp hst) hf
              | _ => rw [hst] at unserved; cases unserved

theorem Kept.visit {i : World → Input} (h : Kept p s) (hs : s.step (.visit i) = some s') :
    Kept p s' := by
  simp only [step] at hs
  split at hs
  · next ha =>
      split at hs
      · next b w hw =>
          split at hs
          · next queue =>
              obtain rfl := Option.some.inj hs
              obtain ⟨self, client, time, run⟩ := h.run
              have now : Socks.events (s.visits ++ [⟨i s.proxy, s.proxy, b, w⟩]) =
                  s.events ++ w.trace := by
                rw [events_append, events_singleton]
                rfl
              refine ⟨h.plan, ⟨self, client, time, .step _ (ha ▸ run) hw⟩, ?_, ?_, h.spoken,
                h.payload, fun hb => ?_⟩
              · obtain ⟨rest, hrest⟩ := queue
                rw [events, now, readFrom_append, h.up, ← hrest, List.drop_left, List.append_assoc]
              · rw [events, now, wroteTo_append, h.down, List.append_assoc]
              · rw [events, now]
                exact h.acts ha hw queue hb
          · cases hs
      · cases hs
  · cases hs

end

/-- **The invariant of a session.** -/
theorem Reached.kept (h : Reached p s) : Kept p s := by
  induction h with
  | start self client time => exact kept_start self client time
  | step m _ hs ih =>
      cases m with
      | speak => exact ih.speak hs
      | send bs => exact ih.send hs
      | hear n => exact ih.hear hs
      | visit i => exact ih.visit hs

/-- **The proxy is a wire** for a client that waits for its turn.  Whatever the order of steps, the
server is sent the front of the payload; the client has heard, hears from the queue or is going to
be sent the replies, and behind them what was read from the server.  Once the relay has begun, the
messages that were acted on are those of the plan, and what is missing of the payload waits in
`server_write_buff` or in the queue. -/
theorem transparency (h : Reached p s) :
    wroteTo .server s.events <+: s.payload ∧
    s.heard ++ s.down ++ s.proxy.conn.clientWriteBuff =
      queuedBytes s.events ++ readFrom .server s.events ∧
    (s.Relays → messages s.events = p.messages ∧
      s.payload = wroteTo .server s.events ++ s.proxy.conn.serverWriteBuff ++ s.up) := by
  have kept := h.kept
  obtain ⟨self, client, time, run⟩ := kept.run
  have relayed (hr : s.Relays) : messages s.events = p.messages ∧
      s.payload = wroteTo .server s.events ++ s.proxy.conn.serverWriteBuff ++ s.up := by
    have begun := begun_of_run run hr
    have all : messages s.events = p.messages :=
      (Plan.acted_iff (.inr (by rw [begun.state]; rfl))).mp (kept.acted (hr.symm.imp_left And.left))
    refine ⟨all, ?_⟩
    obtain ⟨done, script, said, -⟩ := kept.spoken
    have fromClient : readFrom .client s.events =
        (messages s.events).flatten ++
          (wroteTo .server s.events ++ s.proxy.conn.serverWriteBuff) := begun.fromClient
    have messages : p.messages.flatten = (done.map (·.2)).flatten ++
        (s.script.map (·.2)).flatten := by
      rw [Plan.messages, script, List.map_append, List.flatten_append]
    have payload : s.payload = (s.script.map (·.2)).flatten ++
        (wroteTo .server s.events ++ s.proxy.conn.serverWriteBuff ++ s.up) := by
      have := said.symm.trans kept.up
      rw [fromClient, all, messages, List.append_assoc, List.append_assoc] at this
      simpa using List.append_cancel_left this
    by_cases hp : s.payload = []
    · rw [hp] at payload ⊢
      exact (List.append_eq_nil_iff.mp payload.symm).2.symm
    · rwa [(kept.payload hp).1, List.map_nil, List.flatten_nil, List.nil_append] at payload
  refine ⟨?_, ?_, relayed⟩
  · by_cases hr : s.Relays
    · rw [(relayed hr).2, List.append_assoc]
      exact List.prefix_append _ _
    · have handshaken : Handshaken s.alive s.events s.proxy.conn :=
        run.invariant_of (P := Handshaken) (fun x hx hst => hr (.inl ⟨x, hx, hst⟩))
          (handshaken_new client time) fun i w past _ _ _ hq hp =>
            work_handshaken hq (by rwa [World.log, World.enter, List.append_nil])
      rw [handshaken.toServer]
      exact List.nil_prefix
  · rw [← kept.down]
    exact run.staged.sent

end

/-- The session that the given moves lead to; it stops at the first that is not possible. -/
def play : List Move → Session → Session
  | [], s => s
  | m :: ms, s =>
    match s.step m with
    | some s' => play ms s'
    | none => s

theorem reached_play {p : Plan} {s : Session} (ms : List Move) (h : Reached p s) :
    Reached p (play ms s) := by
  induction ms generalizing s with
  | nil => exact h
  | cons m ms ih =>
      unfold play
      split
      · next hs => exact ih (.step m h hs)
      · exact h

end Session

namespace Sample

/-- A client of version 4, and `connect` as in `handshake`. -/
def plan : Plan := .socks4 ⟨1, [0, 80], [10, 0, 0, 1], [], rfl, rfl,
  fun _ hb => absurd hb List.not_mem_nil, Nat.zero_le _⟩

/-- The client asks, is answered, and sends three bytes; the server takes two of them and sends one,
which is on its way to the client. -/
def session : Session :=
  .play (.speak :: (connect request).map .visit ++
    [.hear 8, .send [1, 2, 3],
      .visit (visit [7] [] { env with read := fun _ => .data threeBytes }),
      .visit (visit [8] [8]
        { env with
          read := fun _ => .data ⟨[77], nofun, by decide⟩
          write := fun _ => .wrote 2 }),
      .visit (visit [] [7] { env with write := fun _ => .wrote 1 })])
    (.start plan 0 client 0)

end Sample

set_option maxRecDepth 10000 in
theorem transparency_sample :
    Sample.session.payload = [1, 2, 3] ∧ Sample.session.Relays ∧
      Sample.session.down = [77] ∧ Sample.session.proxy.conn.serverWriteBuff = [3] ∧
      wroteTo .server Sample.session.events <+: Sample.session.payload ∧
      Sample.session.heard ++ Sample.session.down ++ Sample.session.proxy.conn.clientWriteBuff =
        queuedBytes Sample.session.events ++ readFrom .server Sample.session.events := by
  have transparent := Session.transparency
    (Session.reached_play _ (.start (p := Sample.plan) 0 Sample.client 0) : Session.Reached
      Sample.plan Sample.session)
  exact ⟨by decide, .inr (by decide), by decide, by decide, transparent.1, transparent.2.1⟩

end OldStuff.Socks
