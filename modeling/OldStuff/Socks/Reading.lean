import OldStuff.Socks.Stages

/-!
# Socks — what only the reading states do

A buffer is parsed, a configuration is asked and a socket is created for a request in two states
only, the ones that read a message.  `work_apart` says so of the others; the rest of the module
follows a message through the reading states, with one lemma for every way a read can end
(`Segment`).

The last section settles what becomes of the bytes behind a message.  `client_read_buff` is
emptied when the method reply has been written and again when `PIPEING` is entered, so a byte
that arrives in one read with the end of a message, and behind it, is lost: no client byte
vanishes exactly when no read goes on past the end of a message (`handshake_bytes_kept_iff`).
-/

namespace OldStuff.Socks
open OldStuff.Io
open OldStuff.Lib (Outcome)
open SocksRequest (complete message message_eq_self)

/-- The flag that the reading state of `v` calls `parse` with. -/
def Version.initial : Version → Bool
  | .socks4 => true
  | .socks5 => false

/-- The events that belong to a request. -/
def Event.requests : Event → Bool
  | .parsed .. | .asked _ | .opened _ | .listening _ => true
  | _ => false

/-- No event belongs to a request, and a reading state begins with an empty buffer. -/
structure Apart (es : List Event) (c : SocksConnection) : Prop where
  events : ∀ ev ∈ es, ev.requests = false
  fresh : c.state.reading = true → c.clientReadBuff = []

/-- Outside the reading states the buffer does not matter. -/
theorem Apart.elsewhere {es : List Event} {c : SocksConnection}
    (h : ∀ ev ∈ es, ev.requests = false) (hr : c.state.reading = false) : Apart es c :=
  ⟨h, fun h => absurd (hr.symm.trans h) Bool.false_ne_true⟩

theorem Event.not_requests_of_relays {ev : Event} (h : ev.relays = true) : ev.requests = false := by
  cases ev <;> first | rfl | cases h

section
variable {v : Version} {past : List Event} {e : Env} {w : World}

theorem refuse_apart {code : UInt8} (h : ∀ ev ∈ w.log past, ev.requests = false) :
    Apart ((refuse v code e w).log past) (refuse v code e w).conn where
  events := by simpa [refuse, World.queue, or_imp, forall_and, Event.requests] using h
  fresh := nofun

theorem connectingServer_apart (hs : w.conn.server ≠ none) (hr : w.conn.state.reading = false)
    (h : ∀ ev ∈ w.log past, ev.requests = false) :
    Keeps (fun _ => Apart) past (connectingServer v e w) := by
  obtain ⟨server, hs⟩ := Option.ne_none_iff_exists'.mp hs
  simp only [connectingServer, hs, deref_some]
  split
  · split
    · exact Apart.elsewhere h hr
    · refine ⟨?_, fun h => by cases h⟩
      simpa [grant, World.queue, or_imp, forall_and, Event.requests] using h
    · exact refuse_apart h
  · exact Apart.elsewhere h hr

theorem waitingConnection_apart (hl : w.conn.listen ≠ none) (hr : w.conn.state.reading = false)
    (h : ∀ ev ∈ w.log past, ev.requests = false) :
    Keeps (fun _ => Apart) past (waitingConnection v e w) := by
  obtain ⟨listen, hl⟩ := Option.ne_none_iff_exists'.mp hl
  simp only [waitingConnection, hl, deref_some]
  split
  · split
    · exact Apart.elsewhere h hr
    · exact Apart.elsewhere h hr
    · refine ⟨?_, fun h => by cases h⟩
      simpa [World.queue, World.newServer, or_imp, forall_and, Event.requests] using h
  · exact Apart.elsewhere h hr

theorem writeReply_apart {done : Env → World → Outcome World Bool}
    (hd : ∀ w', w'.conn.state = w.conn.state → w'.conn.client = w.conn.client →
      w'.conn.server = w.conn.server → (∀ ev ∈ w'.log past, ev.requests = false) →
      Keeps (fun _ => Apart) past (done e w'))
    (hc : w.conn.client ≠ none) (hr : w.conn.state.reading = false)
    (h : ∀ ev ∈ w.log past, ev.requests = false) :
    Keeps (fun _ => Apart) past (writeReply done e w) := by
  obtain ⟨client, hc⟩ := Option.ne_none_iff_exists'.mp hc
  simp only [writeReply, hc, deref_some, send]
  split
  · split
    · exact Apart.elsewhere h hr
    · have h' : ∀ n, ∀ ev ∈ w.log past ++ [Event.wrote .client ((w.conn.pending .client).take n)],
          ev.requests = false := by
        simpa [or_imp, forall_and, Event.requests] using h
      rw [Outcome.bind_ok]
      split
      · exact hd _ rfl rfl rfl (by simpa using h' _)
      · exact Apart.elsewhere (by simpa using h' _) hr
  · exact Apart.elsewhere h hr

/-- **The states that do not read** parse nothing, ask nothing and create no socket, and they leave
an empty buffer to the reading state they lead to. -/
theorem work_apart (hst : w.conn.state ≠ .pipeing) (hr : w.conn.state.reading = false)
    (hs : Shaped w.conn) (h : ∀ ev ∈ w.log past, ev.requests = false) :
    Keeps (fun _ => Apart) past (work e w) := by
  have hc := hs.client hst
  refine keeps_work ?_
  unfold handler
  split
  · next heq => rw [heq] at hr; cases hr
  · next heq =>
      rw [Shaped, heq] at hs
      exact connectingServer_apart hs.2.1 hr h
  · next heq =>
      rw [Shaped, heq] at hs
      refine writeReply_apart (fun w' _ hc' hs' h' => ?_) hc hr h
      have (b : Bool) : Apart (w'.log past)
          { w'.conn with
            clientWriteBuff := []
            clientReadBuff := []
            serverReadBuff := []
            serverWriteBuff := []
            state := .pipeing } := ⟨h', fun h => by cases h⟩
      exact setStatus_bind (hc' ▸ hc) (hs' ▸ hs.2.1) (this false) fun st => this true
  · next heq =>
      refine writeReply_apart (fun w' hst' _ _ h' => ⟨h', fun hr' => ?_⟩) hc hr h
      rw [World.onSelect_conn, hst', heq] at hr'
      cases hr'
  · next heq => exact writeReply_apart (fun w' _ _ _ h' => ⟨h', fun _ => rfl⟩) hc hr h
  · next heq =>
      rw [Shaped, heq] at hs
      exact connectingServer_apart hs.2.1 hr h
  · next heq => rw [heq] at hr; cases hr
  · next heq =>
      rw [Shaped, heq] at hs
      exact waitingConnection_apart hs.2.2 hr h
  · next heq =>
      rw [Shaped, heq] at hs
      exact waitingConnection_apart hs.2.2 hr h
  · next heq => exact writeReply_apart (fun w' _ _ _ h' => ⟨h', fun h => by cases h⟩) hc hr h
  · next heq => exact writeReply_apart (fun w' _ _ _ h' => ⟨h', fun h => by cases h⟩) hc hr h
  · next heq => exact absurd heq hst

/-! ### Serving a request -/

/-- What may happen after the message of `client` has been parsed: the configuration is asked, and
a socket is created only if it admits the client. -/
def Follows (e : Env) (client : FileDescriptor) : Event → Prop
  | .parsed .. => False
  | .asked a => a = canConnect e client
  | .opened _ | .listening _ => canConnect e client = some true
  | _ => True

/-- `fs` is `es` and then events of a kind. -/
def Adds (A : Event → Prop) (es fs : List Event) : Prop :=
  ∃ tail, fs = es ++ tail ∧ ∀ ev ∈ tail, A ev

section
variable {A : Event → Prop} {es fs : List Event}

theorem Adds.refl (A : Event → Prop) (es : List Event) : Adds A es es := ⟨[], by simp, by simp⟩

theorem Adds.emit (h : Adds A es fs) (ev : Event) (hev : A ev) : Adds A es (fs ++ [ev]) := by
  obtain ⟨tail, rfl, ht⟩ := h
  refine ⟨tail ++ [ev], List.append_assoc .., fun x hx => ?_⟩
  rcases List.mem_append.mp hx with hx | hx
  · exact ht x hx
  · exact List.mem_singleton.mp hx ▸ hev

end

/-- After the message has been parsed: `es` was done before, and a connection that lives is not in
a reading state. -/
def Taken (e : Env) (client : FileDescriptor) (es : List Event) (b : Bool) (fs : List Event)
    (c : SocksConnection) : Prop :=
  Adds (Follows e client) es fs ∧ (b = true → c.state.reading = false)

variable {es : List Event} {client : FileDescriptor} {b : Bool}

theorem refuse_taken {code : UInt8} (h : Adds (Follows e client) es (w.log past)) :
    Taken e client es b ((refuse v code e w).log past) (refuse v code e w).conn := by
  refine ⟨?_, fun _ => rfl⟩
  rw [refuse, World.queue, World.log_onSelect, World.log_emit]
  exact h.emit _ trivial

theorem openServer_taken {req : SocksRequest} (hc : w.conn.client ≠ none)
    (ha : canConnect e client = some true) (h : Adds (Follows e client) es (w.log past)) :
    (openServer v req e w).Sat (fun b w' => Taken e client es b (w'.log past) w'.conn)
      (fun w' => Adds (Follows e client) es (w'.log past)) := by
  unfold openServer
  split
  · exact h
  · next fd _ =>
      let server : FileDescriptor := ⟨w.nextId, fd, .ofRequest req.address req.port⟩
      have opened :
          Adds (Follows e client) es ((w.newServer server (.opened server)).log past) := by
        rw [World.newServer, World.log_emit]
        exact h.emit _ ha
      refine setStatus_bind hc (Option.some_ne_none _) opened fun st => ?_
      split
      · exact opened
      · refine ⟨?_, fun _ => rfl⟩
        rw [grant, World.queue, World.log_onSelect, World.log_emit, World.log_onConn,
          World.log_emit]
        exact (opened.emit .connected trivial).emit _ trivial
      · exact ⟨opened, fun _ => by cases v <;> rfl⟩

theorem openListener_taken (ha : canConnect e client = some true)
    (h : Adds (Follows e client) es (w.log past)) :
    (openListener v e w).Sat (fun b w' => Taken e client es b (w'.log past) w'.conn)
      (fun w' => Adds (Follows e client) es (w'.log past)) := by
  unfold openListener
  split
  · exact h
  · next fd servaddr _ =>
      let listen : FileDescriptor := ⟨w.nextId, fd, servaddr⟩
      have listening : Adds (Follows e client) es (w.log past ++ [Event.listening listen]) :=
        h.emit _ ha
      refine ⟨?_, fun _ => by cases v <;> rfl⟩
      rw [World.queue, World.newListen, World.log_onSelect, World.log_emit, World.log_onConn,
        World.log_emit]
      exact listening.emit _ trivial

theorem serveRequest_taken {req : SocksRequest} (hc : w.conn.client ≠ none)
    (h : Adds (Follows e client) es (w.log past)) :
    Keeps (Taken e client es) past (serveRequest v client req e w) := by
  have asked : Adds (Follows e client) es ((w.emit (.asked (canConnect e client))).log past) := by
    rw [World.log_emit]
    exact h.emit _ rfl
  unfold serveRequest
  cases ha : canConnect e client with
  | none =>
      rw [ha] at asked
      exact ⟨asked, nofun⟩
  | some a =>
      rw [ha] at asked
      cases a with
      | false =>
          dsimp only
          split
          · exact refuse_taken asked
          · exact refuse_taken asked
      | true =>
          dsimp only
          split
          · exact (openServer_taken (w := w.emit (.asked (some true))) hc ha asked).recover
              fun w h' => refuse_taken (w := w) h'
          · split
            · exact (openListener_taken ha asked).recover fun w h' => refuse_taken (w := w) h'
            · exact refuse_taken asked

theorem actInitial_taken {req : SocksRequest} (hc : w.conn.client ≠ none)
    (h : Adds (Follows e client) es (w.log past)) :
    Keeps (Taken e client es) past (actInitial client req e w) := by
  unfold actInitial
  split
  · exact serveRequest_taken hc h
  · refine ⟨?_, fun _ => rfl⟩
    rw [World.queue, World.log_onSelect, World.log_emit]
    exact h.emit _ trivial

/-! ### Reading a message -/

variable {initial : Bool} {act : FileDescriptor → SocksRequest → Env → World → Outcome World Bool}

/-- After `parse` has seen the buffer `buf`: it was kept for more, or it was acted on. -/
inductive Parsed (initial : Bool) (buf : Bytes) (e : Env) (client : FileDescriptor)
    (es : List Event) (c : SocksConnection) (b : Bool) : List Event → SocksConnection → Prop where
  | kept (h : b = true → complete initial buf = false) :
      Parsed initial buf e client es c b es c
  | taken {fs : List Event} {c' : SocksConnection} (hc : complete initial buf = true)
      (h : Taken e client (es ++ [.parsed initial buf]) b fs c') :
      Parsed initial buf e client es c b fs c'

theorem parseBuffer_parsed
    (ha : ∀ es req w, w.conn.client ≠ none → Adds (Follows e client) es (w.log past) →
      Keeps (Taken e client es) past (act client req e w)) (hc : w.conn.client ≠ none) :
    Keeps (Parsed initial w.conn.clientReadBuff e client (w.log past) w.conn) past
      (parseBuffer initial act client e w) := by
  have hp := SocksRequest.parse_accepts e.abi e.request w.conn.clientReadBuff initial
  unfold parseBuffer
  split
  · exact .kept nofun
  · split
    · next req hr =>
        rw [hr] at hp
        refine (ha (w.log past ++ [Event.parsed initial w.conn.clientReadBuff]) req _
          (by exact hc) ?_).mono (fun _ _ h => .taken hp.symm h) (fun _ h => .taken hp.symm h)
        rw [World.log_onSelect, World.log_emit]
        exact .refl _ _
    · next hr =>
        rw [hr] at hp
        exact .kept fun _ => hp.symm
    · next hr => exact (SocksRequest.parse_ne_overread _ _ _ _ hr).elim

/-- A visit that finds the connection in a reading state takes these bytes in. -/
def Reads (e : Env) (sel : Select) (c : SocksConnection) (chunk : Chunk) : Prop :=
  ∃ client, c.client = some client ∧ sel.canRead client = true ∧ e.read .client = .data chunk

/-- What a visit to a reading state comes to. -/
inductive Turn (initial : Bool) (e : Env) (sel : Select) (client : FileDescriptor)
    (es : List Event) (c : SocksConnection) (b : Bool) : List Event → SocksConnection → Prop where
  | none {fs : List Event} (hr : ∀ chunk, ¬ Reads e sel c chunk)
      (h : Adds (fun ev => ev.requests = false) es fs) (hb : b = true → fs = es) :
      Turn initial e sel client es c b fs c
  | again {fs : List Event} {c' : SocksConnection} (hr : ∀ chunk, ¬ Reads e sel c chunk)
      (h : Parsed initial c.clientReadBuff e client es c b fs c') :
      Turn initial e sel client es c b fs c'
  | data {fs : List Event} {c' : SocksConnection} {chunk : Chunk} (hr : Reads e sel c chunk)
      (h : Parsed initial (c.clientReadBuff ++ chunk.bytes) e client
        (es ++ [.read .client chunk.bytes])
        { c with clientReadBuff := c.clientReadBuff ++ chunk.bytes } b fs c') :
      Turn initial e sel client es c b fs c'

theorem readMessage_turn
    (ha : ∀ es req w, w.conn.client ≠ none → Adds (Follows e client) es (w.log past) →
      Keeps (Taken e client es) past (act client req e w)) (hc : w.conn.client = some client) :
    Keeps (Turn initial e w.select client (w.log past) w.conn) past
      (readMessage initial act e w) := by
  have hn : w.conn.client ≠ none := hc ▸ Option.some_ne_none client
  have unread (hne : ∀ chunk, e.read .client ≠ .data chunk) (chunk : Chunk) :
      ¬ Reads e w.select w.conn chunk := by
    rintro ⟨-, -, -, h⟩
    exact hne chunk h
  simp only [readMessage, hc, deref_some]
  split
  · next hready =>
      split
      · next hread =>
          exact .none (unread fun _ h => by rw [hread] at h; cases h) (.refl _ _) fun h => by
            cases h
      · next hread =>
          have hr := unread fun _ h => by rw [hread] at h; cases h
          -- `read` would have blocked: the buffer is parsed again as it is
          exact (parseBuffer_parsed ha hn).mono (fun _ _ => .again hr) fun _ => .again hr
      · next hread =>
          refine .none (unread fun _ h => by rw [hread] at h; cases h) ?_ fun h => by cases h
          rw [World.log_onSelect, World.log_emit]
          exact (Adds.refl _ _).emit _ rfl
      · next chunk hread =>
          have hr : Reads e w.select w.conn chunk := ⟨client, hc, hready, hread⟩
          refine (parseBuffer_parsed ha (by exact hn)).mono (fun _ _ h => .data hr ?_)
            fun _ h => .data hr ?_
          · rwa [World.log_emit] at h
          · rwa [World.log_emit] at h
  · next hready =>
      refine .none ?_ (.refl _ _) fun _ => rfl
      -- the client is not ready: nothing was read
      rintro _ ⟨d, hd, h, -⟩
      rw [hc] at hd
      exact hready (Option.some.inj hd ▸ h)

/-- **A visit to a reading state.** -/
theorem work_turn (past : List Event) (hst : w.conn.state = v.readingRequest)
    (hc : w.conn.client = some client) :
    Keeps (Turn v.initial e w.select client (w.log past) w.conn) past (work e w) := by
  refine keeps_work ?_
  unfold handler
  rw [hst]
  cases v with
  | socks4 => exact readMessage_turn (fun _ _ _ => actInitial_taken) hc
  | socks5 => exact readMessage_turn (fun _ _ _ => serveRequest_taken) hc

/-- A visit to a reading state, and one to another state of the handshake. -/
theorem visit_turn {i : Input} {b : Bool} {w' : World} (hw : work i.env (w.enter i) = .ok b w')
    (hst : w.conn.state = v.readingRequest) (hc : w.conn.client = some client) :
    Turn v.initial i.env i.select client [] w.conn b w'.trace w'.conn := by
  have keeps : Keeps (Turn v.initial i.env i.select client [] w.conn) [] (work i.env (w.enter i)) :=
    work_turn [] hst hc
  exact keeps.of_ok hw

theorem visit_apart {i : Input} {b : Bool} {w' : World} (hw : work i.env (w.enter i) = .ok b w')
    (hst : w.conn.state ≠ .pipeing) (hr : w.conn.state.reading = false) (hs : Shaped w.conn) :
    Apart w'.trace w'.conn := by
  have keeps : Keeps (fun _ => Apart) [] (work i.env (w.enter i)) :=
    work_apart hst hr hs fun _ h => (List.not_mem_nil h).elim
  exact keeps.of_ok hw

end

/-! ### The bytes behind a message -/

def Event.messageBytes : Event → Bytes
  | .parsed initial buf => message initial buf
  | _ => []

/-- The messages acted on, each without what followed it in its buffer. -/
def messageBytes (es : List Event) : Bytes := es.flatMap Event.messageBytes

/-- The read of a visit does not go on past the end of a message: no part of what it brings, the
whole apart, completes the message that `client_read_buff` begins. -/
def Trim (v : Visit) : Prop :=
  ∀ ver : Version, v.before.conn.state = ver.readingRequest →
    ∀ chunk, Reads v.input.env v.input.select v.before.conn chunk → ∀ k < chunk.bytes.length,
      complete ver.initial (v.before.conn.clientReadBuff ++ chunk.bytes.take k) = false

/-- Every buffer acted on was one message. -/
def Sharp (es : List Event) : Prop :=
  ∀ initial buf, .parsed initial buf ∈ es → message initial buf = buf

/-- No part of the buffer of a reading state is a message, the whole included. -/
def Unread (c : SocksConnection) : Prop :=
  ∀ ver : Version, c.state = ver.readingRequest → ∀ k ≤ c.clientReadBuff.length,
    complete ver.initial (c.clientReadBuff.take k) = false

/-- The buffer of a reading state is not a message. -/
def Waiting (c : SocksConnection) : Prop :=
  ∀ ver : Version, c.state = ver.readingRequest → complete ver.initial c.clientReadBuff = false

section
variable {es fs : List Event} {c : SocksConnection}

theorem message_front (initial : Bool) (buf : Bytes) : message initial buf <+: buf :=
  List.take_prefix _ _

theorem messageBytes_le (es : List Event) : (messageBytes es).length ≤ (parsedBytes es).length := by
  induction es with
  | nil => rfl
  | cons ev es ih =>
      have hev : ev.messageBytes.length ≤ ev.parsedBytes.length := by
        cases ev with
        | parsed initial buf => exact (message_front initial buf).length_le
        | _ => rfl
      simp only [messageBytes, parsedBytes, List.flatMap_cons, List.length_append] at ih ⊢
      omega

/-- The messages are all of the buffers exactly when every buffer is one message. -/
theorem parsedBytes_eq_iff (es : List Event) : parsedBytes es = messageBytes es ↔ Sharp es := by
  induction es with
  | nil => exact ⟨fun _ _ _ h => (List.not_mem_nil h).elim, fun _ => rfl⟩
  | cons ev es ih =>
      have hrest := messageBytes_le es
      -- only the events `parsed` have a buffer
      have hcons : Sharp (ev :: es) ↔ ev.messageBytes = ev.parsedBytes ∧ Sharp es := by
        simp only [Sharp, List.mem_cons, or_imp, forall_and]
        refine and_congr_left fun _ => ?_
        cases ev with
        | parsed initial buf =>
            exact ⟨fun h => h initial buf rfl, fun h i b hb => by cases hb; exact h⟩
        | _ => exact ⟨fun _ => rfl, fun _ _ _ h => by cases h⟩
      rw [hcons, ← ih]
      simp only [parsedBytes, messageBytes, List.flatMap_cons] at hrest ⊢
      constructor
      · intro h
        have hev : ev.messageBytes = ev.parsedBytes := by
          -- each message is a front of its buffer, so equal lengths mean equal bytes
          have hp : ev.messageBytes <+: ev.parsedBytes := by
            cases ev with
            | parsed initial buf => exact message_front initial buf
            | _ => exact List.prefix_rfl
          refine hp.eq_of_length_le ?_
          have := congrArg List.length h
          simp only [List.length_append] at this
          omega
        rw [hev] at h
        exact ⟨hev, List.append_cancel_left h⟩
      · rintro ⟨h₁, h₂⟩
        rw [h₁, h₂]

theorem complete_nil (initial : Bool) : complete initial [] = false := by cases initial <;> rfl

/-- The proper prefixes of a buffer and a piece behind it are those of the buffer and those that
reach into the piece. -/
theorem forall_take_append {P : Bytes → Prop} {b x : Bytes} (hx : x ≠ []) :
    (∀ k < (b ++ x).length, P ((b ++ x).take k)) ↔
      (∀ k ≤ b.length, P (b.take k)) ∧ ∀ k < x.length, P (b ++ x.take k) := by
  have hpos := List.length_pos_iff.mpr hx
  constructor
  · intro h
    refine ⟨fun k hk => ?_, fun k hk => ?_⟩
    · have := h k (by rw [List.length_append]; omega)
      rwa [List.take_append_of_le_length hk] at this
    · have := h (b.length + k) (by rw [List.length_append]; omega)
      rwa [List.take_length_add_append] at this
  · rintro ⟨h₁, h₂⟩ k hk
    rcases Nat.lt_or_ge k b.length with hlt | hge
    · rw [List.take_append_of_le_length (Nat.le_of_lt hlt)]
      exact h₁ k (Nat.le_of_lt hlt)
    · obtain ⟨j, rfl⟩ := Nat.exists_eq_add_of_le hge
      rw [List.length_append] at hk
      rw [List.take_length_add_append]
      exact h₂ j (by omega)

theorem Sharp.append : Sharp (es ++ fs) ↔ Sharp es ∧ Sharp fs := by
  simp only [Sharp, List.mem_append, or_imp, forall_and]

/-- Events that belong to no request parse nothing. -/
theorem Sharp.of_apart (h : ∀ ev ∈ fs, ev.requests = false) : Sharp fs :=
  fun _ _ hp => by have := h _ hp; cases this

theorem Version.readingRequest_inj {v v' : Version} (h : v.readingRequest = v'.readingRequest) :
    v = v' := by
  cases v <;> cases v' <;> first | rfl | cases h

theorem Version.reading_readingRequest (v : Version) : v.readingRequest.reading = true := by
  cases v <;> rfl

theorem ConnectionState.reading_cases (st : ConnectionState) (h : st.reading = true) :
    ∃ v : Version, st = v.readingRequest := by
  cases st with
  | readingInitialRequest => exact ⟨.socks4, rfl⟩
  | socks5ReadingRequest => exact ⟨.socks5, rfl⟩
  | _ => cases h

section
variable {v : Version} {i : Input} {w w' : World} {client : FileDescriptor} {c : SocksConnection}
  {b : Bool}

theorem unread_iff (hst : c.state = v.readingRequest) :
    Unread c ↔
      ∀ k ≤ c.clientReadBuff.length, complete v.initial (c.clientReadBuff.take k) = false :=
  ⟨fun h => h v hst, fun h ver hver => by
    obtain rfl := Version.readingRequest_inj (hst.symm.trans hver)
    exact h⟩

theorem waiting_iff (hst : c.state = v.readingRequest) :
    Waiting c ↔ complete v.initial c.clientReadBuff = false :=
  ⟨fun h => h v hst, fun h ver hver => by
    obtain rfl := Version.readingRequest_inj (hst.symm.trans hver)
    exact h⟩

/-- The states that do not read hold no message. -/
theorem unread_of_not_reading (h : c.state.reading = false) : Unread c ∧ Waiting c := by
  have absurd' : ∀ ver : Version, c.state ≠ ver.readingRequest := by
    intro ver hver
    rw [hver, ver.reading_readingRequest] at h
    cases h
  exact ⟨fun ver hver => absurd hver (absurd' ver), fun ver hver => absurd hver (absurd' ver)⟩

theorem trim_iff (hst : w.conn.state = v.readingRequest) {chunk : Chunk}
    (hr : Reads i.env i.select w.conn chunk) :
    Trim ⟨i, w, b, w'⟩ ↔ ∀ k < chunk.bytes.length,
      complete v.initial (w.conn.clientReadBuff ++ chunk.bytes.take k) = false := by
  refine ⟨fun h => h v hst chunk hr, fun h ver hver chunk' hr' => ?_⟩
  obtain rfl := Version.readingRequest_inj (hst.symm.trans hver)
  obtain ⟨_, _, _, hread⟩ := hr
  obtain ⟨_, _, _, hread'⟩ := hr'
  cases hread.symm.trans hread'
  exact h

/-- A visit that reads nothing is trimmed. -/
theorem trim_of_not_reads (hr : ∀ chunk, ¬ Reads i.env i.select w.conn chunk) :
    Trim ⟨i, w, b, w'⟩ :=
  fun _ _ chunk hread => absurd hread (hr chunk)

/-- What a visit to a reading state adds to the account: it is trimmed exactly when what it parsed
was one message and what it kept holds none. -/
theorem Turn.account {fs : List Event} {c' : SocksConnection}
    (hst : w.conn.state = v.readingRequest) (hw : Waiting w.conn)
    (h : Turn v.initial i.env i.select client [] w.conn true fs c') :
    (Trim ⟨i, w, b, w'⟩ ∧ Unread w.conn ↔ Sharp fs ∧ Unread c') ∧ Waiting c' := by
  cases h with
  | none hr _ hb =>
      obtain rfl := hb rfl
      exact ⟨⟨fun h => ⟨nofun, h.2⟩, fun h => ⟨trim_of_not_reads hr, h.2⟩⟩, hw⟩
  | again hr hp =>
      cases hp with
      | kept => exact ⟨⟨fun h => ⟨nofun, h.2⟩, fun h => ⟨trim_of_not_reads hr, h.2⟩⟩, hw⟩
      | taken hc => rw [hw v hst] at hc; cases hc
  | data hr hp =>
      rename_i chunk
      -- the fronts of the buffer with the chunk are those of the buffer, and those the chunk adds
      have parts := (forall_take_append (P := fun p => complete v.initial p = false)
        (b := w.conn.clientReadBuff) chunk.ne_nil).trans and_comm
      rw [trim_iff hst hr, unread_iff hst, ← parts]
      cases hp with
      | kept h =>
          have hst' : ({ w.conn with clientReadBuff := w.conn.clientReadBuff ++ chunk.bytes } :
              SocksConnection).state = v.readingRequest := hst
          have whole := h rfl
          refine ⟨?_, (waiting_iff hst').mpr whole⟩
          rw [unread_iff hst']
          constructor
          · refine fun h => ⟨.of_apart (by simp [Event.requests]), fun k hk => ?_⟩
            rcases Nat.lt_or_eq_of_le hk with hlt | rfl
            · exact h k hlt
            · rw [List.take_length]
              exact whole
          · exact fun h k hk => h.2 k (Nat.le_of_lt hk)
      | taken _ ht =>
          obtain ⟨⟨tail, rfl, ht⟩, hr'⟩ := ht
          obtain ⟨hu, hw'⟩ := unread_of_not_reading (hr' rfl)
          refine ⟨?_, hw'⟩
          -- one message: no shorter front of the buffer is accepted
          rw [← message_eq_self]
          constructor
          · refine fun h => ⟨?_, hu⟩
            rintro initial buf hp
            simp only [List.nil_append, List.append_assoc, List.mem_append,
              List.mem_singleton] at hp
            rcases hp with hp | hp | hp
            · cases hp
            · cases hp; exact h
            · exact (ht _ hp).elim
          · exact fun h => h.1 v.initial _ (by simp)

/-- The other states of the handshake read nothing, act on nothing, and hand on an empty buffer. -/
theorem Apart.account (hap : Apart w'.trace w'.conn) (hr : w.conn.state.reading = false) :
    (Trim ⟨i, w, b, w'⟩ ∧ Unread w.conn ↔ Sharp w'.trace ∧ Unread w'.conn) ∧
      Waiting w'.conn := by
  have trim : Trim ⟨i, w, b, w'⟩ := fun ver hver => by
    rw [hver, ver.reading_readingRequest] at hr
    cases hr
  have sharp : Sharp w'.trace := .of_apart hap.events
  have rest : Unread w'.conn ∧ Waiting w'.conn := by
    cases hr' : w'.conn.state.reading with
    | false => exact unread_of_not_reading hr'
    | true =>
        have hnil := hap.fresh hr'
        exact ⟨fun ver _ k _ => by rw [hnil, List.take_nil]; exact complete_nil _,
          fun ver _ => by rw [hnil]; exact complete_nil _⟩
  exact ⟨⟨fun _ => ⟨sharp, rest.1⟩, fun _ => ⟨trim, (unread_of_not_reading hr).1⟩⟩, rest.2⟩

/-- A visit to a handshake keeps the account, in whatever state it finds the connection. -/
theorem visit_account {past : List Event} (hw : work i.env (w.enter i) = .ok true w')
    (hst : w.conn.state ≠ .pipeing) (handshaken : Handshaken true past w.conn)
    (waiting : Waiting w.conn) :
    (Trim ⟨i, w, true, w'⟩ ∧ Unread w.conn ↔ Sharp w'.trace ∧ Unread w'.conn) ∧
      Waiting w'.conn := by
  cases hr : w.conn.state.reading with
  | true =>
      obtain ⟨v, hv⟩ := w.conn.state.reading_cases hr
      obtain ⟨d, hd⟩ := Option.ne_none_iff_exists'.mp (handshaken.shaped.client hst)
      exact (visit_turn hw hv hd).account hv waiting
  | false => exact (visit_apart hw hst hr handshaken.shaped).account hr

/-- **The account of a handshake.**  As long as the handshake lasts, all reads were trimmed exactly
when all buffers acted on were single messages and the present one holds none. -/
theorem Run.account {vs : List Visit} {self : Nat} {time : Int}
    (h : Run (World.fresh self client time) vs b w) (hb : b = true)
    (hq : ∀ v ∈ vs, v.before.conn.state ≠ .pipeing) :
    ((∀ v ∈ vs, Trim v) ↔ Sharp (events vs) ∧ Unread w.conn) ∧ Waiting w.conn := by
  induction h with
  | start =>
      have hst : (World.fresh self client time).conn.state = Version.readingRequest .socks4 := rfl
      have sharp : Sharp [] := fun _ _ h => (List.not_mem_nil h).elim
      have unread : Unread (World.fresh self client time).conn := by
        refine (unread_iff hst).mpr fun k _ => ?_
        rw [World.fresh, SocksConnection.new, List.take_nil]
        exact complete_nil _
      exact ⟨⟨fun _ => ⟨sharp, unread⟩, fun _ _ h => (List.not_mem_nil h).elim⟩,
        (waiting_iff hst).mpr (complete_nil _)⟩
  | @step vs w w' b i hrun hw ih =>
      subst hb
      have hqs : ∀ v ∈ vs, v.before.conn.state ≠ .pipeing :=
        fun v hv => hq v (List.mem_append_left _ hv)
      have hst : w.conn.state ≠ .pipeing := hq ⟨i, w, true, w'⟩ (by simp)
      obtain ⟨account, waiting⟩ := ih rfl hqs
      have step := visit_account hw hst (hrun.staged.handshaken hst) waiting
      refine ⟨?_, step.2⟩
      rw [events_append, events_singleton, Sharp.append, and_assoc, ← step.1, and_left_comm,
        ← account, and_comm]
      simp only [List.mem_append, List.mem_singleton, or_imp, forall_and, forall_eq]

/-- **No client byte vanishes between the handshake and the relay, exactly when no read goes on past
the end of a message.**  When `PIPEING` is entered, the bytes received are the messages acted on,
followed by what is queued for the server, if and only if every read of the handshake was
trimmed. -/
theorem handshake_bytes_kept_iff {vs : List Visit} {w₀ : World} (h : Entry vs w₀) :
    readFrom .client (events vs) = messageBytes (events vs) ++ w₀.conn.serverWriteBuff ↔
      ∀ v ∈ vs, Trim v := by
  have handshaken := h.handshaken
  have reading : w₀.conn.state.reading = false := by rw [h.state]; rfl
  obtain ⟨self, client, time, hr⟩ := h.run
  have received := (handshaken.settled (by rw [h.state]; rfl) reading).received
  rw [received, handshaken.quiet.serverWriteBuff, List.append_nil, parsedBytes_eq_iff,
    (hr.account rfl h.first).1]
  exact ⟨fun hs => ⟨hs, (unread_of_not_reading reading).1⟩, And.left⟩

end

end

/-- A request with the first byte of what follows it in the same read. -/
def Sample.coalesced : Chunk := ⟨[4, 1, 0, 80, 10, 0, 0, 1, 0, 71], nofun, by decide⟩

theorem handshake_bytes_kept_sample :
    readFrom .client (events (Sample.handshake Sample.request).1) =
        messageBytes (events (Sample.handshake Sample.request).1) ++
          (Sample.handshake Sample.request).2.2.conn.serverWriteBuff ↔
      ∀ v ∈ (Sample.handshake Sample.request).1, Trim v :=
  handshake_bytes_kept_iff Sample.entry

/-- The tenth byte is neither part of the message nor queued. -/
theorem handshake_byte_lost :
    Entry (Sample.handshake Sample.coalesced).1 (Sample.handshake Sample.coalesced).2.2 ∧
      readFrom .client (events (Sample.handshake Sample.coalesced).1) ≠
        messageBytes (events (Sample.handshake Sample.coalesced).1) ++
          (Sample.handshake Sample.coalesced).2.2.conn.serverWriteBuff :=
  ⟨⟨⟨0, Sample.client, 0, run_play _ _⟩, rfl, by decide⟩, by decide⟩

end OldStuff.Socks
