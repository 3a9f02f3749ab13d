import OldStuff.Socks.Reading

/-!
# Socks — access control, and what the client is sent

Two guarantees over whole runs, both read off the decisions a run has taken (`Course`).

* `access_control`: a socket to a server, or a listener, is created only in a step in which
  `config::can_connect` admits the client; a client that was turned away is never served, and
  sees at most the method reply and one failure reply.
* `reply_transcript`: whatever the client does, it is sent the front of one of a few transcripts,
  and the relayed bytes stand behind the replies.
-/

namespace OldStuff.Socks
open OldStuff.Io
open OldStuff.Lib (Outcome)

/-- `new io::socket(address,port)` and `new io::server_socket`. -/
def Event.opens : Event → Bool
  | .opened _ | .listening _ => true
  | _ => false

/-- The states of a request that was let in. -/
def ConnectionState.served : ConnectionState → Bool
  | .writingResponseSuccess | .socks4WaitingConnection | .socks5WaitingConnection
  | .socks4WritingBindResponse | .socks5WritingBindResponse
  | .socks4ConnectingServer | .socks5ConnectingServer | .pipeing => true
  | _ => false

/-- The bytes that go before the reply to a request of `v`. -/
def Version.greeting : Version → Bytes
  | .socks4 => []
  | .socks5 => methodReply

def Version.replyLength : Version → Nat
  | .socks4 => 8
  | .socks5 => 10

/-! ### What a step creates -/

section
variable {self : Nat} {client : FileDescriptor} {time : Int} {vs : List Visit} {b : Bool}
  {w : World} {es fs : List Event}

/-- The events of a visit to a reading state. -/
theorem Turn.follows {initial : Bool} {e : Env} {sel : Select} {c c' : SocksConnection}
    (h : Turn initial e sel client [] c b fs c') {ev : Event} (hev : ev ∈ fs)
    (hr : ev.requests = true) (hp : ∀ i buf, ev ≠ .parsed i buf) : Follows e client ev := by
  have tail {es : List Event} {c : SocksConnection} {buf : Bytes}
      (hes : ∀ ev ∈ es, ev.requests = false)
      (h : Parsed initial buf e client es c b fs c') : Follows e client ev := by
    cases h with
    | kept => rw [hes ev hev] at hr; cases hr
    | taken _ ht =>
        obtain ⟨⟨tail, rfl, ht⟩, -⟩ := ht
        rcases List.mem_append.mp hev with hev | hev
        · rcases List.mem_append.mp hev with hev | hev
          · rw [hes ev hev] at hr; cases hr
          · exact absurd (List.mem_singleton.mp hev) (hp _ _)
        · exact ht ev hev
  cases h with
  | none _ hadds _ =>
      obtain ⟨tail, rfl, ht⟩ := hadds
      rw [ht ev hev] at hr
      cases hr
  | again _ h => exact tail (fun _ h => (List.not_mem_nil h).elim) h
  | data _ h => exact tail (by simp [Event.requests]) h

/-- Outside the reading states no event belongs to a request; inside, those that do follow from
what `can_connect` says of the client. -/
theorem Run.follows (h : Run (World.fresh self client time) vs b w) {v : Visit} (hv : v ∈ vs)
    {ev : Event} (hev : ev ∈ v.after.trace) (hr : ev.requests = true)
    (hp : ∀ i buf, ev ≠ .parsed i buf) :
    ∃ d, v.before.conn.client = some d ∧ Follows v.input.env d ev := by
  obtain ⟨us, ts, -, hrun, hw⟩ := h.visit hv
  by_cases hst : v.before.conn.state = .pipeing
  · obtain ⟨fs, relaying⟩ := hrun.staged.relays hst
    have after := visit_relaying hw relaying
    have := Event.not_requests_of_relays (after.relays ev (List.mem_append_right _ hev))
    rw [hr] at this
    cases this
  · have h := hrun.staged.handshaken hst
    obtain ⟨d, hd⟩ := Option.ne_none_iff_exists'.mp (h.shaped.client hst)
    cases hread : v.before.conn.state.reading with
    | true =>
        obtain ⟨ver, hver⟩ := v.before.conn.state.reading_cases hread
        exact ⟨d, hd, (visit_turn hw hver hd).follows hev hr hp⟩
    | false =>
        -- such a state does nothing that belongs to a request
        have := (visit_apart hw hst hread h.shaped).events ev hev
        rw [hr] at this
        cases this

/-! ### The decisions of a run -/

/-- The shapes that the decisions of a run can have. -/
theorem Course.cases {st : ConnectionState} {ms : List Event} (h : Course st ms) :
    (st.served = false ∧ ∃ v : Version, ms = v.opening) ∨
      (st ≠ .pipeing ∧ ∃ v : Version, ms = v.opening ++ [.asked (some true)]) ∨
      (st ≠ .pipeing ∧ ∃ v, Announced v ms) ∨
      (st = .writingResponseFailure ∧ Refused ms) ∨ Granted ms := by
  cases st with
  | readingInitialRequest => exact .inl ⟨rfl, .socks4, h⟩
  | socks5ReadingRequest => exact .inl ⟨rfl, .socks5, h⟩
  | socks5WritingAuthResponseSuccess => exact .inl ⟨rfl, .socks5, h⟩
  | socks4ConnectingServer => exact .inr (.inl ⟨nofun, .socks4, h⟩)
  | socks5ConnectingServer => exact .inr (.inl ⟨nofun, .socks5, h⟩)
  | socks4WritingBindResponse | socks4WaitingConnection =>
      exact .inr (.inr (.inl ⟨nofun, .socks4, h⟩))
  | socks5WritingBindResponse | socks5WaitingConnection =>
      exact .inr (.inr (.inl ⟨nofun, .socks5, h⟩))
  | writingResponseFailure => exact .inr (.inr (.inr (.inl ⟨rfl, h⟩)))
  | writingResponseSuccess | pipeing => exact .inr (.inr (.inr (.inr h)))

theorem mem_milestones {ev : Event} (hm : ev.milestone = true) :
    ev ∈ milestones es ↔ ev ∈ es := by
  rw [milestones, List.mem_filter]
  exact and_iff_left hm

/-- Only decisions queue replies. -/
theorem queuedBytes_milestones (es : List Event) :
    queuedBytes (milestones es) = queuedBytes es := by
  induction es with
  | nil => rfl
  | cons ev es ih =>
      cases ev with
      | queued reply => simp [Event.milestone, ih]
      | asked a => cases a <;> simp [Event.milestone, Event.queuedBytes, ih]
      | _ => simp [Event.milestone, Event.queuedBytes, ih]

/-- The method reply is all that goes before the request. -/
theorem Version.mem_opening (v : Version) {ev : Event} (h : ev ∈ v.opening) :
    ev = .queued methodReply := by
  cases v with
  | socks4 => cases h
  | socks5 => exact List.mem_singleton.mp h

theorem queuedBytes_opening (v : Version) : queuedBytes v.opening = v.greeting := by
  cases v <;> rfl

/-- A client that was turned away. -/
theorem Course.refused {st : ConnectionState} {ms : List Event} (h : Course st ms)
    (hm : .asked (some false) ∈ ms) : st = .writingResponseFailure ∧ Refused ms := by
  have opening (v : Version) : .asked (some false) ∉ v.opening :=
    fun hm => by cases v.mem_opening hm
  rcases h.cases with ⟨_, v, rfl⟩ | ⟨_, v, rfl⟩ | ⟨_, v, l, r, _, rfl⟩ | h | h
  · exact absurd hm (opening v)
  · simp [opening] at hm
  · simp [opening] at hm
  · exact h
  · cases h with
    | connect => simp [opening] at hm
    | bind => simp [opening] at hm

/-- An accepted connection came in through a listener. -/
theorem Course.listened {st : ConnectionState} {ms : List Event} (h : Course st ms)
    {d : FileDescriptor} (hm : .accepted d ∈ ms) : ∃ l, .listening l ∈ ms := by
  have opening (v : Version) : .accepted d ∉ v.opening := fun hm => by cases v.mem_opening hm
  rcases h.cases with ⟨_, v, rfl⟩ | ⟨_, v, rfl⟩ | ⟨_, v, l, r, _, rfl⟩ | ⟨_, v, a, r, _, rfl⟩ | h
  · exact absurd hm (opening v)
  · simp [opening] at hm
  · simp [opening] at hm
  · simp [opening] at hm
  · cases h with
    | connect => simp [opening] at hm
    | @bind _ _ _ l => exact ⟨l, by simp⟩

theorem Staged.fromServer {c : SocksConnection} (h : Staged b es c) (hs : c.state ≠ .pipeing) :
    readFrom .server es = [] := by
  cases h with
  | handshake h => exact h.fromServer
  | relay _ _ h => exact absurd h.state hs

/-- What the client has been sent is the front of the replies and of what the server sent. -/
theorem Staged.sent_front {c : SocksConnection} (h : Staged b es c) :
    wroteTo .client es <+: queuedBytes (milestones es) ++ readFrom .server es :=
  ⟨c.clientWriteBuff, by rw [queuedBytes_milestones]; exact h.sent⟩

theorem exists_failureReply (v : Version) : ∃ r, FailureReply v r :=
  ⟨_, ⟨false, 8, .inr rfl⟩, v.failure, 0, 0, by cases v <;> decide, rfl⟩

/-- What access control promises of a run that has got to `w`. -/
structure Controlled (vs : List Visit) (w : World) : Prop where
  /-- sockets are created in steps in which `can_connect` returns true for the client -/
  opens : ∀ v ∈ vs, ∀ ev ∈ v.after.trace, ev.opens = true →
    ∃ d, v.before.conn.client = some d ∧ canConnect v.input.env d = some true
  /-- the answers noted down are those of `can_connect` -/
  asked : ∀ v ∈ vs, ∀ a, .asked a ∈ v.after.trace →
    ∃ d, v.before.conn.client = some d ∧ canConnect v.input.env d = a
  /-- a client turned away, by a false or a throw, is not served now, and has been sent no more than
  the front of the method reply, if that was due, and one failure reply -/
  refused : ∀ a, .asked a ∈ events vs → a ≠ some true → w.conn.state.served = false ∧
    ∃ ver r, FailureReply ver r ∧ wroteTo .client (events vs) <+: ver.greeting ++ r
  /-- what a `BIND` accepts came in through a listener -/
  accepted : ∀ d, .accepted d ∈ events vs → ∃ l, .listening l ∈ events vs

/-- **Access control**, in every run of a connection. -/
theorem access_control (h : Run (World.fresh self client time) vs b w) : Controlled vs w := by
  have staged := h.staged
  refine ⟨fun v hv ev hev ho => ?_, fun v hv a ha => ?_, fun a ha hne => ?_, fun d hd => ?_⟩
  · have hr : ev.requests = true := by cases ev <;> first | rfl | cases ho
    obtain ⟨d, hd, hf⟩ := h.follows hv hev hr fun _ _ he => by rw [he] at ho; cases ho
    refine ⟨d, hd, ?_⟩
    cases ev <;> first | exact hf | cases ho
  · obtain ⟨d, hd, hf⟩ := h.follows hv ha rfl nofun
    exact ⟨d, hd, hf.symm⟩
  · have course := staged.course
    cases a with
    | none =>
        -- the step threw: nothing of a reply was queued
        obtain ⟨-, hread⟩ := staged.denied ha
        obtain ⟨ver, hver⟩ := w.conn.state.reading_cases hread
        obtain ⟨r, hr⟩ := exists_failureReply ver
        have hm : milestones (events vs) = ver.opening := by
          rw [hver] at course
          cases ver <;> exact course
        have sent := staged.sent_front
        rw [staged.fromServer (by rw [hver]; cases ver <;> nofun), hm, queuedBytes_opening,
          List.append_nil] at sent
        exact ⟨by rw [hver]; cases ver <;> rfl, ver, r, hr, sent.trans (List.prefix_append _ _)⟩
    | some a =>
        -- refused: the failure reply is all that the client gets
        obtain rfl : a = false := by cases a <;> first | rfl | exact absurd rfl hne
        obtain ⟨hst, ver, a, r, hr, hm⟩ := course.refused ((mem_milestones rfl).mpr ha)
        have sent := staged.sent_front
        rw [staged.fromServer (by rw [hst]; nofun), hm, queuedBytes_append, queuedBytes_opening,
          List.append_nil] at sent
        exact ⟨by rw [hst]; rfl, ver, r, hr, by simpa [Event.queuedBytes] using sent⟩
  · obtain ⟨l, hl⟩ := staged.course.listened ((mem_milestones rfl).mpr hd)
    exact ⟨l, (mem_milestones rfl).mp hl⟩

end

/-- A run whose client is turned away. -/
def Sample.refused : List Visit × Bool × World :=
  play (.fresh 0 client 0)
    [visit [7] [] { env with read := fun _ => .data request, config := {} }]

theorem access_control_sample :
    .asked (some false) ∈ events Sample.refused.1 ∧
      Controlled Sample.refused.1 Sample.refused.2.2 :=
  ⟨by decide, access_control (run_play _ _)⟩

/-! ### The transcript -/

/-- What the client is sent in the end, `relayed` being what the server sent. -/
inductive Transcript (relayed : Bytes) : Bytes → Prop where
  | failure {v : Version} {r : Bytes} (h : FailureReply v r) : Transcript relayed (v.greeting ++ r)
  | connect {v : Version} {r : Bytes} (h : SuccessReply v r) :
      Transcript relayed (v.greeting ++ r ++ relayed)
  | bind {v : Version} {r r' : Bytes} (h : SuccessReply v r) (h' : SuccessReply v r') :
      Transcript relayed (v.greeting ++ r ++ r' ++ relayed)

theorem FailureReply.length {v : Version} {r : Bytes} (h : FailureReply v r) :
    r.length = v.replyLength := by
  obtain ⟨abi, code, port, address, -, rfl⟩ := h
  rw [length_create]
  cases v <;> rfl

theorem SuccessReply.length {v : Version} {r : Bytes} (h : SuccessReply v r) :
    r.length = v.replyLength := by
  obtain ⟨abi, port, address, rfl⟩ := h
  rw [length_create]
  cases v <;> rfl

/-- A reply says one thing. -/
theorem SuccessReply.not_failure {v v' : Version} {r : Bytes} (h : SuccessReply v r) :
    ¬ FailureReply v' r := by
  intro h'
  have hl := h.length.symm.trans h'.length
  obtain ⟨abi, port, address, rfl⟩ := h
  obtain ⟨abi', code, port', address', hne, he⟩ := h'
  cases v <;> cases v' <;> first
    | exact hne (congrArg (fun r : Bytes => r.getD 1 0) he).symm
    | cases hl

theorem FailureReply.ne_methodReply {v : Version} {r : Bytes} (h : FailureReply v r) :
    r ≠ methodReply := by
  rintro rfl
  have := h.length
  cases v <;> cases this

theorem SuccessReply.ne_methodReply {v : Version} {r : Bytes} (h : SuccessReply v r) :
    r ≠ methodReply := by
  rintro rfl
  have := h.length
  cases v <;> cases this

section
variable {st : ConnectionState} {ms : List Event} {relayed : Bytes}

theorem exists_successReply (v : Version) : ∃ r, SuccessReply v r :=
  ⟨_, ⟨false, 8, .inr rfl⟩, 0, 0, rfl⟩

/-- The replies of a run, and the relayed bytes if it relays, begin a transcript. -/
theorem Course.transcript (h : Course st ms) (hr : st ≠ .pipeing → relayed = []) :
    ∃ t, Transcript relayed t ∧ queuedBytes ms ++ relayed <+: t := by
  have greeting (v : Version) (ms : List Event) :
      queuedBytes (v.opening ++ ms) = v.greeting ++ queuedBytes ms := by
    rw [queuedBytes_append, queuedBytes_opening]
  rcases h.cases with ⟨hs, v, rfl⟩ | ⟨hs, v, rfl⟩ | ⟨hs, v, l, r, hr₁, rfl⟩ |
      ⟨rfl, v, a, r, hr₁, rfl⟩ | h
  · -- nothing is decided yet: a refusal may follow
    obtain ⟨r, hf⟩ := exists_failureReply v
    obtain rfl := hr (by rintro rfl; cases hs)
    refine ⟨_, .failure hf, ?_⟩
    rw [queuedBytes_opening, List.append_nil]
    exact List.prefix_append _ _
  · obtain ⟨r, hf⟩ := exists_failureReply v
    obtain rfl := hr hs
    refine ⟨_, .failure hf, ?_⟩
    rw [greeting, List.append_nil]
    exact (List.prefix_append_right_inj _).mpr List.nil_prefix
  · -- between the two replies of a `BIND`
    obtain ⟨r', hr₂⟩ := exists_successReply v
    obtain rfl := hr hs
    refine ⟨_, .bind hr₁ hr₂, ?_⟩
    rw [greeting, List.append_nil, List.append_nil]
    simp [Event.queuedBytes]
  · obtain rfl := hr fun h => by cases h
    refine ⟨_, .failure hr₁, ?_⟩
    rw [greeting]
    simp [Event.queuedBytes]
  · cases h with
    | connect hr₁ =>
        refine ⟨_, .connect hr₁, ?_⟩
        rw [greeting]
        simp [Event.queuedBytes]
    | bind hr₁ hr₂ =>
        refine ⟨_, .bind hr₁ hr₂, ?_⟩
        rw [greeting]
        simp [Event.queuedBytes]

/-- The decision to queue a failure reply is the last one. -/
theorem Course.failed (h : Course st ms) {v : Version} {r : Bytes} (hf : FailureReply v r)
    (hm : .queued r ∈ ms) : st = .writingResponseFailure ∧ ∃ v', FailureReply v' r ∧
      queuedBytes ms = v'.greeting ++ r := by
  have opening (v' : Version) : .queued r ∉ v'.opening :=
    fun hm => hf.ne_methodReply (Event.queued.inj (v'.mem_opening hm))
  rcases h.cases with ⟨_, v, rfl⟩ | ⟨_, v, rfl⟩ | ⟨_, v, l, r', hs, rfl⟩ |
      ⟨rfl, v, a, r', hr, rfl⟩ | h
  · exact absurd hm (opening v)
  · simp [opening] at hm
  · simp only [List.mem_append, opening, List.mem_cons, reduceCtorEq, Event.queued.injEq,
      List.not_mem_nil, or_false, false_or] at hm
    exact absurd hf (hm ▸ hs.not_failure)
  · simp only [List.mem_append, opening, List.mem_cons, reduceCtorEq, Event.queued.injEq,
      List.not_mem_nil, or_false, false_or] at hm
    subst hm
    refine ⟨rfl, v, hr, ?_⟩
    rw [queuedBytes_append, queuedBytes_opening]
    simp [Event.queuedBytes]
  · cases h with
    | connect hs =>
        simp only [List.mem_append, opening, List.mem_cons, reduceCtorEq, Event.queued.injEq,
          List.not_mem_nil, or_false, false_or] at hm
        exact absurd hf (hm ▸ hs.not_failure)
    | bind hs hs' =>
        simp only [List.mem_append, opening, List.mem_cons, reduceCtorEq, Event.queued.injEq,
          List.not_mem_nil, or_false, false_or] at hm
        rcases hm with hm | hm
        · exact absurd hf (hm ▸ hs.not_failure)
        · exact absurd hf (hm ▸ hs'.not_failure)

/-- What comes before a reply other than the method reply, when it stands in a short list. -/
theorem before_reply {v : Version} {r : Bytes} {ms pre post : List Event} (hr : r ≠ methodReply)
    (h : v.opening ++ ms = pre ++ Event.queued r :: post) :
    ∃ pre', pre = v.opening ++ pre' ∧ ms = pre' ++ Event.queued r :: post := by
  cases v with
  | socks4 => exact ⟨pre, rfl, h⟩
  | socks5 =>
      cases pre with
      | nil => exact absurd (Event.queued.inj (List.cons.inj h).1).symm hr
      | cons ev pre =>
          obtain ⟨rfl, hms⟩ := List.cons.inj h
          exact ⟨pre, rfl, hms⟩

/-- A success reply stands behind what it reports. -/
theorem Course.earned {pre post : List Event} {v : Version} {r : Bytes} (hr : SuccessReply v r)
    (h : Course st (pre ++ Event.queued r :: post)) :
    .connected ∈ pre ∨ ∃ l, .listening l ∈ pre ∧
      ((∃ v' r', SuccessReply v' r' ∧ .queued r' ∈ pre) → ∃ d, .accepted d ∈ pre) := by
  have hm := hr.ne_methodReply
  have opening (v' : Version) {v : Version} {r : Bytes} (hr : SuccessReply v r) :
      .queued r ∉ v'.opening :=
    fun hm => hr.ne_methodReply (Event.queued.inj (v'.mem_opening hm))
  rcases h.cases with ⟨_, v, he⟩ | ⟨_, v, he⟩ | ⟨_, v, l, r', hs, he⟩ | ⟨_, v, a, r', hf, he⟩ | hg
  · obtain ⟨pre', -, hl⟩ := before_reply hm ((List.append_nil _).trans he.symm)
    cases pre' <;> cases hl
  · obtain ⟨pre', -, hl⟩ := before_reply hm he.symm
    rcases pre' with _ | ⟨_, _ | _⟩ <;> cases hl
  · obtain ⟨pre', rfl, hl⟩ := before_reply hm he.symm
    -- the reply is the last of the milestones: the others stand before it
    rcases pre' with _ | ⟨_, _ | ⟨_, _ | ⟨_, _ | _⟩⟩⟩ <;> cases hl
    refine .inr ⟨l, by simp, ?_⟩
    rintro ⟨v', r', hr', hq⟩
    simp [opening v hr'] at hq
  · obtain ⟨pre', rfl, hl⟩ := before_reply hm he.symm
    rcases pre' with _ | ⟨_, _ | ⟨_, _ | _⟩⟩ <;> cases hl
    exact absurd hf hr.not_failure
  · generalize hms : pre ++ Event.queued r :: post = ms at hg
    cases hg with
    | connect =>
        obtain ⟨pre', rfl, hl⟩ := before_reply hm hms.symm
        rcases pre' with _ | ⟨_, _ | ⟨_, _ | ⟨_, _ | _⟩⟩⟩ <;> cases hl
        exact .inl (by simp)
    | @bind v _ _ l d =>
        obtain ⟨pre', rfl, hl⟩ := before_reply hm hms.symm
        rcases pre' with _ | ⟨_, _ | ⟨_, _ | ⟨_, _ | ⟨_, _ | ⟨_, _ | _⟩⟩⟩⟩⟩ <;> cases hl
        · refine .inr ⟨l, by simp, ?_⟩
          rintro ⟨v', r', hr', hq⟩
          simp [opening v hr'] at hq
        · exact .inr ⟨l, by simp, fun _ => ⟨d, by simp⟩⟩

end

section
variable {self : Nat} {client : FileDescriptor} {time : Int} {vs : List Visit} {b : Bool}
  {w : World}

/-- What the events of a run say of the bytes sent to the client; `alive` is what `work` returned
last. -/
structure Transcribed (alive : Bool) (es : List Event) : Prop where
  /-- they begin a transcript -/
  sent : ∃ t, Transcript (readFrom .server es) t ∧ wroteTo .client es <+: t
  /-- the replies have 8 bytes in version 4 and 10 bytes in version 5 -/
  length : ∀ ver r, SuccessReply ver r ∨ FailureReply ver r → r.length = ver.replyLength
  /-- when something has come from the server, all replies have been written -/
  replied : readFrom .server es ≠ [] → queuedBytes es <+: wroteTo .client es
  /-- a failure reply is the last thing sent, and `work` returns false when it is out -/
  failed : ∀ ver r, FailureReply ver r → .queued r ∈ es → ∃ ver', FailureReply ver' r ∧
    wroteTo .client es <+: ver'.greeting ++ r ∧
      (wroteTo .client es = ver'.greeting ++ r → alive = false)
  /-- a success reply is queued after the connection was made; for a `BIND`, after the listener was
  created, and the second one after a connection was accepted -/
  earned : ∀ pre post ver r, SuccessReply ver r → es = pre ++ .queued r :: post →
    .connected ∈ pre ∨ ∃ l, .listening l ∈ pre ∧
      ((∃ ver' r', SuccessReply ver' r' ∧ .queued r' ∈ pre) → ∃ d, .accepted d ∈ pre)

/-- **The transcript** of every run of a connection. -/
theorem reply_transcript (h : Run (World.fresh self client time) vs b w) :
    Transcribed b (events vs) := by
  have staged := h.staged
  refine ⟨?_, fun ver r hr => hr.elim SuccessReply.length FailureReply.length, staged.replied,
    fun ver r hf hq => ?_, fun pre post ver r hr he => ?_⟩
  · obtain ⟨t, ht, hp⟩ := staged.course.transcript staged.fromServer
    exact ⟨t, ht, staged.sent_front.trans hp⟩
  · obtain ⟨hst, v', hf', hqb⟩ := staged.course.failed hf ((mem_milestones rfl).mpr hq)
    rw [queuedBytes_milestones] at hqb
    have sent := staged.sent
    rw [staged.fromServer (by rw [hst]; nofun), List.append_nil, hqb] at sent
    refine ⟨v', hf', ⟨_, sent⟩, fun hall => ?_⟩
    cases b with
    | false => rfl
    | true =>
        -- all of the reply is written, so the connection does not wait to write
        rw [hall] at sent
        exact absurd (List.append_right_eq_self.mp sent) (staged.busy (by rw [hst]; rfl))
  · have course := staged.course
    rw [he, milestones_append, milestones_cons,
      if_pos (show (Event.queued r).milestone = true from rfl)] at course
    have mem {ev : Event} (hev : ev.milestone = true) : ev ∈ milestones pre ↔ ev ∈ pre :=
      mem_milestones hev
    rcases course.earned hr with hc | ⟨l, hl, hacc⟩
    · exact .inl ((mem rfl).mp hc)
    · refine .inr ⟨l, (mem rfl).mp hl, fun ⟨ver', r', hr', hq'⟩ => ?_⟩
      obtain ⟨d, hd⟩ := hacc ⟨ver', r', hr', (mem rfl).mpr hq'⟩
      exact ⟨d, (mem rfl).mp hd⟩

end

theorem reply_transcript_sample :
    wroteTo .client (events (Sample.handshake Sample.request).1) = [0, 90, 0, 80, 10, 0, 0, 1] ∧
      Transcribed true (events (Sample.handshake Sample.request).1) :=
  ⟨by decide, reply_transcript (run_play _ _)⟩

end OldStuff.Socks
