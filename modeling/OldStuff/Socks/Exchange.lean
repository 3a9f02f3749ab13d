import OldStuff.Socks.Order

/-!
# Socks — the exchange on the status page

A run of an `http_connection` is a sequence of visits, as for a `socks_connection`.  `Exchanged` is
its invariant: the bytes received have no blank line yet and nothing was said, or they have one and
what was written and what waits are together the one reply that was built.  `Answered` says what a
visit adds.

`status_exchange` reads off the transcript of every run.  Every status connection of the main loop
has such a run (`Reachable.httpRun`).
-/

namespace OldStuff.Socks
open OldStuff.Io
open OldStuff.Lib (Outcome)
open OldStuff.Io.Select (Holds)

/-! ### Runs -/

/-- The `switch` of `http_connection::work`. -/
def httpHandler (address : Nat → Nat) (e : Env) (w : HttpWorld) : Outcome HttpWorld Bool :=
  match w.conn.state with
  | .readingRequest => readingRequest address e w
  | .sendingReply => sendingReply e w

theorem httpWork_eq (address : Nat → Nat) (e : Env) (w : HttpWorld) :
    httpWork address e w =
      (httpHandler address e w).recover fun w => .ok false (w.onSelect w.conn.clearSelect) := rfl

/-- What a visit finds: the results of its calls, where the connections are in memory, and what the
rest of the server left in the objects it shares. -/
structure HttpInput where
  env : Env
  address : Nat → Nat
  select : Select
  status : Status

/-- The world in which `work` is called. -/
def HttpWorld.enter (i : HttpInput) (w : HttpWorld) : HttpWorld :=
  { w with select := i.select, status := i.status, trace := [] }

/-- One call of `work`: the world it was called in, its result, the world it left. -/
structure HttpVisit where
  input : HttpInput
  before : HttpWorld
  alive : Bool
  after : HttpWorld

/-- `HttpRun w₀ vs b w`: the visits `vs` lead from `w₀` to `w`, the last `work` having returned
`b`. -/
inductive HttpRun (w₀ : HttpWorld) : List HttpVisit → Bool → HttpWorld → Prop where
  | start : HttpRun w₀ [] true w₀
  | step {vs : List HttpVisit} {w w' : HttpWorld} {b : Bool} (i : HttpInput)
      (h : HttpRun w₀ vs true w) (hw : httpWork i.address i.env (w.enter i) = .ok b w') :
      HttpRun w₀ (vs ++ [⟨i, w, b, w'⟩]) b w'

/-- What the visits did, in order. -/
def httpEvents (vs : List HttpVisit) : List Event := vs.flatMap fun v => v.after.trace

@[simp] theorem httpEvents_nil : httpEvents [] = [] := rfl

@[simp] theorem httpEvents_append (vs us : List HttpVisit) :
    httpEvents (vs ++ us) = httpEvents vs ++ httpEvents us :=
  List.flatMap_append

@[simp] theorem httpEvents_singleton (v : HttpVisit) : httpEvents [v] = v.after.trace :=
  List.append_nil _

/-- A world around a new connection, whose client `main` has registered. -/
def HttpWorld.fresh (self : Nat) (client : FileDescriptor) (time : Int) : HttpWorld where
  self := self
  conn := .new client time
  select := Select.empty.addRead (some client)
  status := ∅
  trace := []

/-- The handler threw. -/
def HttpVisit.Raised (v : HttpVisit) : Prop :=
  ∃ u, httpHandler v.input.address v.input.env (v.before.enter v.input) = .thrown u

/-- The rest of the server has left the registrations of the client as they were. -/
def HttpVisit.Undisturbed (v : HttpVisit) : Prop :=
  let p : Pointer := some v.before.conn.client
  (p ∈ v.input.select.fileDescriptorsRead ↔ p ∈ v.before.select.fileDescriptorsRead) ∧
    (p ∈ v.input.select.fileDescriptorsWrite ↔ p ∈ v.before.select.fileDescriptorsWrite)

/-! ### The transcript -/

/-- There is a blank line. -/
def Terminated (bs : Bytes) : Prop := latin1 "\r\n\r\n" <:+: bs ∨ latin1 "\n\n" <:+: bs

instance (bs : Bytes) : Decidable (Terminated bs) :=
  inferInstanceAs (Decidable (latin1 "\r\n\r\n" <:+: bs ∨ latin1 "\n\n" <:+: bs))

def Event.reply : Event → List Bytes
  | .queued reply => [reply]
  | _ => []

/-- The replies built. -/
def replies (es : List Event) : List Bytes := es.flatMap Event.reply

section
variable (es fs : List Event) (ev : Event)

@[simp] theorem replies_nil : replies [] = [] := rfl
@[simp] theorem replies_append : replies (es ++ fs) = replies es ++ replies fs :=
  List.flatMap_append
@[simp] theorem replies_cons : replies (ev :: es) = ev.reply ++ replies es := rfl

end

theorem not_terminated_nil : ¬ Terminated [] := by decide

/-- A blank line stays. -/
theorem Terminated.append {bs : Bytes} (h : Terminated bs) (cs : Bytes) : Terminated (bs ++ cs) :=
  h.imp (fun h => h.trans (List.prefix_append bs cs).isInfix)
    fun h => h.trans (List.prefix_append bs cs).isInfix

theorem createReply_ne_nil (address : Nat → Nat) (status : Status) :
    createReply address status ≠ [] := by
  intro h
  have front := (List.append_eq_nil_iff.mp (List.append_eq_nil_iff.mp h).1).1
  revert front
  decide

/-- What has happened and what a connection is. -/
inductive Exchanged (alive : Bool) (es : List Event) (c : HttpConnection) : Prop where
  | reading (hst : c.state = .readingRequest) (open' : ¬ Terminated (readFrom .client es))
      (buff : c.clientReadBuff = readFrom .client es) (silent : ∀ s bs, Event.wrote s bs ∉ es)
      (unbuilt : replies es = []) (more : alive = true → Event.eof .client ∉ es)
  | sending (reply : Bytes) (hst : c.state = .sendingReply)
      (complete : Terminated (readFrom .client es)) (built : replies es = [reply])
      (flow : wroteTo .client es ++ c.clientWriteBuff = reply)
      (more : alive = true → c.clientWriteBuff ≠ []) (open' : Event.eof .client ∉ es)

/-- The whole reply has been written. -/
def Finished (es : List Event) : Prop := ∃ reply ∈ replies es, wroteTo .client es = reply

/-- What a visit adds to `past`, unless the handler throws. -/
structure Answered (address : Nat → Nat) (status : Status) (past : List Event) (b : Bool)
    (w : HttpWorld) : Prop where
  exchanged : Exchanged b (past ++ w.trace) w.conn
  built : replies w.trace =
    if ¬ Terminated (readFrom .client past) ∧ Terminated (readFrom .client (past ++ w.trace)) then
      [createReply address status]
    else []
  ended : b = false ↔ Finished (past ++ w.trace) ∨ Event.eof .client ∈ w.trace

section
variable {address : Nat → Nat} {e : Env} {past es : List Event} {w w' : HttpWorld}
  {c : HttpConnection} {b : Bool}

theorem Exchanged.dead (h : Exchanged true es c) : Exchanged false es c := by
  cases h with
  | reading hst open' buff silent unbuilt more =>
      exact .reading hst open' buff silent unbuilt nofun
  | sending reply hst complete built flow more open' =>
      exact .sending reply hst complete built flow nofun open'

/-- While it lives, nothing has ended it. -/
theorem Exchanged.unfinished (h : Exchanged true es c) :
    ¬ Finished es ∧ Event.eof .client ∉ es := by
  cases h with
  | reading hst open' buff silent unbuilt more =>
      refine ⟨?_, more rfl⟩
      rintro ⟨reply, hr, -⟩
      rw [unbuilt] at hr
      cases hr
  | sending reply hst complete built flow more open' =>
      refine ⟨?_, open'⟩
      rintro ⟨r, hr, hw⟩
      rw [built, List.mem_singleton] at hr
      rw [hr, ← flow] at hw
      exact more rfl (List.self_eq_append_right.mp hw)

/-- The result of a visit that the connection survives. -/
theorem Exchanged.lives (h : Exchanged true (past ++ es) c) :
    true = false ↔ Finished (past ++ es) ∨ Event.eof .client ∈ es := by
  refine ⟨fun hb => (by cases hb), ?_⟩
  rintro (hd | hd)
  · exact absurd hd h.unfinished.1
  · exact absurd (List.mem_append_right past hd) h.unfinished.2

/-- The visit in which nothing happens. -/
theorem Exchanged.idle (h : Exchanged true past w.conn) (ht : w.trace = []) (status : Status) :
    Answered address status past true w := by
  have same : past ++ w.trace = past := by rw [ht, List.append_nil]
  have h : Exchanged true (past ++ w.trace) w.conn := by rwa [same]
  refine ⟨h, ?_, h.lives⟩
  rw [if_neg (by rw [same]; exact fun h => h.1 h.2), ht]
  rfl

/-- One more event, with which no byte is received or written: the reply. -/
theorem Exchanged.build {reply : Bytes} (complete : Terminated (readFrom .client es))
    (mute : wroteTo .client es = []) (unbuilt : replies es = []) (more : Event.eof .client ∉ es)
    (hr : reply ≠ []) :
    readFrom .client (es ++ [Event.queued reply]) = readFrom .client es ∧
      Exchanged true (es ++ [Event.queued reply])
        { c with clientWriteBuff := reply, state := .sendingReply } := by
  have received : readFrom .client (es ++ [Event.queued reply]) = readFrom .client es := by
    rw [readFrom_append]
    exact List.append_nil _
  refine ⟨received, .sending reply rfl (received ▸ complete) ?_ ?_ (fun _ => hr) ?_⟩
  · rw [replies_append, unbuilt]
    rfl
  · rw [wroteTo_append, mute]
    rfl
  · simpa using more

/-- The end of `reading_request`, whatever the read has brought. -/
theorem requestBuffer_answered (hst : w.conn.state = .readingRequest)
    (hp : ¬ Terminated (readFrom .client past))
    (buff : w.conn.clientReadBuff = readFrom .client (past ++ w.trace))
    (silent : ∀ s bs, Event.wrote s bs ∉ past ++ w.trace) (unbuilt : replies (past ++ w.trace) = [])
    (more : Event.eof .client ∉ past ++ w.trace) :
    (requestBuffer address w).Sat (fun b w' =>
      (readFrom .client (past ++ w'.trace)).length < maxBuffSize →
        Answered address w.status past b w') fun _ => False := by
  have fresh : replies w.trace = [] := by
    rw [replies_append] at unbuilt
    exact (List.append_eq_nil_iff.mp unbuilt).2
  have mute : wroteTo .client (past ++ w.trace) = [] := by
    refine List.flatMap_eq_nil_iff.mpr fun ev hev => ?_
    cases ev with
    | wrote s bs => exact absurd hev (silent s bs)
    | _ => rfl
  unfold requestBuffer
  split
  · next long =>
      intro short
      rw [buff] at long
      exact absurd short (not_lt.mpr long)
  · split
    · next complete =>
        intro _
        have complete : Terminated (readFrom .client (past ++ w.trace)) := buff ▸ complete
        obtain ⟨received, exchanged⟩ := Exchanged.build (c := w.conn) complete mute unbuilt more
          (createReply_ne_nil address w.status)
        rw [List.append_assoc] at received exchanged
        refine ⟨exchanged, ?_, exchanged.lives⟩
        rw [if_pos ⟨hp, (congrArg Terminated received).mpr complete⟩]
        exact (replies_append _ _).trans (congrArg (· ++ _) fresh)
    · next incomplete =>
        intro _
        have incomplete : ¬ Terminated (readFrom .client (past ++ w.trace)) := buff ▸ incomplete
        have exchanged : Exchanged true (past ++ w.trace) w.conn :=
          .reading hst incomplete buff silent unbuilt fun _ => more
        refine ⟨exchanged, ?_, exchanged.lives⟩
        rw [if_neg fun h => incomplete h.2, fresh]

theorem readingRequest_answered (hst : w.conn.state = .readingRequest) (ht : w.trace = [])
    (h : Exchanged true past w.conn) :
    (readingRequest address e w).Sat (fun b w' =>
      (readFrom .client (past ++ w'.trace)).length < maxBuffSize →
        Answered address w.status past b w') fun w' => w' = w := by
  have same : past ++ w.trace = past := by rw [ht, List.append_nil]
  cases h with
  | sending reply hst' _ _ _ _ _ => cases hst.symm.trans hst'
  | reading _ open' buff silent unbuilt more =>
      have more := more rfl
      have here : Exchanged true past w.conn :=
        .reading hst open' buff silent unbuilt fun _ => more
      unfold readingRequest
      split
      · split
        · rfl
        · refine (requestBuffer_answered hst open' ?_ ?_ ?_ ?_).mono (fun _ _ => id)
            fun _ => False.elim
          · rwa [same]
          · rwa [same]
          · rwa [same]
          · rwa [same]
        · intro _
          have ended : Exchanged false (past ++ [Event.eof .client]) w.conn := by
            refine .reading hst ?_ ?_ ?_ ?_ nofun
            · simpa [Event.readFrom] using open'
            · simpa [Event.readFrom] using buff
            · simpa using silent
            · simpa [Event.reply] using unbuilt
          refine ⟨?_, ?_, ?_⟩
          · simpa [HttpWorld.emit, HttpWorld.onSelect, ht] using ended
          · rw [if_neg]
            · simp [HttpWorld.emit, HttpWorld.onSelect, ht, Event.reply]
            · simp [HttpWorld.emit, HttpWorld.onSelect, ht, Event.readFrom]
          · simp [HttpWorld.emit, HttpWorld.onSelect]
        · next chunk _ =>
          refine Outcome.Sat.mono (requestBuffer_answered ?_ open' ?_ ?_ ?_ ?_)
            (fun _ _ => id) fun _ => False.elim
          · exact hst
          · simp [HttpWorld.emit, HttpWorld.onConn, ht, buff, Event.readFrom]
          · simpa [HttpWorld.emit, HttpWorld.onConn, ht] using silent
          · simpa [HttpWorld.emit, HttpWorld.onConn, ht, Event.reply] using unbuilt
          · simpa [HttpWorld.emit, HttpWorld.onConn, ht] using more
      · exact fun _ => here.idle ht _

/-- What is written goes from the one side of `flow` to the other. -/
theorem Exchanged.send {reply bs rest : Bytes} {alive : Bool} (hst : c.state = .sendingReply)
    (complete : Terminated (readFrom .client es)) (built : replies es = [reply])
    (flow : wroteTo .client es ++ (bs ++ rest) = reply) (more : alive = true → rest ≠ [])
    (open' : Event.eof .client ∉ es) :
    Exchanged alive (es ++ [Event.wrote .client bs]) { c with clientWriteBuff := rest } := by
  refine .sending reply hst ?_ ?_ ?_ more ?_
  · simpa [Event.readFrom] using complete
  · simpa [Event.reply] using built
  · simpa [Event.wroteTo] using flow
  · simp [open']

/-- The rest of the reply is written. -/
theorem finished_of_sent {reply bs : Bytes} (built : replies es = [reply])
    (flow : wroteTo .client es ++ bs = reply) : Finished (es ++ [Event.wrote .client bs]) := by
  refine ⟨reply, ?_, ?_⟩
  · simp [built, Event.reply]
  · simpa [Event.wroteTo] using flow

/-- A write builds no reply. -/
theorem built_of_sent {bs reply : Bytes} (complete : Terminated (readFrom .client past)) :
    replies [Event.wrote .client bs] =
      if ¬ Terminated (readFrom .client past) ∧
          Terminated (readFrom .client (past ++ [Event.wrote .client bs])) then [reply]
      else [] := by
  rw [if_neg fun h => h.1 complete]
  rfl

theorem sendingReply_answered (hst : w.conn.state = .sendingReply) (ht : w.trace = [])
    (h : Exchanged true past w.conn) :
    (sendingReply e w).Sat (fun b w' => Answered address w.status past b w') fun w' => w' = w := by
  cases h with
  | reading hst' _ _ _ _ _ => cases hst.symm.trans hst'
  | sending reply _ complete built flow more open' =>
      unfold sendingReply
      split
      · split
        · rfl
        · next n _ =>
            have trace : w.trace ++ [Event.wrote .client (w.conn.clientWriteBuff.take n)] =
                [Event.wrote .client (w.conn.clientWriteBuff.take n)] := by
              rw [ht]
              rfl
            have flow : wroteTo .client past ++
                (w.conn.clientWriteBuff.take n ++ w.conn.clientWriteBuff.drop n) = reply := by
              rwa [List.take_append_drop]
            dsimp only [HttpWorld.emit, HttpWorld.onConn, HttpWorld.onSelect]
            split
            · next he =>
              have he : w.conn.clientWriteBuff.drop n = [] := List.length_eq_zero_iff.mp he
              have sent : Exchanged false _ _ := .send hst complete built flow nofun open'
              rw [he, List.append_nil] at flow
              refine ⟨?_, ?_, ?_⟩
              · rwa [trace]
              · rw [trace]
                exact built_of_sent complete
              · rw [trace]
                exact ⟨fun _ => .inl (finished_of_sent built flow), fun _ => rfl⟩
            · next he =>
              have sent : Exchanged true _ _ := .send hst complete built flow
                (fun _ hr => he (List.length_eq_zero_iff.mpr hr)) open'
              refine ⟨?_, ?_, ?_⟩
              · rwa [trace]
              · rw [trace]
                exact built_of_sent complete
              · rw [trace]
                exact sent.lives
      · have here : Exchanged true past w.conn :=
          .sending reply hst complete built flow more open'
        exact here.idle ht _

theorem httpHandler_answered (ht : w.trace = []) (h : Exchanged true past w.conn) :
    (httpHandler address e w).Sat (fun b w' =>
      (readFrom .client (past ++ w'.trace)).length < maxBuffSize →
        Answered address w.status past b w') fun w' => w' = w := by
  unfold httpHandler
  split
  · next hst => exact readingRequest_answered hst ht h
  · next hst => exact (sendingReply_answered hst ht h).mono (fun _ _ h _ => h) fun _ => id

/-- **A visit**: what the handler adds, or an exception, which adds nothing. -/
theorem httpWork_answered (ht : w.trace = []) (h : Exchanged true past w.conn)
    (hw : httpWork address e w = .ok b w')
    (hl : (readFrom .client (past ++ w'.trace)).length < maxBuffSize) :
    (¬ ∃ u, httpHandler address e w = .thrown u) ∧ Answered address w.status past b w' ∨
      (∃ u, httpHandler address e w = .thrown u) ∧ b = false ∧ w'.trace = [] ∧
        w'.conn = w.conn := by
  have handled : (httpHandler address e w).Sat _ fun w' => w' = w := httpHandler_answered ht h
  rw [httpWork_eq] at hw
  rcases Outcome.recover_eq_ok.mp hw with ho | ⟨u, ho, hu⟩
  · rw [ho] at handled
    refine .inl ⟨?_, handled hl⟩
    rintro ⟨u, hu⟩
    cases ho.symm.trans hu
  · rw [ho] at handled
    obtain rfl : u = w := handled
    obtain ⟨rfl, rfl⟩ := Outcome.ok.inj hu
    exact .inr ⟨⟨u, ho⟩, rfl, ht, rfl⟩

end

/-! ### The registrations -/

/-- What `select` may hold besides the registrations of `client`. -/
def besides (client : FileDescriptor) (s : Select) : Watch where
  read p := p ∈ s.fileDescriptorsRead ∧ p ≠ some client
  write p := p ∈ s.fileDescriptorsWrite ∧ p ≠ some client

/-- The client is in the list that the state says, and in no other. -/
def Enrolled (client : FileDescriptor) (b : Bool) (state : HttpState) (s : Select) : Prop :=
  (some client ∈ s.fileDescriptorsRead ↔ b = true ∧ state = .readingRequest) ∧
    (some client ∈ s.fileDescriptorsWrite ↔ b = true ∧ state = .sendingReply)

section
variable {client : FileDescriptor} {c : HttpConnection} {s : Select} {theirs : Watch}

theorem watch_read {p : Pointer} :
    c.watch.read p ↔ p = some c.client ∧ c.state = .readingRequest := by
  unfold HttpConnection.watch
  split
  · next hst => exact (and_iff_left hst).symm
  · next hst => exact iff_of_false id fun h => by cases hst.symm.trans h.2

theorem watch_write {p : Pointer} :
    c.watch.write p ↔ p = some c.client ∧ c.state = .sendingReply := by
  unfold HttpConnection.watch
  split
  · next hst => exact iff_of_false id fun h => by cases hst.symm.trans h.2
  · next hst => exact (and_iff_left hst).symm

theorem enrolled_of_holds (h : Holds theirs c.watch s) (ht : theirs.Without (some c.client)) :
    Enrolled c.client true c.state s := by
  constructor
  · rw [h.read, or_iff_right ht.1, watch_read, and_iff_right rfl, and_iff_right rfl]
  · rw [h.write, or_iff_right ht.2, watch_write, and_iff_right rfl, and_iff_right rfl]

theorem not_enrolled_of_holds (st : HttpState) (h : Holds theirs .nothing s)
    (ht : theirs.Without (some client)) : Enrolled client false st s := by
  refine ⟨⟨fun hm => ?_, nofun⟩, ⟨fun hm => ?_, nofun⟩⟩
  · exact absurd ((h.read _).mp hm) fun h => h.elim ht.1 id
  · exact absurd ((h.write _).mp hm) fun h => h.elim ht.2 id

theorem Enrolled.holds (h : Enrolled c.client true c.state s) :
    Holds (besides c.client s) c.watch s := by
  constructor
  · intro p
    rw [watch_read]
    by_cases hp : p = some c.client
    · subst hp
      rw [h.1]
      simp [besides]
    · simp [besides, hp]
  · intro p
    rw [watch_write]
    by_cases hp : p = some c.client
    · subst hp
      rw [h.2]
      simp [besides]
    · simp [besides, hp]

theorem besides_without (client : FileDescriptor) (s : Select) :
    (besides client s).Without (some client) :=
  ⟨fun h => h.2 rfl, fun h => h.2 rfl⟩

end

namespace HttpRun

variable {self : Nat} {client : FileDescriptor} {time : Int} {w₀ w : HttpWorld}
  {vs : List HttpVisit} {b : Bool}

/-- A run up to one of its visits, and the visit. -/
theorem split {us ts : List HttpVisit} {v : HttpVisit} (h : HttpRun w₀ vs b w)
    (hv : vs = us ++ v :: ts) : HttpRun w₀ us true v.before ∧
      httpWork v.input.address v.input.env (v.before.enter v.input) = .ok v.alive v.after := by
  induction h generalizing ts with
  | start => simp at hv
  | step i h hw ih =>
      rcases List.eq_nil_or_concat ts with rfl | ⟨ts, u, rfl⟩
      · obtain ⟨rfl, he⟩ := List.append_inj' hv rfl
        obtain rfl := List.singleton_inj.mp he
        exact ⟨h, hw⟩
      · rw [List.concat_eq_append, ← List.cons_append, ← List.append_assoc] at hv
        exact ih (List.append_inj' hv rfl).1

/-- Nobody else touches the registrations of the client, and `work` keeps them as the state says. -/
theorem enrolled (h : HttpRun (.fresh self client time) vs b w)
    (hu : ∀ v ∈ vs, v.Undisturbed) :
    w.conn.client = client ∧ Enrolled client b w.conn.state w.select := by
  induction h with
  | start =>
      refine ⟨rfl, ?_⟩
      simp [Enrolled, HttpWorld.fresh, HttpConnection.new, Select.empty]
  | @step vs w w' b i h hw ih =>
      obtain ⟨rfl, found⟩ := ih fun v hv => hu v (List.mem_append_left _ hv)
      have undisturbed := hu _ (List.mem_append_right _ (List.mem_singleton_self _))
      have found : Enrolled w.conn.client true w.conn.state i.select :=
        ⟨undisturbed.1.trans found.1, undisturbed.2.trans found.2⟩
      have alone := besides_without w.conn.client i.select
      have tended := (httpWork_tended (w := w.enter i) (e := i.env) alone rfl found.holds).of_ok hw
      have same : w'.conn.client = w.conn.client := tended.client
      refine ⟨same, ?_⟩
      cases b with
      | true => exact same ▸ enrolled_of_holds (tended.live rfl) (same ▸ alone)
      | false => exact not_enrolled_of_holds _ (tended.ended rfl) alone

/-- **The invariant of the transcript.** -/
theorem exchanged (h : HttpRun (.fresh self client time) vs b w)
    (hl : (readFrom .client (httpEvents vs)).length < maxBuffSize) :
    Exchanged b (httpEvents vs) w.conn := by
  induction h with
  | start =>
      refine .reading rfl not_terminated_nil rfl (fun _ _ => ?_) rfl fun _ => ?_
      · exact List.not_mem_nil
      · exact List.not_mem_nil
  | @step vs w w' b i h hw ih =>
      rw [httpEvents_append, httpEvents_singleton] at hl ⊢
      have short : (readFrom .client (httpEvents vs)).length < maxBuffSize := by
        rw [readFrom_append, List.length_append] at hl
        exact Nat.lt_of_le_of_lt (Nat.le_add_right ..) hl
      have before := ih short
      rcases httpWork_answered (w := w.enter i) rfl before hw hl with
        ⟨-, answered⟩ | ⟨-, rfl, ht, hc⟩
      · exact answered.exchanged
      · rw [ht, List.append_nil, hc]
        exact before.dead

/-- A visit of a run in which the handler threw is the last. -/
theorem raised (h : HttpRun (.fresh self client time) vs b w)
    (hl : (readFrom .client (httpEvents vs)).length < maxBuffSize) :
    b = false ↔ Finished (httpEvents vs) ∨ Event.eof .client ∈ httpEvents vs ∨
      ∃ v ∈ vs, v.Raised := by
  induction h with
  | start =>
      refine ⟨fun hb => (by cases hb), ?_⟩
      rintro (⟨_, hr, -⟩ | hm | ⟨_, hv, -⟩)
      · cases hr
      · cases hm
      · cases hv
  | @step vs w w' b i h hw ih =>
      have all := (HttpRun.step i h hw).exchanged hl
      rw [httpEvents_append, httpEvents_singleton] at hl all ⊢
      have short : (readFrom .client (httpEvents vs)).length < maxBuffSize := by
        rw [readFrom_append, List.length_append] at hl
        exact Nat.lt_of_le_of_lt (Nat.le_add_right ..) hl
      have before := h.exchanged short
      have earlier : ¬ ∃ v ∈ vs, v.Raised := fun hr => by
        cases (ih short).mpr (.inr (.inr hr))
      rcases httpWork_answered (w := w.enter i) rfl before hw hl with
        ⟨calm, answered⟩ | ⟨raised, rfl, -, -⟩
      · rw [answered.ended, List.mem_append, or_iff_right before.unfinished.2]
        refine or_congr_right ⟨.inl, fun hd => hd.resolve_right ?_⟩
        rintro ⟨v, hv, hr⟩
        rcases List.mem_append.mp hv with hv | hv
        · exact earlier ⟨v, hv, hr⟩
        · obtain rfl := List.mem_singleton.mp hv
          exact calm hr
      · refine ⟨fun _ => .inr (.inr ⟨_, List.mem_append_right _ (List.mem_singleton_self _), ?_⟩),
          fun _ => rfl⟩
        exact raised

/-- The reply is built in the visit that brings the end of the blank line. -/
theorem built (h : HttpRun (.fresh self client time) vs b w)
    (hl : (readFrom .client (httpEvents vs)).length < maxBuffSize) {us ts : List HttpVisit}
    {v : HttpVisit} (hv : vs = us ++ v :: ts) :
    replies v.after.trace =
      if ¬ Terminated (readFrom .client (httpEvents us)) ∧
          Terminated (readFrom .client (httpEvents (us ++ [v]))) then
        [createReply v.input.address v.input.status]
      else [] := by
  obtain ⟨before, hw⟩ := h.split hv
  have front : httpEvents vs = httpEvents us ++ v.after.trace ++ httpEvents ts := by
    rw [hv, List.append_cons, httpEvents_append, httpEvents_append, httpEvents_singleton]
  rw [front, readFrom_append, List.length_append] at hl
  have short : (readFrom .client (httpEvents us ++ v.after.trace)).length < maxBuffSize :=
    Nat.lt_of_le_of_lt (Nat.le_add_right ..) hl
  have exchanged := before.exchanged (by
    rw [readFrom_append, List.length_append] at short
    exact Nat.lt_of_le_of_lt (Nat.le_add_right ..) short)
  rw [httpEvents_append, httpEvents_singleton]
  rcases httpWork_answered (w := v.before.enter v.input) rfl exchanged hw short with
    ⟨-, answered⟩ | ⟨-, -, ht, -⟩
  · exact answered.built
  · rw [ht, List.append_nil, if_neg fun h => h.1 h.2]
    rfl

end HttpRun

section
variable {self : Nat} {client : FileDescriptor} {time : Int} {w : HttpWorld}
  {vs : List HttpVisit} {b : Bool}

/-- **The status exchange.**  Nothing is written until there is a blank line; the reply is built
once, in the visit that brings the end of the first one; what is written is the beginning of it.
`work` returns false when the reply is out, at the end of the file before a blank line, and after
an exception.  The client is in the one list or in the other, and at the end in none. -/
theorem status_exchange (h : HttpRun (.fresh self client time) vs b w)
    (hu : ∀ v ∈ vs, v.Undisturbed)
    (hl : (readFrom .client (httpEvents vs)).length < maxBuffSize) :
    (¬ Terminated (readFrom .client (httpEvents vs)) →
      (∀ s bs, Event.wrote s bs ∉ httpEvents vs) ∧ replies (httpEvents vs) = []) ∧
    (Terminated (readFrom .client (httpEvents vs)) → ∃ reply, replies (httpEvents vs) = [reply]) ∧
    (∀ us v ts, vs = us ++ v :: ts → replies v.after.trace =
      if ¬ Terminated (readFrom .client (httpEvents us)) ∧
          Terminated (readFrom .client (httpEvents (us ++ [v]))) then
        [createReply v.input.address v.input.status]
      else []) ∧
    (∀ reply ∈ replies (httpEvents vs), wroteTo .client (httpEvents vs) <+: reply) ∧
    (b = false ↔ Finished (httpEvents vs) ∨
      (Event.eof .client ∈ httpEvents vs ∧ ¬ Terminated (readFrom .client (httpEvents vs))) ∨
      ∃ v ∈ vs, v.Raised) ∧
    (w.conn.state = .readingRequest ↔ ¬ Terminated (readFrom .client (httpEvents vs))) ∧
    (some client ∈ w.select.fileDescriptorsRead ↔ b = true ∧ w.conn.state = .readingRequest) ∧
    (some client ∈ w.select.fileDescriptorsWrite ↔ b = true ∧ w.conn.state = .sendingReply) := by
  have ends := h.raised hl
  obtain ⟨-, enrolled⟩ := h.enrolled hu
  cases h.exchanged hl with
  | reading hst open' buff silent unbuilt more =>
      refine ⟨fun _ => ⟨silent, unbuilt⟩, fun hc => absurd hc open', fun us v ts => h.built hl, ?_,
        ?_, iff_of_true hst open', enrolled⟩
      · rw [unbuilt]
        exact fun _ hr => absurd hr List.not_mem_nil
      · rw [ends, and_iff_left open']
  | sending reply hst complete built flow more open' =>
      refine ⟨fun hc => absurd complete hc, fun _ => ⟨reply, built⟩, fun us v ts => h.built hl, ?_,
        ?_, ?_, enrolled⟩
      · rw [built]
        intro r hr
        obtain rfl := List.mem_singleton.mp hr
        exact ⟨_, flow⟩
      · rw [ends]
        exact or_congr_right (or_congr_left (iff_of_false open' fun h => open' h.1))
      · rw [hst]
        exact iff_of_false (by nofun) (not_not.mpr complete)

end

/-- A visit that a status connection survives is a call of `work`. -/
theorem visitHttp_alive {s : Server} {t : Calls} {slot : Slot} {c c' : HttpConnection} {l : Left}
    (hc : slot.conn = .http c) (h : s.visit t slot = .ok () l) (hl : l.conn = some (.http c')) :
    ∃ w', httpWork t.address t.env ⟨slot.id, c, s.select, s.status, []⟩ = .ok true w' ∧
      w'.conn = c' := by
  unfold Server.visit at h
  rw [hc] at h
  obtain ⟨b, w', ho, rfl⟩ := Outcome.lift_eq_ok.mp h
  unfold Server.visitHttp httpHasExpired at ho
  by_cases expired : c.lastActive + t.config.pipeTimeout < t.now
  · simp only [expired, if_true] at ho
    obtain ⟨rfl, -⟩ := Outcome.ok.inj ho
    cases hl
  · simp only [expired, if_false] at ho
    obtain ⟨alive, w₁, hw, he⟩ := Outcome.bind_eq_ok.mp ho
    obtain ⟨rfl, rfl⟩ := Outcome.ok.inj he
    cases alive with
    | false => cases hl
    | true => exact ⟨w₁, hw, Connection.http.inj (Option.some.inj hl)⟩

/-- **Every status connection has a run of its own**, in which the rest of the server leaves its
registrations alone. -/
theorem Reachable.httpRun {s : Server} {slot : Slot} {c : HttpConnection} (h : Reachable s)
    (hs : slot ∈ s.connections) (hc : slot.conn = .http c) :
    ∃ client time vs w, HttpRun (.fresh slot.id client time) vs true w ∧
      (∀ v ∈ vs, v.Undisturbed) ∧ w.self = slot.id ∧ w.conn = c := by
  induction h generalizing slot c with
  | boot => exact absurd hs List.not_mem_nil
  | @step s s' t h ht step ih =>
      have orderly := h.orderly
      rcases orderly.step_slots step hs with
        hs | ⟨d, hd | hd⟩ | ⟨slot₀, rest, l, hp, hpend, hv, he, hl⟩
      · exact ih hs hc
      · cases hc.symm.trans hd
      · obtain rfl := Connection.http.inj (hc.symm.trans hd)
        exact ⟨d, t.now, [], _, .start, fun _ hv => absurd hv List.not_mem_nil, rfl, rfl⟩
      · have mine := Orderly.mem_of_pending hpend
        rw [hc] at hl
        obtain ⟨id, conn⟩ := slot₀
        obtain rfl : slot.id = id := he
        cases conn with
        | socks c₀ =>
            obtain ⟨b, w', -, rfl⟩ := Outcome.lift_eq_ok.mp hv
            rw [Server.leftSocks] at hl
            split at hl <;> cases hl
        | http c₀ =>
            obtain ⟨client, time, vs, w, run, undisturbed, self, rfl⟩ := ih mine rfl
            obtain ⟨w', hw, rfl⟩ := visitHttp_alive rfl hv hl
            -- the registrations are as the state says, after the last visit and before this one
            obtain ⟨same, enrolled⟩ := run.enrolled undisturbed
            have own := List.mem_singleton_self w.conn.client
            obtain ⟨xs, ys, he⟩ := List.append_of_mem mine
            obtain ⟨holds, aloof⟩ := orderly.apart he
            have found := enrolled_of_holds holds (aloof.without own)
            rw [← same] at enrolled
            have entered : w.enter ⟨t.env, t.address, s.select, s.status⟩ =
                ⟨slot.id, w.conn, s.select, s.status, []⟩ := by
              rw [HttpWorld.enter, self]
            refine ⟨client, time, _, w', run.step ⟨t.env, t.address, s.select, s.status⟩
              (entered ▸ hw), fun v hv => ?_, ?_, rfl⟩
            · rcases List.mem_append.mp hv with hv | hv
              · exact undisturbed v hv
              · obtain rfl := List.mem_singleton.mp hv
                exact ⟨found.1.trans enrolled.1.symm, found.2.trans enrolled.2.symm⟩
            · have tended := (httpWork_tended (w := ⟨slot.id, w.conn, s.select, s.status, []⟩)
                (aloof.without own) rfl holds).of_ok hw
              exact tended.self

/-- The run that the given inputs lead to, each of which may depend on the world it finds; it ends
early when the connection does. -/
def httpPlay (w : HttpWorld) : List (HttpWorld → HttpInput) → List HttpVisit × Bool × HttpWorld
  | [] => ([], true, w)
  | i :: is =>
    match httpWork (i w).address (i w).env (w.enter (i w)) with
    | .ok true w' => (⟨i w, w, true, w'⟩ :: (httpPlay w' is).1, (httpPlay w' is).2)
    | .ok false w' => ([⟨i w, w, false, w'⟩], false, w')
    | _ => ([], true, w)

theorem HttpRun.cons {w₀ w w' : HttpWorld} {us : List HttpVisit} {b : Bool} (t : HttpRun w us b w')
    (i : HttpInput) (hw : httpWork i.address i.env (w₀.enter i) = .ok true w) :
    HttpRun w₀ (⟨i, w₀, true, w⟩ :: us) b w' := by
  induction t with
  | start => exact .step i .start hw
  | step j _ hw ih => exact .step j ih hw

theorem run_httpPlay (w : HttpWorld) (is : List (HttpWorld → HttpInput)) :
    HttpRun w (httpPlay w is).1 (httpPlay w is).2.1 (httpPlay w is).2.2 := by
  induction is generalizing w with
  | nil => exact .start
  | cons i is ih =>
      unfold httpPlay
      split
      · next w' hw => exact (ih w').cons (i w) hw
      · next w' hw => exact .step (i w) .start hw
      · exact .start

namespace Sample

/-- A visit that finds these numbers ready, and the rest of the server as the last visit left it. -/
def look (readSet writeSet : List Nat) (env : Env) (w : HttpWorld) : HttpInput where
  env := env
  address := id
  select := { w.select with readSet, writeSet }
  status := w.status

/-- `GET /` and a line feed, nothing, one more line feed, and a `write` that takes nothing. -/
def page : List HttpVisit × Bool × HttpWorld :=
  httpPlay (.fresh 0 client 0)
    [look [7] [] { env with read := fun _ => .data ⟨latin1 "GET /\n", by decide, by decide⟩ },
      look [7] [] env,
      look [7] [] { env with read := fun _ => .data ⟨latin1 "\n", by decide, by decide⟩ },
      look [] [7] env]

theorem page_read : readFrom .client (httpEvents page.1) = latin1 "GET /\n\n" ∧
    ∀ v ∈ page.1, v.Undisturbed := by
  unfold HttpVisit.Undisturbed
  decide +kernel

end Sample

theorem status_exchange_sample :
    readFrom .client (httpEvents Sample.page.1) = latin1 "GET /\n\n" ∧
      ∃ reply, replies (httpEvents Sample.page.1) = [reply] := by
  obtain ⟨read, undisturbed⟩ := Sample.page_read
  have short : (readFrom .client (httpEvents Sample.page.1)).length < maxBuffSize := by
    rw [read]
    decide
  refine ⟨read, (status_exchange (run_httpPlay ..) undisturbed short).2.1 ?_⟩
  rw [show (httpPlay _ _).1 = Sample.page.1 from rfl, read]
  decide

end OldStuff.Socks
