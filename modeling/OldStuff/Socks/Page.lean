import OldStuff.Socks.Custody
import OldStuff.Socks.Literal

/-!
# Socks — what the status page says

`set_status` is called where a connection starts to reach for a server, and where its relay starts;
the destructor erases the line.  So the line of a connection, or that it has none, tells its state,
`Shown`; only while a reply is written may there be a line or none.

A visit keeps this of the connection that is visited, and leaves the lines of the others (`Marks`);
a visit to a relay leaves its line too (`Untold`).  So it holds in every state of the loop, and the
page shows just these lines: `status_page`.
-/

namespace OldStuff.Socks
open OldStuff.Io
open OldStuff.Lib (Outcome)

/-! ### The lines -/

/-- The line that `set_status` writes. -/
def statusLine (abi : Abi) (client server : FileDescriptor) (what : String) : String :=
  let show' (d : FileDescriptor) : String :=
    d.getRemoteAddressDottedQuad abi ++ "(" ++ toString (d.getRemotePortHostOrder abi)
  show' client ++ ") -> " ++ show' server ++ ") (" ++ what ++ ")"

/-- The line names what the connection is at, and its ends, as far as they are there. -/
def Names (abi : Abi) (what : String) (c : SocksConnection) (line : Option String) : Prop :=
  ∃ ends : Side → FileDescriptor, (∀ s d, c.endpoint s = some d → d = ends s) ∧
    line = some (statusLine abi (ends .client) (ends .server) what)

/-- What there may be of a connection on the page. -/
def Shown (abi : Abi) (c : SocksConnection) (line : Option String) : Prop :=
  match c.state with
  | .pipeing => Names abi "pipeing" c line
  | .socks4ConnectingServer | .socks5ConnectingServer => Names abi "connecting" c line
  | .writingResponseSuccess | .writingResponseFailure => line = none ∨ Names abi "connecting" c line
  | _ => line = none

/-- No line is written before these states, and none in them. -/
def ConnectionState.blank : ConnectionState → Bool
  | .pipeing | .socks4ConnectingServer | .socks5ConnectingServer
  | .writingResponseSuccess | .writingResponseFailure => false
  | _ => true

/-- Between `w₀` and `w` the connection has touched its own line at most, and it is as `P` says. -/
structure Marks (P : SocksConnection → Option String → Prop) (w₀ w : World) : Prop where
  self : w.self = w₀.self
  others : ∀ k ≠ w₀.self, w.status.lookup k = w₀.status.lookup k
  line : P w.conn (w.status.lookup w.self)

/-- There is no line. -/
def Blank (_ : SocksConnection) (line : Option String) : Prop := line = none

/-- There may be one, of an attempt. -/
def Tried (abi : Abi) (c : SocksConnection) (line : Option String) : Prop :=
  line = none ∨ Names abi "connecting" c line

/-- It does not matter whether there is one. -/
def Any (_ : SocksConnection) (_ : Option String) : Prop := True

/-- In the state `st`, and shown as that. -/
def At (abi : Abi) (st : ConnectionState) (c : SocksConnection) (line : Option String) : Prop :=
  c.state = st ∧ Shown abi c line

/-- A handler keeps to the line of its connection, unless the connection ends. -/
def Marked (abi : Abi) (w₀ : World) (o : Outcome World Bool) : Prop :=
  o.Liberal (fun alive => Marks (fun c line => alive = true → Shown abi c line) w₀) (Marks Any w₀)

section
variable {P Q : SocksConnection → Option String → Prop} {abi : Abi} {v : Version} {e : Env}
  {w₀ w w' : World} {c c' : SocksConnection} {line : Option String} {what : String}
  {client : FileDescriptor} {req : SocksRequest} {st : ConnectionState}

theorem Names.mono (h : Names abi what c line)
    (hc : ∀ s d, c'.endpoint s = some d → c.endpoint s = some d) : Names abi what c' line := by
  obtain ⟨ends, there, hl⟩ := h
  exact ⟨ends, fun s d hd => there s d (hc s d hd), hl⟩

/-- What is shown of a connection depends on its state and its ends; an end may go. -/
theorem Shown.mono (h : Shown abi c line) (hs : c'.state = c.state)
    (hc : ∀ s d, c'.endpoint s = some d → c.endpoint s = some d) : Shown abi c' line := by
  unfold Shown at *
  rw [hs]
  revert h
  split
  · exact fun h => h.mono hc
  · exact fun h => h.mono hc
  · exact fun h => h.mono hc
  · exact Or.imp_right fun h => h.mono hc
  · exact Or.imp_right fun h => h.mono hc
  · exact id

theorem shown_blank (hs : c.state.blank = true) : Shown abi c line ↔ line = none := by
  unfold Shown
  revert hs
  cases c.state <;> first | exact fun _ => Iff.rfl | exact nofun

theorem Marks.refl (h : P w.conn (w.status.lookup w.self)) : Marks P w w := ⟨rfl, fun _ _ => rfl, h⟩

/-- The status map is not touched. -/
theorem Marks.congr (h : Marks P w₀ w) (hs : w'.self = w.self) (ht : w'.status = w.status)
    (hq : P w.conn (w.status.lookup w.self) → Q w'.conn (w.status.lookup w.self)) :
    Marks Q w₀ w' where
  self := hs.trans h.self
  others := fun k hk => by rw [ht, h.others k hk]
  line := by rw [hs, ht]; exact hq h.line

theorem Marks.any (h : Marks P w₀ w) : Marks Any w₀ w := ⟨h.self, h.others, trivial⟩

/-- The connection lives. -/
theorem Marks.lives {b : Bool} (h : Marks (Shown abi) w₀ w) :
    Marks (fun c line => b = true → Shown abi c line) w₀ w := ⟨h.self, h.others, fun _ => h.line⟩

/-- The connection ends. -/
theorem Marks.ends (h : Marks P w₀ w) :
    Marks (fun c line => false = true → Shown abi c line) w₀ w := ⟨h.self, h.others, nofun⟩

/-! ### The handshake -/

/-- **`set_status`** writes the line of the connection. -/
theorem setStatus_marks (h : Marks P w₀ w) : (setStatus what e w).Liberal
    (fun _ w' => w'.conn = w.conn ∧ Marks (Names e.abi what) w₀ w') (Marks P w₀) := by
  refine deref_liberal fun client hc => deref_liberal fun server hs => ?_
  split
  · exact h
  · refine ⟨rfl, h.self, fun k hk => ?_, fun s => s.rec client server, fun s d hd => ?_, ?_⟩
    · exact (AList.lookup_insert_ne (h.self ▸ hk)).trans (h.others k hk)
    · cases s with
      | client => exact Option.some.inj (hd.symm.trans hc)
      | server => exact Option.some.inj (hd.symm.trans hs)
    · exact AList.lookup_insert ..

theorem refuse_marks {code : UInt8} (h : Marks (Tried e.abi) w₀ w) :
    Marks (Shown e.abi) w₀ (refuse v code e w) :=
  h.congr rfl rfl id

theorem grant_marks {server : FileDescriptor} (h : Marks (Tried e.abi) w₀ w) :
    Marks (Shown e.abi) w₀ (grant v server e w) :=
  h.congr rfl rfl id

/-- An attempt: after an exception there may be a line. -/
theorem openServer_marks (h : Marks Blank w₀ w) :
    (openServer v req e w).Liberal (fun _ => Marks (Shown e.abi) w₀) (Marks (Tried e.abi) w₀) := by
  unfold openServer
  split
  · exact h.congr rfl rfl .inl
  · refine Outcome.Liberal.bind (P := fun _ => Marks (Names e.abi "connecting") w₀) ?_
      fun _ w h => ?_
    · have started (d : FileDescriptor) (ev : Event) : Marks Blank w₀ (w.newServer d ev) :=
        h.congr rfl rfl id
      exact (setStatus_marks (started _ _)).mono (fun _ _ h => h.2) fun _ h => h.congr rfl rfl .inl
    · split
      · exact h.congr rfl rfl .inr
      · exact grant_marks (h.congr rfl rfl .inr)
      · exact h.congr rfl rfl (by cases v <;> exact id)

theorem openListener_marks (h : Marks Blank w₀ w) :
    (openListener v e w).Liberal (fun _ => Marks (Shown e.abi) w₀) (Marks Blank w₀) := by
  unfold openListener
  split
  · exact h
  · exact h.congr rfl rfl (by cases v <;> exact id)

theorem serveRequest_marked (h : Marks Blank w₀ w) :
    Marked e.abi w₀ (serveRequest v client req e w) := by
  have asked : Marks Blank w₀ (w.emit (.asked (canConnect e client))) := h.congr rfl rfl id
  have refused {code : UInt8} {w : World} (h : Marks (Tried e.abi) w₀ w) :
      Marked e.abi w₀ (.ok true (refuse v code e w)) := (refuse_marks h).lives
  unfold serveRequest
  dsimp only
  split
  · exact asked.any
  · split
    · exact (refuse_marks (asked.congr rfl rfl .inl)).any
    · exact refused (asked.congr rfl rfl .inl)
  · split
    · exact ((openServer_marks asked).mono (fun _ _ h => h.lives) fun _ h => h).recover
        fun _ h => refused h
    · split
      · exact ((openListener_marks asked).mono (fun _ _ h => h.lives) fun _ h => h).recover
          fun _ h => refused (h.congr rfl rfl .inl)
      · exact refused (asked.congr rfl rfl .inl)

theorem actInitial_marked (h : Marks Blank w₀ w) : Marked e.abi w₀ (actInitial client req e w) := by
  unfold actInitial
  split
  · exact serveRequest_marked h
  · exact Marks.lives (h.congr rfl rfl id)

theorem At.blank (h : At abi st c line) (hs : st.blank = true) : Blank c line :=
  (shown_blank (h.1.symm ▸ hs)).mp h.2

theorem parseBuffer_marked {initial : Bool}
    {act : FileDescriptor → SocksRequest → Env → World → Outcome World Bool}
    (ha : ∀ req w, Marks Blank w₀ w → Marked e.abi w₀ (act client req e w))
    (h : Marks (At e.abi v.readingRequest) w₀ w) :
    Marked e.abi w₀ (parseBuffer initial act client e w) := by
  unfold parseBuffer
  split
  · exact Marks.ends (P := Any) (h.any.congr rfl rfl id)
  · split
    · exact ha _ _ (h.congr rfl rfl fun hl => hl.blank (by cases v <;> rfl))
    · exact Marks.lives (h.congr rfl rfl And.right)
    · trivial

theorem readMessage_marked {initial : Bool}
    {act : FileDescriptor → SocksRequest → Env → World → Outcome World Bool}
    (ha : ∀ client req w, Marks Blank w₀ w → Marked e.abi w₀ (act client req e w))
    (h : Marks (At e.abi v.readingRequest) w₀ w) :
    Marked e.abi w₀ (readMessage initial act e w) := by
  refine deref_liberal fun client _ => ?_
  split
  · split
    · exact h.any
    · exact parseBuffer_marked (ha client) h
    · exact Marks.ends (P := Any) (h.any.congr rfl rfl id)
    · exact parseBuffer_marked (ha client) (h.congr rfl rfl id)
  · exact Marks.lives (h.congr rfl rfl And.right)

theorem waitingConnection_marked (h : Marks (At e.abi v.waitingConnection) w₀ w) :
    Marked e.abi w₀ (waitingConnection v e w) := by
  have blank : Marks Blank w₀ w := h.congr rfl rfl fun hl => hl.blank (by cases v <;> rfl)
  refine deref_liberal fun listen _ => ?_
  split
  · split
    · exact h.any
    · refine Marks.lives (h.congr rfl rfl fun hl => hl.2.mono rfl fun s d hd => ?_)
      cases s with
      | client => exact hd
      | server => cases hd
    · exact Marks.lives (blank.congr rfl rfl .inl)
  · exact Marks.lives (h.congr rfl rfl And.right)

theorem connectingServer_marked (h : Marks (At e.abi v.connectingServer) w₀ w) :
    Marked e.abi w₀ (connectingServer v e w) := by
  have tried : Marks (Tried e.abi) w₀ w := h.congr rfl rfl fun hl => by
    obtain ⟨hs, shown⟩ := hl
    rw [Shown, hs] at shown
    cases v <;> exact .inr shown
  refine deref_liberal fun server _ => ?_
  split
  · dsimp only
    split
    · exact h.any.congr rfl rfl id
    · exact Marks.lives (grant_marks (tried.congr rfl rfl id))
    · exact Marks.lives (refuse_marks (tried.congr rfl rfl id))
  · exact Marks.lives (h.congr rfl rfl And.right)

theorem At.setPending {s : Side} {bs : Bytes} (h : At abi st c line) :
    At abi st (c.setPending s bs) line :=
  ⟨(c.state_setPending s bs).trans h.1,
    h.2.mono (c.state_setPending s bs) fun t d hd => by simpa using hd⟩

theorem writeReply_marked {done : Env → World → Outcome World Bool}
    (hd : ∀ w, Marks (At e.abi st) w₀ w → Marked e.abi w₀ (done e w))
    (h : Marks (At e.abi st) w₀ w) : Marked e.abi w₀ (writeReply done e w) := by
  refine deref_liberal fun client _ => ?_
  split
  · refine Outcome.Liberal.bind (P := fun _ => Marks (At e.abi st) w₀) ?_ fun _ w h => ?_
    · unfold send
      split
      · exact h.any
      · exact h.congr rfl rfl At.setPending
    · split
      · exact hd w h
      · exact Marks.lives (h.congr rfl rfl And.right)
  · exact Marks.lives (h.congr rfl rfl And.right)

theorem startPipeing_marked (h : Marks P w₀ w) : Marked e.abi w₀ (startPipeing e w) := by
  unfold startPipeing
  refine Outcome.Liberal.bind (setStatus_marks (P := Any) (h.any.congr rfl rfl id)) fun _ w h => ?_
  obtain ⟨hc, named⟩ := h
  exact Marks.lives (named.congr rfl rfl fun hl => by
    rw [Shown, show w.conn.state = _ from congrArg _ hc]
    exact hl)

/-! ### The relay -/

theorem pipeRead_marks (s : Side) (h : Marks (At e.abi st) w₀ w) :
    (pipeRead s e w).Liberal (fun _ => Marks (At e.abi st) w₀) (Marks Any w₀) := by
  refine pipeRead_cases s e w (fun _ => h) (fun _ _ _ _ => h.any) (fun _ _ _ _ => h)
    (fun d d' _ _ => ?_) fun d d' chunk _ _ => ?_
  · refine h.congr rfl rfl fun hl => ⟨?_, hl.2.mono ?_ fun t d₁ hd => ?_⟩
    · exact (SocksConnection.state_setEndpoint ..).trans hl.1
    · exact SocksConnection.state_setEndpoint ..
    · -- the end that is gone counts no longer
      rw [World.delete, World.onConn_conn, SocksConnection.endpoint_setEndpoint] at hd
      split at hd
      · cases hd
      · exact hd
  · exact h.congr rfl rfl At.setPending

theorem pipeWrite_marks (s : Side) (h : Marks (At e.abi st) w₀ w) :
    (pipeWrite s e w).Liberal (fun _ => Marks (At e.abi st) w₀) (Marks Any w₀) :=
  pipeWrite_cases s e w (fun _ => h) (fun _ _ _ => h.any)
    (fun _ _ _ => h.congr rfl rfl At.setPending) fun _ _ _ _ _ => h.congr rfl rfl At.setPending

theorem tryActivate_status :
    (tryActivate e w).self = w.self ∧ (tryActivate e w).status = w.status := by
  unfold tryActivate
  split
  · exact ⟨rfl, rfl⟩
  · split <;> exact ⟨rfl, rfl⟩

theorem trySuspend_status :
    (trySuspend e w).self = w.self ∧ (trySuspend e w).status = w.status := by
  unfold trySuspend
  dsimp only
  split
  · exact ⟨rfl, rfl⟩
  · split
    · exact ⟨rfl, rfl⟩
    · split <;> exact ⟨rfl, rfl⟩

theorem Shown.same (h : Shown abi w.conn line) (hs : SameRelay w w') : Shown abi w'.conn line :=
  h.mono hs.state fun t _ hd => (hs.endpoint t).symm.trans hd

theorem pipeFinish_marked (h : Marks (At e.abi st) w₀ w) : Marked e.abi w₀ (pipeFinish e w) := by
  have ended : Marked e.abi w₀ (.ok false (w.onSelect w.conn.clearSelect)) :=
    Marks.ends (P := Any) (h.any.congr rfl rfl id)
  refine pipeFinish_cases e w (fun _ _ _ => ended) (fun _ => ended) fun _ _ => ?_
  obtain ⟨self, status⟩ := trySuspend_status (e := e) (w := w)
  exact Marks.lives (h.congr self status fun hl => hl.2.same trySuspend_same)

theorem pipeing_marked (h : Marks (At e.abi st) w₀ w) : Marked e.abi w₀ (pipeing e w) := by
  unfold pipeing
  split
  · obtain ⟨self, status⟩ := tryActivate_status (e := e) (w := w)
    exact Marks.lives (h.congr self status fun hl => hl.2.same tryActivate_same)
  · refine (pipeRead_marks .client h).bind fun _ _ h => ?_
    refine (pipeRead_marks .server h).bind fun _ _ h => ?_
    refine (pipeWrite_marks .client h).bind fun _ _ h => ?_
    exact (pipeWrite_marks .server h).bind fun _ _ h => pipeFinish_marked (h.congr rfl rfl id)

/-- A relay does not touch the map. -/
def Untold (w₀ w : World) : Prop := w.self = w₀.self ∧ w.status = w₀.status

theorem pipeRead_untold (s : Side) (h : Untold w₀ w) : (pipeRead s e w).Within (Untold w₀) :=
  pipeRead_cases s e w (fun _ => h) (fun _ _ _ _ => h) (fun _ _ _ _ => h) (fun _ _ _ _ => h)
    fun _ _ _ _ _ => h

theorem pipeWrite_untold (s : Side) (h : Untold w₀ w) : (pipeWrite s e w).Within (Untold w₀) :=
  pipeWrite_cases s e w (fun _ => h) (fun _ _ _ => h) (fun _ _ _ => h) fun _ _ _ _ _ => h

theorem pipeFinish_untold (h : Untold w₀ w) : (pipeFinish e w).Within (Untold w₀) :=
  pipeFinish_cases e w (fun _ _ _ => h) (fun _ => h) fun _ _ =>
    ⟨trySuspend_status.1.trans h.1, trySuspend_status.2.trans h.2⟩

theorem work_untold (hst : w.conn.state = .pipeing) : (work e w).Within (Untold w) := by
  rw [work, handler, hst]
  refine Outcome.Within.recover ?_ fun _ h => h
  dsimp only
  unfold pipeing
  split
  · exact tryActivate_status
  · refine (pipeRead_untold .client ⟨rfl, rfl⟩).bind fun _ _ h => ?_
    refine (pipeRead_untold .server h).bind fun _ _ h => ?_
    refine (pipeWrite_untold .client h).bind fun _ _ h => ?_
    exact (pipeWrite_untold .server h).bind fun _ _ h => pipeFinish_untold h

/-! ### A visit -/

theorem handler_marked (h : Marks (Shown e.abi) w₀ w) : Marked e.abi w₀ (handler e w) := by
  have at' {st : ConnectionState} (hs : w.conn.state = st) : Marks (At e.abi st) w₀ w :=
    h.congr rfl rfl fun hl => ⟨hs, hl⟩
  unfold handler
  split
  · next hs => exact readMessage_marked (v := .socks4) (fun _ _ _ => actInitial_marked) (at' hs)
  · next hs => exact connectingServer_marked (v := .socks4) (at' hs)
  · next hs => exact writeReply_marked (fun _ => startPipeing_marked) (at' hs)
  · next hs =>
      exact writeReply_marked (fun w h => Marks.ends (P := Any) (h.any.congr rfl rfl id)) (at' hs)
  · next hs =>
      exact writeReply_marked (fun w h => Marks.lives (h.congr rfl rfl fun hl =>
        (shown_blank rfl).mpr (hl.blank rfl))) (at' hs)
  · next hs => exact connectingServer_marked (v := .socks5) (at' hs)
  · next hs =>
      exact readMessage_marked (v := .socks5) (fun _ _ _ => serveRequest_marked) (at' hs)
  · next hs => exact waitingConnection_marked (v := .socks4) (at' hs)
  · next hs => exact waitingConnection_marked (v := .socks5) (at' hs)
  · next hs =>
      exact writeReply_marked (fun w h => Marks.lives (h.congr rfl rfl fun hl =>
        (shown_blank rfl).mpr (hl.blank rfl))) (at' hs)
  · next hs =>
      exact writeReply_marked (fun w h => Marks.lives (h.congr rfl rfl fun hl =>
        (shown_blank rfl).mpr (hl.blank rfl))) (at' hs)
  · next hs => exact pipeing_marked (at' hs)

theorem work_marked (h : Shown e.abi w.conn (w.status.lookup w.self)) :
    Marked e.abi w (work e w) := by
  refine (handler_marked (.refl h)).recover fun w' h => ?_
  exact Marks.ends (P := Any) (h.congr rfl rfl id)

/-- `work` of an `http_connection` does not touch the map. -/
theorem httpWork_status {address : Nat → Nat} {w : HttpWorld} :
    (httpWork address e w).Within fun w' => w'.self = w.self ∧ w'.status = w.status := by
  have buffer {w' : HttpWorld} (h : w'.self = w.self ∧ w'.status = w.status) :
      (requestBuffer address w').Within fun w' => w'.self = w.self ∧ w'.status = w.status := by
    unfold requestBuffer
    split
    · exact h
    · split <;> exact h
  refine Outcome.Within.recover ?_ fun _ h => h
  split
  · unfold readingRequest
    split
    · split
      · exact ⟨rfl, rfl⟩
      · exact buffer ⟨rfl, rfl⟩
      · exact ⟨rfl, rfl⟩
      · exact buffer ⟨rfl, rfl⟩
    · exact ⟨rfl, rfl⟩
  · unfold sendingReply
    split
    · split
      · exact ⟨rfl, rfl⟩
      · dsimp only
        split <;> exact ⟨rfl, rfl⟩
    · exact ⟨rfl, rfl⟩

end

/-- What there may be of any connection on the page; an `http_connection` has no line. -/
def Connection.Shown (abi : Abi) : Connection → Option String → Prop
  | .socks c, line => Socks.Shown abi c line
  | .http _, line => line = none

/-- A visit has left the lines of the others, and its own as the connection is. -/
structure Left.Told (abi : Abi) (s : Server) (slot : Slot) (l : Left) : Prop where
  others : ∀ k ≠ slot.id, l.status.lookup k = s.status.lookup k
  line : ∀ conn, l.conn = some conn → conn.Shown abi (l.status.lookup slot.id)

section
variable {abi : Abi} {s s' : Server} {t : Calls} {slot : Slot} {l : Left} {address : Nat → Nat}

theorem Marked.of_ok {w₀ w : World} {b : Bool} {o : Outcome World Bool} (h : Marked abi w₀ o)
    (e : o = .ok b w) : Marks (fun c line => b = true → Shown abi c line) w₀ w :=
  Outcome.Liberal.of_ok h e

/-- The line of a connection that is deleted goes. -/
theorem Left.Told.erase {id k : Nat} {st : Status} (hst : ∀ k ≠ id, st.lookup k = s.status.lookup k)
    (hk : k ≠ id) : (st.erase id).lookup k = s.status.lookup k :=
  (AList.lookup_erase_ne hk).trans (hst k hk)

theorem visitSocks_told {id : Nat} {c : SocksConnection} {b : Bool} {w : World}
    (h : Shown t.env.abi c (s.status.lookup id)) (hw : s.visitSocks t id c = .ok b w) :
    (Server.leftSocks b w).Told t.env.abi s ⟨id, .socks c⟩ := by
  obtain ⟨rfl, rfl⟩ | ⟨w', hw', rfl⟩ := Server.visitSocks_cases hw
  · refine ⟨fun k hk => ?_, fun _ hc => ?_⟩
    · exact Left.Told.erase (fun _ _ => rfl) hk
    · cases hc
  · have marks := (work_marked (w := s.world id c) h).of_ok hw'
    have self : w'.self = id := marks.self
    have others : ∀ k ≠ id, w'.status.lookup k = s.status.lookup k := marks.others
    cases b with
    | true =>
        rw [if_pos rfl]
        refine ⟨others, fun conn hc => ?_⟩
        obtain rfl := Option.some.inj hc
        exact self ▸ marks.line rfl
    | false =>
        have status : (Server.leftSocks false (destroy w')).status = w'.status.erase id :=
          congrArg w'.status.erase self
        rw [if_neg Bool.false_ne_true]
        refine ⟨fun k hk => ?_, fun _ hc => ?_⟩
        · rw [status]
          exact Left.Told.erase others hk
        · cases hc

theorem visitHttp_told {id : Nat} {c : HttpConnection} {b : Bool} {w : HttpWorld}
    (h : s.status.lookup id = none) (hw : s.visitHttp t id c = .ok b w) :
    (s.leftHttp b w).Told abi s ⟨id, .http c⟩ := by
  obtain ⟨rfl, rfl⟩ | ⟨w', hw', rfl⟩ := Server.visitHttp_cases hw
  · refine ⟨fun k hk => ?_, fun _ hc => ?_⟩
    · exact Left.Told.erase (fun _ hk => Left.Told.erase (fun _ _ => rfl) hk) hk
    · cases hc
  · obtain ⟨self, status⟩ : w'.self = id ∧ w'.status = s.status := httpWork_status.of_ok hw'
    cases b with
    | true =>
        rw [if_pos rfl]
        refine ⟨fun k _ => by rw [Server.leftHttp, status], fun conn hc => ?_⟩
        obtain rfl := Option.some.inj hc
        rw [Server.leftHttp, status]
        exact h
    | false =>
        rw [if_neg Bool.false_ne_true]
        refine ⟨fun k hk => ?_, fun _ hc => ?_⟩
        · rw [Server.leftHttp, httpDestroy, self, status]
          exact Left.Told.erase (fun _ _ => rfl) hk
        · cases hc

theorem visit_told (h : slot.conn.Shown t.env.abi (s.status.lookup slot.id))
    (hv : s.visit t slot = .ok () l) : l.Told t.env.abi s slot := by
  obtain ⟨id, conn⟩ := slot
  cases conn with
  | socks c =>
      obtain ⟨b, w, hw, rfl⟩ := Outcome.lift_eq_ok.mp hv
      exact visitSocks_told h hw
  | http c =>
      obtain ⟨b, w, hw, rfl⟩ := Outcome.lift_eq_ok.mp hv
      exact visitHttp_told h hw

/-- The line of a relay stays, even if an end goes. -/
theorem visit_relay_line {id : Nat} {c : SocksConnection} {conn : Connection}
    (hst : c.state = .pipeing) (hv : s.visit t ⟨id, .socks c⟩ = .ok () l)
    (hl : l.conn = some conn) : l.status.lookup id = s.status.lookup id := by
  obtain ⟨b, w, hw, rfl⟩ := Outcome.lift_eq_ok.mp hv
  obtain ⟨rfl, rfl⟩ | ⟨w', hw', rfl⟩ := Server.visitSocks_cases hw
  · cases hl
  · cases b with
    | true =>
        have same := (work_untold (w := s.world id c) hst).of_ok hw'
        exact congrArg (AList.lookup id) same.2
    | false => cases hl

/-! ### The run -/

/-- The page has of every connection what there may be of it. -/
def Server.Told (abi : Abi) (s : Server) : Prop :=
  ∀ slot ∈ s.connections, slot.conn.Shown abi (s.status.lookup slot.id)

/-- Where no connection is there is no line. -/
theorem Orderly.no_line {k : Nat} (h : Orderly s) (hk : k ∉ s.connections.map (·.id)) :
    s.status.lookup k = none :=
  AList.lookup_eq_none.mpr fun hm => hk (h.status k hm)

/-- A connection that has just come has no line. -/
theorem Orderly.new_line (h : Orderly s) : s.status.lookup s.nextConnection = none := by
  refine h.no_line fun hm => ?_
  obtain ⟨slot, hs, he⟩ := List.mem_map.mp hm
  exact absurd (h.next slot hs) (he ▸ Nat.lt_irrefl _)

theorem Server.Told.enlist {d : FileDescriptor} {conn : Connection} (told : s.Told abi)
    (h : Orderly s) (hp : s.phase ≠ .sweep) (hc : ∀ line, conn.Shown abi line ↔ line = none) :
    (s.enlist d conn).Told abi := by
  intro slot hm
  rcases h.mem_enlist hp hm with hm | rfl
  · exact told slot hm
  · exact (hc _).mpr h.new_line

theorem Server.Told.accepted {sock : FileDescriptor} {make : FileDescriptor → Int → Connection}
    (told : s.Told abi) (h : Orderly s) (hp : s.phase ≠ .sweep)
    (hm : ∀ d time line, (make d time).Shown abi line ↔ line = none)
    (hu : s.Accepted t sock make s') : s'.Told abi := by
  cases hu with
  | nobody => exact told
  | somebody => exact told.enlist h hp (hm _ _)

theorem Server.Told.step (told : s.Told t.env.abi) (h : Orderly s) (hs : s.step t = .ok () s') :
    s'.Told t.env.abi := by
  cases Server.step_cases hs with
  | poll => exact told
  | @acceptSocks u hp hu =>
      have idle : s.phase ≠ .sweep := by rw [hp]; decide
      have told' : u.Told t.env.abi := told.accepted h idle (fun _ _ _ => Iff.rfl) hu
      exact told'
  | @acceptHttp u hp hu =>
      have idle : s.phase ≠ .sweep := by rw [hp]; decide
      have told' : u.Told t.env.abi := told.accepted h idle (fun _ _ _ => Iff.rfl) hu
      exact fun slot hm => told' slot (List.mem_append_left _ hm)
  | turn => exact told
  | @visit slot rest l hp hpend hv =>
      have hc := Orderly.before_settle hpend
      have left := visit_told (told slot (Orderly.mem_of_pending hpend)) hv
      intro slot' hm
      rcases Orderly.mem_settle hm with hm | ⟨conn, hconn, rfl⟩
      · obtain ⟨there, apart⟩ := h.others hc hm
        exact (left.others _ apart).symm ▸ told slot' there
      · exact left.line conn hconn

/-- **The line of a relay** stays as long as the relay. -/
theorem Server.Told.relay_line (told : s.Told t.env.abi) (h : Orderly s)
    (hs : s.step t = .ok () s') {id : Nat} {c : SocksConnection}
    (hm : ⟨id, .socks c⟩ ∈ s.connections) (hst : c.state = .pipeing)
    (hm' : id ∈ s'.connections.map (·.id)) : s'.status.lookup id = s.status.lookup id := by
  cases Server.step_cases hs with
  | poll => rfl
  | acceptSocks _ hu | acceptHttp _ hu => cases hu <;> rfl
  | turn => rfl
  | @visit slot rest l hp hpend hv =>
      have hc := Orderly.before_settle hpend
      have mine := Orderly.mem_of_pending hpend
      by_cases hid : id = slot.id
      · obtain rfl : ⟨id, .socks c⟩ = slot := h.eq_of_id mine hm hid
        obtain ⟨slot', hs', he⟩ := List.mem_map.mp hm'
        rcases Orderly.mem_settle hs' with there | ⟨conn, hconn, -⟩
        · exact absurd he (h.others hc there).2
        · exact visit_relay_line hst hv hconn
      · exact (visit_told (told slot mine) hv).others id hid

/-- The states of the loop on a machine with such integers. -/
inductive ReachableOn (abi : Abi) : Server → Prop where
  | boot (socksFd httpFd : Nat) (socksAddr httpAddr : SockaddrIn) (h : socksFd ≠ httpFd) :
      ReachableOn abi (.boot socksFd httpFd socksAddr httpAddr)
  | step {s s' : Server} (t : Calls) (h : ReachableOn abi s) (ht : t.Honest s)
      (ha : t.env.abi = abi) (hs : s.step t = .ok () s') : ReachableOn abi s'

theorem ReachableOn.reachable (h : ReachableOn abi s) : Reachable s := by
  induction h with
  | boot socksFd httpFd socksAddr httpAddr h => exact .boot socksFd httpFd socksAddr httpAddr h
  | step t _ ht _ hs ih => exact .step t ih ht hs

theorem reachableOn_play (h : ReachableOn abi s) {ts : List Calls}
    (ha : ∀ t ∈ ts, t.env.abi = abi) : ReachableOn abi (s.play ts) := by
  induction ts generalizing s with
  | nil => exact h
  | cons t ts ih =>
      unfold Server.play
      split
      · next ht =>
          split
          · next s' hs =>
              have one := ReachableOn.step t h ht (ha t List.mem_cons_self) hs
              exact ih one fun u hu => ha u (List.mem_cons_of_mem t hu)
          · exact h
      · exact h

theorem ReachableOn.told (h : ReachableOn abi s) : s.Told abi := by
  induction h with
  | boot => exact fun _ hm => absurd hm List.not_mem_nil
  | step t h ht ha hs ih =>
      subst ha
      exact ih.step h.reachable.orderly hs

end

/-! ### The page -/

/-- The lines of a page, by its tags: `"<br>\n"` ends each, and the head has one more. -/
def readPage (page : Bytes) : List Bytes :=
  (((page.splitOn 60).drop 2).dropLast).map (·.drop 4)

/-- The characters of a line are ASCII, and none of them begins a tag. -/
def Untagged (s : String) : Prop := ∀ c ∈ s.toList, c.toNat < 128 ∧ c ≠ '<'

section
variable {a b : String} {abi : Abi} {d client server : FileDescriptor} {what : String}

theorem latin1_append : latin1 (a ++ b) = latin1 a ++ latin1 b := by
  rw [latin1, String.toList_append, List.map_append]
  rfl

theorem Untagged.append (ha : Untagged a) (hb : Untagged b) : Untagged (a ++ b) := by
  intro c hc
  rw [String.toList_append, List.mem_append] at hc
  exact hc.elim (ha c) (hb c)

theorem untagged_digit {c : Char} (h : c.isDigit = true) : c.toNat < 128 ∧ c ≠ '<' := by
  rw [Char.isDigit, Bool.and_eq_true, decide_eq_true_iff, decide_eq_true_iff] at h
  refine ⟨?_, ?_⟩
  · have : c.val.toNat ≤ 57 := h.2
    exact Nat.lt_of_le_of_lt this (by decide)
  · rintro rfl
    exact absurd h (by decide)

theorem untagged_nat (n : Nat) : Untagged (toString n) := by
  intro c hc
  have digit : c ∈ Nat.toDigits 10 n := by simpa [Nat.toString_eq_repr] using hc
  exact untagged_digit (Nat.isDigit_of_mem_toDigits (by decide) (by decide) digit)

theorem untagged_int (n : Int) : Untagged (toString n) := by
  cases n with
  | ofNat n => exact untagged_nat n
  | negSucc n =>
      have minus : Untagged "-" := by simp [Untagged]
      exact minus.append (untagged_nat (n + 1))

theorem untagged_statusLine (hw : Untagged what) :
    Untagged (statusLine abi client server what) := by
  have quad (d : FileDescriptor) : Untagged (d.getRemoteAddressDottedQuad abi) := fun c hc => by
    obtain rfl | digit := mem_dottedQuad (a := d.addr.sinAddr) hc
    · decide
    · exact untagged_digit digit
  have open' : Untagged "(" := by simp [Untagged]
  have arrow : Untagged ") -> " := by simp [Untagged]
  have next : Untagged ") (" := by simp [Untagged]
  have close : Untagged ")" := by simp [Untagged]
  have shown (d : FileDescriptor) : Untagged (d.getRemoteAddressDottedQuad abi ++ "(" ++
      toString (d.getRemotePortHostOrder abi)) :=
    ((quad d).append open').append (untagged_int _)
  exact (((((shown client).append arrow).append (shown server)).append next).append hw).append close

/-- No byte of such a text begins a tag. -/
theorem Untagged.not_mem (h : Untagged a) : 60 ∉ latin1 a := by
  intro hm
  obtain ⟨c, hc, he⟩ := List.mem_map.mp hm
  obtain ⟨small, hne⟩ := h c hc
  have : c.toNat % 256 = 60 := by simpa using congrArg UInt8.toNat he
  refine hne (Char.toNat_inj.mp ?_)
  rw [Nat.mod_eq_of_lt (by omega)] at this
  exact this

/-- The text that `status::get` makes of some lines. -/
def pageOf (lines : List String) : Bytes :=
  latin1 ("number of connections: " ++ toString lines.length ++ "<br><br>\n") ++
    lines.flatMap fun line => latin1 (line ++ "<br>\n")

/-- Behind the head the page is taken apart at its tags. -/
theorem rows_eq (lines : List String) :
    latin1 "br>\n" ++ lines.flatMap (fun line => latin1 (line ++ "<br>\n")) =
      [60].intercalate (lines.map (fun line => latin1 "br>\n" ++ latin1 line) ++
        [latin1 "br>\n"]) := by
  induction lines with
  | nil => simp
  | cons line lines ih =>
      have tag : latin1 "<br>\n" = 60 :: latin1 "br>\n" := rfl
      rw [List.flatMap_cons, List.map_cons, List.cons_append, List.intercalate_cons_of_ne_nil
        (by simp), ← ih, latin1_append, tag]
      simp

/-- **Page round trip**: who reads a page has its lines. -/
theorem readPage_pageOf {lines : List String} (h : ∀ line ∈ lines, Untagged line) :
    readPage (pageOf lines) = lines.map latin1 := by
  let head := latin1 ("number of connections: " ++ toString lines.length)
  let rows := lines.map fun line => latin1 "br>\n" ++ latin1 line
  let pieces := head :: latin1 "br>" :: (rows ++ [latin1 "br>\n"])
  have page : pageOf lines = [60].intercalate pieces := by
    have tags : latin1 "<br><br>\n" = 60 :: (latin1 "br>" ++ 60 :: latin1 "br>\n") := rfl
    rw [List.intercalate_cons_of_ne_nil (by simp), List.intercalate_cons_of_ne_nil (by simp),
      ← rows_eq, pageOf, latin1_append, tags]
    simp [head]
  have free : ∀ piece ∈ pieces, 60 ∉ piece := by
    intro piece hp
    simp only [pieces, List.mem_cons, List.mem_append, List.not_mem_nil, or_false] at hp
    rcases hp with rfl | rfl | hp | rfl
    · have number : Untagged "number of connections: " := by simp [Untagged]
      exact (number.append (untagged_nat _)).not_mem
    · decide
    · obtain ⟨line, hl, rfl⟩ := List.mem_map.mp hp
      rw [List.mem_append, not_or]
      exact ⟨by decide, (h line hl).not_mem⟩
    · decide
  rw [readPage, page, List.splitOn_intercalate _ free (by simp [pieces])]
  simp only [pieces, rows, List.drop_succ_cons, List.drop_zero, List.dropLast_concat, List.map_map]
  exact List.map_congr_left fun line _ => List.drop_left' rfl

theorem Status.get_eq (address : Nat → Nat) (st : Status) : st.get address =
    pageOf ((st.entries.mergeSort fun a b => address a.1 ≤ address b.1).map (·.2)) := by
  rw [Status.get, pageOf, List.length_map, List.length_mergeSort, latin1_append]
  refine congrArg _ ?_
  rw [latin1, String.toList_join, List.map_flatMap, List.flatMap_map, List.flatMap_map]
  rfl

end

/-- What is shown can be told from the tags. -/
theorem Shown.untagged {abi : Abi} {c : SocksConnection} {line : String}
    (h : Shown abi c (some line)) : Untagged line := by
  have named {what : String} (hw : Untagged what) (h : Names abi what c (some line)) :
      Untagged line := by
    obtain ⟨ends, -, hl⟩ := h
    obtain rfl := Option.some.inj hl
    exact untagged_statusLine hw
  have pipeing : Untagged "pipeing" := by simp [Untagged]
  have connecting : Untagged "connecting" := by simp [Untagged]
  unfold Shown at h
  split at h
  · exact named pipeing h
  · exact named connecting h
  · exact named connecting h
  · exact named connecting (h.resolve_left (Option.some_ne_none _))
  · exact named connecting (h.resolve_left (Option.some_ne_none _))
  · cases h

/-- **The status page tells the truth.**  In every state of the loop the line of a connection is
that of its state: none before it reaches for a server, and none of an `http_connection`; while it
connects, and while it relays, the line names this and its ends, in the digits that the machine
gives them; and what it names stays for as long as the relay, even if an end goes.  The page has
exactly these lines, by the addresses of the connections, with their number before them, and can be
read. -/
theorem status_page {abi : Abi} {s : Server} (h : ReachableOn abi s) (address : Nat → Nat) :
    (∀ slot ∈ s.connections, slot.conn.Shown abi (s.status.lookup slot.id)) ∧
      (∀ t s' id c, t.env.abi = abi → s.step t = .ok () s' → ⟨id, .socks c⟩ ∈ s.connections →
        c.state = .pipeing → id ∈ s'.connections.map (·.id) →
          s'.status.lookup id = s.status.lookup id) ∧
      ∃ rows : List (Nat × String),
        (∀ id line, (id, line) ∈ rows ↔
          ∃ slot ∈ s.connections, slot.id = id ∧ s.status.lookup id = some line) ∧
        (rows.map (·.1)).Nodup ∧ rows.Pairwise (fun r r' => address r.1 ≤ address r'.1) ∧
        s.status.get address = pageOf (rows.map (·.2)) ∧
        readPage (s.status.get address) = rows.map fun r => latin1 r.2 := by
  let sorted := s.status.entries.mergeSort fun a b => address a.1 ≤ address b.1
  let rows : List (Nat × String) := sorted.map fun r => (r.1, r.2)
  have mem (id : Nat) (line : String) : (id, line) ∈ rows ↔
      ∃ slot ∈ s.connections, slot.id = id ∧ s.status.lookup id = some line := by
    have entry : (id, line) ∈ rows ↔ s.status.lookup id = some line := by
      rw [← Option.mem_def, AList.mem_lookup_iff, List.mem_map]
      refine ⟨?_, fun hm => ⟨_, List.mem_mergeSort.mpr hm, rfl⟩⟩
      rintro ⟨r, hr, he⟩
      obtain ⟨rfl, rfl⟩ := Prod.mk.inj he
      exact List.mem_mergeSort.mp hr
    rw [entry]
    refine ⟨fun hl => ?_, fun ⟨_, _, _, hl⟩ => hl⟩
    have key : id ∈ s.status := AList.lookup_isSome.mp (by rw [hl]; rfl)
    obtain ⟨slot, hs, he⟩ := List.mem_map.mp (h.reachable.orderly.status id key)
    exact ⟨slot, hs, he, hl⟩
  have page : s.status.get address = pageOf (rows.map (·.2)) := by
    rw [Status.get_eq, List.map_map]
    rfl
  have relays (t : Calls) (s' : Server) (id : Nat) (c : SocksConnection) (ha : t.env.abi = abi)
      (hs : s.step t = .ok () s') (hm : ⟨id, .socks c⟩ ∈ s.connections)
      (hst : c.state = .pipeing) (hm' : id ∈ s'.connections.map (·.id)) :
      s'.status.lookup id = s.status.lookup id :=
    (show s.Told t.env.abi from ha ▸ h.told).relay_line h.reachable.orderly hs hm hst hm'
  refine ⟨h.told, relays, rows, mem, ?_, ?_, page, ?_⟩
  · have keys : (rows.map (·.1)).Perm s.status.keys := by
      rw [List.map_map]
      exact (List.mergeSort_perm ..).map _
    exact keys.nodup_iff.mpr s.status.keys_nodup
  · rw [List.pairwise_map]
    refine (List.pairwise_mergeSort ?_ ?_ s.status.entries).imp fun {_ _} => of_decide_eq_true
    · intro a b c hab hbc
      exact decide_eq_true ((of_decide_eq_true hab).trans (of_decide_eq_true hbc))
    · intro a b
      simpa using Nat.le_total ..
  · rw [page, readPage_pageOf, List.map_map]
    · rfl
    · intro line hl
      obtain ⟨⟨id, _⟩, hr, rfl⟩ := List.mem_map.mp hl
      obtain ⟨slot, hs, rfl, hl⟩ := (mem ..).mp hr
      have shown := h.told slot hs
      rw [hl] at shown
      cases hc : slot.conn with
      | socks c =>
          rw [hc] at shown
          exact Shown.untagged shown
      | http c =>
          rw [hc] at shown
          cases shown

namespace Sample

theorem served_on : ReachableOn .littleEndian served := by
  refine reachableOn_play (.boot 5 6 ⟨0, 0⟩ ⟨0, 0⟩ (by decide)) ?_
  simp [pass, env]

end Sample

theorem status_page_sample :
    Names .littleEndian "pipeing" Sample.relaying (Sample.served.status.lookup 0) ∧
      ∃ rows : List (Nat × String), rows.Pairwise (fun r r' => r.1 ≤ r'.1) ∧
        readPage (Sample.served.status.get id) = rows.map fun r => latin1 r.2 := by
  obtain ⟨told, -, rows, -, -, sorted, -, read⟩ := status_page Sample.served_on id
  exact ⟨told _ Sample.mem_served, rows, sorted, read⟩

end OldStuff.Socks
