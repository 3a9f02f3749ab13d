import OldStuff.Socks.Access
import OldStuff.Socks.Segments

/-!
# Socks — the version a client is served in

The version of a request is its first byte, and `parse` reads the rest by it; the version in which
a request is answered is that of the state it is read in.  The first message of a client decides
the state, so there the two agree.  `socks5_reading_request` does not look at the version again,
and `parse` accepts a request of version 4 there as well.

`Unconfused` says of a run that it serves a client only in the version its message was read in, and
`unconfused_iff` that this is so exactly when no request of version 4 is let in where one of version
5 is read (`Visit.Confused`).
-/

namespace OldStuff.Socks
open OldStuff.Io
open OldStuff.Lib (Outcome)
open SocksRequest (complete parse portPos)

/-! ### What is served, and on what -/

/-- A socket is created for the client, or success is reported. -/
def Event.Serves (ev : Event) : Prop :=
  ev.opens = true ∨ ∃ v r, SuccessReply v r ∧ ev = .queued r

/-- Neither a message nor the answer to a greeting. -/
def Event.Mute (ev : Event) : Prop :=
  (∀ initial buf, ev ≠ .parsed initial buf) ∧ ev ≠ .queued methodReply

/-- The messages acted on, in order. -/
def messages (es : List Event) : List Bytes :=
  es.filterMap fun
    | .parsed _ buf => some buf
    | _ => none

/-- The layout of a request of version 5. -/
def Request5 (buf : Bytes) : Prop :=
  ∃ command reserved type pos, buf[0]? = some 5 ∧ buf[1]? = some command ∧
    buf[2]? = some reserved ∧ buf[3]? = some type ∧ portPos buf type = some pos ∧
    pos + 2 ≤ buf.length

/-- After the method reply a client is served only on a request of version 5; a client that is
served on a message of version 4 is sent no method reply. -/
structure Unconfused (es : List Event) : Prop where
  answered : ∀ pre ev post, es = pre ++ ev :: post → ev.Serves → .queued methodReply ∈ pre →
    ∃ buf, (messages pre).getLast? = some buf ∧ Request5 buf
  served : ∀ pre ev post, es = pre ++ ev :: post → ev.Serves → ∀ buf,
    (messages pre).getLast? = some buf → buf[0]? = some 4 → .queued methodReply ∉ es

section
variable {es fs : List Event} {ev : Event}

theorem messages_append (es fs : List Event) : messages (es ++ fs) = messages es ++ messages fs :=
  List.filterMap_append

theorem messages_mute (h : ∀ ev ∈ es, ev.Mute) : messages es = [] := by
  refine List.filterMap_eq_nil_iff.mpr fun ev hev => ?_
  cases ev with
  | parsed initial buf => exact absurd rfl ((h _ hev).1 initial buf)
  | _ => rfl

/-- The last message, with nothing but mute events behind it. -/
theorem messages_getLast? {initial : Bool} {buf : Bytes} (h : ∀ ev ∈ fs, ev.Mute) :
    (messages (es ++ Event.parsed initial buf :: fs)).getLast? = some buf := by
  have last : messages (.parsed initial buf :: fs) = [buf] := by
    rw [messages, List.filterMap_cons, ← messages, messages_mute h]
  rw [messages_append, last, List.getLast?_concat]

/-- Nothing has been done for the client. -/
def Unserved (es : List Event) : Prop := ∀ ev ∈ es, ¬ ev.Serves

/-- What has been done for the client was done on one message, behind which there is none; if the
method reply went before, it is a request of version 5. -/
def Apt (es : List Event) : Prop :=
  ∃ pre initial buf post, es = pre ++ .parsed initial buf :: post ∧ Unserved pre ∧
    (∀ ev ∈ post, ev.Mute) ∧ (.queued methodReply ∈ pre → Request5 buf)

/-- A message by itself serves nobody. -/
theorem parsed_not_serves (initial : Bool) (buf : Bytes) :
    ¬ (Event.parsed initial buf).Serves := by
  rintro (ho | ⟨v, r, -, hr⟩)
  · cases ho
  · cases hr

theorem Unserved.append (h : Unserved es) (h' : Unserved fs) : Unserved (es ++ fs) := by
  intro ev hev
  rcases List.mem_append.mp hev with hev | hev
  · exact h ev hev
  · exact h' ev hev

theorem Apt.append (h : Apt es) (h' : ∀ ev ∈ fs, ev.Mute) : Apt (es ++ fs) := by
  obtain ⟨pre, initial, buf, post, rfl, unserved, mute, layout⟩ := h
  refine ⟨pre, initial, buf, post ++ fs, by simp, unserved, fun ev hev => ?_, layout⟩
  rcases List.mem_append.mp hev with hev | hev
  · exact mute ev hev
  · exact h' ev hev

theorem Unserved.unconfused (h : Unserved es) : Unconfused es where
  answered := fun pre ev post he hev _ => absurd hev (h ev (by rw [he]; simp))
  served := fun pre ev post he hev _ _ _ => absurd hev (h ev (by rw [he]; simp))

theorem Apt.unconfused (h : Apt es) : Unconfused es := by
  obtain ⟨pre, initial, buf, post, rfl, unserved, mute, layout⟩ := h
  -- an event that serves stands behind the message
  have behind {pre' post' : List Event} {ev : Event}
      (he : pre ++ Event.parsed initial buf :: post = pre' ++ ev :: post') (hev : ev.Serves) :
      ∃ mid, pre' = pre ++ Event.parsed initial buf :: mid ∧ ∀ ev ∈ mid, ev.Mute := by
    obtain ⟨mid, rfl, hm⟩ | ⟨mid, rfl, hm⟩ := List.append_eq_append_iff.mp he
    · cases mid with
      | nil =>
          obtain ⟨rfl, -⟩ := List.cons.inj (List.nil_append _ ▸ hm)
          exact absurd hev (parsed_not_serves _ _)
      | cons ev' mid =>
          obtain ⟨rfl, rfl⟩ := List.cons.inj hm
          exact ⟨mid, rfl, fun ev hev => mute ev (List.mem_append_left _ hev)⟩
    · refine absurd hev (unserved ev ?_)
      cases mid with
      | nil =>
          obtain ⟨rfl, -⟩ := List.cons.inj (List.nil_append _ ▸ hm)
          exact absurd hev (parsed_not_serves _ _)
      | cons ev' mid =>
          obtain ⟨rfl, -⟩ := List.cons.inj hm
          simp
  -- the method reply, if it was sent, went before the message
  have early {mid : List Event} (hmid : ∀ ev ∈ mid, ev.Mute)
      (hm : .queued methodReply ∈ pre ++ Event.parsed initial buf :: mid) :
      .queued methodReply ∈ pre := by
    rcases List.mem_append.mp hm with hm | hm
    · exact hm
    · rcases List.mem_cons.mp hm with hm | hm
      · cases hm
      · exact absurd rfl (hmid _ hm).2
  refine ⟨fun pre' ev post' he hev hm => ?_, fun pre' ev post' he hev buf' hb h4 hm => ?_⟩
  · obtain ⟨mid, rfl, hmid⟩ := behind he hev
    exact ⟨buf, messages_getLast? hmid, layout (early hmid hm)⟩
  · obtain ⟨mid, rfl, hmid⟩ := behind he hev
    obtain rfl := Option.some.inj ((messages_getLast? hmid).symm.trans hb)
    obtain ⟨_, _, _, _, h5, -⟩ := layout (early mute hm)
    rw [h4] at h5
    cases h5

end

/-! ### Serving a request -/

/-- A request is let in, and a socket for it is created. -/
def Opens (e : Env) (client : FileDescriptor) (r : SocksRequest) : Prop :=
  canConnect e client = some true ∧
    (r.command = requestCommandConnect ∧ e.newSocket ≠ none ∨
      r.command = requestCommandBind ∧ e.newServerSocket ≠ none)

/-- Neither a message nor the answer to one. -/
def Event.Plain (ev : Event) : Prop := ev.Mute ∧ ¬ ev.Serves

/-- What was done on a request, behind `es`. -/
structure ServedOn (e : Env) (client : FileDescriptor) (r : SocksRequest) (es : List Event)
    (b : Bool) (fs : List Event) (c : SocksConnection) : Prop where
  mute : Adds Event.Mute es fs
  serves : Opens e client r ∨ Adds Event.Plain es fs
  opens : Opens e client r →
    ∃ pre ev, Adds Event.Mute es pre ∧ ev.Serves ∧ Adds Event.Mute (pre ++ [ev]) fs
  state : b = true → c.state = .writingResponseFailure ∨ c.state.served = true ∧ Opens e client r

section
variable {A : Event → Prop} {v : Version} {e : Env} {w : World} {client : FileDescriptor}
  {r : SocksRequest} {es fs gs : List Event} {b : Bool}

theorem Adds.mono {B : Event → Prop} (h : Adds A es fs) (hab : ∀ ev, A ev → B ev) :
    Adds B es fs := by
  obtain ⟨tail, rfl, ht⟩ := h
  exact ⟨tail, rfl, fun ev hev => hab ev (ht ev hev)⟩

theorem Adds.trans (h : Adds A es fs) (h' : Adds A fs gs) : Adds A es gs := by
  obtain ⟨tail, rfl, ht⟩ := h
  obtain ⟨tail', rfl, ht'⟩ := h'
  refine ⟨tail ++ tail', List.append_assoc .., fun ev hev => ?_⟩
  rcases List.mem_append.mp hev with hev | hev
  · exact ht ev hev
  · exact ht' ev hev

theorem plain_queued {reply : Bytes} (h : FailureReply v reply) : (Event.queued reply).Plain := by
  refine ⟨⟨fun _ _ he => (by cases he), fun he => h.ne_methodReply (Event.queued.inj he)⟩, ?_⟩
  rintro (ho | ⟨v', r, hr, he⟩)
  · cases ho
  · obtain rfl := Event.queued.inj he
    exact hr.not_failure h

theorem mute_queued {reply : Bytes} (h : SuccessReply v reply) : (Event.queued reply).Mute :=
  ⟨fun _ _ he => (by cases he), fun he => h.ne_methodReply (Event.queued.inj he)⟩

/-- The events that concern neither messages nor replies. -/
def Event.apart : Event → Bool
  | .read .. | .eof _ | .wrote .. | .asked _ | .accepted _ | .connected | .closed _ => true
  | _ => false

theorem Event.plain_of_apart {ev : Event} (h : ev.apart = true) : ev.Plain := by
  refine ⟨⟨fun _ _ he => ?_, fun he => ?_⟩, ?_⟩
  · subst he
    cases h
  · subst he
    cases h
  · rintro (ho | ⟨v, r, -, rfl⟩)
    · cases ev with
      | opened | listening => cases h
      | _ => cases ho
    · cases h

theorem Adds.refuse {code : UInt8} (hc : code ≠ v.granted) :
    Adds Event.Plain w.trace (refuse v code e w).trace := by
  rw [Socks.refuse, World.queue, World.onSelect_trace, World.emit_trace, World.onConn_trace]
  exact (Adds.refl _ _).emit _ (plain_queued ⟨e.abi, code, 0, 0, hc, rfl⟩)

theorem refuse_servedOn {code : UInt8} (hc : code ≠ v.granted) (hn : ¬ Opens e client r)
    (h : Adds Event.Plain es w.trace) :
    ServedOn e client r es b (refuse v code e w).trace (refuse v code e w).conn where
  mute := (h.trans (.refuse hc)).mono fun _ => And.left
  serves := .inr (h.trans (.refuse hc))
  opens := fun ho => absurd ho hn
  state := fun _ => .inl rfl

/-- Behind `es` something has been done for the client, and nothing since that is a message. -/
def Opened (es fs : List Event) : Prop :=
  ∃ pre ev, Adds Event.Mute es pre ∧ ev.Serves ∧ ev.Mute ∧ Adds Event.Mute (pre ++ [ev]) fs

theorem mute_of_opens {ev : Event} (h : ev.opens = true) : ev.Mute := by
  refine ⟨fun _ _ he => ?_, fun he => ?_⟩
  · subst he
    cases h
  · subst he
    cases h

theorem Opened.start (ev : Event) (h : Adds Event.Mute es fs) (hev : ev.opens = true) :
    Opened es (fs ++ [ev]) :=
  ⟨fs, ev, h, .inl hev, mute_of_opens hev, .refl _ _⟩

theorem Opened.adds (h : Opened es fs) (h' : Adds Event.Mute fs gs) : Opened es gs := by
  obtain ⟨pre, ev, hpre, serves, mute, later⟩ := h
  exact ⟨pre, ev, hpre, serves, mute, later.trans h'⟩

/-- Whatever comes of the socket, the request has been served. -/
theorem Opened.servedOn (h : Opened es w.trace) (ho : Opens e client r)
    (hst : b = true → w.conn.state = .writingResponseFailure ∨ w.conn.state.served = true) :
    ServedOn e client r es b w.trace w.conn := by
  obtain ⟨pre, ev, hpre, serves, mute, later⟩ := h
  exact ⟨(hpre.emit ev mute).trans later, .inl ho, fun _ => ⟨pre, ev, hpre, serves, later⟩,
    fun hb => (hst hb).imp_right fun hs => ⟨hs, ho⟩⟩

theorem openServer_opened {fd : Nat} (hfd : e.newSocket = some fd) (hc : w.conn.client ≠ none)
    (h : Adds Event.Mute es w.trace) :
    (openServer v r e w).Sat (fun _ w' => Opened es w'.trace ∧ w'.conn.state.served = true)
      fun w' => Opened es w'.trace := by
  rw [openServer, hfd]
  dsimp only
  have opened (d : FileDescriptor) : Opened es (w.trace ++ [Event.opened d]) := .start _ h rfl
  refine setStatus_bind hc (Option.some_ne_none _) (opened _) fun line => ?_
  split
  · exact opened _
  · refine ⟨(opened _).adds (((Adds.refl _ _).emit .connected ?_).emit _
      (mute_queued (v := v) ?_)), rfl⟩
    · exact (Event.plain_of_apart rfl).1
    · exact ⟨e.abi, _, _, rfl⟩
  · refine ⟨opened _, ?_⟩
    cases v <;> rfl

theorem openListener_opened {fd : Nat} {servaddr : SockaddrIn}
    (hfd : e.newServerSocket = some (fd, servaddr)) (h : Adds Event.Mute es w.trace) :
    (openListener v e w).Sat (fun _ w' => Opened es w'.trace ∧ w'.conn.state.served = true)
      fun w' => Opened es w'.trace := by
  rw [openListener, hfd]
  have success : SuccessReply v (create e.abi v.type v.granted servaddr.sinPort
      servaddr.sinAddr.toNat) := ⟨e.abi, _, _, rfl⟩
  have opened := Opened.start (.listening ⟨w.nextId, fd, servaddr⟩) h rfl
  refine ⟨opened.adds ((Adds.refl _ _).emit _ (mute_queued success)), ?_⟩
  cases v <;> rfl

/-- A socket that was created and then refused has been created all the same. -/
theorem Opened.refused {code : UInt8} (h : Opened es w.trace) (hcode : code ≠ v.granted)
    (ho : Opens e client r) :
    ServedOn e client r es b (refuse v code e w).trace (refuse v code e w).conn :=
  (h.adds ((Adds.refuse hcode).mono fun _ => And.left)).servedOn ho fun _ => .inl rfl

/-- A `CONNECT` that is let in. -/
theorem connect_servedOn (hc : w.conn.client ≠ none) (ha : canConnect e client = some true)
    (hcmd : r.command = requestCommandConnect) (h : Adds Event.Plain es w.trace) :
    ((openServer v r e w).recover fun w => .ok true (refuse v v.unreachable e w)).Sat
      (fun b w' => ServedOn e client r es b w'.trace w'.conn)
      fun w' => ServedOn e client r es false w'.trace w'.conn := by
  have unreachable : v.unreachable ≠ v.granted := by cases v <;> decide
  cases hfd : e.newSocket with
  | none =>
      have shut : ¬ Opens e client r := by
        rintro ⟨-, ⟨-, hn⟩ | ⟨hb, -⟩⟩
        · exact hn hfd
        · rw [hcmd] at hb
          cases hb
      rw [openServer, hfd]
      exact refuse_servedOn unreachable shut h
  | some fd =>
      have opens : Opens e client r :=
        ⟨ha, .inl ⟨hcmd, by rw [hfd]; exact Option.some_ne_none fd⟩⟩
      refine ((openServer_opened hfd hc (h.mono fun _ => And.left)).mono (fun b w' h => ?_)
        fun _ h => h).recover fun w' h => h.refused unreachable opens
      exact h.1.servedOn opens fun _ => .inr h.2

/-- A `BIND` that is let in. -/
theorem bind_servedOn (ha : canConnect e client = some true)
    (hcmd : r.command = requestCommandBind) (h : Adds Event.Plain es w.trace) :
    ((openListener v e w).recover fun w => .ok true (refuse v v.failure e w)).Sat
      (fun b w' => ServedOn e client r es b w'.trace w'.conn)
      fun w' => ServedOn e client r es false w'.trace w'.conn := by
  have failure : v.failure ≠ v.granted := by cases v <;> decide
  cases hfd : e.newServerSocket with
  | none =>
      have shut : ¬ Opens e client r := by
        rintro ⟨-, ⟨hb, -⟩ | ⟨-, hn⟩⟩
        · rw [hcmd] at hb
          cases hb
        · exact hn hfd
      rw [openListener, hfd]
      exact refuse_servedOn failure shut h
  | some fds =>
      have opens : Opens e client r :=
        ⟨ha, .inr ⟨hcmd, by rw [hfd]; exact Option.some_ne_none fds⟩⟩
      refine ((openListener_opened hfd (h.mono fun _ => And.left)).mono (fun b w' h => ?_)
        fun _ h => h).recover fun w' h => h.refused failure opens
      exact h.1.servedOn opens fun _ => .inr h.2

theorem serveRequest_servedOn (v : Version) (client : FileDescriptor) (r : SocksRequest) (e : Env)
    (hc : w.conn.client ≠ none) :
    (serveRequest v client r e w).Sat
      (fun b w' => ServedOn e client r w.trace b w'.trace w'.conn)
      fun w' => ServedOn e client r w.trace false w'.trace w'.conn := by
  have notAllowed : v.notAllowed ≠ v.granted := by cases v <;> decide
  have failure : v.failure ≠ v.granted := by cases v <;> decide
  have asked : Adds Event.Plain w.trace (w.emit (.asked (canConnect e client))).trace :=
    (Adds.refl _ _).emit _ (Event.plain_of_apart rfl)
  -- whoever is not let in has no socket created
  have shut (hne : canConnect e client ≠ some true) : ¬ Opens e client r := fun ho => hne ho.1
  unfold serveRequest
  cases ha : canConnect e client with
  | none =>
      rw [ha] at asked shut
      have shut := shut fun h => by cases h
      exact ⟨asked.mono fun _ => And.left, .inr asked, fun ho => absurd ho shut, nofun⟩
  | some a =>
      rw [ha] at asked shut
      cases a with
      | false =>
          have shut := shut fun h => by cases h
          dsimp only
          split
          · exact refuse_servedOn notAllowed shut asked
          · exact refuse_servedOn notAllowed shut asked
      | true =>
          dsimp only
          by_cases hcmd : r.command = requestCommandConnect
          · rw [if_pos hcmd]
            exact connect_servedOn hc ha hcmd asked
          · rw [if_neg hcmd]
            by_cases hcmd' : r.command = requestCommandBind
            · rw [if_pos hcmd']
              exact bind_servedOn ha hcmd' asked
            · rw [if_neg hcmd']
              refine refuse_servedOn failure ?_ asked
              rintro ⟨-, ⟨hb, -⟩ | ⟨hb, -⟩⟩
              · exact hcmd hb
              · exact hcmd' hb

/-! ### Reading a message -/

/-- A visit to a reading state has the buffer `buf` to parse. -/
def Takes (e : Env) (w : World) (client : FileDescriptor) (buf : Bytes) : Prop :=
  w.conn.client = some client ∧ w.select.canRead client = true ∧ buf.length < maxBuffSize ∧
    (e.read .client = .again ∧ buf = w.conn.clientReadBuff ∨
      ∃ chunk, e.read .client = .data chunk ∧ buf = w.conn.clientReadBuff ++ chunk.bytes)

variable {initial : Bool} {act : FileDescriptor → SocksRequest → Env → World → Outcome World Bool}
  {buf : Bytes}

/-- Such a visit is what `parse` makes of the buffer. -/
theorem readMessage_takes (initial : Bool)
    (act : FileDescriptor → SocksRequest → Env → World → Outcome World Bool)
    (h : Takes e w client buf) :
    ∃ w', w'.conn = { w.conn with clientReadBuff := buf } ∧
      Adds Event.Plain w.trace w'.trace ∧
      readMessage initial act e w = parseBuffer initial act client e w' := by
  obtain ⟨hc, hr, -, hread⟩ := h
  rw [readMessage, hc, deref_some, if_pos hr]
  obtain ⟨hread, rfl⟩ | ⟨chunk, hread, rfl⟩ := hread
  · rw [hread]
    exact ⟨w, rfl, .refl _ _, rfl⟩
  · rw [hread]
    exact ⟨_, rfl, (Adds.refl _ _).emit _ (Event.plain_of_apart rfl), rfl⟩

/-- Any other visit says nothing. -/
theorem readMessage_idle (hc : w.conn.client = some client) (h : ∀ buf, ¬ Takes e w client buf) :
    (readMessage initial act e w).Sat
      (fun b w' => Adds Event.Plain w.trace w'.trace ∧
        (b = true → w'.conn.state = w.conn.state))
      fun w' => Adds Event.Plain w.trace w'.trace := by
  have long {w' : World} (hn : ¬ w'.conn.clientReadBuff.length < maxBuffSize)
      (ht : Adds Event.Plain w.trace w'.trace) :
      (parseBuffer initial act client e w').Sat
        (fun b w' => Adds Event.Plain w.trace w'.trace ∧
          (b = true → w'.conn.state = w.conn.state))
        fun w' => Adds Event.Plain w.trace w'.trace := by
    rw [parseBuffer, if_pos (Nat.le_of_not_lt hn)]
    exact ⟨ht, fun hb => by cases hb⟩
  rw [readMessage, hc, deref_some]
  by_cases hr : w.select.canRead client = true
  · rw [if_pos hr]
    cases hread : e.read .client with
    | threw => exact .refl _ _
    | again => exact long (fun hl => h _ ⟨hc, hr, hl, .inl ⟨hread, rfl⟩⟩) (.refl _ _)
    | eof =>
        exact ⟨(Adds.refl _ _).emit _ (Event.plain_of_apart rfl), fun hb => by cases hb⟩
    | data chunk =>
        exact long (fun hl => h _ ⟨hc, hr, hl, .inr ⟨chunk, hread, rfl⟩⟩)
          ((Adds.refl _ _).emit _ (Event.plain_of_apart rfl))
  · rw [if_neg hr]
    exact ⟨.refl _ _, fun _ => rfl⟩

/-- What a visit to the reading state of `v` says: nothing; or that the greeting was answered; or
what was done on a request. -/
inductive Heard (v : Version) (e : Env) (w : World) (client : FileDescriptor) (b : Bool)
    (fs : List Event) (c : SocksConnection) : Prop where
  | nothing (h : Adds Event.Plain w.trace fs) (hst : b = true → c.state = w.conn.state)
  | greeting {pre : List Event} {buf : Bytes} (hv : v = .socks4)
      (h : Adds Event.Plain w.trace pre)
      (hf : fs = pre ++ [.parsed true buf, .queued methodReply])
      (hst : c.state = .socks5WritingAuthResponseSuccess)
  | request {pre : List Event} {buf : Bytes} {r : SocksRequest} (ht : Takes e w client buf)
      (hp : parse e.abi e.request buf v.initial = .accepted r)
      (hv : v = .socks4 → r.version = 4) (h : Adds Event.Plain w.trace pre)
      (hs : ServedOn e client r (pre ++ [.parsed v.initial buf]) b fs c)

/-- A message that is accepted is acted on. -/
theorem readMessage_accepts (ht : Takes e w client buf)
    (hp : parse e.abi e.request buf v.initial = .accepted r) :
    ∃ w', w'.conn.client = some client ∧
      (∃ pre, Adds Event.Plain w.trace pre ∧ w'.trace = pre ++ [Event.parsed v.initial buf]) ∧
      readMessage v.initial v.act e w = v.act client r e w' := by
  obtain ⟨w₁, conn, plain, he⟩ := readMessage_takes v.initial v.act ht
  have buff : w₁.conn.clientReadBuff = buf := by rw [conn]
  have accepted := SocksRequest.parse_accepts e.abi e.request buf v.initial
  rw [hp] at accepted
  obtain ⟨r', w', hp', hact, conn', trace⟩ := parseBuffer_acts v.act client e
    (buff ▸ ht.2.2.1) (by rw [buff]; exact accepted.symm)
  rw [buff] at hp' trace
  obtain rfl := ParseResult.accepted.inj (hp.symm.trans hp')
  refine ⟨w', ?_, ⟨w₁.trace, plain, trace⟩, he.trans hact⟩
  rw [conn', conn]
  exact ht.1

/-- A request that is accepted is served. -/
theorem serve_accepted {w' : World} {pre : List Event} (v' : Version)
    (hc : w'.conn.client = some client) (ht : w'.trace = pre ++ [Event.parsed v.initial buf]) :
    (serveRequest v' client r e w').Sat
      (fun b w₂ => ServedOn e client r (pre ++ [Event.parsed v.initial buf]) b w₂.trace w₂.conn)
      fun w₂ =>
        ServedOn e client r (pre ++ [Event.parsed v.initial buf]) false w₂.trace w₂.conn := by
  have served := serveRequest_servedOn v' client r e (hc ▸ Option.some_ne_none client)
  rwa [ht] at served

theorem readMessage_heard (hc : w.conn.client = some client) :
    (readMessage v.initial v.act e w).Sat (fun b w' => Heard v e w client b w'.trace w'.conn)
      fun w' => Heard v e w client false w'.trace w'.conn := by
  by_cases ht : ∃ buf, Takes e w client buf
  · obtain ⟨buf, ht⟩ := ht
    cases hp : parse e.abi e.request buf v.initial with
    | overread => exact absurd hp (SocksRequest.parse_ne_overread _ _ _ _)
    | rejected =>
        obtain ⟨w', conn, plain, he⟩ := readMessage_takes v.initial v.act ht
        have buff : w'.conn.clientReadBuff = buf := by rw [conn]
        have open' := SocksRequest.parse_accepts e.abi e.request buf v.initial
        rw [hp] at open'
        rw [he, parseBuffer_waits (buff ▸ ht.2.2.1) (by rw [buff]; exact open'.symm)]
        exact .nothing plain fun _ => by rw [conn]
    | accepted r =>
        obtain ⟨w', there, ⟨pre, plain, trace⟩, he⟩ := readMessage_accepts ht hp
        have request (v' : Version) (hv : v = .socks4 → r.version = 4) :
            (serveRequest v' client r e w').Sat
              (fun b w₂ => Heard v e w client b w₂.trace w₂.conn)
              fun w₂ => Heard v e w client false w₂.trace w₂.conn :=
          (serve_accepted v' there trace).mono (fun _ _ => .request ht hp hv plain)
            fun _ => .request ht hp hv plain
        rw [he]
        cases v with
        | socks5 => exact request .socks5 fun h => by cases h
        | socks4 =>
            -- the first message may be a greeting or a request of SOCKS 4
            rw [Version.act, actInitial]
            by_cases h4 : r.version = 4
            · rw [if_pos h4]
              exact request .socks4 fun _ => h4
            · rw [if_neg h4]
              refine .greeting rfl plain (?_ : _ = _ ++ [Event.parsed true buf, _]) rfl
              rw [World.onSelect_trace, World.queue, World.emit_trace, World.onConn_trace, trace,
                List.append_assoc]
              rfl
  · refine (readMessage_idle hc fun buf h => ht ⟨buf, h⟩).mono (fun b w' h => .nothing h.1 h.2)
      fun w' h => .nothing h fun hb => by cases hb

/-! ### The other states -/

/-- The step from the state `st` of a connection that does not read. -/
inductive Proceeds (st : ConnectionState) (b : Bool) (es fs : List Event) (c : SocksConnection) :
    Prop where
  | served (hs : st.served = true) (h : Adds Event.Mute es fs)
      (next : b = true → c.state.served = true ∨ c.state = .writingResponseFailure) :
      Proceeds st b es fs c
  | unserved (hs : st.served = false) (h : Adds Event.Plain es fs)
      (next : b = true → c.state.served = false ∧
        (c.state = .writingResponseFailure ↔ st = .writingResponseFailure)) :
      Proceeds st b es fs c

theorem connectingServer_proceeds (hs : w.conn.server ≠ none)
    (hst : w.conn.state = v.connectingServer) :
    (connectingServer v e w).Sat
      (fun b w' => Proceeds w.conn.state b w.trace w'.trace w'.conn)
      fun w' => Proceeds w.conn.state false w.trace w'.trace w'.conn := by
  have served : w.conn.state.served = true := by rw [hst]; cases v <;> rfl
  have unreachable : v.unreachable ≠ v.granted := by cases v <;> decide
  obtain ⟨server, hs⟩ := Option.ne_none_iff_exists'.mp hs
  simp only [connectingServer, hs, deref_some]
  split
  · split
    · exact .served served (.refl _ _) fun hb => by cases hb
    · refine .served served (((Adds.refl _ _).emit .connected ?_).emit _ (mute_queued (v := v) ?_))
        fun _ => .inl rfl
      · exact (Event.plain_of_apart rfl).1
      · exact ⟨e.abi, _, _, rfl⟩
    · exact .served served ((Adds.refuse (w := w) unreachable).mono fun _ => And.left)
        fun _ => .inr rfl
  · exact .served served (.refl _ _) fun _ => .inl served

theorem waitingConnection_proceeds (hl : w.conn.listen ≠ none)
    (hst : w.conn.state = v.waitingConnection) :
    (waitingConnection v e w).Sat
      (fun b w' => Proceeds w.conn.state b w.trace w'.trace w'.conn)
      fun w' => Proceeds w.conn.state false w.trace w'.trace w'.conn := by
  have served : w.conn.state.served = true := by rw [hst]; cases v <;> rfl
  obtain ⟨listen, hl⟩ := Option.ne_none_iff_exists'.mp hl
  simp only [waitingConnection, hl, deref_some]
  split
  · split
    · exact .served served (.refl _ _) fun hb => by cases hb
    · exact .served served (.refl _ _) fun _ => .inl served
    · refine .served served ((((Adds.refl _ _).emit (.accepted _) ?_).emit (.closed _) ?_).emit _
        (mute_queued (v := v) ⟨e.abi, 0, 0, rfl⟩)) fun _ => .inl rfl
      · exact (Event.plain_of_apart rfl).1
      · exact (Event.plain_of_apart rfl).1
  · exact .served served (.refl _ _) fun _ => .inl served

/-- A state that writes says nothing itself. -/
theorem writeReply_plain {done : Env → World → Outcome World Bool}
    (next : ConnectionState → Prop) (hc : w.conn.client ≠ none) (hn : next w.conn.state)
    (hd : ∀ w', w'.conn.client = w.conn.client → w'.conn.server = w.conn.server →
      w'.conn.state = w.conn.state →
      (done e w').Sat (fun b w'' => w''.trace = w'.trace ∧ (b = true → next w''.conn.state))
        fun w'' => w''.trace = w'.trace) :
    (writeReply done e w).Sat
      (fun b w' => Adds Event.Plain w.trace w'.trace ∧ (b = true → next w'.conn.state))
      fun w' => Adds Event.Plain w.trace w'.trace := by
  obtain ⟨client, hc⟩ := Option.ne_none_iff_exists'.mp hc
  simp only [writeReply, hc, deref_some, send]
  split
  · split
    · exact .refl _ _
    · next n _ =>
      let w₁ := (w.onConn fun c => c.setPending .client ((c.pending .client).drop n)).emit
        (.wrote .client ((w.conn.pending .client).take n))
      have wrote : Adds Event.Plain w.trace w₁.trace :=
        (Adds.refl _ _).emit _ (Event.plain_of_apart rfl)
      rw [Outcome.bind_ok]
      split
      · refine (hd w₁ rfl rfl rfl).mono (fun b w' h => ⟨?_, h.2⟩) fun w' h => ?_
        · rw [h.1]
          exact wrote
        · rw [h]
          exact wrote
      · exact ⟨wrote, fun _ => hn⟩
  · exact ⟨.refl _ _, fun _ => hn⟩

theorem writeReply_served {done : Env → World → Outcome World Bool} (hc : w.conn.client ≠ none)
    (hs : w.conn.state.served = true)
    (hd : ∀ w', w'.conn.client = w.conn.client → w'.conn.server = w.conn.server →
      w'.conn.state = w.conn.state →
      (done e w').Sat
        (fun b w'' => w''.trace = w'.trace ∧ (b = true → w''.conn.state.served = true))
        fun w'' => w''.trace = w'.trace) :
    (writeReply done e w).Sat
      (fun b w' => Proceeds w.conn.state b w.trace w'.trace w'.conn)
      fun w' => Proceeds w.conn.state false w.trace w'.trace w'.conn :=
  (writeReply_plain (·.served = true) hc hs hd).mono
    (fun _ _ h => .served hs (h.1.mono fun _ => And.left) fun hb => .inl (h.2 hb))
    fun _ h => .served hs (h.mono fun _ => And.left) fun hb => by cases hb

theorem writeReply_unserved {done : Env → World → Outcome World Bool} (hc : w.conn.client ≠ none)
    (hs : w.conn.state.served = false)
    (hd : ∀ w', w'.conn.client = w.conn.client → w'.conn.server = w.conn.server →
      w'.conn.state = w.conn.state →
      (done e w').Sat
        (fun b w'' => w''.trace = w'.trace ∧ (b = true → w''.conn.state.served = false ∧
          (w''.conn.state = .writingResponseFailure ↔ w.conn.state = .writingResponseFailure)))
        fun w'' => w''.trace = w'.trace) :
    (writeReply done e w).Sat
      (fun b w' => Proceeds w.conn.state b w.trace w'.trace w'.conn)
      fun w' => Proceeds w.conn.state false w.trace w'.trace w'.conn :=
  (writeReply_plain (fun st => st.served = false ∧
      (st = .writingResponseFailure ↔ w.conn.state = .writingResponseFailure))
    hc ⟨hs, Iff.rfl⟩ hd).mono
    (fun _ _ h => .unserved hs h.1 h.2)
    fun _ h => .unserved hs h fun hb => by cases hb

/-- **The states that do not read.** -/
theorem work_proceeds (hst : w.conn.state ≠ .pipeing) (hr : w.conn.state.reading = false)
    (hs : Shaped w.conn) :
    (work e w).Sat (fun b w' => Proceeds w.conn.state b w.trace w'.trace w'.conn)
      fun _ => False := by
  have hc := hs.client hst
  have handled : (handler e w).Sat
      (fun b w' => Proceeds w.conn.state b w.trace w'.trace w'.conn)
      fun w' => Proceeds w.conn.state false w.trace w'.trace w'.conn := by
    unfold handler
    split
    · next heq => rw [heq] at hr; cases hr
    · next heq =>
        rw [Shaped, heq] at hs
        exact connectingServer_proceeds hs.2.1 heq
    · next heq =>
        rw [Shaped, heq] at hs
        refine writeReply_served hc (by rw [heq]; rfl) fun w' hc' hs' _ => ?_
        exact setStatus_bind (hc' ▸ hc) (hs' ▸ hs.2.1) rfl fun _ => ⟨rfl, fun _ => rfl⟩
    · next heq =>
        exact writeReply_unserved hc (by rw [heq]; rfl)
          fun w' _ _ hst' => ⟨rfl, fun hb => by cases hb⟩
    · next heq =>
        refine writeReply_unserved hc (by rw [heq]; rfl)
          fun w' _ _ _ => ⟨rfl, fun _ => ⟨rfl, ?_⟩⟩
        rw [heq]
        exact iff_of_false (fun h => by cases h) fun h => by cases h
    · next heq =>
        rw [Shaped, heq] at hs
        exact connectingServer_proceeds hs.2.1 heq
    · next heq => rw [heq] at hr; cases hr
    · next heq =>
        rw [Shaped, heq] at hs
        exact waitingConnection_proceeds hs.2.2 heq
    · next heq =>
        rw [Shaped, heq] at hs
        exact waitingConnection_proceeds hs.2.2 heq
    · next heq =>
        exact writeReply_served hc (by rw [heq]; rfl) fun w' _ _ _ => ⟨rfl, fun _ => rfl⟩
    · next heq =>
        exact writeReply_served hc (by rw [heq]; rfl) fun w' _ _ _ => ⟨rfl, fun _ => rfl⟩
    · next heq => exact absurd heq hst
  exact handled.recover fun w' h => h

end

/-! ### Runs -/

/-- A request of version 4 is let in, and a socket created for it, where one of version 5 is
read. -/
def Visit.Confused (x : Visit) : Prop :=
  x.before.conn.state = .socks5ReadingRequest ∧ ∃ client buf r,
    Takes x.input.env (x.before.enter x.input) client buf ∧
      parse x.input.env.abi x.input.env.request buf false = .accepted r ∧ r.version = 4 ∧
      Opens x.input.env client r

/-- What has been done for a client, by the state of its connection. -/
structure Dialect (alive : Bool) (es : List Event) (c : SocksConnection) : Prop where
  either : Unserved es ∨ Apt es
  waiting : alive = true → c.state.served = false → c.state ≠ .writingResponseFailure → Unserved es
  serving : alive = true → c.state.served = true → Apt es

section
variable {es fs : List Event} {i : Input} {w w' : World} {b : Bool} {c : SocksConnection}
  {v : Version} {client : FileDescriptor}

theorem unserved_of_plain (h : ∀ ev ∈ es, ev.Plain) : Unserved es := fun ev hev => (h ev hev).2

/-- Events that say nothing leave things as they are. -/
theorem Dialect.plain (h : Dialect true es w.conn) (hf : ∀ ev ∈ fs, ev.Plain)
    (hs : b = true → c.state.served = w.conn.state.served)
    (hst : b = true → (c.state = .writingResponseFailure ↔
      w.conn.state = .writingResponseFailure)) : Dialect b (es ++ fs) c where
  either := h.either.imp (fun h => h.append (unserved_of_plain hf))
    fun h => h.append fun ev hev => (hf ev hev).1
  waiting := fun hb hn hne => by
    have hn := (hs hb).symm.trans hn
    exact (h.waiting rfl hn fun hf => hne ((hst hb).mpr hf)).append (unserved_of_plain hf)
  serving := fun hb hn =>
    (h.serving rfl ((hs hb).symm.trans hn)).append fun ev hev => (hf ev hev).1

theorem Proceeds.dialect (h : Proceeds w.conn.state b [] fs c) (hd : Dialect true es w.conn) :
    Dialect b (es ++ fs) c := by
  cases h with
  | served hs h next =>
      obtain ⟨tail, rfl, mute⟩ := h
      have apt := (hd.serving rfl hs).append mute
      refine ⟨.inr apt, fun hb hn hne => ?_, fun _ _ => apt⟩
      rcases next hb with h | h
      · rw [hn] at h
        cases h
      · exact absurd h hne
  | unserved hs h next =>
      obtain ⟨tail, rfl, plain⟩ := h
      exact hd.plain plain (fun hb => (next hb).1.trans hs.symm) fun hb => (next hb).2

/-- A request that is accepted has the layout of its version. -/
theorem request5_of_parse {abi : Abi} {this r : SocksRequest} {buf : Bytes}
    (h : parse abi this buf false = .accepted r) (hv : r.version ≠ 4) : Request5 buf := by
  cases SocksRequest.parse_layout h with
  | socks4 => exact absurd rfl hv
  | socks5 first second third fourth port long =>
      exact ⟨_, _, _, _, first, second, third, fourth, port, long⟩

section
variable {e : Env} {r : SocksRequest} {pre : List Event} {initial : Bool} {buf : Bytes}

/-- A request that has the layout of its version may be served: it is the message everything goes
back to. -/
theorem ServedOn.dialect_apt (hs : ServedOn e client r (pre ++ [Event.parsed initial buf]) b fs c)
    (unserved : Unserved es) (plain : ∀ ev ∈ pre, ev.Plain)
    (layout : .queued methodReply ∈ es → Request5 buf) : Dialect b (es ++ fs) c := by
  have apt : Apt (es ++ fs) := by
    obtain ⟨tail, rfl, mute⟩ := hs.mute
    refine ⟨es ++ pre, initial, buf, tail, by simp,
      unserved.append (unserved_of_plain plain), mute, fun hm => ?_⟩
    rcases List.mem_append.mp hm with hm | hm
    · exact layout hm
    · exact absurd rfl (plain _ hm).1.2
  refine ⟨.inr apt, fun hb hn hne => ?_, fun _ _ => apt⟩
  rcases hs.state hb with h | ⟨h, -⟩
  · exact absurd h hne
  · rw [hn] at h
    cases h

/-- A request that opened none is refused. -/
theorem ServedOn.dialect_refused
    (hs : ServedOn e client r (pre ++ [Event.parsed initial buf]) b fs c)
    (ho : ¬ Opens e client r) (unserved : Unserved es) (plain : ∀ ev ∈ pre, ev.Plain) :
    Dialect b (es ++ fs) c := by
  have after : Unserved (es ++ fs) := by
    obtain ⟨tail, rfl, quiet⟩ := hs.serves.resolve_left ho
    refine unserved.append (Unserved.append ((unserved_of_plain plain).append ?_)
      (unserved_of_plain quiet))
    intro ev hev
    obtain rfl := List.mem_singleton.mp hev
    exact parsed_not_serves _ _
  refine ⟨.inl after, fun _ _ _ => after, fun hb hn => ?_⟩
  rcases hs.state hb with h | ⟨-, h⟩
  · rw [h] at hn
    cases hn
  · exact absurd h ho

end

theorem Heard.dialect {e : Env} {w₀ : World} (h : Heard v e w₀ client b fs c)
    (ht : w₀.trace = []) (hst : w₀.conn.state = v.readingRequest)
    (hd : Dialect true es w₀.conn) (h4 : v = .socks4 → .queued methodReply ∉ es)
    (h5 : v = .socks5 → ∀ buf r, Takes e w₀ client buf →
      parse e.abi e.request buf false = .accepted r → Opens e client r → r.version ≠ 4) :
    Dialect b (es ++ fs) c := by
  have unserved : Unserved es := by
    -- nothing has been served while the connection reads
    refine hd.waiting rfl ?_ ?_
    · rw [hst]
      cases v <;> rfl
    · rw [hst]
      cases v with
      | socks4 => decide
      | socks5 => decide
  cases h with
  | nothing h same =>
      obtain ⟨tail, rfl, plain⟩ := h
      rw [ht, List.nil_append]
      exact hd.plain plain (fun hb => by rw [same hb]) fun hb => by rw [same hb]
  | greeting hv h hf hc =>
      obtain ⟨pre, rfl, plain⟩ := h
      rw [ht, List.nil_append] at hf
      have after : Unserved (es ++ fs) := by
        rw [hf]
        refine unserved.append ((unserved_of_plain plain).append fun ev hev => ?_)
        rcases List.mem_pair.mp hev with rfl | rfl
        · exact parsed_not_serves _ _
        · rintro (ho | ⟨v', r, hr, he⟩)
          · cases ho
          · exact hr.ne_methodReply (Event.queued.inj he).symm
      exact ⟨.inl after, fun _ _ _ => after, fun _ hs => by rw [hc] at hs; cases hs⟩
  | @request pre buf r htakes hp hv h hs =>
      obtain ⟨pre, rfl, plain⟩ := h
      rw [ht, List.nil_append] at hs
      by_cases ho : Opens e client r
      · refine hs.dialect_apt unserved plain fun hm => ?_
        cases v with
        | socks4 => exact absurd hm (h4 rfl)
        | socks5 => exact request5_of_parse hp (h5 rfl buf r htakes hp ho)
      · exact hs.dialect_refused ho unserved plain

/-- A visit to a reading state. -/
theorem visit_heard (hw : work i.env (w.enter i) = .ok b w')
    (hst : w.conn.state = v.readingRequest) (hc : w.conn.client = some client) :
    Heard v i.env (w.enter i) client b w'.trace w'.conn := by
  have heard := readMessage_heard (v := v) (e := i.env) (w := w.enter i) hc
  rw [← handler_reading (by exact hst)] at heard
  have worked : (work i.env (w.enter i)).Sat
      (fun b w' => Heard v i.env (w.enter i) client b w'.trace w'.conn) fun _ => False :=
    heard.recover fun _ h => h
  exact worked.of_ok hw

theorem dialect_new (client : FileDescriptor) (time : Int) :
    Dialect true [] (.new client time) where
  either := .inl fun _ h => (List.not_mem_nil h).elim
  waiting := fun _ _ _ _ h => (List.not_mem_nil h).elim
  serving := fun _ h => by cases h

/-- The method reply has been queued before a request of version 5 is read, and not before the
first message is. -/
theorem Handshaken.greeted (h : Handshaken true es c) (hst : c.state = v.readingRequest) :
    .queued methodReply ∈ es ↔ v = .socks5 := by
  have course := h.course
  rw [← mem_milestones (show Event.milestone (.queued methodReply) = true from rfl)]
  rw [hst] at course
  cases v with
  | socks4 =>
      rw [show milestones es = [] from course]
      exact iff_of_false List.not_mem_nil fun h => by cases h
  | socks5 =>
      rw [show milestones es = [.queued methodReply] from course]
      exact iff_of_true (List.mem_singleton_self _) rfl

/-- **The invariant of a run** without confusion. -/
theorem Run.dialect {self : Nat} {time : Int} {vs : List Visit}
    (h : Run (World.fresh self client time) vs b w) (hq : ∀ x ∈ vs, ¬ x.Confused) :
    Dialect b (events vs) w.conn := by
  induction h with
  | start => exact dialect_new client time
  | @step vs w w' b i h hw ih =>
      have ih := ih fun x hx => hq x (List.mem_append_left _ hx)
      have last : ¬ Visit.Confused ⟨i, w, b, w'⟩ := hq _ (by simp)
      rw [events_append, events_singleton]
      by_cases hp : w.conn.state = .pipeing
      · -- a relay says nothing
        obtain ⟨fs, relaying⟩ := h.staged.relays hp
        have after := visit_relaying hw relaying
        refine ih.plain (fun ev hev => ?_) (fun _ => by rw [after.state, hp])
          fun _ => by rw [after.state, hp]
        have relays := after.relays ev (List.mem_append_right _ hev)
        refine Event.plain_of_apart ?_
        cases ev <;> first | rfl | cases relays
      · have handshaken := h.staged.handshaken hp
        cases hr : w.conn.state.reading with
        | true =>
            obtain ⟨v, hv⟩ := w.conn.state.reading_cases hr
            obtain ⟨d, hd⟩ := Option.ne_none_iff_exists'.mp (handshaken.shaped.client hp)
            -- a request of SOCKS 4 behind the greeting would make the visit a confused one
            refine (visit_heard hw hv hd).dialect rfl hv ih ?_ ?_
            · rintro rfl hm
              cases (handshaken.greeted hv).mp hm
            · rintro rfl buf r ht hparse ho h4
              exact last ⟨hv, d, buf, r, ht, hparse, h4, ho⟩
        | false =>
            have proceeds : (work i.env (w.enter i)).Sat
                (fun b w' => Proceeds w.conn.state b [] w'.trace w'.conn) fun _ => False :=
              work_proceeds (w := w.enter i) hp hr handshaken.shaped
            exact (proceeds.of_ok hw).dialect ih

/-- A confused visit, and what went before it, are a confused run. -/
theorem Run.confused {self : Nat} {time : Int} {vs : List Visit} {x : Visit}
    (h : Run (World.fresh self client time) vs b w) (hx : x ∈ vs) (hc : x.Confused) :
    ¬ Unconfused (events vs) := by
  obtain ⟨hst, client, buf, r, ht, hp, h4, ho⟩ := hc
  obtain ⟨us, ts, rfl, hrun, hw⟩ := h.visit hx
  have handshaken := hrun.staged.handshaken (by rw [hst]; exact fun h => by cases h)
  have greeted := (handshaken.greeted (v := .socks5) hst).mpr rfl
  -- the visit acts on the message
  obtain ⟨w₁, there, ⟨pre, plain, trace⟩, he⟩ := readMessage_accepts (v := .socks5) ht hp
  have served := serve_accepted (e := x.input.env) (r := r) .socks5 there trace
  have worked : (work x.input.env (x.before.enter x.input)).Sat
      (fun b w₂ =>
        ServedOn x.input.env client r (pre ++ [Event.parsed false buf]) b w₂.trace w₂.conn)
      fun _ => False := by
    rw [work, handler_reading (v := .socks5) (by exact hst), he]
    exact served.recover fun _ h => h
  obtain ⟨front, ev, ⟨tail, rfl, mute⟩, serves, ⟨rest, hrest, -⟩⟩ := (worked.of_ok hw).opens ho
  intro hun
  have split : events (us ++ x :: ts) =
      (events us ++ (pre ++ [Event.parsed false buf] ++ tail)) ++ ev :: (rest ++ events ts) := by
    rw [events_append, ← List.singleton_append, events_append, events_singleton, hrest]
    simp
  obtain ⟨buf', hbuf, _, _, _, _, first, -⟩ := hun.answered _ ev _ split serves
    (List.mem_append_left _ greeted)
  have last : (messages (events us ++ (pre ++ [Event.parsed false buf] ++ tail))).getLast? =
      some buf := by
    have : (messages (events us ++ pre ++ Event.parsed false buf :: tail)).getLast? = some buf :=
      messages_getLast? mute
    simpa using this
  obtain rfl := Option.some.inj (last.symm.trans hbuf)
  rw [(SocksRequest.parse_layout hp).first, h4] at first
  cases first

/-- **No version confusion, exactly when none is let in.**  In every run: after the method reply a
client is served only on a request of version 5, and a client that is served on one of version 4
is sent no method reply, if and only if no visit to `SOCKS5_READING_REQUEST` lets a request of
version 4 in and creates a socket for it. -/
theorem unconfused_iff {self : Nat} {time : Int} {vs : List Visit}
    (h : Run (World.fresh self client time) vs b w) :
    Unconfused (events vs) ↔ ∀ x ∈ vs, ¬ x.Confused := by
  constructor
  · intro hu x hx hc
    exact h.confused hx hc hu
  · intro hq
    rcases (h.dialect hq).either with h | h
    · exact h.unconfused
    · exact h.unconfused

end

namespace Sample

/-- A greeting with one method. -/
def greeting : Chunk := ⟨[5, 1, 0], nofun, by decide⟩

/-- A client that greets in version 5 and, once the method reply is sent, asks in version 4. -/
def turncoat : List Visit × Bool × World :=
  play (.fresh 0 client 0)
    [visit [7] [] { env with read := fun _ => .data greeting },
      visit [] [7] { env with write := fun _ => .wrote 2 },
      visit [7] []
        { env with
          read := fun _ => .data request
          newSocket := some 8 }]

theorem run_turncoat :
    Run (World.fresh 0 client 0) turncoat.1 turncoat.2.1 turncoat.2.2 :=
  run_play _ _

end Sample

theorem unconfused_sample :
    Unconfused (events Sample.turncoat.1) ↔ ∀ x ∈ Sample.turncoat.1, ¬ x.Confused :=
  unconfused_iff Sample.run_turncoat

/-- The request of version 4 is read as such, after the method reply of version 5, and a socket is
opened for it; its answer is to be one of version 5. -/
theorem turncoat_served :
    Run (World.fresh 0 Sample.client 0) Sample.turncoat.1 true Sample.turncoat.2.2 ∧
      Sample.turncoat.2.2.conn.state = .socks5ConnectingServer ∧
      events Sample.turncoat.1 =
        [.read .client [5, 1, 0], .parsed true [5, 1, 0], .queued methodReply,
          .wrote .client methodReply, .read .client Sample.request.bytes,
          .parsed false Sample.request.bytes, .asked (some true),
          .opened ⟨1, 8, ⟨20480, 16777226⟩⟩] ∧
      ¬ Unconfused (events Sample.turncoat.1) := by
  have done : events Sample.turncoat.1 =
      [.read .client [5, 1, 0], .parsed true [5, 1, 0], .queued methodReply,
        .wrote .client methodReply, .read .client Sample.request.bytes,
        .parsed false Sample.request.bytes, .asked (some true)] ++
      .opened ⟨1, 8, ⟨20480, 16777226⟩⟩ :: [] := by decide
  refine ⟨Sample.run_turncoat, by decide, done, fun hu => ?_⟩
  obtain ⟨buf, hbuf, _, _, _, _, first, -⟩ := hu.answered _ _ _ done (.inl rfl) (by decide)
  obtain rfl := Option.some.inj hbuf
  cases first

end OldStuff.Socks
