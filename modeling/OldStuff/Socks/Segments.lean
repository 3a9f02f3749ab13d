import OldStuff.Socks.Reading

/-!
# Socks — a message in pieces

A reading state keeps what it has received and parses all of it again after every read.  What the
client sends may arrive in any pieces.  `Delivery` is a run that has received the beginning of a
stream in some of them; `segmentation_independence` says that the connection waits for the first
moment at which a message has arrived, acts on it then, and that what it acts on depends on the
stream and not on the pieces.
-/

namespace OldStuff.Socks
open OldStuff.Io
open OldStuff.Lib (Outcome)
open SocksRequest (complete parse Agrees)

/-- What the reading state of `v` does with a message. -/
def Version.act : Version → FileDescriptor → SocksRequest → Env → World → Outcome World Bool
  | .socks4 => actInitial
  | .socks5 => serveRequest .socks5

/-! ### Visits to a reading state -/

/-- The bytes that a visit to a reading state takes in. -/
def Visit.delivered (x : Visit) : Bytes :=
  match x.before.conn.client with
  | some client =>
    if x.input.select.canRead client then
      match x.input.env.read .client with
      | .data chunk => chunk.bytes
      | _ => []
    else []
  | none => []

/-- If the client is ready, reading from it brings a chunk, or nothing yet. -/
def Visit.Delivers (x : Visit) : Prop :=
  ∀ client, x.before.conn.client = some client → x.input.select.canRead client = true →
    x.input.env.read .client = .again ∨ ∃ chunk, x.input.env.read .client = .data chunk

/-- The bytes that some visits take in. -/
def received (xs : List Visit) : Bytes := xs.flatMap Visit.delivered

/-- The visit adds to the buffer, and the connection stays where it is. -/
structure Visit.Waits (x : Visit) : Prop where
  alive : x.alive = true
  conn : x.after.conn =
    { x.before.conn with clientReadBuff := x.before.conn.clientReadBuff ++ x.delivered }
  select : x.after.select = x.input.select

/-- The visit acts on the message `r` and leaves the state, or the connection ends on an
exception. -/
structure Visit.ActsOn (v : Version) (r : SocksRequest) (x : Visit) : Prop where
  parsed : parse x.input.env.abi x.input.env.request
    (x.before.conn.clientReadBuff ++ x.delivered) v.initial = .accepted r
  acted : ∃ client w,
    handler x.input.env (x.before.enter x.input) = v.act client r x.input.env w
  left : x.alive = true ∧ x.after.conn.state ≠ v.readingRequest ∨
    x.alive = false ∧ ∃ w, handler x.input.env (x.before.enter x.input) = .thrown w

section
variable {v : Version} {e : Env} {w : World} {client : FileDescriptor} {req : SocksRequest}

theorem handler_reading (hst : w.conn.state = v.readingRequest) :
    handler e w = readMessage v.initial v.act e w := by
  rw [handler, hst]
  cases v with
  | socks4 => rfl
  | socks5 => rfl

/-- A request that has been served, without an exception: the connection lives and does not read. -/
def Moved (b : Bool) (w : World) : Prop := b = true ∧ w.conn.state.reading = false

theorem openServer_moved (hc : w.conn.client ≠ none) :
    (openServer v req e w).Sat Moved fun _ => True := by
  unfold openServer
  split
  · trivial
  · next fd _ =>
      refine setStatus_bind (by exact hc) (Option.some_ne_none _) trivial fun line => ?_
      split
      · trivial
      · exact ⟨rfl, rfl⟩
      · exact ⟨rfl, by cases v <;> rfl⟩

theorem openListener_moved : (openListener v e w).Sat Moved fun _ => True := by
  unfold openListener
  split
  · trivial
  · exact ⟨rfl, by cases v <;> rfl⟩

theorem serveRequest_moved (hc : w.conn.client ≠ none) :
    (serveRequest v client req e w).Sat Moved fun _ => True := by
  unfold serveRequest
  split
  · trivial
  · dsimp only
    split
    · trivial
    · exact ⟨rfl, rfl⟩
  · split
    · exact (openServer_moved (w := w.emit _) hc).recover fun _ _ => ⟨rfl, rfl⟩
    · split
      · exact openListener_moved.recover fun _ _ => ⟨rfl, rfl⟩
      · exact ⟨rfl, rfl⟩

theorem act_moved (v : Version) (client : FileDescriptor) (req : SocksRequest) (e : Env)
    (hc : w.conn.client ≠ none) :
    (v.act client req e w).Sat Moved fun _ => True := by
  cases v with
  | socks5 => exact serveRequest_moved hc
  | socks4 =>
      rw [Version.act, actInitial]
      split
      · exact serveRequest_moved hc
      · exact ⟨rfl, rfl⟩

/-! ### One more piece -/

theorem parseBuffer_waits {initial : Bool}
    {act : FileDescriptor → SocksRequest → Env → World → Outcome World Bool}
    (hl : w.conn.clientReadBuff.length < maxBuffSize)
    (hc : complete initial w.conn.clientReadBuff = false) :
    parseBuffer initial act client e w = .ok true w := by
  have verdict := SocksRequest.parse_accepts e.abi e.request w.conn.clientReadBuff initial
  rw [hc] at verdict
  rw [parseBuffer, if_neg (Nat.not_le_of_lt hl)]
  cases hp : parse e.abi e.request w.conn.clientReadBuff initial with
  | accepted r => rw [hp] at verdict; cases verdict
  | rejected => rfl
  | overread => exact absurd hp (SocksRequest.parse_ne_overread _ _ _ _)

theorem parseBuffer_acts {initial : Bool}
    (act : FileDescriptor → SocksRequest → Env → World → Outcome World Bool)
    (client : FileDescriptor) (e : Env) (hl : w.conn.clientReadBuff.length < maxBuffSize)
    (hc : complete initial w.conn.clientReadBuff = true) :
    ∃ r w', parse e.abi e.request w.conn.clientReadBuff initial = .accepted r ∧
      parseBuffer initial act client e w = act client r e w' ∧ w'.conn = w.conn ∧
      w'.trace = w.trace ++ [Event.parsed initial w.conn.clientReadBuff] := by
  have verdict := SocksRequest.parse_accepts e.abi e.request w.conn.clientReadBuff initial
  rw [hc] at verdict
  rw [parseBuffer, if_neg (Nat.not_le_of_lt hl)]
  cases hp : parse e.abi e.request w.conn.clientReadBuff initial with
  | accepted r => exact ⟨r, _, rfl, rfl, rfl, rfl⟩
  | rejected => rw [hp] at verdict; cases verdict
  | overread => exact absurd hp (SocksRequest.parse_ne_overread _ _ _ _)

/-- The world in which the bytes of a visit have been taken in. -/
def Visit.taken (x : Visit) (w : World) : Prop :=
  w.conn = { x.before.conn with
    clientReadBuff := x.before.conn.clientReadBuff ++ x.delivered } ∧ w.select = x.input.select

/-- A visit takes in what is delivered, and then looks at the buffer; or nothing is there to be
read. -/
theorem readMessage_delivers {x : Visit} (hst : x.before.conn.state = v.readingRequest)
    (hc : x.before.conn.client = some client) (hd : x.Delivers) :
    (∃ w, x.taken w ∧ handler x.input.env (x.before.enter x.input) =
      parseBuffer v.initial v.act client x.input.env w) ∨
    x.delivered = [] ∧
      handler x.input.env (x.before.enter x.input) = .ok true (x.before.enter x.input) := by
  rw [handler_reading (by exact hst), readMessage,
    show (x.before.enter x.input).conn.client = some client from hc, deref_some]
  by_cases hr : x.input.select.canRead client
  · rw [if_pos (by exact hr)]
    -- `read` blocks or brings a chunk: in both cases the buffer is parsed
    rcases hd client hc hr with hd | ⟨chunk, hd⟩
    · have nothing : x.delivered = [] := by
        rw [Visit.delivered, hc]
        dsimp only
        rw [if_pos hr, hd]
      rw [hd]
      refine .inl ⟨x.before.enter x.input, ⟨?_, rfl⟩, rfl⟩
      rw [nothing, List.append_nil]
      rfl
    · have bytes : x.delivered = chunk.bytes := by
        rw [Visit.delivered, hc]
        dsimp only
        rw [if_pos hr, hd]
      rw [hd]
      exact .inl ⟨_, ⟨by rw [bytes]; rfl, rfl⟩, rfl⟩
  · rw [if_neg (by exact hr)]
    refine .inr ⟨?_, rfl⟩
    rw [Visit.delivered, hc]
    dsimp only
    rw [if_neg hr]

section
variable {x : Visit}

/-- **A piece that leaves the message open** is kept. -/
theorem visit_waits (hst : x.before.conn.state = v.readingRequest)
    (hc : x.before.conn.client ≠ none) (hd : x.Delivers)
    (hw : work x.input.env (x.before.enter x.input) = .ok x.alive x.after)
    (hl : (x.before.conn.clientReadBuff ++ x.delivered).length < maxBuffSize)
    (hn : complete v.initial (x.before.conn.clientReadBuff ++ x.delivered) = false) :
    x.Waits := by
  obtain ⟨client, hc⟩ := Option.ne_none_iff_exists'.mp hc
  rw [work] at hw
  obtain ⟨w, ⟨conn, select⟩, hh⟩ | ⟨nothing, hh⟩ := readMessage_delivers hst hc hd
  · have buff : w.conn.clientReadBuff = x.before.conn.clientReadBuff ++ x.delivered := by rw [conn]
    rw [hh, parseBuffer_waits (by rwa [buff]) (by rwa [buff])] at hw
    obtain ⟨alive, after⟩ := Outcome.ok.inj hw
    exact ⟨alive.symm, by rw [← after, conn], by rw [← after, select]⟩
  · rw [hh] at hw
    obtain ⟨alive, after⟩ := Outcome.ok.inj hw
    refine ⟨alive.symm, ?_, by rw [← after]; rfl⟩
    rw [← after, nothing, List.append_nil]
    rfl

/-- **A piece that completes the message** is acted on in the same visit. -/
theorem visit_acts (hst : x.before.conn.state = v.readingRequest)
    (hc : x.before.conn.client ≠ none) (hd : x.Delivers)
    (hw : work x.input.env (x.before.enter x.input) = .ok x.alive x.after)
    (hl : (x.before.conn.clientReadBuff ++ x.delivered).length < maxBuffSize)
    (hq : complete v.initial x.before.conn.clientReadBuff = false)
    (hn : complete v.initial (x.before.conn.clientReadBuff ++ x.delivered) = true) :
    ∃ r, x.ActsOn v r := by
  obtain ⟨client, hc'⟩ := Option.ne_none_iff_exists'.mp hc
  rw [work] at hw
  obtain ⟨w, ⟨conn, -⟩, hh⟩ | ⟨nothing, -⟩ := readMessage_delivers hst hc' hd
  · have buff : w.conn.clientReadBuff = x.before.conn.clientReadBuff ++ x.delivered := by rw [conn]
    obtain ⟨r, w', parsed, acted, same, -⟩ := parseBuffer_acts v.act client x.input.env
      (w := w) (by rwa [buff]) (by rwa [buff])
    rw [buff] at parsed
    have there : w'.conn.client ≠ none := by
      rw [same, conn]
      exact hc
    -- whatever the message asks for, the state is another one afterwards
    have moved := act_moved v client r x.input.env there
    refine ⟨r, parsed, ⟨client, w', hh.trans acted⟩, ?_⟩
    rw [hh, acted] at hw ⊢
    cases ho : v.act client r x.input.env w' with
    | ok b w₁ =>
        rw [ho] at hw moved
        obtain ⟨rfl, rfl⟩ := Outcome.ok.inj hw
        refine .inl ⟨moved.1, fun hs => ?_⟩
        have := moved.2
        rw [hs, v.reading_readingRequest] at this
        cases this
    | thrown w₁ =>
        rw [ho] at hw
        -- `work` catches what the handler throws, and the connection ends
        exact .inr ⟨(Outcome.ok.inj hw).1.symm, w₁, rfl⟩
    | fault => rw [ho] at moved; cases moved
  · rw [nothing, List.append_nil, hq] at hn
    cases hn

end

/-! ### The stream, piece by piece -/

/-- The reading state of `v` has just been entered. -/
structure Begins (v : Version) (w : World) : Prop where
  state : w.conn.state = v.readingRequest
  client : w.conn.client ≠ none
  empty : w.conn.clientReadBuff = []

/-- Both reading states are entered with an empty buffer. -/
theorem Run.begins {self : Nat} {time : Int} {us : List Visit} {b : Bool}
    (h : Run (World.fresh self client time) us b w) (hb : b = true)
    (hst : w.conn.state = v.readingRequest)
    (hf : ∀ x, us.getLast? = some x → x.before.conn.state.reading = false) : Begins v w := by
  subst hb
  have apart {st : ConnectionState} (hs : st = v.readingRequest) : st ≠ .pipeing := by
    rw [hs]
    cases v with
    | socks4 => decide
    | socks5 => decide
  have handshaken := h.staged.handshaken (apart hst)
  refine ⟨hst, handshaken.shaped.client (apart hst), ?_⟩
  cases h with
  | start => rfl
  | @step us w₁ _ _ i hrun hw =>
      have before := hf ⟨i, w₁, true, w⟩ (by simp)
      by_cases hp : w₁.conn.state = .pipeing
      · exact absurd (hrun.stays hw hp) (apart hst)
      · refine (visit_apart hw hp before (hrun.staged.handshaken hp).shaped).fresh ?_
        rw [hst]
        exact v.reading_readingRequest

/-- The visits `us`, from the moment the reading state of `v` is entered, have delivered the
beginning of the stream `s`.  The machine is `abi`, and `parse` is called on new objects. -/
structure Delivery (v : Version) (abi : Abi) (s : Bytes) (w₀ : World) (us : List Visit) (b : Bool)
    (w : World) : Prop where
  begins : Begins v w₀
  run : Run w₀ us b w
  pieces : ∀ x ∈ us, x.Delivers
  stream : received us <+: s
  machine : ∀ x ∈ us, x.input.env.abi = abi
  request : ∀ x ∈ us, x.input.env.request.Constructed

section
variable {abi : Abi} {s : Bytes} {w₀ w₀' w' : World} {us us' : List Visit} {x x' : Visit}
  {b b' : Bool} {r r' : SocksRequest}

@[simp] theorem received_snoc (us : List Visit) (x : Visit) :
    received (us ++ [x]) = received us ++ x.delivered := by
  simp [received]

/-- **As long as no message has arrived**, every visit waits. -/
theorem Run.waits (h : Run w₀ us b w) (hb : Begins v w₀) (hd : ∀ x ∈ us, x.Delivers)
    (hl : (received us).length < maxBuffSize) (hn : complete v.initial (received us) = false) :
    (∀ x ∈ us, x.Waits) ∧ w.conn = { w₀.conn with clientReadBuff := received us } := by
  induction h with
  | start =>
      refine ⟨fun _ hx => (List.not_mem_nil hx).elim, ?_⟩
      rw [show received [] = w₀.conn.clientReadBuff from hb.empty.symm]
  | @step us w w' b i h hw ih =>
      rw [received_snoc] at hl hn
      have short : (received us).length < maxBuffSize := by
        rw [List.length_append] at hl
        omega
      -- what is not yet a message was none one visit earlier
      have before : complete v.initial (received us) = false :=
        Bool.eq_false_iff.mpr fun hc => by
          rw [SocksRequest.complete_append _ hc] at hn
          cases hn
      obtain ⟨waits, conn⟩ := ih (fun x hx => hd x (List.mem_append_left _ hx)) short before
      have last : Visit.Waits ⟨i, w, b, w'⟩ := by
        refine visit_waits (v := v) ?_ ?_ (hd _ (by simp)) hw ?_ ?_
        · rw [conn]
          exact hb.state
        · rw [conn]
          exact hb.client
        · rwa [conn]
        · rwa [conn]
      refine ⟨fun x hx => ?_, ?_⟩
      · rcases List.mem_append.mp hx with hx | hx
        · exact waits x hx
        · obtain rfl := List.mem_singleton.mp hx
          exact last
      · rw [last.conn, received_snoc, conn]

/-- A delivery up to its last visit. -/
theorem Delivery.before (h : Delivery v abi s w₀ (us ++ [x]) b w)
    (hs : s.length < maxBuffSize) (hq : complete v.initial (received us) = false) :
    (∀ u ∈ us, u.Waits) ∧
      x.before.conn = { w₀.conn with clientReadBuff := received us } ∧
      work x.input.env (x.before.enter x.input) = .ok x.alive x.after ∧
      (received us ++ x.delivered).length < maxBuffSize := by
  obtain ⟨hrun, hw⟩ := h.run.split rfl
  have long := h.stream.length_le
  rw [received_snoc] at long
  obtain ⟨waits, conn⟩ := hrun.waits h.begins
    (fun u hu => h.pieces u (List.mem_append_left _ hu))
    (by rw [List.length_append] at long; omega) hq
  exact ⟨waits, conn, hw, by omega⟩

/-- What is acted on is what the front of the stream says. -/
theorem Delivery.parsed (h : Delivery v abi s w₀ (us ++ [x]) b w) (hs : s.length < maxBuffSize)
    (hq : complete v.initial (received us) = false) (ha : x.ActsOn v r) :
    x.input.env.request.Constructed ∧
      parse abi x.input.env.request s v.initial = .accepted r := by
  obtain ⟨-, conn, -, -⟩ := h.before hs hq
  have last : x ∈ us ++ [x] := List.mem_append_right _ (List.mem_singleton_self x)
  refine ⟨h.request x last, ?_⟩
  have parsed := ha.parsed
  obtain ⟨more, hmore⟩ := h.stream
  rw [h.machine x last, conn] at parsed
  rw [← hmore, received_snoc]
  exact SocksRequest.parse_append more parsed

/-- **Segmentation independence.**  However a stream of fewer than 4096 bytes is cut, each visit
waits until what has been received begins with a message; the visit at which it does acts on it;
and any other way to cut the stream leads to a message with the same fields. -/
theorem segmentation_independence (hs : s.length < maxBuffSize)
    (h : Delivery v abi s w₀ (us ++ [x]) b w)
    (hq : ∀ m, m <+: received us → complete v.initial m = false) :
    (∀ u ∈ us, u.Waits) ∧
      ((∀ m, m <+: received (us ++ [x]) → complete v.initial m = false) → x.Waits) ∧
      ((∃ m, m <+: received (us ++ [x]) ∧ complete v.initial m = true) →
        ∃ r, x.ActsOn v r ∧
          ∀ {w₀' us' x' b' w' r'}, Delivery v abi s w₀' (us' ++ [x']) b' w' →
            (∀ m, m <+: received us' → complete v.initial m = false) → x'.ActsOn v r' →
            Agrees abi v.initial r r') ∧
      ∀ this req more r, parse abi this req v.initial = .accepted r →
        parse abi this (req ++ more) v.initial = .accepted r := by
  have quiet := hq _ List.prefix_rfl
  obtain ⟨waits, conn, hw, short⟩ := h.before hs quiet
  have last : x ∈ us ++ [x] := List.mem_append_right _ (List.mem_singleton_self x)
  have state : x.before.conn.state = v.readingRequest := by rw [conn]; exact h.begins.state
  have client : x.before.conn.client ≠ none := by rw [conn]; exact h.begins.client
  have buff : x.before.conn.clientReadBuff = received us := by rw [conn]
  -- the buffer holds what has been delivered, as all visits so far waited
  rw [← buff] at short
  refine ⟨waits, fun hn => ?_, ?_, fun this req more r => SocksRequest.parse_append more⟩
  · have open' := hn _ List.prefix_rfl
    rw [received_snoc, ← buff] at open'
    exact visit_waits state client (h.pieces x last) hw short open'
  · rintro ⟨m, hm, hc⟩
    have whole := SocksRequest.complete_of_isPrefix hm hc
    rw [received_snoc, ← buff] at whole
    obtain ⟨r, acts⟩ := visit_acts state client (h.pieces x last) hw short (by rwa [buff]) whole
    refine ⟨r, acts, fun {w₀' us' x' b' w' r'} h' hq' acts' => ?_⟩
    -- both runs parse the same stream, from objects just constructed
    obtain ⟨made, parsed⟩ := h.parsed hs quiet acts
    obtain ⟨made', parsed'⟩ := h'.parsed hs (hq' _ List.prefix_rfl) acts'
    exact SocksRequest.parse_agrees parsed parsed' made made'

end

end

namespace Sample

/-- The first bytes of the sample request, and the rest of it. -/
def firstPiece : Chunk := ⟨[4, 1, 0, 80, 10], nofun, by decide⟩
def secondPiece : Chunk := ⟨[0, 0, 1, 0], nofun, by decide⟩

/-- The request in two pieces. -/
def pieces : List Visit × Bool × World :=
  play (.fresh 0 client 0)
    [visit [7] [] { env with read := fun _ => .data firstPiece },
      visit [7] []
        { env with
          read := fun _ => .data secondPiece
          newSocket := some 8
          tryConnect := .connected }]

end Sample

theorem segmentation_independence_sample :
    ∃ u x, Sample.pieces.1 = [u] ++ [x] ∧ u.Waits ∧ ∃ r, x.ActsOn .socks4 r ∧
      ∀ {w₀' us' x' b' w' r'},
        Delivery .socks4 .littleEndian Sample.request.bytes w₀' (us' ++ [x']) b' w' →
        (∀ m, m <+: received us' → complete Version.socks4.initial m = false) →
        x'.ActsOn .socks4 r' → Agrees .littleEndian Version.socks4.initial r r' := by
  have delivery : Delivery .socks4 .littleEndian Sample.request.bytes (.fresh 0 Sample.client 0)
      Sample.pieces.1 Sample.pieces.2.1 Sample.pieces.2.2 := by
    refine ⟨⟨rfl, Option.some_ne_none _, rfl⟩, run_play _ _, fun x hx _ _ _ => ?_, ?_, ?_, ?_⟩
    · rcases List.mem_pair.mp hx with rfl | rfl
      · exact .inr ⟨_, rfl⟩
      · exact .inr ⟨_, rfl⟩
    · decide
    · intro x hx
      rcases List.mem_pair.mp hx with rfl | rfl <;> rfl
    · intro x hx
      rcases List.mem_pair.mp hx with rfl | rfl <;> exact ⟨rfl, rfl⟩
  refine ⟨_, _, rfl, ?_⟩
  have quiet (m : Bytes) (hm : m <+: [4, 1, 0, 80, 10]) : complete true m = false :=
    Bool.eq_false_iff.mpr fun hc =>
      absurd (SocksRequest.complete_of_isPrefix hm hc) (by decide)
  have short : Sample.request.bytes.length < maxBuffSize := by decide
  have cut : Delivery .socks4 .littleEndian Sample.request.bytes (.fresh 0 Sample.client 0)
    ([_] ++ [_]) _ _ := delivery
  obtain ⟨waits, -, acts, -⟩ := segmentation_independence short cut quiet
  exact ⟨waits _ (List.mem_singleton_self _),
    acts ⟨[4, 1, 0, 80, 10, 0, 0, 1, 0], by decide, by decide⟩⟩

end OldStuff.Socks
