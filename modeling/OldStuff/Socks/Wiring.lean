import OldStuff.Socks.Course
import OldStuff.Socks.Keeping

/-!
# Socks — what a connection has registered

The state of a connection says which of its descriptors stand in the lists of the `select` object:
`SocksConnection.watch`.  A handler edits the lists and the state together, and a handler that
ends the connection takes everything out, as does the handler of an exception, whatever point the
exception came from (`Loose`).  `Tended` is what `work` leaves in either case.

The walk through the handlers is `work_tended`; it bounds the buffers on the way (`Sized`).
-/

namespace OldStuff.Socks
open OldStuff.Io
open OldStuff.Lib (Outcome)
open OldStuff.Io.Select (Holds)

namespace SocksConnection

/-! ### The registrations of a state -/

/-- An end is read from while the buffer for the other is not over the limit; the client only while
the server is there. -/
def WantsRead (s : Side) (c : SocksConnection) : Prop :=
  c.endpoint s ≠ none ∧ (s = .server ∨ c.endpoint s.other ≠ none) ∧
    (c.pending s.other).length ≤ maxBuffSize

/-- An end is written to while something waits for it. -/
def WantsWrite (s : Side) (c : SocksConnection) : Prop := c.endpoint s ≠ none ∧ c.pending s ≠ []

instance (s : Side) (c : SocksConnection) : Decidable (c.WantsRead s) :=
  inferInstanceAs (Decidable (_ ∧ _))

instance (s : Side) (c : SocksConnection) : Decidable (c.WantsWrite s) :=
  inferInstanceAs (Decidable (_ ∧ _))

/-- The registrations a relay wants, as `try_suspend` writes them down. -/
def wants (c : SocksConnection) : DescriptorsSet where
  clientRead := c.WantsRead .client
  clientWrite := c.WantsWrite .client
  serverRead := c.WantsRead .server
  serverWrite := c.WantsWrite .server

/-- The registrations of a relay that is not suspended. -/
def relayWatch (c : SocksConnection) : Watch where
  read := fun p => ∃ s, c.WantsRead s ∧ p = c.endpoint s
  write := fun p => ∃ s, c.WantsWrite s ∧ p = c.endpoint s

/-- The registrations of a connection. -/
def watch (c : SocksConnection) : Watch :=
  match c.state with
  | .readingInitialRequest | .socks5ReadingRequest => .reading c.client
  | .socks4ConnectingServer | .socks5ConnectingServer => .both c.server
  | .socks4WaitingConnection | .socks5WaitingConnection => .both c.listen
  | .pipeing => if c.suspended then .nothing else c.relayWatch
  | _ => .writing c.client

variable {c : SocksConnection} {d : FileDescriptor}

theorem mem_owned : d ∈ c.owned ↔ c.client = some d ∨ c.server = some d ∨ c.listen = some d := by
  simp [owned]

theorem endpoint_mem_owned {s : Side} (h : c.endpoint s = some d) : d ∈ c.owned := by
  cases s with
  | client => exact mem_owned.mpr (.inl h)
  | server => exact mem_owned.mpr (.inr (.inl h))

theorem watch_relay (hst : c.state = .pipeing) (hq : c.suspended = false) :
    c.watch = c.relayWatch := by
  simp [watch, hst, hq]

theorem watch_suspended (hst : c.state = .pipeing) (hq : c.suspended = true) :
    c.watch = .nothing := by
  simp [watch, hst, hq]

/-- The registrations a relay wants depend on its ends and on what waits for them. -/
theorem relayWatch_congr {c' : SocksConnection} (he : ∀ s, c'.endpoint s = c.endpoint s)
    (hp : ∀ s, c'.pending s = c.pending s) : c'.relayWatch = c.relayWatch := by
  simp only [relayWatch, WantsRead, WantsWrite, he, hp]

theorem wants_congr {c' : SocksConnection} (he : ∀ s, c'.endpoint s = c.endpoint s)
    (hp : ∀ s, c'.pending s = c.pending s) : c'.wants = c.wants := by
  have read (s : Side) : c'.WantsRead s ↔ c.WantsRead s := by simp only [WantsRead, he, hp]
  have write (s : Side) : c'.WantsWrite s ↔ c.WantsWrite s := by simp only [WantsWrite, he, hp]
  simp only [wants, read, write]

theorem relayWatch_of : c.relayWatch.Of c.owned := by
  have own {p : Pointer} {s : Side} (hs : c.endpoint s ≠ none) (hp : p = c.endpoint s) :
      ∃ d ∈ c.owned, p = some d := by
    obtain ⟨d, hd⟩ := Option.ne_none_iff_exists'.mp hs
    exact ⟨d, endpoint_mem_owned hd, hp.trans hd⟩
  rintro p (⟨s, hs, hp⟩ | ⟨s, hs, hp⟩)
  · exact own hs.1 hp
  · exact own hs.1 hp

/-- Outside the relay the pointers that are registered are not `NULL`. -/
theorem watch_of (h : Shaped c) : c.watch.Of c.owned := by
  have point {p : Pointer} (hp : p ≠ none) (ho : ∀ d, p = some d → d ∈ c.owned) :
      (Watch.reading p).Of c.owned ∧ (Watch.writing p).Of c.owned ∧ (Watch.both p).Of c.owned := by
    obtain ⟨d, rfl⟩ := Option.ne_none_iff_exists'.mp hp
    exact ⟨.reading (ho d rfl), .writing (ho d rfl), .both (ho d rfl)⟩
  have client (hp : c.client ≠ none) := point hp fun d hd => mem_owned.mpr (.inl hd)
  have server (hp : c.server ≠ none) := point hp fun d hd => mem_owned.mpr (.inr (.inl hd))
  have listen (hp : c.listen ≠ none) := point hp fun d hd => mem_owned.mpr (.inr (.inr hd))
  unfold watch
  unfold Shaped at h
  split at h
  · next hs => rw [hs]; exact (client h.1).1
  · next hs => rw [hs]; exact (client h.1).1
  · next hs => rw [hs]; exact (client h.1).2.1
  · next hs => rw [hs]; exact (client h.1).2.1
  · next hs => rw [hs]; exact (client h.1).2.1
  · next hs => rw [hs]; exact (server h.2.1).2.2
  · next hs => rw [hs]; exact (server h.2.1).2.2
  · next hs => rw [hs]; exact (client h.1).2.1
  · next hs => rw [hs]; exact (client h.1).2.1
  · next hs => rw [hs]; exact (listen h.2.2).2.2
  · next hs => rw [hs]; exact (listen h.2.2).2.2
  · next hs =>
      rw [hs]
      dsimp only
      split
      · exact .nothing
      · exact relayWatch_of

/-! ### `clear_select` -/

variable {p q : Pointer} {s : Select}

theorem mem_forgetPtr_read : p ∈ (forgetPtr q s).fileDescriptorsRead ↔
    p ∈ s.fileDescriptorsRead ∧ ∀ d, q = some d → p ≠ some d := by
  cases q <;> simp [forgetPtr]

theorem mem_forgetPtr_write : p ∈ (forgetPtr q s).fileDescriptorsWrite ↔
    p ∈ s.fileDescriptorsWrite ∧ ∀ d, q = some d → p ≠ some d := by
  cases q <;> simp [forgetPtr]

theorem mem_clearSelect_read : p ∈ (c.clearSelect s).fileDescriptorsRead ↔
    p ∈ s.fileDescriptorsRead ∧ ∀ d ∈ c.owned, p ≠ some d := by
  simp only [clearSelect, mem_forgetPtr_read, mem_owned, or_imp, forall_and, and_assoc]

theorem mem_clearSelect_write : p ∈ (c.clearSelect s).fileDescriptorsWrite ↔
    p ∈ s.fileDescriptorsWrite ∧ ∀ d ∈ c.owned, p ≠ some d := by
  simp only [clearSelect, mem_forgetPtr_write, mem_owned, or_imp, forall_and, and_assoc]

@[simp] theorem forgetPtr_readSet : (forgetPtr q s).readSet = s.readSet := by cases q <;> rfl
@[simp] theorem forgetPtr_writeSet : (forgetPtr q s).writeSet = s.writeSet := by cases q <;> rfl
@[simp] theorem clearSelect_readSet : (c.clearSelect s).readSet = s.readSet := by simp [clearSelect]
@[simp] theorem clearSelect_writeSet : (c.clearSelect s).writeSet = s.writeSet := by
  simp [clearSelect]

/-- Nothing is left of the connection, and the others keep what they have. -/
theorem clearSelect_holds {theirs mine : Watch} (h : Holds theirs mine s) (hm : mine.Of c.owned)
    (ht : ∀ d ∈ c.owned, theirs.Without (some d)) : Holds theirs .nothing (c.clearSelect s) := by
  have gone {p : Pointer} (hp : mine.read p ∨ mine.write p) : ¬ ∀ d ∈ c.owned, p ≠ some d := by
    obtain ⟨d, hd, rfl⟩ := hm p hp
    exact fun hn => hn d hd rfl
  have stays {p : Pointer} (hp : theirs.read p ∨ theirs.write p) : ∀ d ∈ c.owned, p ≠ some d := by
    rintro d hd rfl
    exact hp.elim (ht d hd).1 (ht d hd).2
  refine ⟨fun p => ?_, fun p => ?_⟩
  · rw [mem_clearSelect_read, h.read p]
    constructor
    · rintro ⟨hp | hp, hn⟩
      · exact .inl hp
      · exact absurd hn (gone (.inl hp))
    · rintro (hp | hp)
      · exact ⟨.inl hp, stays (.inl hp)⟩
      · cases hp
  · rw [mem_clearSelect_write, h.write p]
    constructor
    · rintro ⟨hp | hp, hn⟩
      · exact .inl hp
      · exact absurd hn (gone (.inr hp))
    · rintro (hp | hp)
      · exact ⟨.inl hp, stays (.inr hp)⟩
      · cases hp

end SocksConnection

/-! ### What `work` leaves -/

/-- The buffers of a connection, which `alive` says lives. -/
structure Sized (alive : Bool) (c : SocksConnection) : Prop where
  calm : alive = true → c.clientReadBuff.length < maxBuffSize
  clientReadBuff : c.clientReadBuff.length ≤ 2 * maxBuffSize
  clientWriteBuff : c.clientWriteBuff.length ≤ 2 * maxBuffSize
  serverReadBuff : c.serverReadBuff = []
  serverWriteBuff : c.serverWriteBuff.length ≤ 2 * maxBuffSize

/-- At an exception: nothing is registered that is not the connection's. -/
def Loose (theirs : Watch) (w : World) : Prop :=
  ∃ mine : Watch, Holds theirs mine w.select ∧ mine.Of w.conn.owned

/-- A connection that lives has registered what its state says; one that ends, nothing. -/
structure Tended (theirs : Watch) (e : Env) (w₀ : World) (alive : Bool) (w : World) : Prop where
  kept : Kept e w₀ w
  live : alive = true → Holds theirs w.conn.watch w.select
  ended : alive = false → Holds theirs .nothing w.select
  sized : Sized alive w.conn

/-- Where an exception leaves the world. -/
structure Torn (theirs : Watch) (e : Env) (w₀ w : World) : Prop where
  kept : Kept e w₀ w
  loose : Loose theirs w
  sized : Sized false w.conn

/-- Between two states of the handshake: everything was taken out of the lists, and nothing has been
created yet. -/
structure Poised (theirs : Watch) (e : Env) (w₀ w : World) : Prop where
  kept : Kept e w₀ w
  bare : Holds theirs .nothing w.select
  sized : Sized true w.conn
  fresh : created w.trace = []

section
variable {theirs : Watch} {v : Version} {e : Env} {w₀ w : World}

theorem maxBuffSize_pos : 0 < maxBuffSize := by decide

theorem Sized.ended {alive : Bool} {c : SocksConnection} (h : Sized alive c) : Sized false c :=
  { h with calm := nofun }

/-- Only the buffers matter. -/
theorem Sized.congr {alive : Bool} {c : SocksConnection} (h : Sized alive c) (c' : SocksConnection)
    (hr : c'.clientReadBuff = c.clientReadBuff) (hw : c'.clientWriteBuff = c.clientWriteBuff)
    (hr' : c'.serverReadBuff = c.serverReadBuff) (hw' : c'.serverWriteBuff = c.serverWriteBuff) :
    Sized alive c' where
  calm := by rw [hr]; exact h.calm
  clientReadBuff := by rw [hr]; exact h.clientReadBuff
  clientWriteBuff := by rw [hw]; exact h.clientWriteBuff
  serverReadBuff := by rw [hr']; exact h.serverReadBuff
  serverWriteBuff := by rw [hw']; exact h.serverWriteBuff

theorem Sized.queue {c : SocksConnection} (h : Sized true c) (abi : Abi) (type : ReplyType)
    (code : UInt8) (port : UInt16) (address : Nat) (st : ConnectionState) :
    Sized true { c with clientWriteBuff := create abi type code port address, state := st } where
  calm := h.calm
  clientReadBuff := h.clientReadBuff
  clientWriteBuff := by
    have hl := length_create abi type code port address
    cases type <;> exact Nat.le_trans (Nat.le_of_eq hl) (by decide)
  serverReadBuff := h.serverReadBuff
  serverWriteBuff := h.serverWriteBuff

/-! ### The commands -/

/-- The connection goes on. -/
theorem Tended.going (hk : Kept e w₀ w) (hs : Holds theirs w.conn.watch w.select)
    (hz : Sized true w.conn) : Tended theirs e w₀ true w where
  kept := hk
  live := fun _ => hs
  ended := nofun
  sized := hz

theorem refuse_tended (code : UInt8) (hk : Kept e w₀ w) (hs : Holds theirs .nothing w.select)
    (hz : Sized true w.conn) : Tended theirs e w₀ true (refuse v code e w) where
  kept := (hk.queue _ _).select _ rfl rfl
  live := fun _ => hs.watchWrite
  ended := nofun
  sized := hz.queue ..

theorem grant_tended {server : FileDescriptor} (hk : Kept e w₀ w)
    (hs : Holds theirs .nothing w.select) (hz : Sized true w.conn) :
    Tended theirs e w₀ true (grant v server e w) where
  kept := ((hk.note _ rfl rfl fun _ => rfl).queue _ _).select _ rfl rfl
  live := fun _ => hs.watchWrite
  ended := nofun
  sized := hz.queue ..

/-- Where the guarded block of a command throws: nothing is registered, and the refusal follows. -/
structure Foiled (theirs : Watch) (e : Env) (w₀ w : World) : Prop where
  kept : Kept e w₀ w
  bare : Holds theirs .nothing w.select
  sized : Sized true w.conn

theorem openServer_tended {req : SocksRequest} (h : Poised theirs e w₀ w)
    (hc : w.conn.client ≠ none) (hs : w.conn.server = none) :
    (openServer v req e w).Sat (Tended theirs e w₀) (Foiled theirs e w₀) := by
  unfold openServer
  split
  · exact ⟨h.kept, h.bare, h.sized⟩
  · next fd hfd =>
      have number : fd ∈ e.numbers := by simp [Env.numbers, hfd]
      have kept := h.kept.newServer (.ofRequest req.address req.port) hs h.fresh number
        (.opened _) rfl rfl fun _ => rfl
      have sized : Sized true (w.newServer ⟨w.nextId, fd, .ofRequest req.address req.port⟩
          (.opened ⟨w.nextId, fd, .ofRequest req.address req.port⟩)).conn :=
        h.sized.congr _ rfl rfl rfl rfl
      refine setStatus_bind hc (Option.some_ne_none _) ⟨kept, h.bare, sized⟩ fun line => ?_
      have kept := kept.line line
      split
      · exact ⟨kept, h.bare, sized⟩
      · exact grant_tended kept h.bare sized
      · refine .going ((kept.edit _ rfl rfl rfl).select _ rfl rfl) ?_
          (sized.congr _ rfl rfl rfl rfl)
        cases v <;> exact h.bare.watchBoth

theorem openListener_tended (h : Poised theirs e w₀ w) (hl : w.conn.listen = none) :
    (openListener v e w).Sat (Tended theirs e w₀) (Foiled theirs e w₀) := by
  unfold openListener
  split
  · exact ⟨h.kept, h.bare, h.sized⟩
  · next fd servaddr hfd =>
      have number : fd ∈ e.numbers := by simp [Env.numbers, hfd]
      have kept := h.kept.newListen servaddr hl h.fresh number
      refine .going ((kept.queue _ _).select _ rfl rfl) ?_ ?_
      · cases v <;> exact h.bare.watchWrite
      · have sized : Sized true { w.conn with listen := some ⟨w.nextId, fd, servaddr⟩ } :=
          h.sized.congr _ rfl rfl rfl rfl
        exact sized.queue ..

theorem serveRequest_tended {client : FileDescriptor} {req : SocksRequest}
    (h : Poised theirs e w₀ w) (hc : w.conn.client ≠ none) (hs : w.conn.server = none)
    (hl : w.conn.listen = none) :
    (serveRequest v client req e w).Sat (Tended theirs e w₀) (Torn theirs e w₀) := by
  unfold serveRequest
  have asked : Poised theirs e w₀ (w.emit (.asked (canConnect e client))) :=
    ⟨h.kept.note _ rfl rfl fun _ => rfl, h.bare, h.sized, by simpa [Event.creates] using h.fresh⟩
  split
  · exact ⟨asked.kept, ⟨.nothing, asked.bare, .nothing⟩, asked.sized.ended⟩
  · have refused := refuse_tended (v := v) v.notAllowed asked.kept asked.bare asked.sized
    dsimp only
    split
    · -- the refusal is in place, and the client is registered
      obtain ⟨d, hd⟩ := Option.ne_none_iff_exists'.mp hc
      refine ⟨refused.kept, ⟨_, refused.live rfl, ?_⟩, refused.sized.ended⟩
      exact SocksConnection.watch_of (c := (refuse v v.notAllowed e _).conn) ⟨hc, hl⟩
    · exact refused
  · dsimp only
    split
    · exact (openServer_tended asked hc hs).recover fun _ hf =>
        refuse_tended _ hf.kept hf.bare hf.sized
    · split
      · exact (openListener_tended asked hl).recover fun _ hf =>
          refuse_tended _ hf.kept hf.bare hf.sized
      · exact refuse_tended _ asked.kept asked.bare asked.sized

/-! ### Reading a message -/

theorem actInitial_tended {client : FileDescriptor} {req : SocksRequest}
    (h : Poised theirs e w₀ w) (hc : w.conn.client ≠ none) (hs : w.conn.server = none)
    (hl : w.conn.listen = none) :
    (actInitial client req e w).Sat (Tended theirs e w₀) (Torn theirs e w₀) := by
  unfold actInitial
  split
  · exact serveRequest_tended h hc hs hl
  · exact .going ((h.kept.queue _ _).select _ rfl rfl) h.bare.watchWrite (h.sized.queue ..)

variable {initial : Bool} {act : FileDescriptor → SocksRequest → Env → World → Outcome World Bool}

/-- Everything is taken out of the lists, and the connection ends. -/
theorem clear_tended (ht : theirs.Aloof w₀.nextId w₀.conn.owned) (hk : Kept e w₀ w)
    (hs : Loose theirs w) (hz : Sized false w.conn) :
    Tended theirs e w₀ false (w.onSelect w.conn.clearSelect) := by
  obtain ⟨mine, holds, own⟩ := hs
  exact ⟨hk.select _ (by simp) (by simp), nofun,
    fun _ => SocksConnection.clearSelect_holds holds own fun d hd => hk.without ht hd, hz⟩

/-- A connection in a state that reads from the client. -/
structure Listens (theirs : Watch) (e : Env) (w₀ : World) (client : FileDescriptor) (w : World) :
    Prop where
  kept : Kept e w₀ w
  holds : Holds theirs (.reading (some client)) w.select
  fresh : created w.trace = []
  client : w.conn.client = some client
  server : w.conn.server = none
  listen : w.conn.listen = none
  reading : w.conn.state.reading = true

theorem Listens.watch {client : FileDescriptor} (h : Listens theirs e w₀ client w) :
    w.conn.watch = .reading (some client) := by
  have := h.reading
  unfold SocksConnection.watch
  cases hs : w.conn.state <;> rw [hs] at this <;> first | exact h.client ▸ rfl | cases this

theorem Listens.loose {client : FileDescriptor} (h : Listens theirs e w₀ client w) :
    Loose theirs w :=
  ⟨_, h.holds, .reading (SocksConnection.mem_owned.mpr (.inl h.client))⟩

theorem parseBuffer_tended {client : FileDescriptor} (ht : theirs.Aloof w₀.nextId w₀.conn.owned)
    (ha : ∀ req w', Poised theirs e w₀ w' → w'.conn = w.conn →
      (act client req e w').Sat (Tended theirs e w₀) (Torn theirs e w₀))
    (h : Listens theirs e w₀ client w) (hz : Sized false w.conn) :
    (parseBuffer initial act client e w).Sat (Tended theirs e w₀) (Torn theirs e w₀) := by
  unfold parseBuffer
  split
  · exact clear_tended ht h.kept h.loose hz
  · next hlen =>
      have sized : Sized true w.conn := { hz with calm := fun _ => Nat.lt_of_not_le hlen }
      split
      · refine ha _ _ ⟨(h.kept.note _ rfl rfl fun _ => rfl).select _ rfl rfl, ?_, sized, ?_⟩ rfl
        · have own := h.kept.without ht (SocksConnection.mem_owned.mpr (.inl h.client))
          have := h.holds.unwatchRead own
          rwa [← h.client] at this
        · simpa [Event.creates] using h.fresh
      · exact .going h.kept (by rw [h.watch]; exact h.holds) sized
      · next hp => exact (SocksRequest.parse_ne_overread _ _ _ _ hp).elim

theorem readMessage_tended {client : FileDescriptor} (ht : theirs.Aloof w₀.nextId w₀.conn.owned)
    (ha : ∀ req w', Poised theirs e w₀ w' → w'.conn.client ≠ none → w'.conn.server = none →
      w'.conn.listen = none → (act client req e w').Sat (Tended theirs e w₀) (Torn theirs e w₀))
    (h : Listens theirs e w₀ client w) (hz : Sized true w.conn)
    (hn : readFrom .client w.trace = []) (h₀ : w₀.conn.endpoint .client = some client) :
    (readMessage initial act e w).Sat (Tended theirs e w₀) (Torn theirs e w₀) := by
  have act' {c : SocksConnection} (hc : c.client = some client) (hs : c.server = none)
      (hl : c.listen = none) (req : SocksRequest) (w' : World) (hp : Poised theirs e w₀ w')
      (he : w'.conn = c) : (act client req e w').Sat (Tended theirs e w₀) (Torn theirs e w₀) := by
    subst he
    exact ha req w' hp (by rw [hc]; exact Option.some_ne_none _) hs hl
  simp only [readMessage, h.client, deref_some]
  split
  · next hr =>
    split
    · exact ⟨h.kept, h.loose, hz.ended⟩
    · exact parseBuffer_tended ht (act' h.client h.server h.listen) h hz.ended
    · exact clear_tended ht (h.kept.note _ rfl rfl fun _ => rfl) h.loose hz.ended
    · next chunk _ =>
        have sized : Sized false
            { w.conn with clientReadBuff := w.conn.clientReadBuff ++ chunk.bytes } := by
          refine ⟨fun h => (by cases h), ?_, hz.clientWriteBuff, hz.serverReadBuff,
            hz.serverWriteBuff⟩
          have := hz.calm rfl
          have := chunk.length_le
          simp only [List.length_append]
          omega
        refine parseBuffer_tended ht (act' h.client h.server h.listen) ?_ sized
        exact ⟨(h.kept.edit _ rfl rfl rfl).noteRead chunk hn h₀ hr, h.holds,
          by simpa [Event.creates] using h.fresh, h.client, h.server, h.listen, h.reading⟩
  · exact .going h.kept (by rw [h.watch]; exact h.holds) hz

/-! ### Waiting for the other end -/

theorem waitingConnection_tended (ht : theirs.Aloof w₀.nextId w₀.conn.owned) (hk : Kept e w₀ w)
    (hst : w.conn.state = v.waitingConnection) (hs : Holds theirs w.conn.watch w.select)
    (hz : Sized true w.conn) (hn : created w.trace = []) (hsv : w.conn.server = none)
    (hl : w.conn.listen ≠ none) :
    (waitingConnection v e w).Sat (Tended theirs e w₀) (Torn theirs e w₀) := by
  obtain ⟨listen, hl⟩ := Option.ne_none_iff_exists'.mp hl
  have watch {c : SocksConnection} (hc : c.state = v.waitingConnection) :
      c.watch = .both c.listen := by
    unfold SocksConnection.watch
    rw [hc]
    cases v <;> rfl
  have holds : Holds theirs (.both (some listen)) w.select := by rwa [watch hst, hl] at hs
  have own : listen ∈ w.conn.owned := SocksConnection.mem_owned.mpr (.inr (.inr hl))
  simp only [waitingConnection, hl, deref_some]
  split
  · split
    · exact ⟨hk, ⟨_, holds, .both own⟩, hz.ended⟩
    · refine .going (hk.edit _ rfl hsv.symm rfl) ?_ (hz.congr _ rfl rfl rfl rfl)
      rw [World.onConn_conn, watch (by exact hst)]
      exact hl ▸ holds
    · next fd addr hfd =>
        have number : fd ∈ e.numbers := by simp [Env.numbers, hfd]
        have kept := hk.newServer addr hsv hn number (.accepted _) rfl rfl fun _ => rfl
        have kept := (kept.select (·.forget (some listen)) rfl rfl).dropListen (d := listen) hl
        have bare := holds.unwatchBoth (hk.without ht own)
        have sized := hz.congr
          { w.conn with server := some ⟨w.nextId, fd, addr⟩, listen := none } rfl rfl rfl rfl
        exact .going ((kept.select (·.addWrite w.conn.client) rfl rfl).queue _ _)
          bare.watchWrite (sized.queue ..)
  · exact .going hk hs hz

theorem connectingServer_tended (ht : theirs.Aloof w₀.nextId w₀.conn.owned) (hk : Kept e w₀ w)
    (hst : w.conn.state = v.connectingServer) (hs : Holds theirs w.conn.watch w.select)
    (hz : Sized true w.conn) (hsv : w.conn.server ≠ none) :
    (connectingServer v e w).Sat (Tended theirs e w₀) (Torn theirs e w₀) := by
  obtain ⟨server, hsv⟩ := Option.ne_none_iff_exists'.mp hsv
  have watch : w.conn.watch = .both (some server) := by
    rw [← hsv]
    unfold SocksConnection.watch
    rw [hst]
    cases v <;> rfl
  have own : server ∈ w.conn.owned := SocksConnection.mem_owned.mpr (.inr (.inl hsv))
  have holds : Holds theirs (.both (some server)) w.select := by rwa [watch] at hs
  have bare := holds.unwatchBoth (hk.without ht own)
  have kept := hk.select (·.forget (some server)) rfl rfl
  simp only [connectingServer, hsv, deref_some]
  split
  · split
    · exact ⟨kept, ⟨.nothing, bare, .nothing⟩, hz.ended⟩
    · exact grant_tended kept bare hz
    · exact refuse_tended _ kept bare hz
  · exact .going hk hs hz

/-! ### Writing a reply -/

/-- A connection that writes to the client, which is all that it has registered. -/
structure Replies (theirs : Watch) (e : Env) (w₀ w : World) : Prop where
  kept : Kept e w₀ w
  holds : Holds theirs (.writing w.conn.client) w.select
  alone : theirs.Without w.conn.client
  client : w.conn.client ≠ none
  sized : Sized true w.conn

theorem Replies.loose (h : Replies theirs e w₀ w) : Loose theirs w := by
  obtain ⟨client, hc⟩ := Option.ne_none_iff_exists'.mp h.client
  refine ⟨_, h.holds, ?_⟩
  rw [hc]
  exact .writing (SocksConnection.mem_owned.mpr (.inl hc))

theorem writeReply_tended {done : Env → World → Outcome World Bool} (h : Replies theirs e w₀ w)
    (hw : ∀ bs, (w.conn.setPending .client bs).watch = .writing w.conn.client)
    (hd : ∀ w' bs, w'.conn = w.conn.setPending .client bs → Replies theirs e w₀ w' →
      (done e w').Sat (Tended theirs e w₀) (Torn theirs e w₀)) :
    (writeReply done e w).Sat (Tended theirs e w₀) (Torn theirs e w₀) := by
  obtain ⟨client, hc⟩ := Option.ne_none_iff_exists'.mp h.client
  simp only [writeReply, hc, deref_some]
  split
  · unfold send
    split
    · exact ⟨h.kept, h.loose, h.sized.ended⟩
    · next n _ =>
        have kept : Kept e w₀
            ((w.onConn fun c => c.setPending .client ((c.pending .client).drop n)).emit
              (.wrote .client ((w.conn.pending .client).take n))) :=
          (h.kept.edit _ rfl rfl rfl).note _ rfl rfl fun _ => rfl
        have sized : Sized true (w.conn.setPending .client ((w.conn.pending .client).drop n)) := by
          refine ⟨h.sized.calm, h.sized.clientReadBuff, ?_, h.sized.serverReadBuff,
            h.sized.serverWriteBuff⟩
          have := h.sized.clientWriteBuff
          simp only [SocksConnection.setPending, SocksConnection.pending, List.length_drop]
          omega
        rw [Outcome.bind_ok]
        split
        · exact hd _ _ rfl ⟨kept, h.holds, h.alone, h.client, sized⟩
        · exact .going kept ((hw _).symm ▸ h.holds) sized
  · exact .going h.kept ((hw w.conn.clientWriteBuff).symm ▸ h.holds) h.sized

theorem bindResponseWritten_tended (h : Replies theirs e w₀ w) :
    (bindResponseWritten v e w).Sat (Tended theirs e w₀) (Torn theirs e w₀) := by
  refine .going ((h.kept.select _ rfl rfl).edit _ rfl rfl rfl) ?_
    (h.sized.congr _ rfl rfl rfl rfl)
  have := (h.holds.unwatchWrite h.alone).watchBoth (p := w.conn.listen)
  cases v <;> exact this

theorem authResponseWritten_tended (h : Replies theirs e w₀ w) :
    (authResponseWritten e w).Sat (Tended theirs e w₀) (Torn theirs e w₀) :=
  .going ((h.kept.select _ rfl rfl).edit _ rfl rfl rfl) (h.holds.unwatchWrite h.alone).watchRead
    ⟨fun _ => maxBuffSize_pos, Nat.zero_le _, h.sized.clientWriteBuff, h.sized.serverReadBuff,
      h.sized.serverWriteBuff⟩

namespace SocksConnection

variable {c : SocksConnection}

/-- The relay as it starts, with nothing in the buffers. -/
def atStart (c : SocksConnection) : SocksConnection :=
  { c with
    clientWriteBuff := []
    clientReadBuff := []
    serverReadBuff := []
    serverWriteBuff := []
    state := .pipeing }

theorem atStart_read {p : Pointer} (hc : c.client ≠ none) (hsv : c.server ≠ none) :
    c.atStart.relayWatch.read p ↔ p = c.client ∨ p = c.server := by
  constructor
  · rintro ⟨s, -, rfl⟩
    cases s with
    | client => exact .inl rfl
    | server => exact .inr rfl
  · rintro (rfl | rfl)
    · exact ⟨.client, ⟨hc, .inr hsv, Nat.zero_le _⟩, rfl⟩
    · exact ⟨.server, ⟨hsv, .inl rfl, Nat.zero_le _⟩, rfl⟩

theorem atStart_write {p : Pointer} : ¬ c.atStart.relayWatch.write p := by
  rintro ⟨s, hw, -⟩
  cases s <;> exact hw.2 rfl

end SocksConnection

/-- When the relay starts both ends are read from, and neither is written to. -/
theorem startPipeing_tended (h : Replies theirs e w₀ w) (hsv : w.conn.server ≠ none)
    (hq : w.conn.suspended = false) :
    (startPipeing e w).Sat (Tended theirs e w₀) (Torn theirs e w₀) := by
  have kept : Kept e w₀ ((w.onSelect fun s => ((s.removeWrite w.conn.client).addRead
      w.conn.client).addRead w.conn.server).onConn .atStart) :=
    (h.kept.select _ rfl rfl).edit _ rfl rfl rfl
  have bare := h.holds.unwatchWrite h.alone
  have watch : w.conn.atStart.watch = w.conn.atStart.relayWatch :=
    SocksConnection.watch_relay rfl hq
  have holds : Holds theirs w.conn.atStart.watch
      (((w.select.removeWrite w.conn.client).addRead w.conn.client).addRead w.conn.server) := by
    rw [watch]
    refine ⟨(bare.read.add fun _ => Iff.rfl).add fun p => ?_, bare.write.congr fun p => ?_⟩
    · rw [SocksConnection.atStart_read h.client hsv]
      exact or_congr_left (or_iff_right id).symm
    · exact iff_of_false SocksConnection.atStart_write id
  have own : w.conn.atStart.watch.Of w.conn.atStart.owned := by
    rw [watch]
    exact SocksConnection.relayWatch_of
  have sized {alive : Bool} : Sized alive w.conn.atStart :=
    ⟨fun _ => maxBuffSize_pos, Nat.zero_le _, Nat.zero_le _, rfl, Nat.zero_le _⟩
  exact setStatus_bind h.client hsv ⟨kept, ⟨_, holds, own⟩, sized⟩ fun line =>
    .going (kept.line line) holds sized

/-! ### The handlers together -/

/-- Outside the relay the buffers do not matter. -/
theorem SocksConnection.watch_setPending {c : SocksConnection} (hst : c.state ≠ .pipeing)
    (bs : Bytes) : (c.setPending .client bs).watch = c.watch := by
  unfold SocksConnection.watch
  rw [SocksConnection.state_setPending]
  cases hc : c.state <;> first | rfl | exact absurd hc hst

/-- **A visit to a handshake** leaves the registrations of the state it leads to. -/
theorem handler_tended (ht : theirs.Aloof w.nextId w.conn.owned) (hst : w.conn.state ≠ .pipeing)
    (h₀ : w.trace = []) (hsh : Shaped w.conn) (hq : w.conn.suspended = false)
    (hs : Holds theirs w.conn.watch w.select) (hz : Sized true w.conn) :
    (handler e w).Sat (Tended theirs e w) (Torn theirs e w) := by
  have kept : Kept e w w := .refl w h₀
  have fresh : created w.trace = [] := by rw [h₀]; rfl
  have unread : readFrom .client w.trace = [] := by rw [h₀]; rfl
  have client : w.conn.client ≠ none := hsh.client hst
  obtain ⟨d, hd⟩ := Option.ne_none_iff_exists'.mp client
  have alone : theirs.Without w.conn.client := by
    rw [hd]
    exact kept.without ht (SocksConnection.mem_owned.mpr (.inl hd))
  have listens (hr : w.conn.state.reading = true) (hw : w.conn.watch = .reading w.conn.client)
      (hsv : w.conn.server = none) (hl : w.conn.listen = none) : Listens theirs e w d w :=
    ⟨kept, by rwa [hw, hd] at hs, fresh, hd, hsv, hl, hr⟩
  have writes {done : Env → World → Outcome World Bool}
      (hw : w.conn.watch = .writing w.conn.client)
      (hdone : ∀ w' bs, w'.conn = w.conn.setPending .client bs → Replies theirs e w w' →
        (done e w').Sat (Tended theirs e w) (Torn theirs e w)) :
      (writeReply done e w).Sat (Tended theirs e w) (Torn theirs e w) :=
    writeReply_tended ⟨kept, hw ▸ hs, alone, client, hz⟩
      (fun bs => (SocksConnection.watch_setPending hst bs).trans hw) hdone
  unfold Shaped at hsh
  unfold handler
  split
  · next h =>
      rw [h] at hsh
      have reads := listens (by rw [h]; rfl) (by rw [SocksConnection.watch, h]) hsh.2.1 hsh.2.2
      exact readMessage_tended ht (fun _ _ => actInitial_tended) reads hz unread hd
  · next h =>
      rw [h] at hsh
      exact connectingServer_tended (v := .socks4) ht kept h hs hz hsh.2.1
  · next h =>
      rw [h] at hsh
      refine writes (by rw [SocksConnection.watch, h]) fun w' bs he hr => ?_
      exact startPipeing_tended hr (by rw [he]; exact hsh.2.1) (by rw [he]; exact hq)
  · next h =>
      -- the failure is written: the connection ends
      exact writes (by rw [SocksConnection.watch, h]) fun w' bs he hr =>
        clear_tended ht hr.kept hr.loose hr.sized.ended
  · next h =>
      exact writes (by rw [SocksConnection.watch, h]) fun w' bs he hr =>
        authResponseWritten_tended hr
  · next h =>
      rw [h] at hsh
      exact connectingServer_tended (v := .socks5) ht kept h hs hz hsh.2.1
  · next h =>
      rw [h] at hsh
      have reads := listens (by rw [h]; rfl) (by rw [SocksConnection.watch, h]) hsh.2.1 hsh.2.2
      exact readMessage_tended ht (fun _ _ => serveRequest_tended) reads hz unread hd
  · next h =>
      rw [h] at hsh
      exact waitingConnection_tended (v := .socks4) ht kept h hs hz fresh hsh.2.1 hsh.2.2
  · next h =>
      rw [h] at hsh
      exact waitingConnection_tended (v := .socks5) ht kept h hs hz fresh hsh.2.1 hsh.2.2
  · next h =>
      exact writes (by rw [SocksConnection.watch, h]) fun w' bs he hr =>
        bindResponseWritten_tended (v := .socks4) hr
  · next h =>
      exact writes (by rw [SocksConnection.watch, h]) fun w' bs he hr =>
        bindResponseWritten_tended (v := .socks5) hr
  · next h => exact absurd h hst

end

end OldStuff.Socks
