import OldStuff.Lib.Ledger
import OldStuff.Socks.Flow

/-!
# Socks — what a visit keeps

A visit may do little to the objects the connections share.  `Kept` collects it, for the world in
which `work` was called and any world on the way: the descriptor objects balance (what the
connection had and what was created is what it has and what was deleted), at most one object is
created, a pointer is only overwritten while it is `NULL`, no line of the status page is new but
the connection's own, the bits of the last `select` stand, and an end is read from at most once,
and only if its bit is set.

The lemmas take one assignment each; the handlers are walked in `Wiring`.
-/

namespace OldStuff.Socks
open OldStuff.Io
open OldStuff.Lib (Outcome Accounted)

/-! ### Objects created and deleted -/

def Event.creates : Event → List FileDescriptor
  | .opened d | .listening d | .accepted d => [d]
  | _ => []

def Event.deletes : Event → List FileDescriptor
  | .closed d => [d]
  | _ => []

/-- The objects created, in order. -/
def created (es : List Event) : List FileDescriptor := es.flatMap Event.creates

/-- The objects deleted, in order. -/
def deleted (es : List Event) : List FileDescriptor := es.flatMap Event.deletes

section
variable (es fs : List Event) (ev : Event) (ds : List FileDescriptor)

@[simp] theorem created_nil : created [] = [] := rfl
@[simp] theorem deleted_nil : deleted [] = [] := rfl
@[simp] theorem created_append : created (es ++ fs) = created es ++ created fs :=
  List.flatMap_append
@[simp] theorem deleted_append : deleted (es ++ fs) = deleted es ++ deleted fs :=
  List.flatMap_append
@[simp] theorem created_singleton : created [ev] = ev.creates := List.append_nil _
@[simp] theorem deleted_singleton : deleted [ev] = ev.deletes := List.append_nil _
@[simp] theorem created_closed : created (ds.map .closed) = [] := by
  simp [created, Event.creates]
@[simp] theorem deleted_closed : deleted (ds.map .closed) = ds := by
  simp [deleted, Event.deletes, List.flatMap_map]

end

/-- The numbers the kernel may hand out in a step. -/
def Env.numbers (e : Env) : List Nat :=
  e.newSocket.toList ++ (e.newServerSocket.map (·.1)).toList ++
    match e.accept with
    | .socket fd _ => [fd]
    | _ => []

/-- At most one object is new, with the next identity and a number out of `fds`. -/
def Supply (fds : List Nat) (next : Nat) (new : List FileDescriptor) (next' : Nat) : Prop :=
  (new = [] ∧ next' = next) ∨ ∃ d, new = [d] ∧ d.id = next ∧ d.fd ∈ fds ∧ next' = next + 1

/-- A pointer keeps its object until the object is deleted: only a `NULL` pointer is free for
another. -/
def Stays (gone : List FileDescriptor) (p q : Pointer) : Prop :=
  ∀ d, p = some d → q = some d ∨ d ∈ gone

/-- What came from an end, if anything, came in one piece, from an object that was ready. -/
def OneRead (w₀ : World) (s : Side) (bs : Bytes) : Prop :=
  bs = [] ∨ bs.length ≤ maxBuffSize ∧
    ∃ d, w₀.conn.endpoint s = some d ∧ w₀.select.canRead d = true

/-- What holds between the world `w₀` in which `work` was called and a later one of the same
call. -/
structure Kept (e : Env) (w₀ w : World) : Prop where
  self : w.self = w₀.self
  readSet : w.select.readSet = w₀.select.readSet
  writeSet : w.select.writeSet = w₀.select.writeSet
  status : ∀ k ∈ w.status, k ∈ w₀.status ∨ k = w₀.self
  books : Accounted w₀.conn.owned (created w.trace) w.conn.owned (deleted w.trace)
  supply : Supply e.numbers w₀.nextId (created w.trace) w.nextId
  client : Stays (deleted w.trace) w₀.conn.client w.conn.client
  server : Stays (deleted w.trace) w₀.conn.server w.conn.server
  listen : Stays (deleted w.trace) w₀.conn.listen w.conn.listen
  reads : ∀ s, OneRead w₀ s (readFrom s w.trace)

namespace Stays

variable {gone : List FileDescriptor} {p q : Pointer} {d : FileDescriptor}

theorem refl : Stays gone p p := fun _ => .inl

theorem snoc (h : Stays gone p q) : Stays (gone ++ [d]) p q :=
  fun d' hd => (h d' hd).imp_right (List.mem_append_left _)

/-- The object is deleted. -/
theorem drop (h : Stays gone p (some d)) : Stays (gone ++ [d]) p q := by
  intro d' hd
  rcases h d' hd with hq | hq
  · obtain rfl := Option.some.inj hq
    exact .inr (List.mem_append_right _ (List.mem_singleton_self _))
  · exact .inr (List.mem_append_left _ hq)

/-- Another object goes where none is. -/
theorem fill (h : Stays gone p none) : Stays gone p q :=
  fun d hd => (h d hd).elim nofun .inr

end Stays

/-! ### The objects of a connection -/

namespace SocksConnection

variable {c : SocksConnection} {d : FileDescriptor}

theorem owned_fill_server (h : c.server = none) :
    ({ c with server := some d } : SocksConnection).owned.Perm (d :: c.owned) := by
  simp only [owned, h, Option.toList_some, Option.toList_none, List.append_nil, List.append_assoc,
    List.singleton_append]
  exact List.perm_middle

theorem owned_fill_listen (h : c.listen = none) :
    ({ c with listen := some d } : SocksConnection).owned.Perm (d :: c.owned) := by
  simp only [owned, h, Option.toList_some, Option.toList_none, List.append_nil]
  exact List.perm_append_comm

theorem owned_drop_listen (h : c.listen = some d) :
    c.owned.Perm (d :: ({ c with listen := none } : SocksConnection).owned) := by
  simp only [owned, h, Option.toList_some, Option.toList_none, List.append_nil]
  exact List.perm_append_comm

theorem owned_drop_endpoint {s : Side} (h : c.endpoint s = some d) :
    c.owned.Perm (d :: (c.setEndpoint s none).owned) := by
  cases s with
  | client =>
      have h : c.client = some d := h
      simp [owned, setEndpoint, h]
  | server =>
      have h : c.server = some d := h
      simp only [owned, setEndpoint, h, Option.toList_some, Option.toList_none, List.append_nil,
        List.append_assoc, List.singleton_append]
      exact List.perm_middle

end SocksConnection

/-! ### One assignment -/

namespace Kept

variable {e : Env} {w₀ w : World}

theorem refl (w : World) (ht : w.trace = []) : Kept e w w where
  self := rfl
  readSet := rfl
  writeSet := rfl
  status := fun _ => .inl
  books := by rw [ht]; exact .refl _
  supply := by rw [ht]; exact .inl ⟨rfl, rfl⟩
  client := .refl
  server := .refl
  listen := .refl
  reads := fun _ => by rw [ht]; exact .inl rfl

/-- An assignment to a member that is no pointer. -/
theorem edit (h : Kept e w₀ w) (f : SocksConnection → SocksConnection)
    (hc : (f w.conn).client = w.conn.client) (hs : (f w.conn).server = w.conn.server)
    (hl : (f w.conn).listen = w.conn.listen) : Kept e w₀ (w.onConn f) where
  self := h.self
  readSet := h.readSet
  writeSet := h.writeSet
  status := h.status
  books := by
    have : (f w.conn).owned = w.conn.owned := by
      rw [SocksConnection.owned, SocksConnection.owned, hc, hs, hl]
    rw [World.onConn_conn, this]
    exact h.books
  supply := h.supply
  client := by rw [World.onConn_conn, hc]; exact h.client
  server := by rw [World.onConn_conn, hs]; exact h.server
  listen := by rw [World.onConn_conn, hl]; exact h.listen
  reads := h.reads

theorem setPending (h : Kept e w₀ w) (s : Side) (f : SocksConnection → Bytes) :
    Kept e w₀ (w.onConn fun c => c.setPending s (f c)) :=
  h.edit _ (by cases s <;> rfl) (by cases s <;> rfl) (by cases s <;> rfl)

/-- An edit of the lists. -/
theorem select (h : Kept e w₀ w) (g : Select → Select)
    (hr : (g w.select).readSet = w.select.readSet)
    (hw : (g w.select).writeSet = w.select.writeSet) : Kept e w₀ (w.onSelect g) :=
  { h with readSet := hr.trans h.readSet, writeSet := hw.trans h.writeSet }

theorem timeout (h : Kept e w₀ w) (tv : Timeval) : Kept e w₀ { w with tv } := { h with }

/-- The line on the status page. -/
theorem line (h : Kept e w₀ w) (s : String) :
    Kept e w₀ { w with status := w.status.insert w.self s } :=
  { h with
    status := fun k hk => by
      rcases (AList.mem_insert _).mp hk with rfl | hk
      · exact .inr h.self
      · exact h.status k hk }

/-- An event that neither creates nor deletes nor reads. -/
theorem note (h : Kept e w₀ w) (ev : Event) (hc : ev.creates = []) (hd : ev.deletes = [])
    (hr : ∀ s, ev.readFrom s = []) : Kept e w₀ (w.emit ev) := by
  have created : created (w.emit ev).trace = created w.trace := by simp [hc]
  have deleted : deleted (w.emit ev).trace = deleted w.trace := by simp [hd]
  exact
    { h with
      books := by rw [created, deleted]; exact h.books
      supply := by rw [created]; exact h.supply
      client := by rw [deleted]; exact h.client
      server := by rw [deleted]; exact h.server
      listen := by rw [deleted]; exact h.listen
      reads := fun s => by simpa [hr] using h.reads s }

/-- The one read from `s`. -/
theorem noteRead (h : Kept e w₀ w) {s : Side} {d : FileDescriptor} (chunk : Chunk)
    (hn : readFrom s w.trace = []) (hd : w₀.conn.endpoint s = some d)
    (hc : w.select.canRead d = true) : Kept e w₀ (w.emit (.read s chunk.bytes)) where
  self := h.self
  readSet := h.readSet
  writeSet := h.writeSet
  status := h.status
  books := by simpa [Event.creates, Event.deletes] using h.books
  supply := by simpa [Event.creates] using h.supply
  client := by simpa [Event.deletes] using h.client
  server := by simpa [Event.deletes] using h.server
  listen := by simpa [Event.deletes] using h.listen
  reads := by
    intro t
    obtain rfl | rfl := Side.eq_or_eq_other s t
    · refine .inr ⟨by simpa [hn, Event.readFrom] using chunk.length_le, d, hd, ?_⟩
      rwa [Select.canRead, ← h.readSet]
    · simpa [Event.readFrom] using h.reads s.other

/-- `client_write_buff=reply.create(..); state=..` -/
theorem queue (h : Kept e w₀ w) (reply : Bytes) (state : ConnectionState) :
    Kept e w₀ (w.queue reply state) :=
  (h.edit _ rfl rfl rfl).note _ rfl rfl fun _ => rfl

/-- The one new object `d`, which goes to a pointer that is free. -/
theorem acquire (h : Kept e w₀ w) (f : SocksConnection → SocksConnection) {d : FileDescriptor}
    (ev : Event) (hc : ev.creates = [d]) (hd : ev.deletes = []) (hr : ∀ s, ev.readFrom s = [])
    (hn : created w.trace = []) (hid : d.id = w.nextId) (hfd : d.fd ∈ e.numbers)
    (ho : (f w.conn).owned.Perm (d :: w.conn.owned))
    (client : Stays (deleted w.trace) w₀.conn.client (f w.conn).client)
    (server : Stays (deleted w.trace) w₀.conn.server (f w.conn).server)
    (listen : Stays (deleted w.trace) w₀.conn.listen (f w.conn).listen) :
    Kept e w₀ ((w.take.onConn f).emit ev) := by
  have gone : deleted ((w.take.onConn f).emit ev).trace = deleted w.trace := by simp [hd]
  have came : created ((w.take.onConn f).emit ev).trace = created w.trace ++ [d] := by simp [hc]
  refine ⟨h.self, h.readSet, h.writeSet, h.status, ?_, ?_, ?_, ?_, ?_, fun s => ?_⟩
  · rw [came, gone]
    exact h.books.acquire ho
  · have next : w.nextId = w₀.nextId := by
      rcases h.supply with ⟨-, hid⟩ | ⟨d, hd, -⟩
      · exact hid
      · rw [hn] at hd
        cases hd
    rw [came, hn]
    exact .inr ⟨d, rfl, hid.trans next, hfd, congrArg (· + 1) next⟩
  · rw [gone]
    exact client
  · rw [gone]
    exact server
  · rw [gone]
    exact listen
  · simpa [hr] using h.reads s

/-- `d` is deleted, and its pointer is `NULL`. -/
theorem release (h : Kept e w₀ w) (f : SocksConnection → SocksConnection) {d : FileDescriptor}
    (ho : w.conn.owned.Perm (d :: (f w.conn).owned))
    (client : Stays (deleted w.trace ++ [d]) w₀.conn.client (f w.conn).client)
    (server : Stays (deleted w.trace ++ [d]) w₀.conn.server (f w.conn).server)
    (listen : Stays (deleted w.trace ++ [d]) w₀.conn.listen (f w.conn).listen) :
    Kept e w₀ ((w.emit (.closed d)).onConn f) := by
  have gone : deleted ((w.emit (.closed d)).onConn f).trace = deleted w.trace ++ [d] := by
    simp [Event.deletes]
  have came : created ((w.emit (.closed d)).onConn f).trace = created w.trace := by
    simp [Event.creates]
  refine ⟨h.self, h.readSet, h.writeSet, h.status, ?_, ?_, ?_, ?_, ?_, fun s => ?_⟩
  · rw [came, gone]
    exact h.books.release ho
  · rw [came]
    exact h.supply
  · rw [gone]
    exact client
  · rw [gone]
    exact server
  · rw [gone]
    exact listen
  · simpa [Event.readFrom] using h.reads s

variable {fd : Nat} (addr : SockaddrIn)

/-- `server` gets a new object. -/
theorem newServer (h : Kept e w₀ w) (hs : w.conn.server = none) (hn : created w.trace = [])
    (hfd : fd ∈ e.numbers) (ev : Event) (hc : ev.creates = [⟨w.nextId, fd, addr⟩])
    (hd : ev.deletes = []) (hr : ∀ s, ev.readFrom s = []) :
    Kept e w₀ (w.newServer ⟨w.nextId, fd, addr⟩ ev) := by
  have server := h.server
  rw [hs] at server
  exact h.acquire _ ev hc hd hr hn rfl hfd (SocksConnection.owned_fill_server hs) h.client
    server.fill h.listen

/-- `listen` gets a new object. -/
theorem newListen (h : Kept e w₀ w) (hl : w.conn.listen = none) (hn : created w.trace = [])
    (hfd : fd ∈ e.numbers) : Kept e w₀ (w.newListen ⟨w.nextId, fd, addr⟩) := by
  have listen := h.listen
  rw [hl] at listen
  exact h.acquire _ (.listening _) rfl rfl (fun _ => rfl) hn rfl hfd
    (SocksConnection.owned_fill_listen hl) h.client h.server listen.fill

/-- `delete listen; listen=NULL;` -/
theorem dropListen (h : Kept e w₀ w) {d : FileDescriptor} (hl : w.conn.listen = some d) :
    Kept e w₀ ((w.emit (.closed d)).onConn fun c => { c with listen := none }) := by
  have listen := h.listen
  rw [hl] at listen
  exact h.release _ (SocksConnection.owned_drop_listen hl) h.client.snoc h.server.snoc listen.drop

/-- `delete client; client=NULL;`, or the same of the server. -/
theorem dropEndpoint (h : Kept e w₀ w) {s : Side} {d : FileDescriptor}
    (hs : w.conn.endpoint s = some d) : Kept e w₀ (w.delete s d) := by
  have balance := SocksConnection.owned_drop_endpoint hs
  cases s with
  | client =>
      have client := h.client
      rw [show w.conn.client = some d from hs] at client
      exact h.release _ balance client.drop h.server.snoc h.listen.snoc
  | server =>
      have server := h.server
      rw [show w.conn.server = some d from hs] at server
      exact h.release _ balance h.client.snoc server.drop h.listen.snoc

/-- What the others have registered is none of the connection's, whatever it has created since. -/
theorem without (h : Kept e w₀ w) {theirs : Watch} (ht : theirs.Aloof w₀.nextId w₀.conn.owned)
    {d : FileDescriptor} (hd : d ∈ w.conn.owned) : theirs.Without (some d) := by
  have strange {p : Pointer} (hp : theirs.read p ∨ theirs.write p) : p ≠ some d := by
    rintro rfl
    obtain ⟨d', he, hid, hn⟩ := ht _ hp
    obtain rfl := Option.some.inj he
    rcases h.books.mem_iff.mpr (.inl hd) with hd | hd
    · exact hn hd
    · rcases h.supply with ⟨hnew, -⟩ | ⟨d', hnew, hid', -⟩
      · rw [hnew] at hd
        cases hd
      · rw [hnew] at hd
        obtain rfl := List.mem_singleton.mp hd
        omega
  exact ⟨fun hp => strange (.inl hp) rfl, fun hp => strange (.inr hp) rfl⟩

end Kept

end OldStuff.Socks
