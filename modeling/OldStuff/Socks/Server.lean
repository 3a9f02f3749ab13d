import OldStuff.Socks.Http
import OldStuff.Socks.Steady

/-!
# Socks — the main loop

`main` waits in `try_select`, accepts on its two sockets, and then visits every connection once,
with an iterator: a connection that has expired, or whose `work` returns false, is deleted and
erased.  A step here is one of these actions, so that between two visits the state can be looked at.
`Calls` is what a step learns from outside.

An exception that reaches `main` ends the loop and the process; no step follows it.  Nor does one
follow a `try_select` that has no room for a number (`Calls.Overruns`).  `created` and `deleted` are
no fields of the program: they list the descriptor objects as they come and go.
-/

namespace OldStuff.Socks
open OldStuff.Io
open OldStuff.Lib (Outcome)

/-- A `connection *` of the vector. -/
inductive Connection where
  | socks (c : SocksConnection)
  | http (c : HttpConnection)

namespace Connection

/-- The descriptor objects of a connection. -/
def owned : Connection → List FileDescriptor
  | .socks c => c.owned
  | .http c => [c.client]

/-- The registrations of a connection. -/
def watch : Connection → Watch
  | .socks c => c.watch
  | .http c => c.watch

def client : Connection → Pointer
  | .socks c => c.client
  | .http c => some c.client

/-- `server`; an `http_connection` has none. -/
def server : Connection → Pointer
  | .socks c => c.server
  | .http _ => none

/-- `listen`; an `http_connection` has none. -/
def listen : Connection → Pointer
  | .socks c => c.listen
  | .http _ => none

end Connection

/-- An entry of the vector: the address of an object, and the object. -/
structure Slot where
  id : Nat
  conn : Connection

/-- Where `main` is in its loop. -/
inductive Phase where
  | select
  | acceptSocks
  | acceptHttp
  | sweep
  deriving DecidableEq

/-- What `main` has on its stack, and the statics behind it.  The vector is `visited` up to the
iterator and `pending` from it on; outside the sweep `pending` is empty. -/
structure Server where
  socksSock : FileDescriptor
  httpSock : FileDescriptor
  visited : List Slot
  pending : List Slot
  select : Select
  tv : Timeval
  status : Status
  nextDescriptor : Nat
  nextConnection : Nat
  phase : Phase
  created : List FileDescriptor
  deleted : List FileDescriptor

/-- What a step learns: the answer of `::select` or of `accept`, the time and the configuration at
`has_expired` or in a constructor, and what the calls of `work` come to.  `address` is where the
allocator has put the connections, and `fdSetSize` is `FD_SETSIZE`. -/
structure Calls where
  call : SelectCall := .timeout
  accept : AcceptResult := .null
  now : Int := 0
  config : Config := {}
  env : Env
  address : Nat → Nat := id
  fdSetSize : Nat := 1024

/-- The numbers the kernel may hand out in a step. -/
def AcceptResult.numbers : AcceptResult → List Nat
  | .socket fd _ => [fd]
  | _ => []

def Calls.numbers (t : Calls) : List Nat := t.accept.numbers ++ t.env.numbers

/-- What a visit leaves: the connection, unless it was deleted, and the objects that are shared. -/
structure Left where
  conn : Option Connection
  select : Select
  tv : Timeval
  status : Status
  nextDescriptor : Nat
  trace : List Event

namespace Server

/-- The vector. -/
def connections (s : Server) : List Slot := s.visited ++ s.pending

/-- The descriptor objects that exist, by their owners: `main` and the connections. -/
def owned (s : Server) : List FileDescriptor :=
  [s.httpSock, s.socksSock] ++ s.connections.flatMap (·.conn.owned)

/-- Before the loop: the two sockets are registered for reading. -/
def boot (socksFd httpFd : Nat) (socksAddr httpAddr : SockaddrIn) : Server :=
  let socksSock : FileDescriptor := ⟨0, socksFd, socksAddr⟩
  let httpSock : FileDescriptor := ⟨1, httpFd, httpAddr⟩
  { socksSock
    httpSock
    visited := []
    pending := []
    select := (Select.empty.addRead (some httpSock)).addRead (some socksSock)
    tv := ⟨10, 0⟩
    status := ∅
    nextDescriptor := 2
    nextConnection := 0
    phase := .select
    created := [socksSock, httpSock]
    deleted := [] }

/-- `try_select`, and the timeout of the next one. -/
def poll (t : Calls) (s : Server) : Outcome Server Unit :=
  (s.select.trySelect t.fdSetSize t.call).lift
    (fun _ select => { s with select, tv := ⟨10, 0⟩, phase := .acceptSocks })
    fun select => { s with select }

/-- `push_back` of a new connection around `d`, and its registration. -/
def enlist (d : FileDescriptor) (conn : Connection) (s : Server) : Server :=
  { s with
    visited := s.visited ++ [⟨s.nextConnection, conn⟩]
    select := s.select.addRead (some d)
    nextDescriptor := s.nextDescriptor + 1
    nextConnection := s.nextConnection + 1
    created := s.created ++ [d] }

/-- `if(select.can_read(sock)){ .. }`, for either socket. -/
def acceptOn (sock : FileDescriptor) (make : FileDescriptor → Int → Connection) (t : Calls)
    (s : Server) : Outcome Server Unit :=
  if s.select.canRead sock then
    match t.accept with
    | .threw => .thrown s
    | .null => .ok () s
    | .socket fd addr =>
      let newSock : FileDescriptor := ⟨s.nextDescriptor, fd, addr⟩
      .ok () (s.enlist newSock (make newSock t.now))
  else .ok () s

def acceptSocks (t : Calls) (s : Server) : Outcome Server Unit :=
  (acceptOn s.socksSock (fun d time => .socks (.new d time)) t s).lift
    (fun _ s => { s with phase := .acceptHttp }) id

/-- The second socket; the iterator is at the beginning then. -/
def acceptHttp (t : Calls) (s : Server) : Outcome Server Unit :=
  (acceptOn s.httpSock (fun d time => .http (.new d time)) t s).lift
    (fun _ s => { s with visited := [], pending := s.visited, phase := .sweep }) id

/-! ### A visit -/

/-- A connection of the vector, with what it shares. -/
def world (s : Server) (id : Nat) (c : SocksConnection) : World :=
  ⟨id, c, s.select, s.tv, s.status, s.nextDescriptor, []⟩

/-- `(*j)->has_expired(select) || !(*j)->work(select,tv)` of a `socks_connection`, and the
destructor. -/
def visitSocks (t : Calls) (id : Nat) (c : SocksConnection) (s : Server) : Outcome World Bool :=
  match hasExpired t.config t.now (s.world id c) with
  | (true, w) => .ok false (destroy w)
  | (false, w) => (work t.env w).bind fun alive w => .ok alive (if alive then w else destroy w)

/-- The same of an `http_connection`. -/
def visitHttp (t : Calls) (id : Nat) (c : HttpConnection) (s : Server) : Outcome HttpWorld Bool :=
  match httpHasExpired t.config t.now ⟨id, c, s.select, s.status, []⟩ with
  | (true, w) => .ok false (httpDestroy w)
  | (false, w) =>
    (httpWork t.address t.env w).bind fun alive w => .ok alive (if alive then w else httpDestroy w)

def leftSocks (alive : Bool) (w : World) : Left where
  conn := if alive then some (.socks w.conn) else none
  select := w.select
  tv := w.tv
  status := w.status
  nextDescriptor := w.nextId
  trace := w.trace

def leftHttp (s : Server) (alive : Bool) (w : HttpWorld) : Left where
  conn := if alive then some (.http w.conn) else none
  select := w.select
  tv := s.tv
  status := w.status
  nextDescriptor := s.nextDescriptor
  trace := w.trace

def visit (t : Calls) (slot : Slot) (s : Server) : Outcome Left Unit :=
  match slot.conn with
  | .socks c => (visitSocks t slot.id c s).lift leftSocks (leftSocks true)
  | .http c => (visitHttp t slot.id c s).lift s.leftHttp (s.leftHttp true)

/-- The iterator goes on from `slot` to `rest`. -/
def settle (slot : Slot) (rest : List Slot) (l : Left) (s : Server) : Server :=
  { s with
    visited := s.visited ++ (l.conn.map (Slot.mk slot.id)).toList
    pending := rest
    select := l.select
    tv := l.tv
    status := l.status
    nextDescriptor := l.nextDescriptor
    created := s.created ++ Socks.created l.trace
    deleted := s.deleted ++ Socks.deleted l.trace }

/-- One turn of the inner loop. -/
def sweep (t : Calls) (s : Server) : Outcome Server Unit :=
  match s.pending with
  | [] => .ok () { s with phase := .select }
  | slot :: rest => (s.visit t slot).lift (fun _ l => s.settle slot rest l) (s.settle slot rest)

/-- One step of the loop. -/
def step (t : Calls) (s : Server) : Outcome Server Unit :=
  match s.phase with
  | .select => s.poll t
  | .acceptSocks => s.acceptSocks t
  | .acceptHttp => s.acceptHttp t
  | .sweep => s.sweep t

end Server

/-- The kernel hands out no number that is in use. -/
def Calls.Honest (t : Calls) (s : Server) : Prop := ∀ n ∈ t.numbers, n ∉ s.owned.map (·.fd)

/-- The step calls `try_select`, and an object with a number from `FD_SETSIZE` on is registered. -/
def Calls.Overruns (t : Calls) (s : Server) : Prop :=
  s.phase = .select ∧ ∃ n, s.select.Lists n ∧ t.fdSetSize ≤ n

/-- The states of the loop, whatever arrives and whatever the calls come to. -/
inductive Reachable : Server → Prop where
  | boot (socksFd httpFd : Nat) (socksAddr httpAddr : SockaddrIn) (h : socksFd ≠ httpFd) :
      Reachable (.boot socksFd httpFd socksAddr httpAddr)
  | step {s s' : Server} (t : Calls) (h : Reachable s) (ht : t.Honest s)
      (hs : s.step t = .ok () s') : Reachable s'

instance (t : Calls) (s : Server) : Decidable (t.Honest s) :=
  inferInstanceAs (Decidable (∀ n ∈ t.numbers, n ∉ s.owned.map (·.fd)))

/-- The state that the given turns lead to; it stops where one cannot be. -/
def Server.play (s : Server) : List Calls → Server
  | [] => s
  | t :: ts =>
    if t.Honest s then
      match s.step t with
      | .ok () s' => s'.play ts
      | _ => s
    else s

theorem reachable_play {s : Server} (h : Reachable s) (ts : List Calls) :
    Reachable (s.play ts) := by
  induction ts generalizing s with
  | nil => exact h
  | cons t ts ih =>
      unfold Server.play
      by_cases ht : t.Honest s
      · rw [if_pos ht]
        cases hs : s.step t with
        | ok _ s' => exact ih (.step t h ht hs)
        | thrown _ => exact h
        | fault => exact h
      · rw [if_neg ht]
        exact h

end OldStuff.Socks
