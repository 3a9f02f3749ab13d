import OldStuff.Io.Select
import OldStuff.Socks.Config
import OldStuff.Socks.Reply
import OldStuff.Socks.Request

/-!
# Socks — the state of a `socks_connection`

A step of the server calls `work` on one connection.  `World` is everything the call may change:
the connection itself, the `select` object and the `select` timeout it shares with the others,
the status map, and the supply of object identities.  `trace` lists what the call did that can be
seen from outside, in order.

`Env` is everything the call may learn: the results of the system calls it makes, the clocks it
reads and the configuration in force.  Every handler makes each of these calls at most once in a
step, `inet_ntop` apart, so one field a call is enough.
-/

namespace OldStuff.Socks
open OldStuff.Io
open OldStuff.Lib (Outcome)

/-- `MAX_BUFF_SIZE`. -/
def maxBuffSize : Nat := 4096

/-- `connection_state`. -/
inductive ConnectionState where
  | readingInitialRequest
  | writingResponseFailure
  | writingResponseSuccess
  | socks4WaitingConnection
  | socks5WaitingConnection
  | socks4WritingBindResponse
  | socks5WritingBindResponse
  | socks4ConnectingServer
  | socks5ReadingRequest
  | socks5WritingAuthResponseSuccess
  | socks5ConnectingServer
  | pipeing
  deriving DecidableEq

/-- `suspended_descriptors_set[0]` to `[3]`. -/
structure DescriptorsSet where
  clientRead : Bool := false
  clientWrite : Bool := false
  serverRead : Bool := false
  serverWrite : Bool := false
  deriving DecidableEq

/-- The fields of `socks_connection` and of its base `connection`. -/
structure SocksConnection where
  lastActive : Int
  client : Pointer
  server : Pointer
  listen : Pointer
  state : ConnectionState
  clientReadBuff : Bytes
  clientWriteBuff : Bytes
  serverReadBuff : Bytes
  serverWriteBuff : Bytes
  suspended : Bool
  suspendedTo : Nat
  suspendedBytesPiped : Nat
  suspendedDescriptorsSet : DescriptorsSet
  deriving DecidableEq

/-- The two ends of a relayed connection. -/
inductive Side where
  | client
  | server
  deriving DecidableEq

def Side.other : Side → Side
  | .client => .server
  | .server => .client

/-- `struct timeval`. -/
structure Timeval where
  tvSec : Nat
  tvUsec : Nat
  deriving DecidableEq

/-- The milliseconds of a `timeval`, as `tv_sec*1000+tv_usec/1000` computes them. -/
def Timeval.ms (tv : Timeval) : Nat := tv.tvSec * 1000 + tv.tvUsec / 1000

/-- What one `read` of at most `MAX_BUFF_SIZE` bytes can bring. -/
structure Chunk where
  bytes : Bytes
  ne_nil : bytes ≠ []
  length_le : bytes.length ≤ maxBuffSize

/-- What `io::socket::read` comes to: an exception, -1 for `EAGAIN`, 0 for the end of the file,
or some bytes. -/
inductive ReadResult where
  | threw
  | again
  | eof
  | data (chunk : Chunk)

/-- What `io::socket::write` comes to: an exception, or a count, `EAGAIN` being 0. -/
inductive WriteResult where
  | threw
  | wrote (n : Nat)

/-- The count `write` returns for a buffer of `len` bytes: the kernel takes no more than it is
offered. -/
def WriteResult.count (len : Nat) : WriteResult → Option Nat
  | .threw => none
  | .wrote n => some (min n len)

/-- What `io::server_socket::accept` comes to: an exception, `NULL`, or a new socket. -/
inductive AcceptResult where
  | threw
  | null
  | socket (fd : Nat) (addr : SockaddrIn)

/-- What `io::socket::try_connect_nonblock` comes to. -/
inductive ConnectResult where
  | threw
  | connected
  | inProgress

/-- What one call of `work` learns from outside.  `none` is an exception; the three `ntop` flags
say whether `get_remote_address_dotted_quad` throws, at the access check, in the log line of a
refusal and in `set_status`.  `request` is what the memory of the local `socks_request` holds,
`tm` what `localtime` answers throughout the step. -/
structure Env where
  abi : Abi
  config : Config := {}
  regcomp : String → Option (String → Bool) := fun _ => none
  tm : Tm := ⟨0, 0, 0⟩
  time : Int := 0
  timeofday : Timeval := ⟨0, 0⟩
  read : Side → ReadResult := fun _ => .again
  write : Side → WriteResult := fun _ => .wrote 0
  accept : AcceptResult := .null
  newSocket : Option Nat := none
  newServerSocket : Option (Nat × SockaddrIn) := none
  tryConnect : ConnectResult := .inProgress
  isConnected : Option Bool := none
  request : SocksRequest := default
  ntopCheck : Bool := false
  ntopLog : Bool := false
  ntopStatus : Bool := false

/-- What a call of `work` does that can be seen from outside. -/
inductive Event where
  /-- `read` returned these bytes -/
  | read (s : Side) (bs : Bytes)
  /-- `read` returned 0 -/
  | eof (s : Side)
  /-- `write` took these bytes -/
  | wrote (s : Side) (bs : Bytes)
  /-- `parse` accepted this buffer -/
  | parsed (initial : Bool) (buf : Bytes)
  /-- `config::can_connect` answered, or threw -/
  | asked (answer : Option Bool)
  /-- `new io::socket(address,port)` -/
  | opened (d : FileDescriptor)
  /-- `new io::server_socket` -/
  | listening (d : FileDescriptor)
  /-- `listen->accept()` returned a socket -/
  | accepted (d : FileDescriptor)
  /-- `try_connect_nonblock` or `is_connected` returned true -/
  | connected
  /-- `client_write_buff` was set to this reply -/
  | queued (reply : Bytes)
  /-- the object was deleted -/
  | closed (d : FileDescriptor)
  deriving DecidableEq

/-- `status::s`, keyed by the identity of the connection. -/
abbrev Status := AList fun _ : Nat => String

/-- Everything a call of `work` may change. -/
structure World where
  self : Nat
  conn : SocksConnection
  select : Select
  tv : Timeval
  status : Status
  nextId : Nat
  trace : List Event

namespace SocksConnection

/-- The constructor. -/
def new (client : FileDescriptor) (time : Int) : SocksConnection where
  lastActive := time
  client := some client
  server := none
  listen := none
  state := .readingInitialRequest
  clientReadBuff := []
  clientWriteBuff := []
  serverReadBuff := []
  serverWriteBuff := []
  suspended := false
  suspendedTo := 0
  suspendedBytesPiped := 0
  suspendedDescriptorsSet := {}

/-- The pointer to an end of the relay. -/
def endpoint (c : SocksConnection) : Side → Pointer
  | .client => c.client
  | .server => c.server

/-- `client_write_buff` and `server_write_buff`: the bytes waiting to go to an end. -/
def pending (c : SocksConnection) : Side → Bytes
  | .client => c.clientWriteBuff
  | .server => c.serverWriteBuff

def setEndpoint (s : Side) (p : Pointer) (c : SocksConnection) : SocksConnection :=
  match s with
  | .client => { c with client := p }
  | .server => { c with server := p }

def setPending (s : Side) (bs : Bytes) (c : SocksConnection) : SocksConnection :=
  match s with
  | .client => { c with clientWriteBuff := bs }
  | .server => { c with serverWriteBuff := bs }

/-- The descriptor objects of a connection. -/
def owned (c : SocksConnection) : List FileDescriptor :=
  c.client.toList ++ c.server.toList ++ c.listen.toList

/-- `if(p){ select.remove_read(p); select.remove_write(p); }` -/
def forgetPtr (p : Pointer) (s : Select) : Select :=
  match p with
  | some _ => s.forget p
  | none   => s

def clearSelect (c : SocksConnection) (s : Select) : Select :=
  forgetPtr c.listen (forgetPtr c.server (forgetPtr c.client s))

end SocksConnection

namespace World

def onConn (f : SocksConnection → SocksConnection) (w : World) : World :=
  { w with conn := f w.conn }

def onSelect (f : Select → Select) (w : World) : World := { w with select := f w.select }

def emit (ev : Event) (w : World) : World := { w with trace := w.trace ++ [ev] }

/-- The next object gets the next identity. -/
def take (w : World) : World := { w with nextId := w.nextId + 1 }

section
variable (w : World) (f : SocksConnection → SocksConnection) (g : Select → Select) (ev : Event)

@[simp] theorem onConn_conn : (w.onConn f).conn = f w.conn := rfl
@[simp] theorem onConn_select : (w.onConn f).select = w.select := rfl
@[simp] theorem onConn_trace : (w.onConn f).trace = w.trace := rfl
@[simp] theorem onConn_nextId : (w.onConn f).nextId = w.nextId := rfl
@[simp] theorem onConn_status : (w.onConn f).status = w.status := rfl
@[simp] theorem onConn_self : (w.onConn f).self = w.self := rfl
@[simp] theorem onConn_tv : (w.onConn f).tv = w.tv := rfl
@[simp] theorem onSelect_conn : (w.onSelect g).conn = w.conn := rfl
@[simp] theorem onSelect_select : (w.onSelect g).select = g w.select := rfl
@[simp] theorem onSelect_trace : (w.onSelect g).trace = w.trace := rfl
@[simp] theorem onSelect_nextId : (w.onSelect g).nextId = w.nextId := rfl
@[simp] theorem onSelect_status : (w.onSelect g).status = w.status := rfl
@[simp] theorem onSelect_self : (w.onSelect g).self = w.self := rfl
@[simp] theorem onSelect_tv : (w.onSelect g).tv = w.tv := rfl
@[simp] theorem emit_conn : (w.emit ev).conn = w.conn := rfl
@[simp] theorem emit_select : (w.emit ev).select = w.select := rfl
@[simp] theorem emit_trace : (w.emit ev).trace = w.trace ++ [ev] := rfl
@[simp] theorem emit_nextId : (w.emit ev).nextId = w.nextId := rfl
@[simp] theorem emit_status : (w.emit ev).status = w.status := rfl
@[simp] theorem emit_self : (w.emit ev).self = w.self := rfl
@[simp] theorem emit_tv : (w.emit ev).tv = w.tv := rfl
@[simp] theorem take_conn : w.take.conn = w.conn := rfl
@[simp] theorem take_select : w.take.select = w.select := rfl
@[simp] theorem take_trace : w.take.trace = w.trace := rfl
@[simp] theorem take_nextId : w.take.nextId = w.nextId + 1 := rfl
@[simp] theorem take_status : w.take.status = w.status := rfl
@[simp] theorem take_self : w.take.self = w.self := rfl
@[simp] theorem take_tv : w.take.tv = w.tv := rfl

end

end World

/-- Following a pointer; following `NULL` is undefined. -/
def deref {α : Type} (p : Pointer) (k : FileDescriptor → Outcome World α) : Outcome World α :=
  match p with
  | some d => k d
  | none   => .fault

@[simp] theorem deref_some {α : Type} (d : FileDescriptor)
    (k : FileDescriptor → Outcome World α) : deref (some d) k = k d := rfl

theorem deref_liberal {α : Type} {P : α → World → Prop} {E : World → Prop} {p : Pointer}
    {k : FileDescriptor → Outcome World α} (h : ∀ d, p = some d → (k d).Liberal P E) :
    (deref p k).Liberal P E := by
  cases p with
  | none => trivial
  | some d => exact h d rfl

/-- `set_status`: the line of the status page for this connection. -/
def setStatus (what : String) (e : Env) (w : World) : Outcome World Unit :=
  deref w.conn.client fun client =>
  deref w.conn.server fun server =>
  if e.ntopStatus then .thrown w
  else
    let show' (d : FileDescriptor) : String :=
      d.getRemoteAddressDottedQuad e.abi ++ "(" ++ toString (d.getRemotePortHostOrder e.abi)
    let s := show' client ++ ") -> " ++ show' server ++ ") (" ++ what ++ ")"
    .ok () { w with status := w.status.insert w.self s }

/-- `socks_connection::can_connect`. -/
def canConnect (e : Env) (client : FileDescriptor) : Option Bool :=
  if e.ntopCheck then none
  else Config.canConnect e.regcomp (client.getRemoteAddressDottedQuad e.abi) e.config.acceptFrom

/-- `client->write(client_write_buff.c_str(),client_write_buff.length())`, or the same of the
server, and the cut that follows; the count is the result. -/
def send (s : Side) (e : Env) (w : World) : Outcome World Nat :=
  match (e.write s).count (w.conn.pending s).length with
  | none => .thrown w
  | some n =>
    .ok n ((w.onConn fun c => c.setPending s ((c.pending s).drop n)).emit
      (.wrote s ((w.conn.pending s).take n)))

/-- `client_write_buff=reply.create(..); state=..` -/
def World.queue (reply : Bytes) (state : ConnectionState) (w : World) : World :=
  (w.onConn fun c => { c with clientWriteBuff := reply, state }).emit (.queued reply)

end OldStuff.Socks
