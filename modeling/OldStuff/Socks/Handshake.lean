import OldStuff.Socks.Connection

/-!
# Socks — the handshake handlers

The states before `PIPEING`.  SOCKS4 and SOCKS5 have a handler each for most of them, and the two
differ in reply codes and in the states they go on to: `Version` lists the differences, and a
pair of handlers is one definition applied to its version.
-/

namespace OldStuff.Socks
open OldStuff.Io
open OldStuff.Lib (Outcome)

/-- The two protocols. -/
inductive Version where
  | socks4
  | socks5
  deriving DecidableEq

namespace Version

def type : Version → ReplyType
  | .socks4 => .socks4
  | .socks5 => .socks5

/-- The code of a success reply. -/
def granted : Version → UInt8
  | .socks4 => socks4ReplyGranted
  | .socks5 => socks5ReplySuccess

/-- The code when `can_connect` says no. -/
def notAllowed : Version → UInt8
  | .socks4 => socks4ReplyRejectedOrFailed
  | .socks5 => socks5ReplyConnectionNotAllowed

/-- The code when the server cannot be reached. -/
def unreachable : Version → UInt8
  | .socks4 => socks4ReplyRejectedOrFailed
  | .socks5 => socks5ReplyHostUnreachable

/-- The code when no socket can be bound, and for a command that is not served. -/
def failure : Version → UInt8
  | .socks4 => socks4ReplyRejectedOrFailed
  | .socks5 => socks5ReplyGeneralSocksOrServerFailure

def connectingServer : Version → ConnectionState
  | .socks4 => .socks4ConnectingServer
  | .socks5 => .socks5ConnectingServer

def writingBindResponse : Version → ConnectionState
  | .socks4 => .socks4WritingBindResponse
  | .socks5 => .socks5WritingBindResponse

def waitingConnection : Version → ConnectionState
  | .socks4 => .socks4WaitingConnection
  | .socks5 => .socks5WaitingConnection

end Version

/-- `client_write_buff=reply.create(type,code); state=WRITING_RESPONSE_FAILURE;
select.add_write(client);` -/
def refuse (v : Version) (code : UInt8) (e : Env) (w : World) : World :=
  (w.queue (create e.abi v.type code 0 0) .writingResponseFailure).onSelect
    (·.addWrite w.conn.client)

/-- The success reply of a `CONNECT`, once `server` is connected. -/
def grant (v : Version) (server : FileDescriptor) (e : Env) (w : World) : World :=
  ((w.emit .connected).queue
    (create e.abi v.type v.granted server.getRemotePort server.getRemoteAddress)
    .writingResponseSuccess).onSelect (·.addWrite w.conn.client)

/-- `server=..`, the object being new. -/
def World.newServer (d : FileDescriptor) (ev : Event) (w : World) : World :=
  (w.take.onConn fun c => { c with server := some d }).emit ev

/-- `listen=new io::server_socket(..)`. -/
def World.newListen (d : FileDescriptor) (w : World) : World :=
  (w.take.onConn fun c => { c with listen := some d }).emit (.listening d)

/-! ### The commands -/

/-- The guarded block of `SOCKS4_REQUEST_COMMAND_CONNECT` and of its SOCKS5 twin. -/
def openServer (v : Version) (req : SocksRequest) (e : Env) (w : World) : Outcome World Bool :=
  match e.newSocket with
  | none => .thrown w
  | some fd =>
    let server : FileDescriptor := ⟨w.nextId, fd, SockaddrIn.ofRequest req.address req.port⟩
    (setStatus "connecting" e (w.newServer server (.opened server))).bind fun _ w =>
    match e.tryConnect with
    | .threw => .thrown w
    | .connected => .ok true (grant v server e w)
    | .inProgress =>
      .ok true ((w.onConn fun c => { c with state := v.connectingServer }).onSelect fun s =>
        (s.addRead (some server)).addWrite (some server))

/-- The guarded block of `SOCKS4_REQUEST_COMMAND_BIND` and of its SOCKS5 twin. -/
def openListener (v : Version) (e : Env) (w : World) : Outcome World Bool :=
  match e.newServerSocket with
  | none => .thrown w
  | some (fd, servaddr) =>
    let listen : FileDescriptor := ⟨w.nextId, fd, servaddr⟩
    .ok true (((w.newListen listen).queue
      (create e.abi v.type v.granted listen.getRemotePort listen.getRemoteAddress)
      v.writingBindResponse).onSelect (·.addWrite w.conn.client))

/-- What is done with a request: the access check, then the switch over its command.  The refusal
is in place before the log line asks for the client's address. -/
def serveRequest (v : Version) (client : FileDescriptor) (req : SocksRequest) (e : Env)
    (w : World) : Outcome World Bool :=
  let w := w.emit (.asked (canConnect e client))
  match canConnect e client with
  | none => .thrown w
  | some false =>
    let w := refuse v v.notAllowed e w
    if e.ntopLog then .thrown w else .ok true w
  | some true =>
    if req.command = requestCommandConnect then
      (openServer v req e w).recover fun w => .ok true (refuse v v.unreachable e w)
    else if req.command = requestCommandBind then
      (openListener v e w).recover fun w => .ok true (refuse v v.failure e w)
    else .ok true (refuse v v.failure e w)

/-! ### Reading a message -/

/-- `client_read_buff` after the read: too long, acted on, or kept for more. -/
def parseBuffer (initial : Bool)
    (act : FileDescriptor → SocksRequest → Env → World → Outcome World Bool)
    (client : FileDescriptor) (e : Env) (w : World) : Outcome World Bool :=
  if w.conn.clientReadBuff.length ≥ maxBuffSize then .ok false (w.onSelect w.conn.clearSelect)
  else
    match SocksRequest.parse e.abi e.request w.conn.clientReadBuff initial with
    | .accepted req =>
      act client req e
        ((w.emit (.parsed initial w.conn.clientReadBuff)).onSelect (·.removeRead w.conn.client))
    | .rejected => .ok true w
    | .overread => .fault

/-- The reading states: append what the client sends, and act on the first message that
parses. -/
def readMessage (initial : Bool)
    (act : FileDescriptor → SocksRequest → Env → World → Outcome World Bool)
    (e : Env) (w : World) : Outcome World Bool :=
  deref w.conn.client fun client =>
  if w.select.canRead client then
    match e.read .client with
    | .threw => .thrown w
    | .again => parseBuffer initial act client e w
    | .eof => .ok false ((w.emit (.eof .client)).onSelect w.conn.clearSelect)
    | .data chunk =>
      parseBuffer initial act client e
        ((w.onConn fun c => { c with clientReadBuff := c.clientReadBuff ++ chunk.bytes }).emit
          (.read .client chunk.bytes))
  else .ok true w

/-- A first message: a SOCKS4 request, or the greeting of SOCKS5. -/
def actInitial (client : FileDescriptor) (req : SocksRequest) (e : Env) (w : World) :
    Outcome World Bool :=
  if req.version = 4 then serveRequest .socks4 client req e w
  else
    .ok true ((w.queue (create e.abi .socks5Auth socks5AuthReplyNoAuth 0 0)
      .socks5WritingAuthResponseSuccess).onSelect (·.addWrite w.conn.client))

def readingInitialRequest : Env → World → Outcome World Bool := readMessage true actInitial

def socks5ReadingRequest : Env → World → Outcome World Bool :=
  readMessage false (serveRequest .socks5)

/-! ### Waiting for the other end -/

/-- The second wait of a `BIND`: the listener hands over its first connection and goes. -/
def waitingConnection (v : Version) (e : Env) (w : World) : Outcome World Bool :=
  deref w.conn.listen fun listen =>
  if w.select.canRead listen || w.select.canWrite listen then
    match e.accept with
    | .threw => .thrown w
    | .null => .ok true (w.onConn fun c => { c with server := none })
    | .socket fd addr =>
      let server : FileDescriptor := ⟨w.nextId, fd, addr⟩
      let w := w.newServer server (.accepted server)
      let w := (w.onSelect (·.forget (some listen))).emit (.closed listen)
      let w := (w.onConn fun c => { c with listen := none }).onSelect (·.addWrite w.conn.client)
      .ok true (w.queue (create e.abi v.type v.granted 0 0) .writingResponseSuccess)
  else .ok true w

def socks4WaitingConnection : Env → World → Outcome World Bool := waitingConnection .socks4

def socks5WaitingConnection : Env → World → Outcome World Bool := waitingConnection .socks5

/-- The wait of a `CONNECT`: readiness either way means that the attempt is decided. -/
def connectingServer (v : Version) (e : Env) (w : World) : Outcome World Bool :=
  deref w.conn.server fun server =>
  if w.select.canRead server || w.select.canWrite server then
    let w := w.onSelect (·.forget (some server))
    match e.isConnected with
    | none => .thrown w
    | some true => .ok true (grant v server e w)
    | some false => .ok true (refuse v v.unreachable e w)
  else .ok true w

def socks4ConnectingServer : Env → World → Outcome World Bool := connectingServer .socks4

def socks5ConnectingServer : Env → World → Outcome World Bool := connectingServer .socks5

/-! ### Writing a reply -/

/-- The writing states: send what is left of `client_write_buff`, and when nothing is left go on
with `done`. -/
def writeReply (done : Env → World → Outcome World Bool) (e : Env) (w : World) :
    Outcome World Bool :=
  deref w.conn.client fun client =>
  if w.select.canWrite client then
    (send .client e w).bind fun _ w =>
    if w.conn.clientWriteBuff.length = 0 then done e w else .ok true w
  else .ok true w

/-- After the first reply to a `BIND`: wait on the listener. -/
def bindResponseWritten (v : Version) (_ : Env) (w : World) : Outcome World Bool :=
  .ok true ((w.onSelect fun s =>
      ((s.removeWrite w.conn.client).addRead w.conn.listen).addWrite w.conn.listen).onConn
    fun c => { c with state := v.waitingConnection })

def socks4WritingBindResponse : Env → World → Outcome World Bool :=
  writeReply (bindResponseWritten .socks4)

def socks5WritingBindResponse : Env → World → Outcome World Bool :=
  writeReply (bindResponseWritten .socks5)

/-- After the success reply: empty buffers, both ends registered for reading. -/
def startPipeing (e : Env) (w : World) : Outcome World Bool :=
  let w := w.onSelect fun s =>
    ((s.removeWrite w.conn.client).addRead w.conn.client).addRead w.conn.server
  let w := w.onConn fun c =>
    { c with
      clientWriteBuff := []
      clientReadBuff := []
      serverReadBuff := []
      serverWriteBuff := []
      state := .pipeing }
  (setStatus "pipeing" e w).bind fun _ w => .ok true w

def writingResponseSuccess : Env → World → Outcome World Bool := writeReply startPipeing

def writingResponseFailure : Env → World → Outcome World Bool :=
  writeReply fun _ w => .ok false (w.onSelect w.conn.clearSelect)

/-- After the method reply: read the request. -/
def authResponseWritten (_ : Env) (w : World) : Outcome World Bool :=
  .ok true ((w.onSelect fun s => (s.removeWrite w.conn.client).addRead w.conn.client).onConn
    fun c => { c with clientReadBuff := [], state := .socks5ReadingRequest })

def socks5WritingAuthResponseSuccess : Env → World → Outcome World Bool :=
  writeReply authResponseWritten

end OldStuff.Socks
