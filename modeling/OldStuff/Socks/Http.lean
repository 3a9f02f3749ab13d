import OldStuff.Socks.Wiring

/-!
# Socks — the status page

An `http_connection` reads a request to its blank line, answers with the lines of the status map,
and is deleted.  It owns one descriptor, which is in the read list while it reads and in the write
list while it writes (`HttpConnection.watch`).  `httpWork_tended` says that every way out of `work`
keeps to that.
-/

namespace OldStuff.Socks
open OldStuff.Io
open OldStuff.Lib (Outcome Accounted)
open OldStuff.Io.Select (Holds)

/-- `http_state`. -/
inductive HttpState where
  | readingRequest
  | sendingReply
  deriving DecidableEq

/-- The fields of `http_connection` and of its base `connection`.  `main` has checked that `client`
is not `NULL`, and nothing assigns to it. -/
structure HttpConnection where
  lastActive : Int
  client : FileDescriptor
  state : HttpState
  clientReadBuff : Bytes
  clientWriteBuff : Bytes

/-- Everything a call of `work` may change, and the status map it reads. -/
structure HttpWorld where
  self : Nat
  conn : HttpConnection
  select : Select
  status : Status
  trace : List Event

namespace HttpConnection

/-- The constructor. -/
def new (client : FileDescriptor) (time : Int) : HttpConnection where
  lastActive := time
  client := client
  state := .readingRequest
  clientReadBuff := []
  clientWriteBuff := []

/-- `clear_select`. -/
def clearSelect (c : HttpConnection) (s : Select) : Select := s.forget (some c.client)

/-- The registrations of a connection. -/
def watch (c : HttpConnection) : Watch :=
  match c.state with
  | .readingRequest => .reading (some c.client)
  | .sendingReply => .writing (some c.client)

end HttpConnection

namespace HttpWorld

def onConn (f : HttpConnection → HttpConnection) (w : HttpWorld) : HttpWorld :=
  { w with conn := f w.conn }

def onSelect (f : Select → Select) (w : HttpWorld) : HttpWorld := { w with select := f w.select }

def emit (ev : Event) (w : HttpWorld) : HttpWorld := { w with trace := w.trace ++ [ev] }

end HttpWorld

/-- `status::get`.  The map is ordered by the addresses of the connections. -/
def Status.get (address : Nat → Nat) (s : Status) : Bytes :=
  let lines := s.entries.mergeSort fun a b => address a.1 ≤ address b.1
  latin1 ("number of connections: " ++ toString s.entries.length ++ "<br><br>\n" ++
    String.join (lines.map fun l => l.2 ++ "<br>\n"))

/-- `create_reply`. -/
def createReply (address : Nat → Nat) (status : Status) : Bytes :=
  latin1 ("HTTP/1.0 200 OK\r\n" ++
    "Connection: close\r\n" ++
    "Content-Type: text/html\r\n\r\n" ++
    "<html>\n<head><title></title></head>\n" ++
    "<body>\n") ++
  status.get address ++
  latin1 ("<hr>\nAuthor: Bj\u00f6rn Jensen-Urstad " ++
    "<a href=mailto:bju@stacken.kth.se>bju@stacken.kth.se</a>\n</body>\n</html>\n")

/-- `client_read_buff` after the read: too long, complete, or kept for more. -/
def requestBuffer (address : Nat → Nat) (w : HttpWorld) : Outcome HttpWorld Bool :=
  if w.conn.clientReadBuff.length ≥ maxBuffSize then
    .ok false (w.onSelect (·.removeRead (some w.conn.client)))
  else if latin1 "\r\n\r\n" <:+: w.conn.clientReadBuff ∨
      latin1 "\n\n" <:+: w.conn.clientReadBuff then
    .ok true (((w.onSelect fun s =>
        (s.removeRead (some w.conn.client)).addWrite (some w.conn.client)).onConn fun c =>
      { c with clientWriteBuff := createReply address w.status, state := .sendingReply }).emit
        (.queued (createReply address w.status)))
  else .ok true w

/-- `reading_request`. -/
def readingRequest (address : Nat → Nat) (e : Env) (w : HttpWorld) : Outcome HttpWorld Bool :=
  if w.select.canRead w.conn.client then
    match e.read .client with
    | .threw => .thrown w
    | .again => requestBuffer address w
    | .eof => .ok false ((w.emit (.eof .client)).onSelect (·.removeRead (some w.conn.client)))
    | .data chunk =>
      requestBuffer address
        ((w.onConn fun c => { c with clientReadBuff := c.clientReadBuff ++ chunk.bytes }).emit
          (.read .client chunk.bytes))
  else .ok true w

/-- `sending_reply`. -/
def sendingReply (e : Env) (w : HttpWorld) : Outcome HttpWorld Bool :=
  if w.select.canWrite w.conn.client then
    match (e.write .client).count w.conn.clientWriteBuff.length with
    | none => .thrown w
    | some n =>
      let w := (w.onConn fun c => { c with clientWriteBuff := c.clientWriteBuff.drop n }).emit
        (.wrote .client (w.conn.clientWriteBuff.take n))
      if w.conn.clientWriteBuff.length = 0 then
        .ok false (w.onSelect (·.removeWrite (some w.conn.client)))
      else .ok true w
  else .ok true w

/-- `work`. -/
def httpWork (address : Nat → Nat) (e : Env) (w : HttpWorld) : Outcome HttpWorld Bool :=
  Outcome.recover
    (match w.conn.state with
      | .readingRequest => readingRequest address e w
      | .sendingReply => sendingReply e w)
    fun w => .ok false (w.onSelect w.conn.clearSelect)

/-- `has_expired`, at the time `now`. -/
def httpHasExpired (cfg : Config) (now : Int) (w : HttpWorld) : Bool × HttpWorld :=
  if w.conn.lastActive + cfg.pipeTimeout < now then
    (true, { w with select := w.conn.clearSelect w.select, status := w.status.erase w.self })
  else (false, w)

/-- The destructor. -/
def httpDestroy (w : HttpWorld) : HttpWorld :=
  { w with status := w.status.erase w.self, trace := w.trace ++ [.closed w.conn.client] }

/-! ### What `work` leaves -/

/-- A connection that lives has registered what its state says; one that ends, nothing. -/
structure HttpTended (theirs : Watch) (w₀ : HttpWorld) (alive : Bool) (w : HttpWorld) : Prop where
  self : w.self = w₀.self
  client : w.conn.client = w₀.conn.client
  readSet : w.select.readSet = w₀.select.readSet
  writeSet : w.select.writeSet = w₀.select.writeSet
  status : ∀ k ∈ w.status, k ∈ w₀.status
  created : created w.trace = []
  deleted : deleted w.trace = []
  live : alive = true → Holds theirs w.conn.watch w.select
  ended : alive = false → Holds theirs .nothing w.select

section
variable {theirs : Watch} {address : Nat → Nat} {e : Env} {w₀ w : HttpWorld}

theorem HttpTended.refl (w : HttpWorld) (ht : w.trace = [])
    (hs : Holds theirs w.conn.watch w.select) : HttpTended theirs w true w :=
  ⟨rfl, rfl, rfl, rfl, fun _ => id, by rw [ht]; rfl, by rw [ht]; rfl, fun _ => hs, nofun⟩

/-- An assignment to a buffer. -/
theorem HttpTended.edit (h : HttpTended theirs w₀ true w) (f : HttpConnection → HttpConnection)
    (hc : (f w.conn).client = w.conn.client) (hs : (f w.conn).state = w.conn.state) :
    HttpTended theirs w₀ true (w.onConn f) :=
  { h with
    client := hc.trans h.client
    live := fun hb => by
      have watch : (f w.conn).watch = w.conn.watch := by
        rw [HttpConnection.watch, HttpConnection.watch, hc, hs]
      exact watch ▸ h.live hb }

/-- An event that neither creates nor deletes. -/
theorem HttpTended.note {b : Bool} (h : HttpTended theirs w₀ b w) (ev : Event)
    (hc : ev.creates = []) (hd : ev.deletes = []) : HttpTended theirs w₀ b (w.emit ev) :=
  { h with
    created := by simp [HttpWorld.emit, hc, h.created]
    deleted := by simp [HttpWorld.emit, hd, h.deleted] }

/-- The last edit of the lists. -/
theorem HttpTended.dead {b : Bool} (h : HttpTended theirs w₀ b w) (g : Select → Select)
    (hr : (g w.select).readSet = w.select.readSet) (hw : (g w.select).writeSet = w.select.writeSet)
    (hg : Holds theirs .nothing (g w.select)) : HttpTended theirs w₀ false (w.onSelect g) :=
  { h with
    readSet := hr.trans h.readSet
    writeSet := hw.trans h.writeSet
    live := nofun
    ended := fun _ => hg }

/-- `clear_select`, from whatever state. -/
theorem HttpConnection.clearSelect_holds {c : HttpConnection} {s : Select}
    (h : Holds theirs c.watch s) (ht : theirs.Without (some c.client)) :
    Holds theirs .nothing (c.clearSelect s) := by
  refine h.forget (fun q hq => ?_) ht
  unfold HttpConnection.watch at hq
  split at hq
  · exact hq.elim id nofun
  · exact hq.elim nofun id

/-- `has_expired`, where it returns true. -/
theorem HttpTended.expired (ht : theirs.Without (some w.conn.client)) (h₀ : w.trace = [])
    (hs : Holds theirs w.conn.watch w.select) :
    HttpTended theirs w false
      { w with select := w.conn.clearSelect w.select, status := w.status.erase w.self } :=
  { (HttpTended.refl w h₀ hs).dead w.conn.clearSelect rfl rfl
      (HttpConnection.clearSelect_holds hs ht) with
    status := fun _ hk => (AList.mem_erase.mp hk).2 }

/-- What a handler leaves: its result, or an exception with the connection registered as before. -/
def HttpHandled (theirs : Watch) (w₀ : HttpWorld) (o : Outcome HttpWorld Bool) : Prop :=
  o.Sat (HttpTended theirs w₀) (HttpTended theirs w₀ true)

theorem requestBuffer_handled (ht : theirs.Without (some w₀.conn.client))
    (h : HttpTended theirs w₀ true w) (hst : w.conn.state = .readingRequest) :
    HttpHandled theirs w₀ (requestBuffer address w) := by
  have reading : Holds theirs (.reading (some w.conn.client)) w.select := by
    have := h.live rfl
    rwa [HttpConnection.watch, hst] at this
  have bare := reading.unwatchRead (h.client ▸ ht)
  unfold requestBuffer
  split
  · exact h.dead _ rfl rfl bare
  · split
    · have closed := h.dead (·.removeRead (some w.conn.client)) rfl rfl bare
      refine HttpTended.note ?_ (.queued _) rfl rfl
      exact { closed with live := fun _ => bare.watchWrite, ended := nofun }
    · exact h

theorem readingRequest_handled (ht : theirs.Without (some w₀.conn.client))
    (h : HttpTended theirs w₀ true w) (hst : w.conn.state = .readingRequest) :
    HttpHandled theirs w₀ (readingRequest address e w) := by
  unfold readingRequest
  split
  · split
    · exact h
    · exact requestBuffer_handled ht h hst
    · have reading : Holds theirs (.reading (some w.conn.client)) w.select := by
        have := h.live rfl
        rwa [HttpConnection.watch, hst] at this
      exact (h.note (.eof .client) rfl rfl).dead _ rfl rfl (reading.unwatchRead (h.client ▸ ht))
    · exact requestBuffer_handled ht ((h.edit _ rfl rfl).note _ rfl rfl) hst
  · exact h

theorem sendingReply_handled (ht : theirs.Without (some w₀.conn.client))
    (h : HttpTended theirs w₀ true w) (hst : w.conn.state = .sendingReply) :
    HttpHandled theirs w₀ (sendingReply e w) := by
  unfold sendingReply
  split
  · split
    · exact h
    · next n _ =>
      have sent := (h.edit (fun c => { c with clientWriteBuff := c.clientWriteBuff.drop n }) rfl
        rfl).note (.wrote .client (w.conn.clientWriteBuff.take n)) rfl rfl
      have writing : Holds theirs (.writing (some w.conn.client)) w.select := by
        have := h.live rfl
        rwa [HttpConnection.watch, hst] at this
      dsimp only
      split
      · exact sent.dead _ rfl rfl (writing.unwatchWrite (h.client ▸ ht))
      · exact sent
  · exact h

/-- **A visit to a status connection**, an exception included. -/
theorem httpWork_tended (ht : theirs.Without (some w.conn.client)) (h₀ : w.trace = [])
    (hs : Holds theirs w.conn.watch w.select) :
    (httpWork address e w).Sat (HttpTended theirs w) fun _ => False := by
  have start := HttpTended.refl w h₀ hs
  have handled : HttpHandled theirs w (match w.conn.state with
      | .readingRequest => readingRequest address e w
      | .sendingReply => sendingReply e w) := by
    split
    · next hst => exact readingRequest_handled ht start hst
    · next hst => exact sendingReply_handled ht start hst
  exact handled.recover fun w' h => h.dead _ rfl rfl
    (HttpConnection.clearSelect_holds (h.live rfl) (h.client ▸ ht))

end

end OldStuff.Socks
