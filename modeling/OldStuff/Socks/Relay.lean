import OldStuff.Socks.Charge
import OldStuff.Socks.Connection

/-!
# Socks — the relay

`pipeing` is one function of the source: two reads, two writes, the registration of both ends,
the test for the end, and `try_suspend`.  Each block is a definition here, and `pipeing` runs them
in the source's order.  The blocks of the two ends are written alike, so a block has the end as a
parameter.

`should_take` is computed as the source does, with `double`s (`shouldTake`).  `unsigned long` is
unbounded here.
-/

namespace OldStuff.Socks
open OldStuff.Io
open OldStuff.Lib (Outcome)

/-! ### The limiter -/

/-- The last lines of `try_activate` and the middle of `try_suspend`: the next `select` is not to
sleep longer than `ms`. -/
def Timeval.shorten (ms : Nat) (tv : Timeval) : Timeval :=
  let tvUsec := ms % 1000 * 1000
  let tvSec := (ms - tvUsec / 1000) / 1000
  if tvSec < tv.tvSec then ⟨tvSec, tvUsec⟩
  else if tvSec = tv.tvSec ∧ tv.tvUsec > tvUsec then { tv with tvUsec }
  else tv

def addReadIf (b : Bool) (p : Pointer) (s : Select) : Select := if b then s.addRead p else s

def addWriteIf (b : Bool) (p : Pointer) (s : Select) : Select := if b then s.addWrite p else s

def removeWriteIf (b : Bool) (p : Pointer) (s : Select) : Select :=
  if b then s.removeWrite p else s

/-- `try_activate`: at the deadline the registrations come back; before it, only the `select`
timeout is set. -/
def tryActivate (e : Env) (w : World) : World :=
  if !w.conn.suspended then w
  else if w.conn.suspendedTo ≤ e.timeofday.ms then
    let set := w.conn.suspendedDescriptorsSet
    (w.onConn fun c => { c with suspended := false }).onSelect fun s =>
      addWriteIf set.serverWrite w.conn.server (addReadIf set.serverRead w.conn.server
        (addWriteIf set.clientWrite w.conn.client (addReadIf set.clientRead w.conn.client s)))
  else { w with tv := w.tv.shorten (w.conn.suspendedTo - e.timeofday.ms) }

/-- The destination port as `try_suspend` asks for it. -/
def remotePort (e : Env) (c : SocksConnection) : Int :=
  match c.server with
  | some server => server.getRemotePortHostOrder e.abi
  | none => 0

/-- `config::get_speed(remote_port)`. -/
def getSpeed (e : Env) (c : SocksConnection) : Nat :=
  (e.config.getSpeed e.tm (remotePort e c)).1

/-- `if(select.read_contains(p)) select.remove_read(p)`, for a pointer that may be `NULL`. -/
def takeRead (p : Pointer) (s : Select) : Select :=
  if p.isSome && s.readContains p then s.removeRead p else s

def takeWrite (p : Pointer) (s : Select) : Select :=
  if p.isSome && s.writeContains p then s.removeWrite p else s

/-- The registrations that `try_suspend` takes away and writes down. -/
def registrations (c : SocksConnection) (s : Select) : DescriptorsSet where
  clientRead := c.client.isSome && s.readContains c.client
  clientWrite := c.client.isSome && s.writeContains c.client
  serverRead := c.server.isSome && s.readContains c.server
  serverWrite := c.server.isSome && s.writeContains c.server

/-- `should_take`, in `try_suspend`. -/
def SocksConnection.shouldTake (e : Env) (c : SocksConnection) : Nat :=
  Socks.shouldTake c.suspendedBytesPiped (getSpeed e c)

/-- `try_suspend`. -/
def trySuspend (e : Env) (w : World) : World :=
  let speed := getSpeed e w.conn
  if speed = 0 ∨ w.conn.suspendedBytesPiped = 0 then w
  else
    let shouldTake := shouldTake w.conn.suspendedBytesPiped speed
    if shouldTake = 0 then w
    else
      let suspendedTo := w.conn.suspendedTo + shouldTake
      -- just update suspend time
      if suspendedTo ≤ e.timeofday.ms then
        w.onConn fun c => { c with suspendedTo := e.timeofday.ms }
      else
        let w := { w with tv := w.tv.shorten (suspendedTo - e.timeofday.ms) }
        (w.onConn fun c =>
          { c with
            suspendedTo
            suspended := true
            suspendedBytesPiped := 0
            suspendedDescriptorsSet := registrations c w.select }).onSelect fun s =>
          takeWrite w.conn.server (takeRead w.conn.server
            (takeWrite w.conn.client (takeRead w.conn.client s)))

/-! ### The blocks of `pipeing` -/

/-- `last_active=time(NULL)`. -/
def SocksConnection.touch (time : Int) (c : SocksConnection) : SocksConnection :=
  { c with lastActive := time }

/-- `suspended_bytes_piped+=bytes_written`. -/
def SocksConnection.addPiped (n : Nat) (c : SocksConnection) : SocksConnection :=
  { c with suspendedBytesPiped := c.suspendedBytesPiped + n }

def updateLastActive (e : Env) (w : World) : World := w.onConn (·.touch e.time)

/-- `delete client; client=NULL;`, or the same of the server. -/
def World.delete (s : Side) (d : FileDescriptor) (w : World) : World :=
  (w.emit (.closed d)).onConn (·.setEndpoint s none)

/-- Try to read from `s`; what comes waits for the other end.  The server's block asks once more
whether there is something to send before it registers the client. -/
def pipeRead (s : Side) (e : Env) (w : World) : Outcome World Unit :=
  match w.conn.endpoint s, w.conn.endpoint s.other with
  | some d, some _ =>
    if w.select.canRead d then
      match e.read s with
      | .threw => .thrown w
      | .again => .ok () w
      | .eof =>
        .ok () (((w.emit (.eof s)).onSelect (·.forget (some d))).delete s d)
      | .data chunk =>
        let w := (w.onConn fun c => c.setPending s.other (c.pending s.other ++ chunk.bytes)).emit
          (.read s chunk.bytes)
        .ok () (updateLastActive e (w.onSelect
          (addWriteIf (s = .client ∨ (w.conn.pending s.other).length ≠ 0)
            (w.conn.endpoint s.other))))
    else .ok () w
  | _, _ => .ok () w

/-- Try to write to `s`. -/
def pipeWrite (s : Side) (e : Env) (w : World) : Outcome World Unit :=
  match w.conn.endpoint s with
  | some d =>
    if (w.conn.pending s).length ≠ 0 ∧ w.select.canWrite d then
      (send s e w).bind fun n w =>
      if n ≠ 0 then
        let w := w.onSelect (removeWriteIf ((w.conn.pending s).length = 0) (some d))
        .ok () (updateLastActive e (w.onConn (·.addPiped n)))
      else .ok () w
    else .ok () w
  | none => .ok () w

/-- `if(client!=NULL){ .. }else if(server!=NULL){ .. }`, and then the same with the ends
exchanged: an end is read from while the other end's buffer is not over the limit. -/
def registerRead (s : Side) (c : SocksConnection) (sel : Select) : Select :=
  match c.endpoint s with
  | some d =>
    if (c.pending s.other).length > maxBuffSize then sel.removeRead (some d)
    else sel.addRead (some d)
  | none =>
    match c.endpoint s.other with
    | some d => sel.removeRead (some d)
    | none => sel

/-- The end of the relay, or one more round. -/
def pipeFinish (e : Env) (w : World) : Outcome World Bool :=
  let c := w.conn
  if (c.server = none ∧ c.clientWriteBuff.length = 0) ∨
      (c.client = none ∧ c.serverWriteBuff.length = 0) then
    .ok false (w.onSelect c.clearSelect)
  else if c.server = none ∧ c.client = none then .ok false (w.onSelect c.clearSelect)
  else .ok true (trySuspend e w)

def pipeing (e : Env) (w : World) : Outcome World Bool :=
  if w.conn.suspended then .ok true (tryActivate e w)
  else
    (pipeRead .client e w).bind fun _ w =>
    (pipeRead .server e w).bind fun _ w =>
    (pipeWrite .client e w).bind fun _ w =>
    (pipeWrite .server e w).bind fun _ w =>
    pipeFinish e (w.onSelect fun s => registerRead .server w.conn (registerRead .client w.conn s))

/-! ### What a block does -/

/-- Both ends are there, and the one at `s` has something to read. -/
structure Asked (s : Side) (w : World) (d d' : FileDescriptor) : Prop where
  endpoint : w.conn.endpoint s = some d
  other : w.conn.endpoint s.other = some d'
  ready : w.select.canRead d = true

/-- There is something to write to `s`, and it can be written. -/
structure Due (s : Side) (w : World) (d : FileDescriptor) : Prop where
  endpoint : w.conn.endpoint s = some d
  waits : (w.conn.pending s).length ≠ 0
  ready : w.select.canWrite d = true

/-- The world after `n` bytes have been written to `s`. -/
def World.sent (s : Side) (n : Nat) (w : World) : World :=
  (w.onConn fun c => c.setPending s ((c.pending s).drop n)).emit
    (.wrote s ((w.conn.pending s).take n))

section
variable {motive : Outcome World Unit → Prop} (s : Side) (e : Env) (w : World)

/-- A block that reads leaves everything alone, throws, takes the end away or takes bytes in. -/
@[elab_as_elim]
theorem pipeRead_cases (idle : (∀ d d', ¬ Asked s w d d') → motive (.ok () w))
    (threw : ∀ d d', Asked s w d d' → e.read s = .threw → motive (.thrown w))
    (again : ∀ d d', Asked s w d d' → e.read s = .again → motive (.ok () w))
    (eof : ∀ d d', Asked s w d d' → e.read s = .eof →
      motive (.ok () (((w.emit (.eof s)).onSelect (·.forget (some d))).delete s d)))
    (data : ∀ d d' chunk, Asked s w d d' → e.read s = .data chunk →
      motive (.ok () (updateLastActive e
        (((w.onConn fun c => c.setPending s.other (c.pending s.other ++ chunk.bytes)).emit
          (.read s chunk.bytes)).onSelect
        (addWriteIf (s = .client ∨
            ((w.conn.setPending s.other
              (w.conn.pending s.other ++ chunk.bytes)).pending s.other).length ≠ 0)
          ((w.conn.setPending s.other
            (w.conn.pending s.other ++ chunk.bytes)).endpoint s.other)))))) :
    motive (pipeRead s e w) := by
  unfold pipeRead
  split
  · next d d' hd hd' =>
      split
      · next hr =>
          have asked : Asked s w d d' := ⟨hd, hd', hr⟩
          split
          · next he => exact threw d d' asked he
          · next he => exact again d d' asked he
          · next he => exact eof d d' asked he
          · next chunk he => exact data d d' chunk asked he
      · next hr =>
          refine idle fun d₁ d₁' h => hr ?_
          obtain rfl := Option.some.inj (hd.symm.trans h.endpoint)
          exact h.ready
  · next hno => exact idle fun d d' h => hno d d' h.endpoint h.other

/-- A block that writes leaves everything alone, throws, or writes some bytes. -/
@[elab_as_elim]
theorem pipeWrite_cases (idle : (∀ d, ¬ Due s w d) → motive (.ok () w))
    (threw : ∀ d, Due s w d → (e.write s).count (w.conn.pending s).length = none →
      motive (.thrown w))
    (blocked : ∀ d, Due s w d → (e.write s).count (w.conn.pending s).length = some 0 →
      motive (.ok () (w.sent s 0)))
    (wrote : ∀ d n, Due s w d → (e.write s).count (w.conn.pending s).length = some n → n ≠ 0 →
      motive (.ok () (updateLastActive e (((w.sent s n).onSelect
        (removeWriteIf (((w.sent s n).conn.pending s).length = 0) (some d))).onConn
          (·.addPiped n))))) :
    motive (pipeWrite s e w) := by
  unfold pipeWrite
  split
  · next d hd =>
      split
      · next hw =>
          have due : Due s w d := ⟨hd, hw.1, hw.2⟩
          unfold send
          split
          · next hn => exact threw d due hn
          · next n hn =>
              rw [Outcome.bind_ok]
              split
              · next hz => exact wrote d n due hn hz
              · next hz =>
                  obtain rfl : n = 0 := Decidable.not_not.mp hz
                  exact blocked d due hn
      · next hw =>
          refine idle fun d₁ h => hw ?_
          obtain rfl := Option.some.inj (hd.symm.trans h.endpoint)
          exact ⟨h.waits, h.ready⟩
  · next hd => exact idle fun d h => Option.some_ne_none d (h.endpoint.symm.trans hd)

end

/-- The last step ends a relay when an end is gone and nothing waits for the other, or when both
are gone. -/
@[elab_as_elim]
theorem pipeFinish_cases {motive : Outcome World Bool → Prop} (e : Env) (w : World)
    (spent : ∀ s, w.conn.endpoint s = none → w.conn.pending s.other = [] →
      motive (.ok false (w.onSelect w.conn.clearSelect)))
    (gone : (∀ s, w.conn.endpoint s = none) →
      motive (.ok false (w.onSelect w.conn.clearSelect)))
    (goesOn : (∀ s, w.conn.endpoint s = none → w.conn.pending s.other ≠ []) →
      (∃ s, w.conn.endpoint s ≠ none) → motive (.ok true (trySuspend e w))) :
    motive (pipeFinish e w) := by
  unfold pipeFinish
  dsimp only
  split
  · next hd =>
      obtain ⟨hs, hz⟩ | ⟨hc, hz⟩ := hd
      · exact spent .server hs (List.length_eq_zero_iff.mp hz)
      · exact spent .client hc (List.length_eq_zero_iff.mp hz)
  · next hd =>
      split
      · next hn => exact gone fun s => match s with
          | .client => hn.2
          | .server => hn.1
      · next hn =>
          refine goesOn (fun s => ?_) ?_
          · cases s with
            | client => exact fun hc hz => hd (.inr ⟨hc, List.length_eq_zero_iff.mpr hz⟩)
            | server => exact fun hs hz => hd (.inl ⟨hs, List.length_eq_zero_iff.mpr hz⟩)
          · by_cases hs : w.conn.server = none
            · exact ⟨.client, fun hc => hn ⟨hs, hc⟩⟩
            · exact ⟨.server, hs⟩

end OldStuff.Socks
