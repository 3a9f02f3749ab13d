import OldStuff.Socks.Stages

/-!
# Socks — how long a handshake can be kept busy

Before the relay a connection can be kept waiting until it expires, but nobody can keep it busy.
`SocksConnection.budget` goes down: it counts what may still be read of the message at hand, what
is left to write of the reply, and what the states to come may need at most.

A visit leaves the connection as it is, or ends it, or makes the budget smaller (`work_spends`).  So
there is a number of visits beyond which nothing changes until the relay begins, whatever the client
and the server do, and in however many pieces (`handshake_bounded`).
-/

namespace OldStuff.Socks
open OldStuff.Io
open OldStuff.Lib (Outcome)

/-- The length of the longest reply. -/
def longestReply : Nat := 10

/-- What a connection may still do before it relays. -/
def SocksConnection.budget (c : SocksConnection) : Nat :=
  match c.state with
  | .pipeing => 0
  | .writingResponseSuccess | .writingResponseFailure => c.clientWriteBuff.length
  | .socks4ConnectingServer | .socks5ConnectingServer
  | .socks4WaitingConnection | .socks5WaitingConnection => longestReply + 1
  | .socks4WritingBindResponse | .socks5WritingBindResponse =>
    longestReply + 1 + c.clientWriteBuff.length
  | .socks5ReadingRequest => 2 * (longestReply + 1) + (maxBuffSize - c.clientReadBuff.length)
  | .socks5WritingAuthResponseSuccess =>
    2 * (longestReply + 1) + maxBuffSize + c.clientWriteBuff.length
  | .readingInitialRequest =>
    2 * (longestReply + 1) + maxBuffSize + methodReply.length + 1 +
      (maxBuffSize - c.clientReadBuff.length)

/-- A connection that lives is left as `c`, or with less than its budget. -/
def Spends (c : SocksConnection) (o : Outcome World Bool) : Prop :=
  o.Liberal (fun b w => b = true → w.conn = c ∨ w.conn.budget < c.budget) fun _ => True

section
variable {v : Version} {e : Env} {w : World} {c : SocksConnection} {m : Nat}
  {past : List Event}

theorem budget_connecting (h : c.state = v.connectingServer) : c.budget = longestReply + 1 := by
  cases v <;> simp only [SocksConnection.budget, h, Version.connectingServer]

theorem budget_waiting (h : c.state = v.waitingConnection) : c.budget = longestReply + 1 := by
  cases v <;> simp only [SocksConnection.budget, h, Version.waitingConnection]

theorem budget_announcing (h : c.state = v.writingBindResponse) :
    c.budget = longestReply + 1 + c.clientWriteBuff.length := by
  cases v <;> simp only [SocksConnection.budget, h, Version.writingBindResponse]

/-! ### Serving a request -/

theorem length_reply (abi : Abi) (v : Version) (code : UInt8) (port : UInt16) (address : Nat) :
    (create abi v.type code port address).length ≤ longestReply := by
  rw [length_create]
  cases v <;> decide

theorem refuse_budget (v : Version) (code : UInt8) (e : Env) (w : World) :
    (refuse v code e w).conn.budget ≤ longestReply := length_reply ..

theorem grant_budget (v : Version) (server : FileDescriptor) (e : Env) (w : World) :
    (grant v server e w).conn.budget ≤ longestReply := length_reply ..

/-- After the request no message is read any more. -/
def Afterwards (w : World) : Prop := w.conn.budget ≤ 2 * longestReply + 1

theorem afterwards_of_reply (h : w.conn.budget ≤ longestReply) : Afterwards w := by
  unfold Afterwards
  omega

theorem openServer_budget {req : SocksRequest} :
    (openServer v req e w).Liberal (fun _ => Afterwards) fun _ => True := by
  unfold openServer
  split
  · trivial
  · refine Outcome.Liberal.bind (P := fun _ _ => True) ?_ fun _ w _ => ?_
    · exact deref_liberal fun _ _ => deref_liberal fun _ _ => by split <;> trivial
    · split
      · trivial
      · exact afterwards_of_reply (grant_budget ..)
      · rw [Outcome.Liberal, Afterwards, budget_connecting (v := v) rfl]
        decide

theorem openListener_budget : (openListener v e w).Liberal (fun _ => Afterwards) fun _ => True := by
  unfold openListener
  split
  · trivial
  · rw [Outcome.Liberal, Afterwards, budget_announcing (v := v) rfl]
    exact (Nat.add_le_add_left (length_reply ..) _).trans (by decide)

theorem serveRequest_budget {client : FileDescriptor} {req : SocksRequest} :
    (serveRequest v client req e w).Liberal (fun _ => Afterwards) fun _ => True := by
  have refused (code : UInt8) (w : World) : Afterwards (refuse v code e w) :=
    afterwards_of_reply (refuse_budget ..)
  unfold serveRequest
  split
  · trivial
  · dsimp only
    split
    · trivial
    · exact refused ..
  · split
    · exact openServer_budget.recover fun _ _ => refused ..
    · split
      · exact openListener_budget.recover fun _ _ => refused ..
      · exact refused ..

theorem actInitial_budget {client : FileDescriptor} {req : SocksRequest} :
    (actInitial client req e w).Liberal
      (fun _ w' => w'.conn.budget ≤
        2 * (longestReply + 1) + maxBuffSize + methodReply.length) fun _ => True := by
  unfold actInitial
  split
  · exact serveRequest_budget.mono (fun _ _ h => h.trans (by decide)) fun _ _ => trivial
  · have two : (create e.abi .socks5Auth socks5AuthReplyNoAuth 0 0).length = methodReply.length :=
      length_create ..
    exact (Nat.add_le_add_left two.le _)

/-! ### The states -/

/-- What is left of a message is a step less, when it has grown and is not too long. -/
theorem parseBuffer_spends {initial : Bool} {client : FileDescriptor}
    {act : FileDescriptor → SocksRequest → Env → World → Outcome World Bool}
    (ha : ∀ req w, (act client req e w).Liberal (fun _ w => w.conn.budget ≤ m) fun _ => True)
    (hc : c.budget = m + (maxBuffSize - c.clientReadBuff.length))
    (hw : w.conn = c ∨ w.conn.budget = m + (maxBuffSize - w.conn.clientReadBuff.length) ∧
      c.clientReadBuff.length < w.conn.clientReadBuff.length) :
    Spends c (parseBuffer initial act client e w) := by
  unfold parseBuffer
  split
  · exact nofun
  · next long =>
      have room : c.clientReadBuff.length < maxBuffSize := by
        rcases hw with rfl | ⟨-, more⟩
        · exact Nat.not_le.mp long
        · omega
      split
      · refine (ha _ _).mono (fun _ _ h _ => .inr ?_) fun _ _ => trivial
        omega
      · intro _
        rcases hw with same | ⟨rest, more⟩
        · exact .inl same
        · right
          omega
      · trivial

theorem readMessage_spends {initial : Bool}
    {act : FileDescriptor → SocksRequest → Env → World → Outcome World Bool}
    (ha : ∀ client req w,
      (act client req e w).Liberal (fun _ w => w.conn.budget ≤ m) fun _ => True)
    (hb : ∀ c : SocksConnection, c.state = w.conn.state →
      c.budget = m + (maxBuffSize - c.clientReadBuff.length)) :
    Spends w.conn (readMessage initial act e w) := by
  refine deref_liberal fun client _ => ?_
  split
  · split
    · trivial
    · exact parseBuffer_spends (ha client) (hb _ rfl) (.inl rfl)
    · exact nofun
    · next chunk _ =>
        refine parseBuffer_spends (ha client) (hb _ rfl) (.inr ⟨hb _ rfl, ?_⟩)
        have some := List.length_pos_iff.mpr chunk.ne_nil
        simpa using some
  · exact fun _ => .inl rfl

/-- What is left of a reply is a step less, when something of it has been written. -/
theorem writeReply_spends {done : Env → World → Outcome World Bool}
    (hd : ∀ w : World,
      (done e w).Liberal (fun b w => b = true → w.conn.budget ≤ m) fun _ => True)
    (hb : ∀ c : SocksConnection, c.state = w.conn.state →
      c.budget = m + c.clientWriteBuff.length) (hn : w.conn.clientWriteBuff ≠ []) :
    Spends w.conn (writeReply done e w) := by
  have due := List.length_pos_iff.mpr hn
  have before := hb w.conn rfl
  refine deref_liberal fun client _ => ?_
  split
  · refine Outcome.Liberal.bind (P := fun n u => u.conn = w.conn.setPending .client
      (w.conn.clientWriteBuff.drop n)) ?_ fun n u hu => ?_
    · unfold send
      split <;> trivial
    · split
      · refine (hd u).mono (fun _ _ h hl => .inr ?_) fun _ _ => trivial
        have := h hl
        omega
      · intro _
        cases n with
        | zero => exact .inl hu
        | succ n =>
            have after := hb u.conn (by rw [hu]; rfl)
            have left : u.conn.clientWriteBuff = w.conn.clientWriteBuff.drop (n + 1) := by
              rw [hu]
              rfl
            rw [left, List.length_drop] at after
            right
            omega
  · exact fun _ => .inl rfl

theorem connectingServer_spends (hst : w.conn.state = v.connectingServer) :
    Spends w.conn (connectingServer v e w) := by
  have budget := budget_connecting hst
  have less {w' : World} (h : w'.conn.budget ≤ longestReply) : w'.conn.budget < w.conn.budget := by
    omega
  refine deref_liberal fun server _ => ?_
  split
  · dsimp only
    split
    · trivial
    · exact fun _ => .inr (less (grant_budget ..))
    · exact fun _ => .inr (less (refuse_budget ..))
  · exact fun _ => .inl rfl

theorem waitingConnection_spends (hst : w.conn.state = v.waitingConnection)
    (hs : w.conn.server = none) : Spends w.conn (waitingConnection v e w) := by
  have budget := budget_waiting hst
  refine deref_liberal fun listen _ => ?_
  split
  · split
    · trivial
    · intro _
      left
      show ({ w.conn with server := none } : SocksConnection) = w.conn
      rw [← hs]
    · refine fun _ => .inr ?_
      have short := length_reply e.abi v v.granted 0 0
      rw [budget]
      exact Nat.lt_succ_of_le short
  · exact fun _ => .inl rfl

/-- The first reply to a `BIND`. -/
theorem announce_spends (hst : w.conn.state = v.writingBindResponse)
    (hn : w.conn.clientWriteBuff ≠ []) :
    Spends w.conn (writeReply (bindResponseWritten v) e w) := by
  refine writeReply_spends (m := longestReply + 1) (fun u _ => ?_) (fun c hc => ?_) hn
  · exact (budget_waiting (v := v) rfl).le
  · exact budget_announcing (hc.trans hst)

theorem startPipeing_budget :
    (startPipeing e w).Liberal (fun _ w => w.conn.budget = 0) fun _ => True := by
  refine Outcome.Liberal.bind (P := fun _ u => u.conn.state = .pipeing) ?_ fun _ u hu => ?_
  · exact deref_liberal fun _ _ => deref_liberal fun _ _ => by split <;> trivial
  · rw [Outcome.Liberal, SocksConnection.budget, hu]

/-! ### A visit -/

theorem handler_spends (hst : w.conn.state ≠ .pipeing) (hs : Shaped w.conn)
    (hb : w.conn.state.idle = false → w.conn.clientWriteBuff ≠ []) :
    Spends w.conn (handler e w) := by
  have waiting {v : Version} (h : w.conn.state = v.waitingConnection) : w.conn.server = none := by
    rw [Shaped, h] at hs
    cases v <;> exact hs.2.1
  unfold handler
  split
  · next st =>
      refine readMessage_spends (m := 2 * (longestReply + 1) + maxBuffSize +
        methodReply.length + 1) (fun _ _ _ => ?_) fun c hc => ?_
      · exact actInitial_budget.mono (fun _ _ h => h.trans (Nat.le_succ _)) fun _ _ => trivial
      · rw [SocksConnection.budget, hc, st]
  · next st => exact connectingServer_spends (v := .socks4) st
  · next st =>
      refine writeReply_spends (m := 0) (fun u => ?_) (fun c hc => ?_) (hb (by rw [st]; rfl))
      · exact startPipeing_budget.mono (fun _ _ h _ => h.le) fun _ _ => trivial
      · rw [SocksConnection.budget, hc, st, Nat.zero_add]
  · next st =>
      refine writeReply_spends (m := 0) (fun u h => ?_) (fun c hc => ?_) (hb (by rw [st]; rfl))
      · exact absurd h Bool.false_ne_true
      · rw [SocksConnection.budget, hc, st, Nat.zero_add]
  · next st =>
      refine writeReply_spends (m := 2 * (longestReply + 1) + maxBuffSize) (fun u => ?_)
        (fun c hc => ?_) (hb (by rw [st]; rfl))
      · exact fun _ => Nat.le_refl _
      · rw [SocksConnection.budget, hc, st]
  · next st => exact connectingServer_spends (v := .socks5) st
  · next st =>
      refine readMessage_spends (m := 2 * (longestReply + 1)) (fun _ _ _ => ?_) fun c hc => ?_
      · exact serveRequest_budget.mono (fun _ _ h => h.trans (by decide)) fun _ _ => trivial
      · rw [SocksConnection.budget, hc, st]
  · next st => exact waitingConnection_spends (v := .socks4) st (waiting (v := .socks4) st)
  · next st => exact waitingConnection_spends (v := .socks5) st (waiting (v := .socks5) st)
  · next st => exact announce_spends (v := .socks4) st (hb (by rw [st]; rfl))
  · next st => exact announce_spends (v := .socks5) st (hb (by rw [st]; rfl))
  · next st => exact absurd st hst

/-- **A visit** to a handshake leaves the connection as it is, or ends it, or takes something from
its budget. -/
theorem work_spends (hst : w.conn.state ≠ .pipeing) (h : Handshaken true (w.log past) w.conn) :
    Spends w.conn (work e w) :=
  Outcome.Liberal.recover (handler_spends hst h.shaped (h.busy rfl)) fun _ _ => nofun

/-! ### A run -/

/-- Something of the connection changes before it relays. -/
def Visit.stirs (v : Visit) : Bool :=
  v.before.conn.state ≠ .pipeing ∧ v.after.conn ≠ v.before.conn

/-- What a new connection may do before it relays. -/
def patience : Nat := 2 * (longestReply + 1) + maxBuffSize + methodReply.length + 1 + maxBuffSize

/-- While the connection lives, its budget pays for the visits that have changed something. -/
theorem handshake_paid {self : Nat} {client : FileDescriptor} {time : Int} {vs : List Visit}
    (h : Run (World.fresh self client time) vs true w) :
    vs.countP Visit.stirs + w.conn.budget ≤ patience := by
  generalize hb : true = b at h
  induction h with
  | start => exact Nat.le_refl _
  | @step vs w w' b i h hw ih =>
      subst hb
      have before := ih rfl
      rw [List.countP_append, List.countP_singleton]
      by_cases hst : w.conn.state = .pipeing
      · have after : w'.conn.budget = 0 := by
          rw [SocksConnection.budget, h.stays hw hst]
        have none : Visit.stirs ⟨i, w, true, w'⟩ = false := decide_eq_false fun h => h.1 hst
        rw [none, after]
        exact (Nat.le_add_right _ _).trans before
      · have handshaken : Handshaken true ((w.enter i).log (events vs)) (w.enter i).conn := by
          rw [World.log, World.enter, List.append_nil]
          exact h.staged.handshaken hst
        have spent : w'.conn = w.conn ∨ w'.conn.budget < w.conn.budget :=
          (work_spends (w := w.enter i) hst handshaken).of_ok hw rfl
        rcases spent with same | less
        · have none : Visit.stirs ⟨i, w, true, w'⟩ = false := decide_eq_false fun h => h.2 same
          rw [none, same]
          exact before
        · split <;> omega

/-- **Nobody keeps a handshake busy.**  However the bytes come and go, and whatever the calls
return, no more than `patience + 1` visits change a connection before it relays; the others leave
it as it is. -/
theorem handshake_bounded {self : Nat} {client : FileDescriptor} {time : Int} {vs : List Visit}
    {b : Bool} (h : Run (World.fresh self client time) vs b w) :
    vs.countP Visit.stirs ≤ patience + 1 := by
  cases h with
  | start => exact Nat.zero_le _
  | @step vs u _ _ i h hw =>
      have before := handshake_paid h
      have last : [(⟨i, u, b, w⟩ : Visit)].countP Visit.stirs ≤ 1 := List.countP_le_length
      rw [List.countP_append]
      omega

end

/-- Both visits of a handshake that gets through at once change the connection. -/
theorem handshake_bounded_sample :
    (Sample.handshake Sample.request).1.countP Visit.stirs = 2 ∧
      (Sample.handshake Sample.request).1.countP Visit.stirs ≤ 8217 + 1 :=
  ⟨by decide +kernel, handshake_bounded Sample.entry.run.choose_spec.choose_spec.choose_spec⟩

end OldStuff.Socks
