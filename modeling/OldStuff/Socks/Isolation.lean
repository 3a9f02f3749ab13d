import OldStuff.Socks.Custody
import OldStuff.Socks.Exchange

/-!
# Socks — what a failed call may touch

`Calls.fail` is a step in which some of the calls fail that would have come to something.  In a
visit this ends the connection visited or puts it into its failure state, or the call was not made
(`visit_fail`).  `main` calls `accept` on its own two sockets outside of any visit, and there is
nothing to catch what it throws but the end of the loop.  `fault_isolation_iff` is about both.
-/

namespace OldStuff.Socks
open OldStuff.Io
open OldStuff.Lib (Outcome)

/-- The calls made for one peer: `accept` in `main`, then those made in a visit.  An attempt to
connect may also turn out to have failed when `getsockopt` is asked. -/
inductive SystemCall where
  | accept
  | bindAccept
  | socket
  | bind
  | connect
  | refused
  | getsockopt
  | read (s : Side)
  | write (s : Side)
  deriving DecidableEq

/-- The same visit, these calls failing. -/
def Env.fail (cs : List SystemCall) (e : Env) : Env :=
  { e with
    read := fun s => if .read s ∈ cs then .threw else e.read s
    write := fun s => if .write s ∈ cs then .threw else e.write s
    accept := if .bindAccept ∈ cs then .threw else e.accept
    newSocket := if .socket ∈ cs then none else e.newSocket
    newServerSocket := if .bind ∈ cs then none else e.newServerSocket
    tryConnect := if .connect ∈ cs then .threw else e.tryConnect
    isConnected :=
      if .getsockopt ∈ cs then none else if .refused ∈ cs then some false else e.isConnected }

/-- The same step, these calls failing. -/
def Calls.fail (cs : List SystemCall) (t : Calls) : Calls :=
  { t with
    accept := if .accept ∈ cs then .threw else t.accept
    env := t.env.fail cs }

/-- A visit in which calls fail: it goes as without the failure, or throws, or leaves the
connection in its failure state. -/
inductive Upset (o : Outcome World Bool) : Outcome World Bool → Prop where
  | breaks {o' : Outcome World Bool} (h : o.Breaks o') : Upset o o'
  | refused {w : World} (h : w.conn.state = .writingResponseFailure) : Upset o (.ok true w)

section
variable {e : Env} {w : World} {cs : List SystemCall} {v : Version}

theorem deref_upset {p : Pointer} {k k' : FileDescriptor → Outcome World Bool}
    (h : ∀ d, Upset (k d) (k' d)) : Upset (deref p k) (deref p k') := by
  cases p with
  | none => exact .breaks .same
  | some d => exact h d

theorem send_fail (s : Side) : (send s e w).Breaks (send s (e.fail cs) w) := by
  unfold send
  by_cases hc : .write s ∈ cs
  · rw [show (e.fail cs).write s = .threw from if_pos hc]
    exact .thrown w
  · rw [show (e.fail cs).write s = e.write s from if_neg hc]
    exact .same

theorem pipeRead_fail (s : Side) : (pipeRead s e w).Breaks (pipeRead s (e.fail cs) w) := by
  unfold pipeRead
  split
  · split
    · by_cases hc : .read s ∈ cs
      · rw [show (e.fail cs).read s = .threw from if_pos hc]
        exact .thrown w
      · rw [show (e.fail cs).read s = e.read s from if_neg hc]
        exact .same
    · exact .same
  · exact .same

theorem pipeWrite_fail (s : Side) : (pipeWrite s e w).Breaks (pipeWrite s (e.fail cs) w) := by
  unfold pipeWrite
  split
  · split
    · exact (send_fail s).bind fun _ _ => .same
    · exact .same
  · exact .same

/-- A relay. -/
theorem pipeing_fail : (pipeing e w).Breaks (pipeing (e.fail cs) w) := by
  unfold pipeing
  split
  · exact .same
  · exact (pipeRead_fail .client).bind fun _ _ => (pipeRead_fail .server).bind fun _ _ =>
      (pipeWrite_fail .client).bind fun _ _ => (pipeWrite_fail .server).bind fun _ _ => .same

/-- The writing states. -/
theorem writeReply_fail {done : Env → World → Outcome World Bool}
    (hd : ∀ w, done (e.fail cs) w = done e w) :
    Upset (writeReply done e w) (writeReply done (e.fail cs) w) := by
  refine deref_upset fun client => ?_
  split
  · refine .breaks ((send_fail .client).bind fun _ w => ?_)
    rw [hd]
    exact .same
  · exact .breaks .same

/-- A `CONNECT`. -/
theorem openServer_fail {req : SocksRequest} {code : UInt8} :
    Upset ((openServer v req e w).recover fun w => .ok true (refuse v code e w))
      ((openServer v req (e.fail cs) w).recover
        fun w => .ok true (refuse v code (e.fail cs) w)) := by
  have caught {o : Outcome World Bool} (h : (openServer v req e w).Breaks o) :
      Upset ((openServer v req e w).recover fun w => .ok true (refuse v code e w))
        (o.recover fun w => .ok true (refuse v code e w)) := by
    cases h with
    | same => exact .breaks .same
    | thrown u => exact .refused rfl
  refine caught ?_
  unfold openServer
  by_cases hc : .socket ∈ cs
  · rw [show (e.fail cs).newSocket = none from if_pos hc]
    exact .thrown w
  · rw [show (e.fail cs).newSocket = e.newSocket from if_neg hc]
    split
    · exact .same
    · refine Outcome.Breaks.bind .same fun _ u => ?_
      by_cases hc : .connect ∈ cs
      · rw [show (e.fail cs).tryConnect = .threw from if_pos hc]
        exact .thrown u
      · rw [show (e.fail cs).tryConnect = e.tryConnect from if_neg hc]
        exact .same

/-- A `BIND`. -/
theorem openListener_fail {code : UInt8} :
    Upset ((openListener v e w).recover fun w => .ok true (refuse v code e w))
      ((openListener v (e.fail cs) w).recover
        fun w => .ok true (refuse v code (e.fail cs) w)) := by
  unfold openListener
  by_cases hc : .bind ∈ cs
  · rw [show (e.fail cs).newServerSocket = none from if_pos hc]
    exact .refused rfl
  · rw [show (e.fail cs).newServerSocket = e.newServerSocket from if_neg hc]
    exact .breaks .same

theorem serveRequest_fail {client : FileDescriptor} {req : SocksRequest} :
    Upset (serveRequest v client req e w) (serveRequest v client req (e.fail cs) w) := by
  unfold serveRequest
  rw [show canConnect (e.fail cs) client = canConnect e client from rfl]
  dsimp only
  split
  · exact .breaks .same
  · exact .breaks .same
  · split
    · exact openServer_fail
    · split
      · exact openListener_fail
      · exact .breaks .same

/-- The reading states. -/
theorem readMessage_fail {initial : Bool}
    {act : FileDescriptor → SocksRequest → Env → World → Outcome World Bool}
    (ha : ∀ client req w, Upset (act client req e w) (act client req (e.fail cs) w)) :
    Upset (readMessage initial act e w) (readMessage initial act (e.fail cs) w) := by
  have parse (client : FileDescriptor) (w : World) :
      Upset (parseBuffer initial act client e w)
        (parseBuffer initial act client (e.fail cs) w) := by
    unfold parseBuffer
    split
    · exact .breaks .same
    · rw [show (e.fail cs).abi = e.abi from rfl, show (e.fail cs).request = e.request from rfl]
      split
      · exact ha _ _ _
      · exact .breaks .same
      · exact .breaks .same
  refine deref_upset fun client => ?_
  split
  · by_cases hc : .read .client ∈ cs
    · rw [show (e.fail cs).read .client = .threw from if_pos hc]
      exact .breaks (.thrown w)
    · rw [show (e.fail cs).read .client = e.read .client from if_neg hc]
      split
      · exact .breaks .same
      · exact parse client w
      · exact .breaks .same
      · exact parse client _
  · exact .breaks .same

/-- The wait of a `BIND`. -/
theorem waitingConnection_fail :
    Upset (waitingConnection v e w) (waitingConnection v (e.fail cs) w) := by
  refine deref_upset fun listen => ?_
  split
  · by_cases hc : .bindAccept ∈ cs
    · rw [show (e.fail cs).accept = .threw from if_pos hc]
      exact .breaks (.thrown w)
    · rw [show (e.fail cs).accept = e.accept from if_neg hc]
      exact .breaks .same
  · exact .breaks .same

/-- The wait of a `CONNECT`. -/
theorem connectingServer_fail :
    Upset (connectingServer v e w) (connectingServer v (e.fail cs) w) := by
  refine deref_upset fun server => ?_
  split
  · by_cases hc : .getsockopt ∈ cs
    · rw [show (e.fail cs).isConnected = none from if_pos hc]
      exact .breaks (.thrown _)
    · by_cases hr : .refused ∈ cs
      · rw [show (e.fail cs).isConnected = some false from (if_neg hc).trans (if_pos hr)]
        exact .refused rfl
      · rw [show (e.fail cs).isConnected = e.isConnected from (if_neg hc).trans (if_neg hr)]
        exact .breaks .same
  · exact .breaks .same

/-- **Every state of a connection.** -/
theorem handler_fail : Upset (handler e w) (handler (e.fail cs) w) := by
  unfold handler
  split
  · refine readMessage_fail fun client req w => ?_
    unfold actInitial
    split
    · exact serveRequest_fail
    · exact .breaks .same
  · exact connectingServer_fail
  · exact writeReply_fail fun _ => rfl
  · exact writeReply_fail fun _ => rfl
  · exact writeReply_fail fun _ => rfl
  · exact connectingServer_fail
  · exact readMessage_fail fun client req w => serveRequest_fail
  · exact waitingConnection_fail
  · exact waitingConnection_fail
  · exact writeReply_fail fun _ => rfl
  · exact writeReply_fail fun _ => rfl
  · exact .breaks pipeing_fail

/-- `work` when calls fail. -/
theorem work_fail : work (e.fail cs) w = work e w ∨
    ∃ b w', work (e.fail cs) w = .ok b w' ∧
      (b = false ∨ w'.conn.state = .writingResponseFailure) := by
  have upset : Upset (handler e w) (handler (e.fail cs) w) := handler_fail
  unfold work
  generalize handler (e.fail cs) w = o at upset
  cases upset with
  | breaks h =>
      cases h with
      | same => exact .inl rfl
      | thrown u => exact .inr ⟨false, _, rfl, .inl rfl⟩
  | refused h => exact .inr ⟨true, _, rfl, .inr h⟩

/-- A status connection has no failure state. -/
theorem httpWork_fail {address : Nat → Nat} {w : HttpWorld} :
    httpWork address (e.fail cs) w = httpWork address e w ∨
      ∃ w', httpWork address (e.fail cs) w = .ok false w' := by
  have breaks : (httpHandler address e w).Breaks (httpHandler address (e.fail cs) w) := by
    unfold httpHandler
    split
    · unfold readingRequest
      split
      · by_cases hc : .read .client ∈ cs
        · rw [show (e.fail cs).read .client = .threw from if_pos hc]
          exact .thrown w
        · rw [show (e.fail cs).read .client = e.read .client from if_neg hc]
          exact .same
      · exact .same
    · unfold sendingReply
      split
      · by_cases hc : .write .client ∈ cs
        · rw [show (e.fail cs).write .client = .threw from if_pos hc]
          exact .thrown w
        · rw [show (e.fail cs).write .client = e.write .client from if_neg hc]
          exact .same
      · exact .same
  rw [httpWork_eq, httpWork_eq]
  generalize httpHandler address (e.fail cs) w = o at breaks
  cases breaks with
  | same => exact .inl rfl
  | thrown u => exact .inr ⟨_, rfl⟩

end

/-- The connection is gone, or in its failure state. -/
def Left.Failed (l : Left) : Prop :=
  ∀ conn, l.conn = some conn → ∃ c, conn = .socks c ∧ c.state = .writingResponseFailure

section
variable {s s₁ : Server} {t : Calls} {cs : List SystemCall} {slot : Slot}

/-- A visit in which calls fail. -/
theorem visit_fail : s.visit (t.fail cs) slot = s.visit t slot ∨
    ∃ l, s.visit (t.fail cs) slot = .ok () l ∧ l.Failed := by
  unfold Server.visit
  cases slot.conn with
  | socks c =>
      dsimp only
      unfold Server.visitSocks
      rw [show (t.fail cs).config = t.config from rfl, show (t.fail cs).now = t.now from rfl,
        show (t.fail cs).env = t.env.fail cs from rfl]
      split
      · exact .inl rfl
      · next w _ =>
          have failed : work (t.env.fail cs) w = work t.env w ∨ ∃ b w',
              work (t.env.fail cs) w = .ok b w' ∧
                (b = false ∨ w'.conn.state = .writingResponseFailure) := work_fail
          rcases failed with hw | ⟨b, w', hw, ended⟩
          · rw [hw]
            exact .inl rfl
          · rw [hw]
            refine .inr ⟨_, rfl, fun conn hc => ?_⟩
            cases b with
            | false => cases hc
            | true =>
                obtain rfl := Option.some.inj hc
                exact ⟨_, rfl, ended.resolve_left (by simp)⟩
  | http c =>
      dsimp only
      unfold Server.visitHttp
      rw [show (t.fail cs).config = t.config from rfl, show (t.fail cs).now = t.now from rfl,
        show (t.fail cs).address = t.address from rfl,
        show (t.fail cs).env = t.env.fail cs from rfl]
      split
      · exact .inl rfl
      · next w _ =>
          have failed : httpWork t.address (t.env.fail cs) w = httpWork t.address t.env w ∨
              ∃ w', httpWork t.address (t.env.fail cs) w = .ok false w' := httpWork_fail
          rcases failed with hw | ⟨w', hw⟩
          · rw [hw]
            exact .inl rfl
          · rw [hw]
            refine .inr ⟨_, rfl, fun conn hc => ?_⟩
            cases hc

end

/-! ### A step -/

/-- `main` is about to call `accept`. -/
def Server.Accepting (s : Server) : Prop :=
  s.phase = .acceptSocks ∧ s.select.canRead s.socksSock = true ∨
    s.phase = .acceptHttp ∧ s.select.canRead s.httpSock = true

/-- The connection that this step visits. -/
def Server.current (s : Server) : Option Slot :=
  if s.phase = .sweep then s.pending.head? else none

/-- Two descriptor lists register the same of these objects. -/
def SameInterest (sel sel' : Select) (ds : List FileDescriptor) : Prop :=
  ∀ d ∈ ds, (some d ∈ sel'.fileDescriptorsRead ↔ some d ∈ sel.fileDescriptorsRead) ∧
    (some d ∈ sel'.fileDescriptorsWrite ↔ some d ∈ sel.fileDescriptorsWrite)

/-- Of two steps from `s`, the second one differs from the first at most in the connection that is
visited, which is gone then or in its failure state. -/
structure Confined (s s₁ s₂ : Server) : Prop where
  others : ∀ slot ∈ s.connections, s.current ≠ some slot →
    slot ∈ s₁.connections ∧ slot ∈ s₂.connections ∧
      SameInterest s₁.select s₂.select slot.conn.owned
  concerned : s₂ = s₁ ∨ ∃ slot, s.current = some slot ∧ ∀ slot' ∈ s₂.connections,
    slot' ∈ s.connections ∧ slot'.id ≠ slot.id ∨
      slot'.id = slot.id ∧ ∃ c, slot'.conn = .socks c ∧ c.state = .writingResponseFailure

section
variable {s s₁ s₂ : Server} {t : Calls} {cs : List SystemCall} {slot : Slot}

theorem Calls.fail_honest (ht : t.Honest s) : (t.fail cs).Honest s := by
  intro n hn
  refine ht n ?_
  -- a call that fails hands out nothing
  simp only [Calls.numbers, Env.numbers, AcceptResult.numbers, Calls.fail, Env.fail,
    List.mem_append] at hn ⊢
  grind

/-- A connection that is not visited stays as it is. -/
theorem Orderly.step_keeps (h : Orderly s) (hs : s.step t = .ok () s₁) (hm : slot ∈ s.connections)
    (hc : s.current ≠ some slot) : slot ∈ s₁.connections := by
  rcases h.step_connections hs with same | ⟨fd, addr, conn, -, came, -⟩ |
    ⟨slot', rest, l, hp, hrest, -, rfl⟩
  · rwa [same]
  · rw [came]
    exact List.mem_append_left _ hm
  · rw [Orderly.before_settle hrest] at hm
    rw [Orderly.settle_connections]
    rcases List.mem_append.mp hm with hm | hm
    · exact List.mem_append_left _ (List.mem_append_left _ hm)
    · rcases List.mem_cons.mp hm with rfl | hm
      · rw [Server.current, if_pos hp, hrest] at hc
        exact absurd rfl hc
      · exact List.mem_append_right _ hm

/-- **A step in which calls fail**, `accept` of `main` apart: it goes as before, or visits a
connection that does not survive or is in its failure state afterwards. -/
theorem step_fail (hn : ¬ (.accept ∈ cs ∧ s.Accepting)) : s.step (t.fail cs) = s.step t ∨
    ∃ slot rest l, s.phase = .sweep ∧ s.pending = slot :: rest ∧ l.Failed ∧
      s.step (t.fail cs) = .ok () (s.settle slot rest l) := by
  have accepts {sock : FileDescriptor} (make : FileDescriptor → Int → Connection)
      (ha : s.select.canRead sock = true → .accept ∉ cs) :
      s.acceptOn sock make (t.fail cs) = s.acceptOn sock make t := by
    unfold Server.acceptOn
    split
    · next hr => rw [show (t.fail cs).accept = t.accept from if_neg (ha hr),
        show (t.fail cs).now = t.now from rfl]
    · rfl
  unfold Server.step
  cases hp : s.phase with
  | select => exact .inl rfl
  | acceptSocks =>
      have := accepts (fun d time => .socks (.new d time))
        fun hr hc => hn ⟨hc, .inl ⟨hp, hr⟩⟩
      exact .inl (congrArg (Outcome.lift _ _) this)
  | acceptHttp =>
      have := accepts (fun d time => .http (.new d time))
        fun hr hc => hn ⟨hc, .inr ⟨hp, hr⟩⟩
      exact .inl (congrArg (Outcome.lift _ _) this)
  | sweep =>
      dsimp only
      unfold Server.sweep
      split
      · exact .inl rfl
      · next slot rest hs =>
          have visit : s.visit (t.fail cs) slot = s.visit t slot ∨
              ∃ l, s.visit (t.fail cs) slot = .ok () l ∧ l.Failed := visit_fail
          rcases visit with hv | ⟨l, hv, failed⟩
          · rw [hv]
            exact .inl rfl
          · rw [hv]
            exact .inr ⟨slot, rest, l, rfl, hs, failed, rfl⟩

/-- **The registrations of a connection** are what its state says, in whatever server. -/
theorem Orderly.sameInterest (h₁ : Orderly s₁) (h₂ : Orderly s₂) (hm₁ : slot ∈ s₁.connections)
    (hm₂ : slot ∈ s₂.connections) : SameInterest s₁.select s₂.select slot.conn.owned := by
  intro d hd
  have first := h₁.own hm₁ hd
  have second := h₂.own hm₂ hd
  exact ⟨second.1.trans first.1.symm, second.2.trans first.2.symm⟩

/-- **A failure stays with its peer.**  A step that goes through when its calls do, also goes
through when some of them fail, and what it leaves of the other connections, and of their
registrations, is the same, unless `accept` fails on one of the two sockets of `main`. -/
theorem fault_isolation_iff (h : Reachable s) (ht : t.Honest s) (hs : s.step t = .ok () s₁) :
    (∃ s₂, Reachable s₂ ∧ s.step (t.fail cs) = .ok () s₂ ∧ Confined s s₁ s₂) ↔
      ¬ (.accept ∈ cs ∧ s.Accepting) := by
  have before := h.orderly
  have after := (before.step_ok ht hs).1
  constructor
  · rintro ⟨s₂, -, hs₂, -⟩ ⟨hc, ha⟩
    have threw : (t.fail cs).accept = .threw := if_pos hc
    have thrown {sock : FileDescriptor} {make : FileDescriptor → Int → Connection}
        (hr : s.select.canRead sock = true) : s.acceptOn sock make (t.fail cs) = .thrown s := by
      rw [Server.acceptOn, if_pos hr, threw]
    rcases ha with ⟨hp, hr⟩ | ⟨hp, hr⟩
    · rw [Server.step, hp] at hs₂
      simp [Server.acceptSocks, thrown hr, Outcome.lift] at hs₂
    · rw [Server.step, hp] at hs₂
      simp [Server.acceptHttp, thrown hr, Outcome.lift] at hs₂
  · intro hn
    have goes (s₂ : Server) (hs₂ : s.step (t.fail cs) = .ok () s₂)
        (concerned : s₂ = s₁ ∨ ∃ slot, s.current = some slot ∧ ∀ slot' ∈ s₂.connections,
          slot' ∈ s.connections ∧ slot'.id ≠ slot.id ∨
            slot'.id = slot.id ∧
              ∃ c, slot'.conn = .socks c ∧ c.state = .writingResponseFailure) :
        ∃ s₂, Reachable s₂ ∧ s.step (t.fail cs) = .ok () s₂ ∧ Confined s s₁ s₂ := by
      have later := (before.step_ok (Calls.fail_honest ht) hs₂).1
      refine ⟨s₂, .step _ h (Calls.fail_honest ht) hs₂, hs₂, fun slot hm hc => ?_, concerned⟩
      have first := before.step_keeps hs hm hc
      have second := before.step_keeps hs₂ hm hc
      exact ⟨first, second, after.sameInterest later first second⟩
    rcases step_fail (t := t) hn with same | ⟨slot, rest, l, hp, hrest, failed, hs₂⟩
    · exact goes s₁ (same.trans hs) (.inl rfl)
    · refine goes _ hs₂ (.inr ⟨slot, ?_, fun slot' hm => ?_⟩)
      · rw [Server.current, if_pos hp, hrest]
        rfl
      · rcases Orderly.mem_settle hm with hm | ⟨c, hc, rfl⟩
        · exact .inl (before.others (Orderly.before_settle hrest) hm)
        · exact .inr ⟨rfl, failed c hc⟩

end

namespace Sample

/-- A second client knocks while the server of the first one can be written to. -/
def hailed : Server := served.play [{ env, call := .ready [5] [8] }]

/-- It is let in. -/
def admitted : Calls := { env, accept := .socket 9 ⟨0, 0⟩ }

/-- Then the first connection is visited. -/
def busy : Server := hailed.play [admitted, { env }]

def writes : Calls := { env := { env with write := fun _ => .wrote 3 } }

theorem hailed_reachable : Reachable hailed := reachable_play served_reachable _

theorem busy_reachable : Reachable busy := reachable_play hailed_reachable _

end Sample

set_option maxRecDepth 10000 in
theorem fault_isolation_sample :
    ∃ s₁ s₂, Sample.busy.step Sample.writes = .ok () s₁ ∧ Reachable s₂ ∧
      Sample.busy.step (Sample.writes.fail [.write .server]) = .ok () s₂ ∧
      Confined Sample.busy s₁ s₂ := by
  have spared : ¬ (.accept ∈ [SystemCall.write .server] ∧ Sample.busy.Accepting) :=
    fun h => absurd h.1 (by decide)
  obtain ⟨s₂, later, hs₂, confined⟩ :=
    (fault_isolation_iff (t := Sample.writes) Sample.busy_reachable (by decide) rfl).mpr spared
  exact ⟨_, s₂, rfl, later, hs₂, confined⟩

set_option maxRecDepth 10000 in
/-- The second client is gone again when `accept` is called.  That is the end of the loop, and of
the relay that it has nothing to do with. -/
theorem fault_isolation_lost :
    Reachable Sample.hailed ∧ Sample.admitted.Honest Sample.hailed ∧
      (∃ s₁, Sample.hailed.step Sample.admitted = .ok () s₁) ∧
      (Sample.hailed.connections.map (·.id) = [0]) ∧
      (∃ s₂, Sample.hailed.step (Sample.admitted.fail [.accept]) = .thrown s₂) ∧
      ¬ ∃ s₂, Sample.hailed.step (Sample.admitted.fail [.accept]) = .ok () s₂ := by
  refine ⟨Sample.hailed_reachable, by decide, ⟨_, rfl⟩, rfl, ⟨_, rfl⟩, ?_⟩
  rintro ⟨s₂, hs₂⟩
  cases hs₂

end OldStuff.Socks
