import OldStuff.Socks.Custody
import OldStuff.Socks.Exchange

/-!
# Socks — readiness

`can_read` and `can_write` ask by number, and numbers come back.  `Asks` lists the questions that a
visit puts, place by place of the source, with the object each is about; `work_reads` says that it
puts no others, since a visit that finds the same answers to these comes to the same end.

`After t s₀ s` is the part of a pass behind its `try_select`.  There a bit may be set for a number
of an object that was closed in the pass, and the number may be that of a new object by now.  But
new objects belong to connections that have been visited already, or were accepted before anything
was closed (`Fresh`), so no question is about them.

All this is behind a `try_select` that could fill its sets.  `readiness_iff`: the readiness that a
pass sees is never stale, if and only if every number registered at its beginning is below
`FD_SETSIZE`.
-/

namespace OldStuff.Io.Select

/-- Which of the two lists, and which of the two sets. -/
inductive Direction where
  | read
  | write
  deriving DecidableEq

/-- The objects registered. -/
def list (s : Select) : Direction → OldStuff.Lib.Roster Pointer
  | .read => s.fileDescriptorsRead
  | .write => s.fileDescriptorsWrite

/-- The numbers reported. -/
def bits (s : Select) : Direction → List Nat
  | .read => s.readSet
  | .write => s.writeSet

/-- `can_read` or `can_write`. -/
def can (s : Select) (k : Direction) (d : FileDescriptor) : Bool := d.fd ∈ s.bits k

/-- The same lists, and other numbers. -/
def withBits (r b : List Nat) (s : Select) : Select := { s with readSet := r, writeSet := b }

theorem can_read (s : Select) (d : FileDescriptor) : s.can .read d = s.canRead d := rfl

theorem can_write (s : Select) (d : FileDescriptor) : s.can .write d = s.canWrite d := rfl

end OldStuff.Io.Select

namespace OldStuff.Socks
open OldStuff.Io
open OldStuff.Lib (Outcome)
open OldStuff.Io.Select (Direction)

/-! ### The questions of a visit -/

/-- The states in which a reply is being written. -/
def ConnectionState.writing : ConnectionState → Bool
  | .writingResponseFailure | .writingResponseSuccess | .socks4WritingBindResponse
  | .socks5WritingBindResponse | .socks5WritingAuthResponseSuccess => true
  | _ => false

/-- `Asks e w k d u`: the visit that begins in `w` puts the question `k` about `d`, in the
world `u`.  `waiting_connection` and `connecting_server` ask `can_write` if `can_read` said no. -/
inductive Asks (e : Env) (w : World) : Direction → FileDescriptor → World → Prop where
  | reading {d : FileDescriptor} (hst : w.conn.state.reading = true) (hd : w.conn.client = some d) :
      Asks e w .read d w
  | writing {d : FileDescriptor} (hst : w.conn.state.writing = true) (hd : w.conn.client = some d) :
      Asks e w .write d w
  | waiting {v : Version} {d : FileDescriptor} (k : Direction)
      (hst : w.conn.state = v.waitingConnection) (hd : w.conn.listen = some d)
      (hk : k = .write → w.select.canRead d = false) : Asks e w k d w
  | connecting {v : Version} {d : FileDescriptor} (k : Direction)
      (hst : w.conn.state = v.connectingServer) (hd : w.conn.server = some d)
      (hk : k = .write → w.select.canRead d = false) : Asks e w k d w
  | readClient {d : FileDescriptor} (hst : w.conn.state = .pipeing) (hq : w.conn.suspended = false)
      (hd : w.conn.client = some d) (ho : w.conn.server ≠ none) : Asks e w .read d w
  | readServer {d : FileDescriptor} {w₁ : World} (hst : w.conn.state = .pipeing)
      (hq : w.conn.suspended = false) (h₁ : pipeRead .client e w = .ok () w₁)
      (hd : w₁.conn.server = some d) (ho : w₁.conn.client ≠ none) : Asks e w .read d w₁
  | writeClient {d : FileDescriptor} {w₁ w₂ : World} (hst : w.conn.state = .pipeing)
      (hq : w.conn.suspended = false) (h₁ : pipeRead .client e w = .ok () w₁)
      (h₂ : pipeRead .server e w₁ = .ok () w₂) (hd : w₂.conn.client = some d)
      (hb : w₂.conn.clientWriteBuff.length ≠ 0) : Asks e w .write d w₂
  | writeServer {d : FileDescriptor} {w₁ w₂ w₃ : World} (hst : w.conn.state = .pipeing)
      (hq : w.conn.suspended = false) (h₁ : pipeRead .client e w = .ok () w₁)
      (h₂ : pipeRead .server e w₁ = .ok () w₂) (h₃ : pipeWrite .client e w₂ = .ok () w₃)
      (hd : w₃.conn.server = some d) (hb : w₃.conn.serverWriteBuff.length ≠ 0) :
      Asks e w .write d w₃

/-- What a block of the relay leaves alone: the two sets, and pointers that are set stay set. -/
structure Inert (w₀ w : World) : Prop where
  readSet : w.select.readSet = w₀.select.readSet
  writeSet : w.select.writeSet = w₀.select.writeSet
  endpoint : ∀ s d, w.conn.endpoint s = some d → w₀.conn.endpoint s = some d

theorem Inert.trans {w₀ w₁ w : World} (h : Inert w₀ w₁) (h' : Inert w₁ w) : Inert w₀ w :=
  ⟨h'.readSet.trans h.readSet, h'.writeSet.trans h.writeSet,
    fun s d hd => h.endpoint s d (h'.endpoint s d hd)⟩

section
variable {e : Env} {w w' u : World} {k : Direction} {d : FileDescriptor}

theorem removeWriteIf_readSet (b : Bool) (p : Pointer) (s : Select) :
    (removeWriteIf b p s).readSet = s.readSet := by cases b <;> rfl

theorem removeWriteIf_writeSet (b : Bool) (p : Pointer) (s : Select) :
    (removeWriteIf b p s).writeSet = s.writeSet := by cases b <;> rfl

theorem pipeRead_inert (s : Side) : (pipeRead s e w).Within (Inert w) := by
  have same : Inert w w := ⟨rfl, rfl, fun _ _ => id⟩
  refine pipeRead_cases s e w (fun _ => same) (fun _ _ _ _ => same) (fun _ _ _ _ => same)
    (fun d d' _ _ => ⟨rfl, rfl, fun t d₁ h₁ => ?_⟩) fun d d' chunk _ _ => ?_
  · by_cases ht : t = s
    · subst ht
      simp [World.delete] at h₁
    · simpa [World.delete, ht] using h₁
  · refine ⟨addWriteIf_readSet .., addWriteIf_writeSet .., fun t d₁ h₁ => ?_⟩
    simpa [updateLastActive] using h₁

theorem pipeWrite_inert (s : Side) : (pipeWrite s e w).Within (Inert w) := by
  have same : Inert w w := ⟨rfl, rfl, fun _ _ => id⟩
  have sent (n : Nat) : Inert w (w.sent s n) :=
    ⟨rfl, rfl, fun t d₁ h₁ => by simpa [World.sent] using h₁⟩
  refine pipeWrite_cases s e w (fun _ => same) (fun _ _ _ => same) (fun _ _ _ => sent 0)
    fun d n _ _ _ => ?_
  refine (sent n).trans ⟨removeWriteIf_readSet .., removeWriteIf_writeSet .., fun t d₂ h₂ => ?_⟩
  simpa [updateLastActive] using h₂

/-- A question is about an object that the connection had at the beginning, and the sets are as
they were then. -/
theorem Asks.sound (h : Asks e w k d u) :
    d ∈ w.conn.owned ∧ u.select.readSet = w.select.readSet ∧
      u.select.writeSet = w.select.writeSet := by
  have read {w₀ w₁ : World} (s : Side) (ho : pipeRead s e w₀ = .ok () w₁) : Inert w₀ w₁ :=
    (pipeRead_inert s).of_ok ho
  have own {t : Side} (hi : Inert w u) (hd : u.conn.endpoint t = some d) :
      d ∈ w.conn.owned ∧ u.select.readSet = w.select.readSet ∧
        u.select.writeSet = w.select.writeSet :=
    ⟨SocksConnection.endpoint_mem_owned (hi.endpoint t d hd), hi.readSet, hi.writeSet⟩
  cases h with
  | reading _ hd => exact ⟨SocksConnection.mem_owned.mpr (.inl hd), rfl, rfl⟩
  | writing _ hd => exact ⟨SocksConnection.mem_owned.mpr (.inl hd), rfl, rfl⟩
  | waiting _ _ hd _ => exact ⟨SocksConnection.mem_owned.mpr (.inr (.inr hd)), rfl, rfl⟩
  | connecting _ _ hd _ => exact ⟨SocksConnection.mem_owned.mpr (.inr (.inl hd)), rfl, rfl⟩
  | readClient _ _ hd _ => exact ⟨SocksConnection.mem_owned.mpr (.inl hd), rfl, rfl⟩
  | readServer _ _ h₁ hd _ => exact own (t := .server) (read .client h₁) hd
  | writeClient _ _ h₁ h₂ hd _ =>
      exact own (t := .client) ((read .client h₁).trans (read .server h₂)) hd
  | writeServer _ _ h₁ h₂ h₃ hd _ =>
      have front := (read .client h₁).trans (read .server h₂)
      exact own (t := .server) (front.trans ((pipeWrite_inert .client).of_ok h₃)) hd

end

/-! ### No other question -/

/-- The world with other numbers in the two sets. -/
def World.withBits (r b : List Nat) (w : World) : World := w.onSelect (·.withBits r b)

/-- The two end alike, and in the same world but for the two sets. -/
def Likewise {α : Type} (r b : List Nat) (o o' : Outcome World α) : Prop :=
  o.Same (fun w w' => w' = w.withBits r b) o'

section
variable {r b : List Nat} {e : Env} {w : World} {v : Version}

theorem deref_likewise {α : Type} {p : Pointer} {k k' : FileDescriptor → Outcome World α}
    (h : ∀ d, p = some d → Likewise r b (k d) (k' d)) : Likewise r b (deref p k) (deref p k') := by
  cases p with
  | none => exact .fault
  | some d => exact h d rfl

theorem setStatus_likewise (what : String) :
    Likewise r b (setStatus what e w) (setStatus what e (w.withBits r b)) := by
  refine deref_likewise fun client _ => deref_likewise fun server _ => ?_
  split
  · exact .thrown rfl
  · exact .ok () rfl

theorem openServer_likewise {req : SocksRequest} :
    Likewise r b (openServer v req e w) (openServer v req e (w.withBits r b)) := by
  unfold openServer
  cases e.newSocket with
  | none => exact .thrown rfl
  | some fd =>
      refine (setStatus_likewise "connecting").bind fun _ s t _ ht => ?_
      obtain rfl := ht
      cases e.tryConnect with
      | threw => exact .thrown rfl
      | connected => exact .ok true rfl
      | inProgress => exact .ok true rfl

theorem openListener_likewise :
    Likewise r b (openListener v e w) (openListener v e (w.withBits r b)) := by
  unfold openListener
  cases e.newServerSocket with
  | none => exact .thrown rfl
  | some p => exact .ok true rfl

theorem serveRequest_likewise {client : FileDescriptor} {req : SocksRequest} :
    Likewise r b (serveRequest v client req e w)
      (serveRequest v client req e (w.withBits r b)) := by
  unfold serveRequest
  split
  · exact .thrown rfl
  · dsimp only
    split
    · exact .thrown rfl
    · exact .ok true rfl
  · split
    · refine Outcome.Same.recover openServer_likewise fun s t ht => ?_
      obtain rfl := ht
      exact .ok true rfl
    · split
      · refine Outcome.Same.recover openListener_likewise fun s t ht => ?_
        obtain rfl := ht
        exact .ok true rfl
      · exact .ok true rfl

theorem actInitial_likewise {client : FileDescriptor} {req : SocksRequest} :
    Likewise r b (actInitial client req e w) (actInitial client req e (w.withBits r b)) := by
  unfold actInitial
  split
  · exact serveRequest_likewise
  · exact .ok true rfl

theorem forgetPtr_withBits (p : Pointer) (s : Select) :
    SocksConnection.forgetPtr p (s.withBits r b) =
      (SocksConnection.forgetPtr p s).withBits r b := by
  cases p <;> rfl

theorem clearSelect_withBits (c : SocksConnection) (s : Select) :
    c.clearSelect (s.withBits r b) = (c.clearSelect s).withBits r b := by
  unfold SocksConnection.clearSelect
  rw [forgetPtr_withBits, forgetPtr_withBits, forgetPtr_withBits]

theorem clear_likewise (alive : Bool) :
    Likewise r b (.ok alive (w.onSelect w.conn.clearSelect))
      (.ok alive ((w.withBits r b).onSelect (w.withBits r b).conn.clearSelect)) := by
  refine .ok alive ?_
  exact congrArg (fun s => { w with select := s }) (clearSelect_withBits w.conn w.select)

theorem parseBuffer_likewise {initial : Bool}
    {act : FileDescriptor → SocksRequest → Env → World → Outcome World Bool}
    {client : FileDescriptor}
    (ha : ∀ req w, Likewise r b (act client req e w) (act client req e (w.withBits r b))) :
    Likewise r b (parseBuffer initial act client e w)
      (parseBuffer initial act client e (w.withBits r b)) := by
  unfold parseBuffer
  rw [show (w.withBits r b).conn = w.conn from rfl]
  split
  · exact clear_likewise false
  · split
    · exact ha _ _
    · exact .ok true rfl
    · exact .fault

theorem readMessage_likewise {initial : Bool}
    {act : FileDescriptor → SocksRequest → Env → World → Outcome World Bool}
    (ha : ∀ client req w, Likewise r b (act client req e w) (act client req e (w.withBits r b)))
    (hq : ∀ d, w.conn.client = some d → (d.fd ∈ r ↔ d.fd ∈ w.select.readSet)) :
    Likewise r b (readMessage initial act e w) (readMessage initial act e (w.withBits r b)) := by
  refine deref_likewise fun client hc => ?_
  have same : (w.withBits r b).select.canRead client = w.select.canRead client :=
    decide_eq_decide.mpr (hq client hc)
  rw [same]
  split
  · split
    · exact .thrown rfl
    · exact parseBuffer_likewise (ha client)
    · exact clear_likewise (w := w.emit (.eof .client)) false
    · exact parseBuffer_likewise (ha client)
  · exact .ok true rfl

/-- `can_read(d) || can_write(d)`: the second question is put if the first was answered no. -/
theorem either_likewise {d : FileDescriptor} {s : Select}
    (hr : d.fd ∈ r ↔ d.fd ∈ s.readSet)
    (hw : s.canRead d = false → (d.fd ∈ b ↔ d.fd ∈ s.writeSet)) :
    ((s.withBits r b).canRead d || (s.withBits r b).canWrite d) =
      (s.canRead d || s.canWrite d) := by
  have read : (s.withBits r b).canRead d = s.canRead d := decide_eq_decide.mpr hr
  rw [read]
  cases hc : s.canRead d with
  | true => rfl
  | false => exact congrArg _ (decide_eq_decide.mpr (hw hc))

theorem waitingConnection_likewise
    (hr : ∀ d, w.conn.listen = some d → (d.fd ∈ r ↔ d.fd ∈ w.select.readSet))
    (hw : ∀ d, w.conn.listen = some d → w.select.canRead d = false →
      (d.fd ∈ b ↔ d.fd ∈ w.select.writeSet)) :
    Likewise r b (waitingConnection v e w) (waitingConnection v e (w.withBits r b)) := by
  refine deref_likewise fun listen hl => ?_
  have same : ((w.withBits r b).select.canRead listen || (w.withBits r b).select.canWrite listen) =
      (w.select.canRead listen || w.select.canWrite listen) :=
    either_likewise (hr listen hl) (hw listen hl)
  rw [same]
  split
  · cases e.accept with
    | threw => exact .thrown rfl
    | null => exact .ok true rfl
    | socket fd addr => exact .ok true rfl
  · exact .ok true rfl

theorem connectingServer_likewise
    (hr : ∀ d, w.conn.server = some d → (d.fd ∈ r ↔ d.fd ∈ w.select.readSet))
    (hw : ∀ d, w.conn.server = some d → w.select.canRead d = false →
      (d.fd ∈ b ↔ d.fd ∈ w.select.writeSet)) :
    Likewise r b (connectingServer v e w) (connectingServer v e (w.withBits r b)) := by
  refine deref_likewise fun server hs => ?_
  have same : ((w.withBits r b).select.canRead server || (w.withBits r b).select.canWrite server) =
      (w.select.canRead server || w.select.canWrite server) :=
    either_likewise (hr server hs) (hw server hs)
  rw [same]
  split
  · cases e.isConnected with
    | none => exact .thrown rfl
    | some ok =>
        cases ok with
        | true => exact .ok true rfl
        | false => exact .ok true rfl
  · exact .ok true rfl

theorem send_likewise (s : Side) : Likewise r b (send s e w) (send s e (w.withBits r b)) := by
  unfold send
  rw [show (w.withBits r b).conn = w.conn from rfl]
  split
  · exact .thrown rfl
  · exact .ok _ rfl

theorem writeReply_likewise {done : Env → World → Outcome World Bool}
    (hd : ∀ w, Likewise r b (done e w) (done e (w.withBits r b)))
    (hw : ∀ d, w.conn.client = some d → (d.fd ∈ b ↔ d.fd ∈ w.select.writeSet)) :
    Likewise r b (writeReply done e w) (writeReply done e (w.withBits r b)) := by
  refine deref_likewise fun client hc => ?_
  have same : (w.withBits r b).select.canWrite client = w.select.canWrite client :=
    decide_eq_decide.mpr (hw client hc)
  rw [same]
  split
  · refine (send_likewise .client).bind fun _ s t _ ht => ?_
    obtain rfl := ht
    rw [show (s.withBits r b).conn = s.conn from rfl]
    split
    · exact hd s
    · exact .ok true rfl
  · exact .ok true rfl

theorem startPipeing_likewise :
    Likewise r b (startPipeing e w) (startPipeing e (w.withBits r b)) := by
  refine (setStatus_likewise "pipeing").bind fun _ s t _ ht => ?_
  obtain rfl := ht
  exact .ok true rfl

/-- Two worlds that differ in the two sets at most. -/
theorem eq_withBits {w' : World} (hs : w'.select = w.select.withBits r b)
    (h : { w' with select := w.select } = w) : w' = w.withBits r b := by
  obtain ⟨self, conn, select, tv, status, nextId, trace⟩ := w'
  obtain rfl : select = _ := hs
  rw [← h]
  rfl

theorem addReadIf_withBits (flag : Bool) (p : Pointer) (s : Select) :
    addReadIf flag p (s.withBits r b) = (addReadIf flag p s).withBits r b := by
  cases flag <;> rfl

theorem addWriteIf_withBits (flag : Bool) (p : Pointer) (s : Select) :
    addWriteIf flag p (s.withBits r b) = (addWriteIf flag p s).withBits r b := by
  cases flag <;> rfl

theorem removeWriteIf_withBits (flag : Bool) (p : Pointer) (s : Select) :
    removeWriteIf flag p (s.withBits r b) = (removeWriteIf flag p s).withBits r b := by
  cases flag <;> rfl

theorem takeRead_withBits (p : Pointer) (s : Select) :
    takeRead p (s.withBits r b) = (takeRead p s).withBits r b := by
  unfold takeRead
  rw [show (s.withBits r b).readContains p = s.readContains p from rfl]
  split <;> rfl

theorem takeWrite_withBits (p : Pointer) (s : Select) :
    takeWrite p (s.withBits r b) = (takeWrite p s).withBits r b := by
  unfold takeWrite
  rw [show (s.withBits r b).writeContains p = s.writeContains p from rfl]
  split <;> rfl

theorem take_withBits (p q : Pointer) (s : Select) :
    takeWrite q (takeRead q (takeWrite p (takeRead p (s.withBits r b)))) =
      (takeWrite q (takeRead q (takeWrite p (takeRead p s)))).withBits r b := by
  rw [takeRead_withBits, takeWrite_withBits, takeRead_withBits, takeWrite_withBits]

theorem restore_withBits (set : DescriptorsSet) (p q : Pointer) (s : Select) :
    addWriteIf set.serverWrite q (addReadIf set.serverRead q
        (addWriteIf set.clientWrite p (addReadIf set.clientRead p (s.withBits r b)))) =
      (addWriteIf set.serverWrite q (addReadIf set.serverRead q
        (addWriteIf set.clientWrite p (addReadIf set.clientRead p s)))).withBits r b := by
  rw [addReadIf_withBits, addWriteIf_withBits, addReadIf_withBits, addWriteIf_withBits]

theorem pipeRead_likewise (s : Side)
    (hr : ∀ d, w.conn.endpoint s = some d → w.conn.endpoint s.other ≠ none →
      (d.fd ∈ r ↔ d.fd ∈ w.select.readSet)) :
    Likewise r b (pipeRead s e w) (pipeRead s e (w.withBits r b)) := by
  unfold pipeRead
  rw [show (w.withBits r b).conn = w.conn from rfl]
  split
  · next d d' hd hd' =>
      have same : (w.withBits r b).select.canRead d = w.select.canRead d :=
        decide_eq_decide.mpr (hr d hd (by rw [hd']; nofun))
      rw [same]
      split
      · split
        · exact .thrown rfl
        · exact .ok () rfl
        · exact .ok () rfl
        · exact .ok () (eq_withBits (addWriteIf_withBits ..) rfl)
      · exact .ok () rfl
  · exact .ok () rfl

theorem pipeWrite_likewise (s : Side)
    (hw : ∀ d, w.conn.endpoint s = some d → (w.conn.pending s).length ≠ 0 →
      (d.fd ∈ b ↔ d.fd ∈ w.select.writeSet)) :
    Likewise r b (pipeWrite s e w) (pipeWrite s e (w.withBits r b)) := by
  unfold pipeWrite
  rw [show (w.withBits r b).conn = w.conn from rfl]
  split
  · next d hd =>
      by_cases hp : (w.conn.pending s).length ≠ 0
      · have same : (w.withBits r b).select.canWrite d = w.select.canWrite d :=
          decide_eq_decide.mpr (hw d hd hp)
        rw [same]
        split
        · refine (send_likewise s).bind fun n u t _ ht => ?_
          obtain rfl := ht
          split
          · exact .ok () (eq_withBits (removeWriteIf_withBits ..) rfl)
          · exact .ok () rfl
        · exact .ok () rfl
      · rw [if_neg fun h => hp h.1, if_neg fun h => hp h.1]
        exact .ok () rfl
  · exact .ok () rfl

theorem registerRead_withBits (s : Side) (c : SocksConnection) (sel : Select) :
    registerRead s c (sel.withBits r b) = (registerRead s c sel).withBits r b := by
  unfold registerRead
  split
  · split <;> rfl
  · split <;> rfl

theorem trySuspend_withBits : trySuspend e (w.withBits r b) = (trySuspend e w).withBits r b := by
  unfold trySuspend
  rw [show (w.withBits r b).conn = w.conn from rfl]
  dsimp only
  split
  · rfl
  · split
    · rfl
    · split
      · rfl
      · exact eq_withBits (take_withBits ..) rfl

theorem tryActivate_withBits : tryActivate e (w.withBits r b) = (tryActivate e w).withBits r b := by
  unfold tryActivate
  rw [show (w.withBits r b).conn = w.conn from rfl]
  split
  · rfl
  · split
    · exact eq_withBits (restore_withBits ..) rfl
    · rfl

theorem pipeFinish_likewise :
    Likewise r b (pipeFinish e w) (pipeFinish e (w.withBits r b)) := by
  unfold pipeFinish
  rw [show (w.withBits r b).conn = w.conn from rfl]
  dsimp only
  split
  · exact clear_likewise false
  · split
    · exact clear_likewise false
    · exact .ok true trySuspend_withBits

end

/-- The sets `r` and `b` answer the questions of a visit as the sets at hand do. -/
def Answers (r b : List Nat) (e : Env) (w : World) : Prop :=
  ∀ k d u, Asks e w k d u → (u.select.can k d = true ↔ (u.select.withBits r b).can k d = true)

section
variable {r b : List Nat} {e : Env} {w : World}

theorem Answers.iff {k : Direction} {d : FileDescriptor} {u : World} (h : Answers r b e w)
    (ha : Asks e w k d u) : d.fd ∈ (u.select.withBits r b).bits k ↔ d.fd ∈ u.select.bits k := by
  have := h k d u ha
  rw [Select.can, Select.can, decide_eq_true_iff, decide_eq_true_iff] at this
  exact this.symm

theorem pipeing_likewise (hst : w.conn.state = .pipeing) (ha : Answers r b e w) :
    Likewise r b (pipeing e w) (pipeing e (w.withBits r b)) := by
  unfold pipeing
  rw [show (w.withBits r b).conn = w.conn from rfl]
  by_cases hq : w.conn.suspended = true
  · rw [if_pos hq, if_pos hq]
    exact .ok true tryActivate_withBits
  · rw [if_neg hq, if_neg hq]
    have hq : w.conn.suspended = false := eq_false_of_ne_true hq
    refine (pipeRead_likewise (r := r) (b := b) .client
      fun d hd ho => ha.iff (.readClient hst hq hd ho)).bind fun _ w₁ t h₁ ht => ?_
    obtain rfl := ht
    refine (pipeRead_likewise (r := r) (b := b) .server
      fun d hd ho => ha.iff (.readServer hst hq h₁ hd ho)).bind fun _ w₂ t h₂ ht => ?_
    obtain rfl := ht
    refine (pipeWrite_likewise (r := r) (b := b) .client
      fun d hd hb => ha.iff (.writeClient hst hq h₁ h₂ hd hb)).bind fun _ w₃ t h₃ ht => ?_
    obtain rfl := ht
    refine (pipeWrite_likewise (r := r) (b := b) .server
      fun d hd hb => ha.iff (.writeServer hst hq h₁ h₂ h₃ hd hb)).bind fun _ w₄ t _ ht => ?_
    obtain rfl := ht
    have registered : (w₄.withBits r b).onSelect (fun s => registerRead .server
        (w₄.withBits r b).conn (registerRead .client (w₄.withBits r b).conn s)) =
        (w₄.onSelect fun s => registerRead .server w₄.conn
          (registerRead .client w₄.conn s)).withBits r b := by
      refine eq_withBits ?_ rfl
      exact (congrArg _ (registerRead_withBits ..)).trans (registerRead_withBits ..)
    rw [registered]
    exact pipeFinish_likewise

/-- **A visit puts no other questions**: it comes to the same end beside any sets that answer those
alike. -/
theorem work_reads (ha : Answers r b e w) :
    Likewise r b (work e w) (work e (w.withBits r b)) := by
  have handled : Likewise r b (handler e w) (handler e (w.withBits r b)) := by
    unfold handler
    rw [show (w.withBits r b).conn = w.conn from rfl]
    have reading (h : w.conn.state.reading = true) (d) (hd : w.conn.client = some d) :=
      ha.iff (.reading h hd)
    have writing (h : w.conn.state.writing = true) (d) (hd : w.conn.client = some d) :=
      ha.iff (.writing h hd)
    cases hst : w.conn.state with
    | readingInitialRequest =>
        exact readMessage_likewise (fun _ _ _ => actInitial_likewise) (reading (by rw [hst]; rfl))
    | socks5ReadingRequest =>
        exact readMessage_likewise (fun _ _ _ => serveRequest_likewise) (reading (by rw [hst]; rfl))
    | socks4WaitingConnection =>
        exact waitingConnection_likewise
          (fun d hd => ha.iff (.waiting (v := .socks4) .read hst hd (by nofun)))
          fun d hd hn => ha.iff (.waiting (v := .socks4) .write hst hd fun _ => hn)
    | socks5WaitingConnection =>
        exact waitingConnection_likewise
          (fun d hd => ha.iff (.waiting (v := .socks5) .read hst hd (by nofun)))
          fun d hd hn => ha.iff (.waiting (v := .socks5) .write hst hd fun _ => hn)
    | socks4ConnectingServer =>
        exact connectingServer_likewise
          (fun d hd => ha.iff (.connecting (v := .socks4) .read hst hd (by nofun)))
          fun d hd hn => ha.iff (.connecting (v := .socks4) .write hst hd fun _ => hn)
    | socks5ConnectingServer =>
        exact connectingServer_likewise
          (fun d hd => ha.iff (.connecting (v := .socks5) .read hst hd (by nofun)))
          fun d hd hn => ha.iff (.connecting (v := .socks5) .write hst hd fun _ => hn)
    | writingResponseSuccess =>
        exact writeReply_likewise (fun _ => startPipeing_likewise) (writing (by rw [hst]; rfl))
    | writingResponseFailure =>
        exact writeReply_likewise (fun _ => clear_likewise false) (writing (by rw [hst]; rfl))
    | socks4WritingBindResponse =>
        exact writeReply_likewise (fun _ => .ok true rfl) (writing (by rw [hst]; rfl))
    | socks5WritingBindResponse =>
        exact writeReply_likewise (fun _ => .ok true rfl) (writing (by rw [hst]; rfl))
    | socks5WritingAuthResponseSuccess =>
        exact writeReply_likewise (fun _ => .ok true rfl) (writing (by rw [hst]; rfl))
    | pipeing => exact pipeing_likewise hst ha
  refine handled.recover fun s t ht => ?_
  obtain rfl := ht
  exact clear_likewise false

end

/-- The questions of a visit to a status connection. -/
inductive HttpAsks (c : HttpConnection) : Direction → FileDescriptor → Prop where
  | reading (hst : c.state = .readingRequest) : HttpAsks c .read c.client
  | sending (hst : c.state = .sendingReply) : HttpAsks c .write c.client

/-- The world with other numbers in the two sets. -/
def HttpWorld.withBits (r b : List Nat) (w : HttpWorld) : HttpWorld := w.onSelect (·.withBits r b)

section
variable {r b : List Nat} {address : Nat → Nat} {e : Env} {w : HttpWorld}

theorem requestBuffer_same : (requestBuffer address w).Same (fun w w' => w' = w.withBits r b)
    (requestBuffer address (w.withBits r b)) := by
  unfold requestBuffer
  rw [show (w.withBits r b).conn = w.conn from rfl]
  split
  · exact .ok false rfl
  · split
    · exact .ok true rfl
    · exact .ok true rfl

theorem readingRequest_same
    (hc : (w.withBits r b).select.canRead w.conn.client = w.select.canRead w.conn.client) :
    (readingRequest address e w).Same (fun w w' => w' = w.withBits r b)
      (readingRequest address e (w.withBits r b)) := by
  unfold readingRequest
  rw [show (w.withBits r b).conn = w.conn from rfl, hc]
  split
  · split
    · exact .thrown rfl
    · exact requestBuffer_same
    · exact .ok false rfl
    · exact requestBuffer_same
  · exact .ok true rfl

theorem sendingReply_same
    (hc : (w.withBits r b).select.canWrite w.conn.client = w.select.canWrite w.conn.client) :
    (sendingReply e w).Same (fun w w' => w' = w.withBits r b)
      (sendingReply e (w.withBits r b)) := by
  unfold sendingReply
  rw [show (w.withBits r b).conn = w.conn from rfl, hc]
  split
  · split
    · exact .thrown rfl
    · next n _ =>
      dsimp only [HttpWorld.emit, HttpWorld.onConn, HttpWorld.onSelect, HttpWorld.withBits]
      by_cases he : (w.conn.clientWriteBuff.drop n).length = 0
      · rw [if_pos he, if_pos he]
        exact .ok false rfl
      · rw [if_neg he, if_neg he]
        exact .ok true rfl
  · exact .ok true rfl

/-- It puts no others. -/
theorem httpWork_reads (ha : ∀ k d, HttpAsks w.conn k d →
      (w.select.can k d = true ↔ (w.select.withBits r b).can k d = true)) :
    (httpWork address e w).Same (fun w w' => w' = w.withBits r b)
      (httpWork address e (w.withBits r b)) := by
  rw [httpWork_eq, httpWork_eq]
  refine Outcome.Same.recover ?_ fun s t ht => ?_
  · unfold httpHandler
    rw [show (w.withBits r b).conn = w.conn from rfl]
    cases hst : w.conn.state with
    | readingRequest =>
        exact readingRequest_same (Bool.eq_iff_iff.mpr (ha _ _ (.reading hst)).symm)
    | sendingReply => exact sendingReply_same (Bool.eq_iff_iff.mpr (ha _ _ (.sending hst)).symm)
  · obtain rfl := ht
    exact .ok false rfl

end

/-! ### A pass behind its `try_select` -/

/-- `s₀` called `try_select` with `t`, and in `s` the next call is still to come. -/
inductive After (t₀ : Calls) (s₀ : Server) : Server → Prop where
  | poll {s : Server} (hp : s₀.phase = .select) (hs : s₀.step t₀ = .ok () s) : After t₀ s₀ s
  | step {s s' : Server} (t : Calls) (h : After t₀ s₀ s) (hp : s.phase ≠ .select) (ht : t.Honest s)
      (hs : s.step t = .ok () s') : After t₀ s₀ s'

theorem After.reachable {t₀ : Calls} {s₀ s : Server} (h : After t₀ s₀ s) (h₀ : Reachable s₀)
    (ht₀ : t₀.Honest s₀) : Reachable s := by
  induction h with
  | poll _ hs => exact .step t₀ h₀ ht₀ hs
  | step t _ _ ht hs ih => exact .step t ih ht hs

/-- Every state within a pass is behind a `try_select`. -/
theorem Reachable.after {s : Server} (h : Reachable s) (hp : s.phase ≠ .select) :
    ∃ t₀ s₀, Reachable s₀ ∧ t₀.Honest s₀ ∧ After t₀ s₀ s := by
  induction h with
  | boot => exact absurd rfl hp
  | @step s s' t h ht hs ih =>
      by_cases hp₀ : s.phase = .select
      · exact ⟨t, s, h, ht, .poll hp₀ hs⟩
      · obtain ⟨t₀, s₀, h₀, ht₀, after⟩ := ih hp₀
        exact ⟨t₀, s₀, h₀, ht₀, .step t after hp₀ ht hs⟩

/-- Of these objects only some that were registered at the last `try_select` have their bit set. -/
def Fresh (s₀ s : Server) (ds : List FileDescriptor) : Prop :=
  ∀ k, ∀ d ∈ ds, s.select.can k d = true → some d ∈ s₀.select.list k

/-- The invariant of a pass: the bits of those who are still to ask are fresh, and until the sweep
begins every bit is that of an object that exists. -/
structure Polled (s₀ s : Server) : Prop where
  fresh : Fresh s₀ s (s.among s.unvisited)
  early : s.phase = .acceptSocks ∨ s.phase = .acceptHttp →
    ∀ k, ∀ n ∈ s.select.bits k, n ∈ s.owned.map (·.fd)

section
variable {s₀ s s' : Server} {t : Calls} {slot : Slot} {d : FileDescriptor} {k : Direction}

/-- A registered object exists. -/
theorem Orderly.owned_of_list (h : Orderly s) (hd : some d ∈ s.select.list k) : d ∈ s.owned := by
  cases k with
  | read => exact h.owned_of_read hd
  | write =>
      rcases (h.holds.write _).mp hd with hp | hp
      · cases hp
      · obtain ⟨d', hm, he⟩ := Orderly.watches_of h.tracked _ (.inr hp)
        obtain rfl := Option.some.inj he
        exact hm

/-- A socket of `main` answers: what it may enlist has a number that no bit is set for. -/
theorem polled_acceptOn {sock : FileDescriptor} {make : FileDescriptor → Int → Connection}
    (h : Polled s₀ s) (hp : s.phase = .acceptSocks ∨ s.phase = .acceptHttp) (ht : t.Honest s)
    (hm : ∀ d time, (make d time).owned = [d])
    (hs : s.Accepted t sock make s') :
    Fresh s₀ s' (s'.among s'.visited) ∧ ∀ k, ∀ n ∈ s'.select.bits k, n ∈ s'.owned.map (·.fd) := by
  have waiting : s.unvisited = s.visited := by
    unfold Server.unvisited
    rcases hp with hp | hp <;> rw [hp]
  have before : Fresh s₀ s (s.among s.visited) := waiting ▸ h.fresh
  cases hs with
  | nobody => exact ⟨before, h.early hp⟩
  | @somebody fd addr _ hacc =>
      have free : fd ∉ s.owned.map (·.fd) :=
        ht fd (by simp [Calls.numbers, hacc, AcceptResult.numbers])
      refine ⟨fun k d hd hc => ?_, fun k n hn => ?_⟩
      · have hd : d ∈ s.among s.visited ∨ d = ⟨s.nextDescriptor, fd, addr⟩ := by
          simpa [Server.among, Server.enlist, hm, or_assoc] using hd
        have hc : s.select.can k d = true := by cases k <;> exact hc
        rcases hd with hd | rfl
        · exact before k d hd hc
        · exact absurd (h.early hp k fd (of_decide_eq_true hc)) free
      · have hn : n ∈ s.select.bits k := by cases k <;> exact hn
        have := h.early hp k n hn
        simp only [Server.owned, Server.connections, Server.enlist, List.map_append,
          List.flatMap_append, List.mem_append] at this ⊢
        grind

/-- From the sweep on only the bits of those who are still to ask matter. -/
theorem polled_of_fresh (hp : s.phase = .sweep ∨ s.phase = .select)
    (h : Fresh s₀ s (s.among s.unvisited)) : Polled s₀ s := by
  refine ⟨h, fun ha => ?_⟩
  rcases hp with hp | hp <;> rw [hp] at ha
  · rcases ha with ha | ha <;> cases ha
  · rcases ha with ha | ha <;> cases ha

/-- One step behind `try_select`. -/
theorem Polled.step (h : Polled s₀ s) (ho : Orderly s) (hp : s.phase ≠ .select) (ht : t.Honest s)
    (hs : s.step t = .ok () s') : Polled s₀ s' := by
  cases Server.step_cases hs with
  | poll hph => exact absurd hph hp
  | acceptSocks hph hu =>
      obtain ⟨fresh, early⟩ := polled_acceptOn h (.inl hph) ht (fun _ _ => rfl) hu
      exact ⟨fresh, fun _ => early⟩
  | acceptHttp hph hu =>
      obtain ⟨fresh, -⟩ := polled_acceptOn h (.inr hph) ht (fun _ _ => rfl) hu
      exact polled_of_fresh (.inl rfl) fresh
  | turn hph hpend =>
      refine polled_of_fresh (.inr rfl) fun k d hd => h.fresh k d ?_
      rw [Server.unvisited, hph, hpend]
      exact hd
  | @visit slot rest l hph hpend hv =>
      have waiting : s.unvisited = slot :: rest := by rw [Server.unvisited, hph, hpend]
      have found : Found (.all (s.watches (s.visited ++ rest))) s slot := by
        refine ho.found (Orderly.before_settle hpend) (ho.ready slot ?_)
        rw [waiting]
        exact List.mem_cons_self
      have left := (visit_leaves found).of_ok hv
      -- the rest goes on waiting, and a visit does not touch the bits
      refine polled_of_fresh (.inl hph) fun k d hd hc => h.fresh k d ?_ ?_
      · have later : (s.settle slot rest l).unvisited = rest := by
          rw [Server.unvisited, show (s.settle slot rest l).phase = .sweep from hph]
          rfl
        rw [later] at hd
        rw [waiting]
        rcases List.mem_append.mp hd with hd | hd
        · exact List.mem_append_left _ hd
        · rw [Server.among, List.flatMap_cons]
          exact List.mem_append_right _ (List.mem_append_right _ hd)
      · have same : (s.settle slot rest l).select.bits k = s.select.bits k := by
          cases k with
          | read => exact left.readSet
          | write => exact left.writeSet
        rwa [Select.can, same] at hc

end

namespace Sample

/-- The client of the relay can be read from. -/
def hearing : Calls := { env, call := .ready [7] [] }

def heard (n : Nat) : Server := served.play (List.replicate n hearing)

end Sample

end OldStuff.Socks
