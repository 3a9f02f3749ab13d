import OldStuff.Socks.Throttle

/-!
# Socks — what a visit does to the clocks

A connection has two clocks.  `last_active` is read by `has_expired`, and the `select` timeout says
how long `main` may sleep.  In the handshake neither is touched (`handler_untimed`).  A relay that
is not suspended first runs its four blocks (`pipeRound`), which set `last_active` when a byte
moves and leave the timeout alone, and then decides how to go on (`pipeFinish`); only
`try_suspend` and `try_activate` change the timeout.
-/

namespace OldStuff.Socks
open OldStuff.Io
open OldStuff.Lib (Outcome)

/-! ### The handshake -/

/-- The clocks stand. -/
structure Untimed (w₀ w : World) : Prop where
  lastActive : w.conn.lastActive = w₀.conn.lastActive
  suspended : w.conn.suspended = w₀.conn.suspended
  tv : w.tv = w₀.tv

section
variable {v : Version} {e : Env} {w₀ w : World} {client : FileDescriptor} {req : SocksRequest}

theorem Untimed.refl (w : World) : Untimed w w := ⟨rfl, rfl, rfl⟩

theorem Untimed.refuse {code : UInt8} (h : Untimed w₀ w) : Untimed w₀ (refuse v code e w) :=
  ⟨h.lastActive, h.suspended, h.tv⟩

theorem deref_within {α : Type} {R : World → Prop} {p : Pointer}
    {k : FileDescriptor → Outcome World α} (h : ∀ d, (k d).Within R) : (deref p k).Within R := by
  cases p with
  | none => trivial
  | some d => exact h d

theorem setStatus_untimed {what : String} (h : Untimed w₀ w) :
    (setStatus what e w).Within (Untimed w₀) := by
  refine deref_within fun client => deref_within fun server => ?_
  split
  · exact h
  · exact ⟨h.lastActive, h.suspended, h.tv⟩

theorem openServer_untimed (h : Untimed w₀ w) :
    (openServer v req e w).Within (Untimed w₀) := by
  unfold openServer
  split
  · exact h
  · refine (setStatus_untimed (w := w.newServer _ _) ⟨h.lastActive, h.suspended, h.tv⟩).bind
      fun _ w h => ?_
    split
    · exact h
    · exact ⟨h.lastActive, h.suspended, h.tv⟩
    · exact ⟨h.lastActive, h.suspended, h.tv⟩

theorem openListener_untimed (h : Untimed w₀ w) :
    (openListener v e w).Within (Untimed w₀) := by
  unfold openListener
  split
  · exact h
  · exact ⟨h.lastActive, h.suspended, h.tv⟩

theorem serveRequest_untimed (h : Untimed w₀ w) :
    (serveRequest v client req e w).Within (Untimed w₀) := by
  have asked : Untimed w₀ (w.emit (.asked (canConnect e client))) :=
    ⟨h.lastActive, h.suspended, h.tv⟩
  unfold serveRequest
  dsimp only
  split
  · exact asked
  · split
    · exact asked.refuse
    · exact asked.refuse
  · split
    · exact (openServer_untimed asked).recover fun _ h => h.refuse
    · split
      · exact (openListener_untimed asked).recover fun _ h => h.refuse
      · exact asked.refuse

theorem actInitial_untimed (h : Untimed w₀ w) :
    (actInitial client req e w).Within (Untimed w₀) := by
  unfold actInitial
  split
  · exact serveRequest_untimed h
  · exact ⟨h.lastActive, h.suspended, h.tv⟩

theorem parseBuffer_untimed {initial : Bool}
    {act : FileDescriptor → SocksRequest → Env → World → Outcome World Bool}
    (ha : ∀ req w, Untimed w₀ w → (act client req e w).Within (Untimed w₀)) (h : Untimed w₀ w) :
    (parseBuffer initial act client e w).Within (Untimed w₀) := by
  unfold parseBuffer
  split
  · exact ⟨h.lastActive, h.suspended, h.tv⟩
  · split
    · exact ha _ _ ⟨h.lastActive, h.suspended, h.tv⟩
    · exact h
    · trivial

theorem readMessage_untimed {initial : Bool}
    {act : FileDescriptor → SocksRequest → Env → World → Outcome World Bool}
    (ha : ∀ client req w, Untimed w₀ w → (act client req e w).Within (Untimed w₀))
    (h : Untimed w₀ w) : (readMessage initial act e w).Within (Untimed w₀) := by
  refine deref_within fun client => ?_
  split
  · split
    · exact h
    · exact parseBuffer_untimed (ha client) h
    · exact ⟨h.lastActive, h.suspended, h.tv⟩
    · exact parseBuffer_untimed (ha client) ⟨h.lastActive, h.suspended, h.tv⟩
  · exact h

theorem waitingConnection_untimed (h : Untimed w₀ w) :
    (waitingConnection v e w).Within (Untimed w₀) := by
  refine deref_within fun listen => ?_
  split
  · split
    · exact h
    · exact ⟨h.lastActive, h.suspended, h.tv⟩
    · exact ⟨h.lastActive, h.suspended, h.tv⟩
  · exact h

theorem connectingServer_untimed (h : Untimed w₀ w) :
    (connectingServer v e w).Within (Untimed w₀) := by
  refine deref_within fun server => ?_
  split
  · dsimp only
    split
    · exact ⟨h.lastActive, h.suspended, h.tv⟩
    · exact ⟨h.lastActive, h.suspended, h.tv⟩
    · exact ⟨h.lastActive, h.suspended, h.tv⟩
  · exact h

theorem writeReply_untimed {done : Env → World → Outcome World Bool}
    (hd : ∀ w, Untimed w₀ w → (done e w).Within (Untimed w₀)) (h : Untimed w₀ w) :
    (writeReply done e w).Within (Untimed w₀) := by
  refine deref_within fun client => ?_
  split
  · unfold send
    split
    · exact h
    · rw [Outcome.bind_ok]
      split
      · exact hd _ ⟨h.lastActive, h.suspended, h.tv⟩
      · exact ⟨h.lastActive, h.suspended, h.tv⟩
  · exact h

theorem startPipeing_untimed (h : Untimed w₀ w) : (startPipeing e w).Within (Untimed w₀) := by
  unfold startPipeing
  refine (setStatus_untimed ?_).bind fun _ _ h => h
  exact ⟨h.lastActive, h.suspended, h.tv⟩

/-- **In the handshake the clocks stand.** -/
theorem handler_untimed (hst : w.conn.state ≠ .pipeing) :
    (handler e w).Within (Untimed w) := by
  have h := Untimed.refl w
  unfold handler
  split
  · exact readMessage_untimed (fun _ _ _ => actInitial_untimed) h
  · exact connectingServer_untimed h
  · exact writeReply_untimed (fun _ => startPipeing_untimed) h
  · exact writeReply_untimed (fun _ h => ⟨h.lastActive, h.suspended, h.tv⟩) h
  · exact writeReply_untimed (fun _ h => ⟨h.lastActive, h.suspended, h.tv⟩) h
  · exact connectingServer_untimed h
  · exact readMessage_untimed (fun _ _ _ => serveRequest_untimed) h
  · exact waitingConnection_untimed h
  · exact waitingConnection_untimed h
  · exact writeReply_untimed (fun _ h => ⟨h.lastActive, h.suspended, h.tv⟩) h
  · exact writeReply_untimed (fun _ h => ⟨h.lastActive, h.suspended, h.tv⟩) h
  · next heq => exact absurd heq hst

theorem work_untimed (hst : w.conn.state ≠ .pipeing) : (work e w).Within (Untimed w) :=
  (handler_untimed hst).recover fun _ h => ⟨h.lastActive, h.suspended, h.tv⟩

end

/-! ### The relay -/

/-- The four blocks of `pipeing`, and the registration of both ends. -/
def pipeRound (e : Env) (w : World) : Outcome World Unit :=
  (pipeRead .client e w).bind fun _ w =>
  (pipeRead .server e w).bind fun _ w =>
  (pipeWrite .client e w).bind fun _ w =>
  (pipeWrite .server e w).bind fun _ w =>
  .ok () (w.onSelect fun s => registerRead .server w.conn (registerRead .client w.conn s))

/-- **A step of a relay**: it waits, or it runs its blocks and finishes. -/
theorem pipeing_eq (e : Env) (w : World) :
    pipeing e w = if w.conn.suspended then .ok true (tryActivate e w)
      else (pipeRound e w).bind fun _ w => pipeFinish e w := by
  have assoc {α β γ : Type} (o : Outcome World α) (f : α → World → Outcome World β)
      (g : β → World → Outcome World γ) :
      (o.bind f).bind g = o.bind fun a w => (f a w).bind g := by
    cases o <;> rfl
  unfold pipeing pipeRound
  simp only [assoc, Outcome.bind_ok]

/-- A byte has moved, or a partner has come. -/
def Event.stirs : Event → Bool
  | .read .. | .accepted _ => true
  | .wrote _ bs => bs ≠ []
  | _ => false

/-- In `es` something has moved. -/
def Stirred (es : List Event) : Prop := ∃ ev ∈ es, ev.stirs = true

instance (es : List Event) : Decidable (Stirred es) :=
  inferInstanceAs (Decidable (∃ ev ∈ es, ev.stirs = true))

/-- A relay on its way through the blocks: `last_active` is the present if something has moved, and
what it was before if not; the rest stands. -/
structure Stirs (e : Env) (w₀ w : World) : Prop where
  moved : Stirred w.trace → w.conn.lastActive = e.time
  still : ¬ Stirred w.trace → w.conn.lastActive = w₀.conn.lastActive
  suspended : w.conn.suspended = w₀.conn.suspended
  tv : w.tv = w₀.tv

section
variable {e : Env} {w₀ w w' : World} {es : List Event} {ev : Event}

theorem stirred_snoc : Stirred (es ++ [ev]) ↔ Stirred es ∨ ev.stirs = true := by
  simp only [Stirred, List.mem_append, List.mem_singleton, or_and_right, exists_or,
    exists_eq_left]

theorem not_stirred_nil : ¬ Stirred [] := by
  rintro ⟨_, h, -⟩
  exact absurd h List.not_mem_nil

theorem Stirs.start (ht : w.trace = []) : Stirs e w w where
  moved := fun h => absurd (ht ▸ h) not_stirred_nil
  still := fun _ => rfl
  suspended := rfl
  tv := rfl

/-- Nothing moves. -/
theorem Stirs.congr (h : Stirs e w₀ w) (hl : w'.conn.lastActive = w.conn.lastActive)
    (hs : w'.conn.suspended = w.conn.suspended) (ht : w'.tv = w.tv)
    (he : Stirred w'.trace ↔ Stirred w.trace) : Stirs e w₀ w' where
  moved := fun hm => hl.trans (h.moved (he.mp hm))
  still := fun hm => hl.trans (h.still fun hn => hm (he.mpr hn))
  suspended := hs.trans h.suspended
  tv := ht.trans h.tv

/-- Something moves. -/
theorem Stirs.touch (h : Stirs e w₀ w) (hl : w'.conn.lastActive = e.time)
    (hs : w'.conn.suspended = w.conn.suspended) (ht : w'.tv = w.tv) (he : Stirred w'.trace) :
    Stirs e w₀ w' where
  moved := fun _ => hl
  still := fun hm => absurd he hm
  suspended := hs.trans h.suspended
  tv := ht.trans h.tv

@[simp] theorem lastActive_setPending (s : Side) (bs : Bytes) (c : SocksConnection) :
    (c.setPending s bs).lastActive = c.lastActive := by cases s <;> rfl
@[simp] theorem lastActive_setEndpoint (s : Side) (p : Pointer) (c : SocksConnection) :
    (c.setEndpoint s p).lastActive = c.lastActive := by cases s <;> rfl

theorem pipeRead_stirs (s : Side) (h : Stirs e w₀ w) : (pipeRead s e w).Within (Stirs e w₀) := by
  refine pipeRead_cases s e w (fun _ => h) (fun _ _ _ _ => h) (fun _ _ _ _ => h)
    (fun d d' _ _ => ?_) fun d d' chunk _ _ => ?_
  · refine h.congr (by simp [World.delete]) (by simp [World.delete]) rfl ?_
    rw [World.delete, World.onConn_trace, World.emit_trace, World.onSelect_trace,
      World.emit_trace, stirred_snoc, stirred_snoc]
    simp [Event.stirs]
  · refine h.touch rfl (by simp [updateLastActive, SocksConnection.touch]) rfl ?_
    exact stirred_snoc.mpr (.inr rfl)

theorem pipeWrite_stirs (s : Side) (h : Stirs e w₀ w) :
    (pipeWrite s e w).Within (Stirs e w₀) := by
  refine pipeWrite_cases s e w (fun _ => h) (fun _ _ _ => h) (fun d _ _ => ?_)
    fun d n due hn hz => ?_
  · refine h.congr (by simp [World.sent]) (by simp [World.sent]) rfl ?_
    rw [World.sent, World.emit_trace, World.onConn_trace, stirred_snoc]
    exact or_iff_left (by simp [Event.stirs])
  · -- something was written: `update_last_active`
    refine h.touch rfl (by simp [updateLastActive, SocksConnection.touch,
      SocksConnection.addPiped, World.sent]) rfl ?_
    refine stirred_snoc.mpr (.inr ?_)
    have : (w.conn.pending s).take n ≠ [] := by
      rw [ne_eq, List.take_eq_nil_iff, not_or]
      exact ⟨hz, fun hnil => due.waits (congrArg List.length hnil)⟩
    simpa [Event.stirs] using this

theorem pipeRound_stirs (ht : w.trace = []) : (pipeRound e w).Within (Stirs e w) := by
  unfold pipeRound
  exact (pipeRead_stirs .client (.start ht)).bind fun _ _ h =>
    (pipeRead_stirs .server h).bind fun _ _ h =>
    (pipeWrite_stirs .client h).bind fun _ _ h =>
    (pipeWrite_stirs .server h).bind fun _ _ h => h.congr rfl rfl rfl Iff.rfl

/-! ### The limiter and the timeout -/

theorem trySuspend_lastActive : (trySuspend e w).conn.lastActive = w.conn.lastActive := by
  unfold trySuspend
  dsimp only
  split
  · rfl
  · split
    · rfl
    · split <;> rfl

theorem tryActivate_lastActive : (tryActivate e w).conn.lastActive = w.conn.lastActive := by
  unfold tryActivate
  split
  · rfl
  · split <;> rfl

/-- A limiter that holds the connection back leaves a deadline in the future, and tells `select` to
be back by then; otherwise the timeout stands. -/
structure Held (e : Env) (tv : Timeval) (w : World) : Prop where
  later : w.conn.suspended = true → e.timeofday.ms < w.conn.suspendedTo
  tv : w.tv = if w.conn.suspended then tv.shorten (w.conn.suspendedTo - e.timeofday.ms) else tv

theorem trySuspend_held (hq : w.conn.suspended = false) : Held e w.tv (trySuspend e w) := by
  have stands {c : SocksConnection} (hc : c.suspended = false) :
      Held e w.tv { w with conn := c } := by
    refine ⟨fun h => ?_, ?_⟩
    · rw [show c.suspended = true from h] at hc
      cases hc
    · rw [if_neg (by rw [hc]; exact Bool.false_ne_true)]
  unfold trySuspend
  dsimp only
  split
  · exact stands hq
  · split
    · exact stands hq
    · split
      · exact stands hq
      · next hd => exact ⟨fun _ => Nat.lt_of_not_le hd, rfl⟩

theorem tryActivate_held (hq : w.conn.suspended = true) : Held e w.tv (tryActivate e w) := by
  unfold tryActivate
  rw [hq]
  split
  · next h => cases h
  · split
    · exact ⟨fun h => (by cases h), rfl⟩
    · next hd =>
        refine ⟨fun _ => Nat.lt_of_not_le hd, ?_⟩
        rw [if_pos hq]

/-- Before the deadline only the timeout changes. -/
theorem tryActivate_early (hs : w.conn.suspended = true)
    (hd : e.timeofday.ms < w.conn.suspendedTo) :
    tryActivate e w = { w with tv := w.tv.shorten (w.conn.suspendedTo - e.timeofday.ms) } := by
  unfold tryActivate
  rw [if_neg (by rw [hs]; exact Bool.false_ne_true), if_neg (Nat.not_le_of_lt hd)]

/-- From the deadline on the connection is active again. -/
theorem tryActivate_due (hs : w.conn.suspended = true) (hd : w.conn.suspendedTo ≤ e.timeofday.ms) :
    tryActivate e w =
      { w with
        conn := { w.conn with suspended := false }
        select :=
          let set := w.conn.suspendedDescriptorsSet
          addWriteIf set.serverWrite w.conn.server (addReadIf set.serverRead w.conn.server
            (addWriteIf set.clientWrite w.conn.client
              (addReadIf set.clientRead w.conn.client w.select))) } := by
  unfold tryActivate
  rw [if_neg (by rw [hs]; exact Bool.false_ne_true), if_pos hd]
  rfl

/-- `try_suspend` is going to suspend: the deadline is put off, and into the future. -/
def Overdrawn (e : Env) (c : SocksConnection) : Prop :=
  c.shouldTake e ≠ 0 ∧ e.timeofday.ms < c.suspendedTo + c.shouldTake e

/-- **A suspension.** -/
theorem trySuspend_overdrawn (h : Overdrawn e w.conn) :
    trySuspend e w =
      { w with
        conn :=
          { w.conn with
            suspendedTo := w.conn.suspendedTo + w.conn.shouldTake e
            suspended := true
            suspendedBytesPiped := 0
            suspendedDescriptorsSet := registrations w.conn w.select }
        select := takeWrite w.conn.server (takeRead w.conn.server
          (takeWrite w.conn.client (takeRead w.conn.client w.select)))
        tv := w.tv.shorten (w.conn.suspendedTo + w.conn.shouldTake e - e.timeofday.ms) } := by
  obtain ⟨take, future⟩ := h
  have limited : ¬ (getSpeed e w.conn = 0 ∨ w.conn.suspendedBytesPiped = 0) := by
    rintro (hz | hz)
    · exact take (by rw [SocksConnection.shouldTake, hz, shouldTake_zero_right])
    · exact take (by rw [SocksConnection.shouldTake, hz, shouldTake_zero_left])
  unfold trySuspend
  dsimp only
  rw [if_neg limited, if_neg (by exact take), if_neg (by exact Nat.not_le_of_lt future)]
  rfl

/-- `try_suspend` suspends nothing else. -/
theorem overdrawn_of_suspended (hq : w.conn.suspended = false)
    (hs : (trySuspend e w).conn.suspended = true) : Overdrawn e w.conn := by
  have stands {c : SocksConnection} (hc : c.suspended = false) (hs : c.suspended = true) : False :=
    Bool.false_ne_true (hc.symm.trans hs)
  unfold trySuspend at hs
  dsimp only at hs
  split at hs
  · exact (stands hq hs).elim
  · split at hs
    · exact (stands hq hs).elim
    · next take =>
        split at hs
        · exact (stands (c := { w.conn with suspendedTo := e.timeofday.ms }) hq hs).elim
        · next future => exact ⟨take, Nat.lt_of_not_le future⟩

/-! ### A visit -/

/-- A relay that is suspended only waits. -/
theorem work_waits (hst : w.conn.state = .pipeing) (hs : w.conn.suspended = true) :
    work e w = .ok true (tryActivate e w) := by
  rw [work, handler, hst]
  dsimp only
  rw [pipeing_eq, if_pos hs]
  rfl

/-- A relay that is not suspended does its round; if it goes on, `try_suspend` is called on what the
round leaves. -/
theorem work_limits (hst : w.conn.state = .pipeing) (hq : w.conn.suspended = false)
    (hw : work e w = .ok true w') : ∃ u, pipeRound e w = .ok () u ∧ w' = trySuspend e u := by
  obtain ho | ⟨hb, -⟩ := work_relay hst hw
  · rw [pipeing_eq, if_neg (by rw [hq]; exact Bool.false_ne_true)] at ho
    obtain ⟨_, u, round, finish⟩ := Outcome.bind_eq_ok.mp ho
    refine ⟨u, round, ?_⟩
    revert finish
    refine pipeFinish_cases e u (fun _ _ _ h => ?_) (fun _ h => ?_) fun _ _ h => ?_
    · cases h
    · cases h
    · exact (Outcome.ok.inj h).2.symm
  · cases hb

/-- What a visit leaves of the clocks of `w₀`. -/
structure Clocks (e : Env) (w₀ : World) (b : Bool) (w : World) : Prop where
  later : b = true → w.conn.suspended = true → e.timeofday.ms < w.conn.suspendedTo
  tv : w.tv = if b && w.conn.suspended then
    w₀.tv.shorten (w.conn.suspendedTo - e.timeofday.ms) else w₀.tv
  handshake : w₀.conn.state ≠ .pipeing → w.conn.lastActive = w₀.conn.lastActive
  moved : w₀.conn.state = .pipeing → Stirred w.trace → w.conn.lastActive = e.time
  still : w₀.conn.state = .pipeing → ¬ Stirred w.trace → w.conn.lastActive = w₀.conn.lastActive

/-- A relay that ends leaves the timeout. -/
theorem Stirs.ended (h : Stirs e w₀ w) (hst : w₀.conn.state = .pipeing) :
    Clocks e w₀ false w where
  later := fun hb => by cases hb
  tv := h.tv
  handshake := fun hn => absurd hst hn
  moved := fun _ => h.moved
  still := fun _ => h.still

/-- The limiter has the last word, and it moves nothing. -/
theorem Stirs.finished (h : Stirs e w₀ w) (hst : w₀.conn.state = .pipeing)
    (hh : Held e w.tv w') (ht : w'.trace = w.trace)
    (hl : w'.conn.lastActive = w.conn.lastActive) : Clocks e w₀ true w' where
  later := fun _ => hh.later
  tv := by rw [hh.tv, h.tv]; rfl
  handshake := fun hn => absurd hst hn
  moved := fun _ hm => hl.trans (h.moved (ht ▸ hm))
  still := fun _ hm => hl.trans (h.still (ht ▸ hm))

theorem pipeFinish_ne_thrown (u : World) : pipeFinish e w ≠ .thrown u :=
  pipeFinish_cases e w (fun _ _ _ => nofun) (fun _ => nofun) fun _ _ => nofun

theorem pipeFinish_clocks {b : Bool} (h : Stirs e w₀ w) (hst : w₀.conn.state = .pipeing)
    (hq : w₀.conn.suspended = false) (hw : pipeFinish e w = .ok b w') : Clocks e w₀ b w' := by
  have ends : Stirs e w₀ (w.onSelect w.conn.clearSelect) := h.congr rfl rfl rfl Iff.rfl
  revert hw
  refine pipeFinish_cases e w (fun _ _ _ hw => ?_) (fun _ hw => ?_) fun _ _ hw => ?_
  · obtain ⟨rfl, rfl⟩ := Outcome.ok.inj hw
    exact ends.ended hst
  · obtain ⟨rfl, rfl⟩ := Outcome.ok.inj hw
    exact ends.ended hst
  · obtain ⟨rfl, rfl⟩ := Outcome.ok.inj hw
    exact h.finished hst (trySuspend_held (h.suspended.trans hq)) trySuspend_same.trace
      trySuspend_lastActive

/-- **A visit**, to a connection that is not suspended before it relays. -/
theorem work_clocks {b : Bool} (ht : w.trace = [])
    (hq : w.conn.state ≠ .pipeing → w.conn.suspended = false) (hw : work e w = .ok b w') :
    Clocks e w b w' := by
  by_cases hst : w.conn.state = .pipeing
  · cases hs : w.conn.suspended with
    | true =>
        rw [work_waits hst hs] at hw
        obtain ⟨rfl, rfl⟩ := Outcome.ok.inj hw
        exact (Stirs.start ht).finished hst (tryActivate_held hs) tryActivate_same.trace
          tryActivate_lastActive
    | false =>
        have round := pipeRound_stirs (e := e) ht
        have step := pipeing_eq e w
        rw [hs, if_neg Bool.false_ne_true] at step
        obtain ho | ⟨rfl, u, ho, rfl⟩ := work_relay hst hw
        · rw [step] at ho
          obtain ⟨_, u, hr, hf⟩ := Outcome.bind_eq_ok.mp ho
          exact pipeFinish_clocks (round.of_ok hr) hst hs hf
        · -- only the round can throw
          rw [step] at ho
          obtain hr | ⟨_, u', -, hf⟩ := Outcome.bind_eq_thrown.mp ho
          · have ends : Stirs e w (u.onSelect u.conn.clearSelect) :=
              (round.of_thrown hr).congr rfl rfl rfl Iff.rfl
            exact ends.ended hst
          · exact absurd hf (pipeFinish_ne_thrown u)
  · have untimed : Untimed w w' := (work_untimed hst).of_ok hw
    have quiet : w'.conn.suspended = false := untimed.suspended.trans (hq hst)
    refine ⟨fun _ hs => ?_, ?_, fun _ => untimed.lastActive, fun h => absurd h hst,
      fun h => absurd h hst⟩
    · rw [quiet] at hs
      cases hs
    · rw [quiet, Bool.and_false, if_neg Bool.false_ne_true]
      exact untimed.tv

end

/-- In `v` the relay does its round and goes on, and `u` is what `try_suspend` is called on. -/
structure Visit.Limits (v : Visit) (u : World) : Prop where
  relays : v.before.conn.state = .pipeing
  awake : v.before.conn.suspended = false
  alive : v.alive = true
  round : pipeRound v.input.env (v.before.enter v.input) = .ok () u

theorem Visit.Limits.after {v : Visit} {u : World} (h : v.Limits u)
    (hw : work v.input.env (v.before.enter v.input) = .ok v.alive v.after) :
    v.after = trySuspend v.input.env u := by
  rw [h.alive] at hw
  obtain ⟨u', round, after⟩ := work_limits (w := v.before.enter v.input) h.relays h.awake hw
  obtain ⟨-, rfl⟩ := Outcome.ok.inj (h.round.symm.trans round)
  exact after

end OldStuff.Socks
