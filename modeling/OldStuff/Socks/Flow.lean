import OldStuff.Lib.Fifo
import OldStuff.Socks.Work

/-!
# Socks — the relay keeps the bytes

Two queues share one step function: what the client sends waits in `server_write_buff`, what the
server sends waits in `client_write_buff`.  `Balanced` says of both that they conserve their
stream.  Every block of `pipeing` keeps it (`pipeRead_relaying`, `pipeWrite_relaying`), so
`pipeing` does, whether it goes on, ends or throws, and whatever the limiter does in between.
-/

namespace OldStuff.Socks
open OldStuff.Io
open OldStuff.Lib (Outcome Conserved)

/-! ### The streams of a run -/

def Event.readFrom (s : Side) : Event → Bytes
  | .read t bs => if t = s then bs else []
  | _ => []

def Event.wroteTo (s : Side) : Event → Bytes
  | .wrote t bs => if t = s then bs else []
  | _ => []

/-- The bytes read from an end. -/
def readFrom (s : Side) (es : List Event) : Bytes := es.flatMap (Event.readFrom s)

/-- The bytes written to an end. -/
def wroteTo (s : Side) (es : List Event) : Bytes := es.flatMap (Event.wroteTo s)

section
variable (s : Side) (es fs : List Event) (ev : Event)

@[simp] theorem readFrom_nil : readFrom s [] = [] := rfl
@[simp] theorem wroteTo_nil : wroteTo s [] = [] := rfl
@[simp] theorem readFrom_append : readFrom s (es ++ fs) = readFrom s es ++ readFrom s fs :=
  List.flatMap_append
@[simp] theorem wroteTo_append : wroteTo s (es ++ fs) = wroteTo s es ++ wroteTo s fs :=
  List.flatMap_append
@[simp] theorem readFrom_cons : readFrom s (ev :: es) = ev.readFrom s ++ readFrom s es := rfl
@[simp] theorem wroteTo_cons : wroteTo s (ev :: es) = ev.wroteTo s ++ wroteTo s es := rfl

end

@[simp] theorem Side.other_other (s : Side) : s.other.other = s := by cases s <;> rfl
@[simp] theorem Side.other_ne (s : Side) : s.other ≠ s := by cases s <;> nofun
@[simp] theorem Side.ne_other (s : Side) : s ≠ s.other := by cases s <;> nofun

theorem Side.eq_or_eq_other (s t : Side) : t = s ∨ t = s.other := by
  cases s <;> cases t <;> simp [Side.other]

namespace SocksConnection
variable (s t : Side) (c : SocksConnection) (bs : Bytes) (p : Pointer) (time : Int) (n : Nat)

@[simp] theorem pending_setPending :
    (c.setPending s bs).pending t = if t = s then bs else c.pending t := by
  cases s <;> cases t <;> rfl
@[simp] theorem pending_setEndpoint : (c.setEndpoint s p).pending t = c.pending t := by
  cases s <;> cases t <;> rfl
@[simp] theorem pending_touch : (c.touch time).pending t = c.pending t := by cases t <;> rfl
@[simp] theorem pending_addPiped : (c.addPiped n).pending t = c.pending t := by cases t <;> rfl
@[simp] theorem endpoint_setPending : (c.setPending s bs).endpoint t = c.endpoint t := by
  cases s <;> cases t <;> rfl
@[simp] theorem endpoint_setEndpoint :
    (c.setEndpoint s p).endpoint t = if t = s then p else c.endpoint t := by
  cases s <;> cases t <;> rfl
@[simp] theorem endpoint_touch : (c.touch time).endpoint t = c.endpoint t := by cases t <;> rfl
@[simp] theorem endpoint_addPiped : (c.addPiped n).endpoint t = c.endpoint t := by
  cases t <;> rfl
@[simp] theorem state_setPending : (c.setPending s bs).state = c.state := by cases s <;> rfl
@[simp] theorem state_setEndpoint : (c.setEndpoint s p).state = c.state := by cases s <;> rfl
@[simp] theorem suspended_setPending : (c.setPending s bs).suspended = c.suspended := by
  cases s <;> rfl
@[simp] theorem suspended_setEndpoint : (c.setEndpoint s p).suspended = c.suspended := by
  cases s <;> rfl
@[simp] theorem clientReadBuff_setPending :
    (c.setPending s bs).clientReadBuff = c.clientReadBuff := by cases s <;> rfl
@[simp] theorem clientReadBuff_setEndpoint :
    (c.setEndpoint s p).clientReadBuff = c.clientReadBuff := by cases s <;> rfl
@[simp] theorem serverReadBuff_setPending :
    (c.setPending s bs).serverReadBuff = c.serverReadBuff := by cases s <;> rfl
@[simp] theorem serverReadBuff_setEndpoint :
    (c.setEndpoint s p).serverReadBuff = c.serverReadBuff := by cases s <;> rfl
@[simp] theorem listen_setPending : (c.setPending s bs).listen = c.listen := by cases s <;> rfl
@[simp] theorem listen_setEndpoint : (c.setEndpoint s p).listen = c.listen := by cases s <;> rfl

end SocksConnection

/-- Both queues conserve their stream: what was read from an end and not yet written to the other
waits for the other, in order. -/
def Balanced (es : List Event) (c : SocksConnection) : Prop :=
  ∀ s, Conserved (readFrom s es) (wroteTo (Side.other s) es) (c.pending s.other)

/-- What the relay does that can be seen. -/
def Event.relays : Event → Bool
  | .read .. | .eof _ | .wrote .. | .closed _ => true
  | _ => false

/-- A relay that has done `es` since it started. -/
structure Relaying (es : List Event) (c : SocksConnection) : Prop where
  state : c.state = .pipeing
  balanced : Balanced es c
  relays : ∀ ev ∈ es, ev.relays = true

/-! ### The blocks -/

section
variable {past : List Event} {e : Env} {w : World}

/-- An event that moves no byte. -/
theorem Relaying.note {es : List Event} {c : SocksConnection} (h : Relaying es c) (ev : Event)
    (hr : ∀ s, ev.readFrom s = []) (hw : ∀ s, ev.wroteTo s = []) (hev : ev.relays = true) :
    Relaying (es ++ [ev]) c where
  state := h.state
  balanced := fun s => by simpa [hr, hw] using h.balanced s
  relays := by simpa [or_imp, forall_and, hev] using h.relays

theorem send_relaying (s : Side) (h : Relaying (w.log past) w.conn) :
    (send s e w).Always fun w' => Relaying (w'.log past) w'.conn := by
  unfold send
  split
  · exact h
  · next n _ =>
      refine ⟨by simpa using h.state, fun t => ?_, ?_⟩
      · obtain rfl | rfl := Side.eq_or_eq_other s.other t
        · simpa [Event.readFrom, Event.wroteTo] using (h.balanced s.other).deliver n
        · simpa [Event.readFrom, Event.wroteTo] using h.balanced s
      · simpa [or_imp, forall_and, Event.relays] using h.relays

theorem pipeRead_relaying (s : Side) (h : Relaying (w.log past) w.conn) :
    (pipeRead s e w).Always fun w' => Relaying (w'.log past) w'.conn := by
  refine pipeRead_cases s e w (fun _ => h) (fun _ _ _ _ => h) (fun _ _ _ _ => h)
    (fun d d' _ _ => ?_) fun d d' chunk _ _ => ?_
  · -- end of file: the buffers stay, also the one that waits for `s`
    obtain ⟨state, balanced, relays⟩ :=
      (h.note (.eof s) (fun _ => rfl) (fun _ => rfl) rfl).note (.closed d)
        (fun _ => rfl) (fun _ => rfl) rfl
    refine ⟨?_, fun t => ?_, ?_⟩
    · simpa [World.delete] using state
    · simpa [World.delete] using balanced t
    · simpa [World.delete] using relays
  · refine ⟨by simpa [updateLastActive, SocksConnection.touch] using h.state, fun t => ?_, ?_⟩
    · obtain rfl | rfl := Side.eq_or_eq_other s t
      · simpa [updateLastActive, Event.readFrom, Event.wroteTo] using
          (h.balanced t).receive chunk.bytes
      · simpa [updateLastActive, Event.readFrom, Event.wroteTo] using h.balanced s.other
    · simpa [updateLastActive, or_imp, forall_and, Event.relays] using h.relays

theorem pipeWrite_relaying (s : Side) (h : Relaying (w.log past) w.conn) :
    (pipeWrite s e w).Always fun w' => Relaying (w'.log past) w'.conn := by
  unfold pipeWrite
  split
  · split
    · refine (send_relaying s h).bind fun n w' h' => ?_
      split
      · obtain ⟨state, balanced, relays⟩ := h'
        exact ⟨state, balanced, relays⟩
      · exact h'
    · exact h
  · exact h

/-- The limiter touches its own fields, the registrations and the timeout. -/
structure SameRelay (w w' : World) : Prop where
  state : w'.conn.state = w.conn.state
  pending : ∀ s, w'.conn.pending s = w.conn.pending s
  endpoint : ∀ s, w'.conn.endpoint s = w.conn.endpoint s
  listen : w'.conn.listen = w.conn.listen
  trace : w'.trace = w.trace

theorem SameRelay.refl (w : World) : SameRelay w w := ⟨rfl, fun _ => rfl, fun _ => rfl, rfl, rfl⟩

theorem tryActivate_same : SameRelay w (tryActivate e w) := by
  unfold tryActivate
  split
  · exact .refl w
  · split
    · exact ⟨rfl, fun s => by cases s <;> rfl, fun s => by cases s <;> rfl, rfl, rfl⟩
    · exact ⟨rfl, fun _ => rfl, fun _ => rfl, rfl, rfl⟩

theorem trySuspend_same : SameRelay w (trySuspend e w) := by
  unfold trySuspend
  dsimp only
  split
  · exact .refl w
  · split
    · exact .refl w
    · split
      · exact ⟨rfl, fun s => by cases s <;> rfl, fun s => by cases s <;> rfl, rfl, rfl⟩
      · exact ⟨rfl, fun s => by cases s <;> rfl, fun s => by cases s <;> rfl, rfl, rfl⟩

theorem Relaying.same {w' : World} (h : Relaying (w.log past) w.conn) (hs : SameRelay w w') :
    Relaying (w'.log past) w'.conn := by
  have hl : w'.log past = w.log past := by rw [World.log, hs.trace, World.log]
  rw [hl]
  exact ⟨hs.state.trans h.state, fun s => by rw [hs.pending]; exact h.balanced s, h.relays⟩

theorem pipeFinish_relaying (h : Relaying (w.log past) w.conn) :
    Keeps (fun _ => Relaying) past (pipeFinish e w) :=
  pipeFinish_cases e w (fun _ _ _ => h) (fun _ => h) fun _ _ => h.same trySuspend_same

/-- **One step of the relay** keeps both streams, whether it goes on, ends or throws. -/
theorem pipeing_relaying (h : Relaying (w.log past) w.conn) :
    Keeps (fun _ => Relaying) past (pipeing e w) := by
  unfold pipeing
  split
  · exact h.same tryActivate_same
  · exact (pipeRead_relaying .client h).bind fun _ _ h =>
      (pipeRead_relaying .server h).bind fun _ _ h =>
      (pipeWrite_relaying .client h).bind fun _ _ h =>
      (pipeWrite_relaying .server h).bind fun _ _ h => pipeFinish_relaying h

theorem work_relaying (h : Relaying (w.log past) w.conn) :
    Keeps (fun _ => Relaying) past (work e w) := by
  refine keeps_work ?_
  simp only [handler, h.state]
  exact pipeing_relaying h

/-- A visit to a relay. -/
theorem visit_relaying {es : List Event} {i : Input} {b : Bool} {w' : World}
    (hw : work i.env (w.enter i) = .ok b w') (h : Relaying es w.conn) :
    Relaying (es ++ w'.trace) w'.conn := by
  have keeps : Keeps (fun _ => Relaying) es (work i.env (w.enter i)) :=
    work_relaying (by rwa [World.log, World.enter, List.append_nil])
  exact keeps.of_ok hw

/-- The relay over any number of visits. -/
theorem Run.relaying {vs : List Visit} {b : Bool} {w' : World} (h : Run w vs b w')
    (h₀ : Relaying [] w.conn) : Relaying (events vs) w'.conn :=
  h.invariant (P := fun _ => Relaying) h₀ fun _ _ _ => work_relaying

end

end OldStuff.Socks
