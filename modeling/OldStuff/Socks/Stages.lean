import OldStuff.Socks.Course

/-!
# Socks — a run from the arrival of the client to its end

A run has two parts, the handshake and the relay, and every connection that relays has been
through its handshake.  `Run.staged` says so of every run; `Entry` names the moment between the
parts, and what the relay is proved to do (`relay_integrity`) it does from there.
-/

namespace OldStuff.Socks
open OldStuff.Io
open OldStuff.Lib (Outcome)

/-! ### The moment `PIPEING` is entered -/

/-- A run from the arrival of a client to `w₀`, its first world in `PIPEING`. -/
structure Entry (vs : List Visit) (w₀ : World) : Prop where
  run : ∃ self client time, Run (World.fresh self client time) vs true w₀
  state : w₀.conn.state = .pipeing
  first : ∀ v ∈ vs, v.before.conn.state ≠ .pipeing

section
variable {vs us : List Visit} {w₀ w : World} {b : Bool}

/-- The relay starts where the handshake ends. -/
theorem Entry.handshaken (h : Entry vs w₀) : Handshaken true (events vs) w₀.conn := by
  obtain ⟨self, client, time, hr⟩ := h.run
  exact hr.invariant_of (P := Handshaken) h.first (handshaken_new client time)
    fun i w past _ _ _ hq hp => work_handshaken hq
      (by rwa [World.log, World.enter, List.append_nil])

/-- A connection that enters `PIPEING` has nothing in its buffers. -/
theorem Handshaken.relaying {es : List Event} {c : SocksConnection} (h : Handshaken true es c)
    (hst : c.state = .pipeing) : Relaying [] c where
  state := hst
  balanced := fun s => by
    cases s with
    | client => exact h.quiet.serverWriteBuff.symm
    | server => exact (h.idle (by rw [hst]; rfl)).symm
  relays := nofun

/-- **Relay integrity.**  After every step since `PIPEING` was entered, what was read from an end
is what was written to the other, followed by what waits for it. -/
theorem relay_integrity (he : Entry vs w₀) (h : Run w₀ us b w) :
    readFrom .client (events us) = wroteTo .server (events us) ++ w.conn.serverWriteBuff ∧
      readFrom .server (events us) = wroteTo .client (events us) ++ w.conn.clientWriteBuff := by
  have relaying := h.relaying (he.handshaken.relaying he.state)
  exact ⟨relaying.balanced .client, relaying.balanced .server⟩

end

/-! ### The two parts of a run -/

/-- A connection in its handshake after `es`, or one that relays. -/
inductive Staged (alive : Bool) : List Event → SocksConnection → Prop where
  | handshake {es : List Event} {c : SocksConnection} (h : Handshaken alive es c) :
      Staged alive es c
  | relay {es fs : List Event} {c₀ c : SocksConnection} (h₀ : Handshaken true es c₀)
      (hs : c₀.state = .pipeing) (h : Relaying fs c) : Staged alive (es ++ fs) c

section
variable {past es : List Event} {e : Env} {w : World} {c : SocksConnection} {alive : Bool}

theorem work_staged (ht : w.trace = []) (h : Staged true past w.conn) :
    Keeps Staged past (work e w) := by
  have relay {es fs : List Event} {c₀ : SocksConnection} (h₀ : Handshaken true es c₀)
      (hs : c₀.state = .pipeing) (h : Relaying fs w.conn) : Keeps Staged (es ++ fs) (work e w) := by
    have relaying : Relaying (w.log fs) w.conn := by rwa [World.log, ht, List.append_nil]
    refine (work_relaying relaying).mono (fun _ w' h' => ?_) fun w' h' => ?_
    · rw [World.log, List.append_assoc]
      exact .relay h₀ hs h'
    · rw [World.log, List.append_assoc]
      exact .relay h₀ hs h'
  cases h with
  | handshake h =>
      by_cases hst : w.conn.state = .pipeing
      · have := relay h hst (h.relaying hst)
        rwa [List.append_nil] at this
      · have handshaken : Handshaken true (w.log past) w.conn := by
          rwa [World.log, ht, List.append_nil]
        exact (work_handshaken hst handshaken).mono (fun _ _ => .handshake) fun _ => .handshake
  | relay h₀ hs h => exact relay h₀ hs h

/-- **Every run** is a handshake, or a handshake that entered `PIPEING` and then a relay. -/
theorem Run.staged {self : Nat} {client : FileDescriptor} {time : Int} {vs : List Visit}
    (h : Run (World.fresh self client time) vs alive w) : Staged alive (events vs) w.conn :=
  h.invariant_of (P := Staged) (Q := fun _ => True) (fun _ _ => trivial)
    (.handshake (handshaken_new client time)) fun _ _ _ _ _ _ _ hp => work_staged rfl hp

namespace Staged

theorem milestones_relays {es : List Event} (h : ∀ ev ∈ es, ev.relays = true) :
    milestones es = [] := by
  refine List.filter_eq_nil_iff.mpr fun ev hev => ?_
  have := h ev hev
  cases ev <;> first | exact Bool.false_ne_true | cases this

theorem queuedBytes_relays {es : List Event} (h : ∀ ev ∈ es, ev.relays = true) :
    queuedBytes es = [] := by
  refine List.flatMap_eq_nil_iff.mpr fun ev hev => ?_
  have := h ev hev
  cases ev <;> first | rfl | cases this

/-- Before it relays, a connection is in its handshake. -/
theorem handshaken (h : Staged alive es c) (hst : c.state ≠ .pipeing) : Handshaken alive es c := by
  cases h with
  | handshake h => exact h
  | relay _ _ h => exact absurd h.state hst

theorem relays (h : Staged true es c) (hst : c.state = .pipeing) : ∃ fs, Relaying fs c := by
  cases h with
  | handshake h => exact ⟨_, h.relaying hst⟩
  | relay _ _ h => exact ⟨_, h⟩

end Staged

/-- A connection that lives is not suspended before it relays. -/
theorem Run.quiet {self : Nat} {client : FileDescriptor} {time : Int} {vs : List Visit}
    (h : Run (World.fresh self client time) vs true w) (hst : w.conn.state ≠ .pipeing) :
    w.conn.suspended = false :=
  (h.staged.handshaken hst).quiet.suspended

/-- A relay stays one. -/
theorem Run.stays {self : Nat} {client : FileDescriptor} {time : Int} {vs : List Visit}
    {i : Input} {w' : World} (h : Run (World.fresh self client time) vs true w)
    (hw : work i.env (w.enter i) = .ok alive w') (hst : w.conn.state = .pipeing) :
    w'.conn.state = .pipeing := by
  obtain ⟨fs, relaying⟩ := h.staged.relays hst
  exact (visit_relaying hw relaying).state

namespace Staged

/-- The decisions taken are those that lead to the state. -/
theorem course (h : Staged alive es c) : Course c.state (milestones es) := by
  cases h with
  | handshake h => exact h.course
  | relay h₀ hs h =>
      rw [milestones_append, milestones_relays h.relays, List.append_nil, h.state, ← hs]
      exact h₀.course

/-- What the client was sent and what waits for it are the replies queued, and behind them what
the server sent. -/
theorem sent (h : Staged alive es c) :
    wroteTo .client es ++ c.clientWriteBuff = queuedBytes es ++ readFrom .server es := by
  cases h with
  | handshake h => rw [h.fromServer, List.append_nil]; exact h.sent
  | relay h₀ hs h =>
      have settled := h₀.settled (by rw [hs]; rfl) (by rw [hs]; rfl)
      have balanced := h.balanced .server
      simp only [Side.other, SocksConnection.pending, Lib.Conserved] at balanced
      simp only [wroteTo_append, queuedBytes_append, readFrom_append, settled.sent,
        settled.fromServer, queuedBytes_relays h.relays, balanced, List.append_assoc,
        List.append_nil, List.nil_append]

/-- Nothing comes from the server before the replies are written. -/
theorem replied (h : Staged alive es c) (hne : readFrom .server es ≠ []) :
    queuedBytes es <+: wroteTo .client es := by
  cases h with
  | handshake h => exact absurd h.fromServer hne
  | relay h₀ hs h =>
      have settled := h₀.settled (by rw [hs]; rfl) (by rw [hs]; rfl)
      rw [queuedBytes_append, queuedBytes_relays h.relays, List.append_nil, wroteTo_append,
        ← settled.sent]
      exact List.prefix_append _ _

/-- In a writing state of a connection that lives something is left to write. -/
theorem busy (h : Staged true es c) (hi : c.state.idle = false) : c.clientWriteBuff ≠ [] := by
  cases h with
  | handshake h => exact h.busy rfl hi
  | relay _ _ h => rw [h.state] at hi; cases hi

/-- A throw of the access check ends the connection where it stood. -/
theorem denied (h : Staged alive es c) (hd : .asked none ∈ es) :
    alive = false ∧ c.state.reading = true := by
  cases h with
  | handshake h => exact h.denied hd
  | relay h₀ _ h =>
      rcases List.mem_append.mp hd with hd | hd
      · exact absurd hd h₀.undenied
      · cases h.relays _ hd

end Staged

end

/-! ### A run from end to end -/

namespace Sample

/-- A machine with little-endian integers of eight bytes, and a configuration that admits every
address. -/
def env : Env where
  abi := .littleEndian
  config := { acceptFrom := ["."] }
  regcomp := fun _ => some fun _ => true
  timeofday := ⟨1000000000, 0⟩

/-- A visit that finds these numbers ready, and the rest of the server as the last visit left it. -/
def visit (readSet writeSet : List Nat) (env : Env) (w : World) : Input where
  env := env
  select := { w.select with readSet, writeSet }
  tv := ⟨10, 0⟩
  status := w.status
  nextId := w.nextId

/-- The client: descriptor 7. -/
def client : FileDescriptor := ⟨0, 7, ⟨0, 0⟩⟩

/-- A request to connect, granted at once, and the reply to it. -/
def connect (request : Chunk) : List (World → Input) :=
  [visit [7] []
      { env with
        read := fun _ => .data request
        newSocket := some 8
        tryConnect := .connected },
    visit [] [7] { env with write := fun _ => .wrote 8 }]

/-- A request of version 4 to connect to port 80 of 10.0.0.1. -/
def request : Chunk := ⟨[4, 1, 0, 80, 10, 0, 0, 1, 0], nofun, by decide⟩

/-- A request of version 4 for a connection from 10.0.0.1. -/
def bindRequest : Chunk := ⟨[4, 2, 0, 80, 10, 0, 0, 1, 0], nofun, by decide⟩

def threeBytes : Chunk := ⟨[1, 2, 3], nofun, by decide⟩

/-- Three bytes from the client and two from the server, of which two and one get through. -/
def relay : List (World → Input) :=
  [visit [7] [] { env with read := fun _ => .data threeBytes },
    visit [8] [7, 8]
      { env with read := fun _ => .data ⟨[4, 5], nofun, by decide⟩, write := fun
        | .client => .wrote 1
        | .server => .wrote 2 }]

def handshake (request : Chunk) : List Visit × Bool × World :=
  play (.fresh 0 client 0) (connect request)

theorem entry : Entry (handshake request).1 (handshake request).2.2 where
  run := ⟨0, client, 0, run_play _ _⟩
  state := rfl
  first := by decide

end Sample

theorem relay_integrity_sample :
    let r := play (Sample.handshake Sample.request).2.2 Sample.relay
    readFrom .client (events r.1) = [1, 2, 3] ∧ r.2.2.conn.serverWriteBuff = [3] ∧
      readFrom .client (events r.1) = wroteTo .server (events r.1) ++ r.2.2.conn.serverWriteBuff ∧
      readFrom .server (events r.1) = wroteTo .client (events r.1) ++ r.2.2.conn.clientWriteBuff :=
  ⟨by decide, by decide, relay_integrity Sample.entry (run_play _ _)⟩

end OldStuff.Socks
