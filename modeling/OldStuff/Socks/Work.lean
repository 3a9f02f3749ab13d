import OldStuff.Socks.Handshake
import OldStuff.Socks.Relay

/-!
# Socks — `work`, and the runs of one connection

`work` dispatches on the state and turns every exception into the end of the connection.

A run of a connection is a sequence of visits.  Between two visits everything but the connection
itself may change: the select object (other connections edit it and `::select` refills its sets),
the timeout, the status map and the supply of identities are part of a visit's `Input`.  The run
goes on while `work` returns true.
-/

namespace OldStuff.Socks
open OldStuff.Io
open OldStuff.Lib (Outcome)

/-- The `switch` of `work`. -/
def handler (e : Env) (w : World) : Outcome World Bool :=
  match w.conn.state with
  | .readingInitialRequest => readingInitialRequest e w
  | .socks4ConnectingServer => socks4ConnectingServer e w
  | .writingResponseSuccess => writingResponseSuccess e w
  | .writingResponseFailure => writingResponseFailure e w
  | .socks5WritingAuthResponseSuccess => socks5WritingAuthResponseSuccess e w
  | .socks5ConnectingServer => socks5ConnectingServer e w
  | .socks5ReadingRequest => socks5ReadingRequest e w
  | .socks4WaitingConnection => socks4WaitingConnection e w
  | .socks5WaitingConnection => socks5WaitingConnection e w
  | .socks4WritingBindResponse => socks4WritingBindResponse e w
  | .socks5WritingBindResponse => socks5WritingBindResponse e w
  | .pipeing => pipeing e w

/-- `work`. -/
def work (e : Env) (w : World) : Outcome World Bool :=
  (handler e w).recover fun w => .ok false (w.onSelect w.conn.clearSelect)

/-- A visit to a relay is a call of `pipeing`; an exception ends the relay. -/
theorem work_relay {e : Env} {w w' : World} {b : Bool} (hst : w.conn.state = .pipeing)
    (hw : work e w = .ok b w') : pipeing e w = .ok b w' ∨
      b = false ∧ ∃ u, pipeing e w = .thrown u ∧ w' = u.onSelect u.conn.clearSelect := by
  rw [work, handler, hst] at hw
  rcases Outcome.recover_eq_ok.mp hw with ho | ⟨u, ho, hu⟩
  · exact .inl ho
  · obtain ⟨rfl, rfl⟩ := Outcome.ok.inj hu
    exact .inr ⟨rfl, u, ho, rfl⟩

/-- `has_expired`, at the time `now`. -/
def hasExpired (cfg : Config) (now : Int) (w : World) : Bool × World :=
  if w.conn.lastActive + cfg.pipeTimeout < now then (true, w.onSelect w.conn.clearSelect)
  else (false, w)

/-- The destructor. -/
def destroy (w : World) : World :=
  { w with
    status := w.status.erase w.self
    trace := w.trace ++ w.conn.owned.map .closed }

/-! ### Runs -/

/-- What a visit finds: the results of its calls, and what the rest of the server left in the
objects it shares. -/
structure Input where
  env : Env
  select : Select
  tv : Timeval
  status : Status
  nextId : Nat

/-- The world in which `work` is called. -/
def World.enter (i : Input) (w : World) : World :=
  { w with select := i.select, tv := i.tv, status := i.status, nextId := i.nextId, trace := [] }

/-- One call of `work`: the world it was called in, its result, the world it left. -/
structure Visit where
  input : Input
  before : World
  alive : Bool
  after : World

/-- `Run w₀ vs b w`: the visits `vs` lead from `w₀` to `w`, the last `work` having returned `b`. -/
inductive Run (w₀ : World) : List Visit → Bool → World → Prop where
  | start : Run w₀ [] true w₀
  | step {vs : List Visit} {w w' : World} {b : Bool} (i : Input) (h : Run w₀ vs true w)
      (hw : work i.env (w.enter i) = .ok b w') : Run w₀ (vs ++ [⟨i, w, b, w'⟩]) b w'

/-- What the visits did, in order. -/
def events (vs : List Visit) : List Event := vs.flatMap fun v => v.after.trace

@[simp] theorem events_nil : events [] = [] := rfl

@[simp] theorem events_append (vs us : List Visit) : events (vs ++ us) = events vs ++ events us :=
  List.flatMap_append

@[simp] theorem events_singleton (v : Visit) : events [v] = v.after.trace := List.append_nil _

/-- A world around a new connection, whose client `main` has registered; the first visit brings the
rest. -/
def World.fresh (self : Nat) (client : FileDescriptor) (time : Int) : World where
  self := self
  conn := .new client time
  select := Select.empty.addRead (some client)
  tv := ⟨0, 0⟩
  status := ∅
  nextId := client.id + 1
  trace := []

/-- The events of a run whose visits so far did `past` and whose present one has got to `w`. -/
def World.log (past : List Event) (w : World) : List Event := past ++ w.trace

section
variable (past : List Event) (w : World)

@[simp] theorem World.log_onConn (f : SocksConnection → SocksConnection) :
    (w.onConn f).log past = w.log past := rfl
@[simp] theorem World.log_onSelect (g : Select → Select) :
    (w.onSelect g).log past = w.log past := rfl
@[simp] theorem World.log_take : w.take.log past = w.log past := rfl
@[simp] theorem World.log_emit (ev : Event) : (w.emit ev).log past = w.log past ++ [ev] :=
  (List.append_assoc ..).symm

end

/-- `o` leaves `P` of its result, of the events and of the connection; an exception counts as the
result false, which is what `work` makes of it. -/
def Keeps (P : Bool → List Event → SocksConnection → Prop) (past : List Event)
    (o : Outcome World Bool) : Prop :=
  o.Sat (fun b w => P b (w.log past) w.conn) (fun w => P false (w.log past) w.conn)

namespace Run

theorem trans {w₀ w w' : World} {vs us : List Visit} {b : Bool} (h : Run w₀ vs true w)
    (t : Run w us b w') : Run w₀ (vs ++ us) b w' := by
  induction t with
  | start => rwa [List.append_nil]
  | step i _ hw ih => rw [← List.append_assoc]; exact .step i ih hw

theorem cons {w₀ w w' : World} {us : List Visit} {b : Bool} (t : Run w us b w') (i : Input)
    (hw : work i.env (w₀.enter i) = .ok true w) :
    Run w₀ (⟨i, w₀, true, w⟩ :: us) b w' :=
  (Run.step i .start hw).trans t

/-- A run up to one of its visits, and the visit. -/
theorem split {w₀ w : World} {us vs ts : List Visit} {v : Visit} {b : Bool} (h : Run w₀ us b w)
    (hv : us = vs ++ v :: ts) : Run w₀ vs true v.before ∧
      work v.input.env (v.before.enter v.input) = .ok v.alive v.after := by
  induction h generalizing ts with
  | start => simp at hv
  | step i h hw ih =>
      rcases List.eq_nil_or_concat ts with rfl | ⟨ts, u, rfl⟩
      · obtain ⟨rfl, he⟩ := List.append_inj' hv rfl
        obtain rfl := List.singleton_inj.mp he
        exact ⟨h, hw⟩
      · rw [List.concat_eq_append, ← List.cons_append, ← List.append_assoc] at hv
        exact ih (List.append_inj' hv rfl).1

/-- A run up to one of its visits, the visit included. -/
theorem upto {w₀ w : World} {us vs ts : List Visit} {v : Visit} {b : Bool} (h : Run w₀ us b w)
    (hv : us = vs ++ v :: ts) : Run w₀ (vs ++ [v]) v.alive v.after :=
  .step v.input (h.split hv).1 (h.split hv).2

/-- A connection goes on to be visited only while it lives. -/
theorem alive {w₀ w : World} {vs : List Visit} {b : Bool} (h : Run w₀ vs b w) (hb : b = true) :
    ∀ v ∈ vs, v.alive = true := by
  induction h with
  | start => exact fun _ hv => absurd hv List.not_mem_nil
  | step i _ _ ih =>
      intro v hv
      rcases List.mem_append.mp hv with hv | hv
      · exact ih rfl v hv
      · obtain rfl := List.mem_singleton.mp hv
        exact hb

/-- The visits after one that `work` survived are a run from there. -/
theorem rest {w₀ w : World} {us vs ts : List Visit} {v : Visit} {b : Bool} (h : Run w₀ us b w)
    (hv : us = vs ++ v :: ts) (ha : v.alive = true) : Run v.after ts b w := by
  induction h generalizing ts with
  | start => simp at hv
  | step i h hw ih =>
      rcases List.eq_nil_or_concat ts with rfl | ⟨ts, u, rfl⟩
      · obtain ⟨-, he⟩ := List.append_inj' hv rfl
        obtain rfl := List.singleton_inj.mp he
        obtain rfl := ha
        exact .start
      · rw [List.concat_eq_append, ← List.cons_append, ← List.append_assoc] at hv
        obtain ⟨hv, he⟩ := List.append_inj' hv rfl
        rw [List.concat_eq_append, ← he]
        exact .step i (ih hv) hw

/-- Every visit of a run was reached by a run, and is a call of `work`. -/
theorem visit {w₀ w : World} {vs : List Visit} {b : Bool} (h : Run w₀ vs b w) {v : Visit}
    (hv : v ∈ vs) : ∃ us ts, vs = us ++ v :: ts ∧ Run w₀ us true v.before ∧
      work v.input.env (v.before.enter v.input) = .ok v.alive v.after := by
  obtain ⟨us, ts, he⟩ := List.append_of_mem hv
  exact ⟨us, ts, he, h.split he⟩

/-- **The induction over a run.**  A property of the last result, of the events so far and of the
connection that holds at the start, and that every call of `work` on a connection that lives
carries on, holds after every visit.  `Q` is what the visits are known to have in common. -/
theorem invariant_of {P : Bool → List Event → SocksConnection → Prop} {Q : Visit → Prop}
    {w₀ w : World} {vs : List Visit} {b : Bool} (h : Run w₀ vs b w) (hq : ∀ v ∈ vs, Q v)
    (h₀ : P true [] w₀.conn)
    (hs : ∀ (i : Input) (w : World) (past : List Event) (b : Bool) (w' : World),
      work i.env (w.enter i) = .ok b w' → Q ⟨i, w, b, w'⟩ → P true past w.conn →
      Keeps P past (work i.env (w.enter i))) : P b (events vs) w.conn := by
  induction h with
  | start => exact h₀
  | step i _ hw ih =>
      rw [events_append, events_singleton]
      have h := ih fun v hv => hq v (List.mem_append_left _ hv)
      have last := hq _ (List.mem_append_right _ (List.mem_singleton_self _))
      exact (hs i _ _ _ _ hw last h).of_ok hw

theorem invariant {P : Bool → List Event → SocksConnection → Prop} {w₀ w : World}
    {vs : List Visit} {b : Bool} (h : Run w₀ vs b w) (h₀ : P true [] w₀.conn)
    (hs : ∀ (e : Env) (w : World) (past : List Event), P true (w.log past) w.conn →
      Keeps P past (work e w)) : P b (events vs) w.conn :=
  h.invariant_of (Q := fun _ => True) (fun _ _ => trivial) h₀ fun i w past _ _ _ _ hp =>
    hs i.env (w.enter i) past (by rwa [World.log, World.enter, List.append_nil])

end Run

/-- The run that the given inputs lead to, each of which may depend on the world it finds; it ends
early when the connection does. -/
def play (w : World) : List (World → Input) → List Visit × Bool × World
  | [] => ([], true, w)
  | i :: is =>
    match work (i w).env (w.enter (i w)) with
    | .ok true w' => (⟨i w, w, true, w'⟩ :: (play w' is).1, (play w' is).2)
    | .ok false w' => ([⟨i w, w, false, w'⟩], false, w')
    | _ => ([], true, w)

theorem run_play (w : World) (is : List (World → Input)) :
    Run w (play w is).1 (play w is).2.1 (play w is).2.2 := by
  induction is generalizing w with
  | nil => exact .start
  | cons i is ih =>
      unfold play
      split
      · next w' hw => exact (ih w').cons (i w) hw
      · next w' hw => exact .step (i w) .start hw
      · exact .start

theorem Run.of_play {w : World} {is : List (World → Input)} {b : Bool} (h : (play w is).2.1 = b) :
    Run w (play w is).1 b (play w is).2.2 :=
  h ▸ run_play w is

/-- A handler that keeps `P` makes `work` keep it. -/
theorem keeps_work {P : Bool → List Event → SocksConnection → Prop} {past : List Event} {e : Env}
    {w : World} (h : Keeps P past (handler e w)) : Keeps P past (work e w) :=
  h.recover fun _ h => h

end OldStuff.Socks
