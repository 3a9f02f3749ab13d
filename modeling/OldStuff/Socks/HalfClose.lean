import OldStuff.Socks.Survivor

/-!
# Socks — a read that returns 0

For `pipeing` the end of a stream is the end of the connection: it deletes the socket that reports
it.  The stream that has ended is still written out; the opposite one stops where it is, since
`pipeing` writes to an end, and reads from the other, only while the end is there.  `half_close`
says what that leaves of both streams.
-/

namespace OldStuff.Socks
open OldStuff.Io
open OldStuff.Lib (Outcome)

/-- What is written to `s` and read from the other end is as in `w₀`, and so is what waits
for `s`. -/
structure Cut (s : Side) (w₀ w : World) : Prop where
  state : w.conn.state = .pipeing
  wrote : wroteTo s w.trace = wroteTo s w₀.trace
  read : readFrom s.other w.trace = readFrom s.other w₀.trace
  pending : w.conn.pending s = w₀.conn.pending s
  gone : w.conn.endpoint s = none

section
variable {e : Env} {w₀ w : World} {s : Side}

theorem Cut.same {w' : World} (h : Cut s w₀ w) (hs : SameRelay w w') : Cut s w₀ w' :=
  ⟨hs.state.trans h.state, by rw [hs.trace, h.wrote], by rw [hs.trace, h.read],
    (hs.pending s).trans h.pending, (hs.endpoint s).trans h.gone⟩

/-- Neither end is read from when one is gone. -/
theorem pipeRead_cut (t : Side) (h : Cut s w₀ w) : (pipeRead t e w).Always (Cut s w₀) := by
  have alone {d d' : FileDescriptor} {P : Prop} (asked : Asked t w d d') : P := by
    have gone := h.gone
    obtain rfl | rfl := Side.eq_or_eq_other t s
    · cases asked.endpoint.symm.trans gone
    · cases asked.other.symm.trans gone
  exact pipeRead_cases t e w (fun _ => h) (fun _ _ asked _ => alone asked)
    (fun _ _ asked _ => alone asked) (fun _ _ asked _ => alone asked)
    fun _ _ _ asked _ => alone asked

/-- What is written goes to the other end. -/
theorem pipeWrite_cut (t : Side) (h : Cut s w₀ w) : (pipeWrite t e w).Always (Cut s w₀) := by
  have sent {d : FileDescriptor} (due : Due t w d) (n : Nat) : Cut s w₀ (w.sent t n) := by
    have other : t ≠ s := fun ht => by
      subst ht
      cases due.endpoint.symm.trans h.gone
    refine ⟨?_, ?_, ?_, ?_, ?_⟩
    · simpa [World.sent] using h.state
    · simpa [World.sent, Event.wroteTo, other] using h.wrote
    · simpa [World.sent, Event.readFrom] using h.read
    · simpa [World.sent, other.symm] using h.pending
    · simpa [World.sent] using h.gone
  refine pipeWrite_cases t e w (fun _ => h) (fun _ _ _ => h) (fun d due _ => sent due 0)
    fun d n due _ _ => ?_
  have := sent due n
  refine ⟨this.state, this.wrote, this.read, ?_, ?_⟩
  · simpa [updateLastActive] using this.pending
  · simpa [updateLastActive] using this.gone

theorem pipeFinish_cut (h : Cut s w₀ w) : (pipeFinish e w).Always (Cut s w₀) := by
  have ended : Cut s w₀ (w.onSelect w.conn.clearSelect) :=
    ⟨h.state, h.wrote, h.read, h.pending, h.gone⟩
  exact pipeFinish_cases e w (fun _ _ _ => ended) (fun _ => ended) fun _ _ =>
    h.same trySuspend_same

/-- **A step of a relay without `s`.** -/
theorem pipeing_cut (h : Cut s w₀ w) : (pipeing e w).Always (Cut s w₀) := by
  unfold pipeing
  split
  · exact h.same tryActivate_same
  · exact (pipeRead_cut .client h).bind fun _ _ h => (pipeRead_cut .server h).bind fun _ _ h =>
      (pipeWrite_cut .client h).bind fun _ _ h => (pipeWrite_cut .server h).bind fun _ w' h =>
        pipeFinish_cut (w := w'.onSelect _) ⟨h.state, h.wrote, h.read, h.pending, h.gone⟩

/-- Nothing has been written to an end that is gone. -/
def Unwritten (s : Side) (w : World) : Prop := w.conn.endpoint s = none → wroteTo s w.trace = []

/-- A read writes nothing. -/
theorem pipeRead_unwritten (t : Side) (h : wroteTo s w.trace = []) :
    (pipeRead t e w).Sat (fun _ w' => wroteTo s w'.trace = []) (Unwritten s) := by
  refine pipeRead_cases t e w (fun _ => h) (fun _ _ _ _ _ => h) (fun _ _ _ _ => h)
    (fun d d' _ _ => ?_) fun d d' chunk _ _ => ?_
  · simpa [World.delete, Event.wroteTo] using h
  · simpa [updateLastActive, Event.wroteTo] using h

theorem pipeWrite_unwritten (t : Side) (h : Unwritten s w) :
    (pipeWrite t e w).Always (Unwritten s) := by
  have sent {d : FileDescriptor} (due : Due t w d) (n : Nat) (hn : w.conn.endpoint s = none) :
      wroteTo s (w.sent t n).trace = [] := by
    have other : t ≠ s := fun ht => by
      subst ht
      cases due.endpoint.symm.trans hn
    simpa [World.sent, Event.wroteTo, other] using h hn
  refine pipeWrite_cases t e w (fun _ => h) (fun _ _ _ => h) (fun d due _ hn => ?_)
    fun d n due _ _ hn => ?_
  · exact sent due 0 (by simpa [World.sent] using hn)
  · exact sent due n (by simpa [updateLastActive, World.sent] using hn)

theorem Unwritten.same {w' : World} (h : Unwritten s w) (hs : SameRelay w w') :
    Unwritten s w' := by
  intro hn
  rw [hs.trace]
  exact h ((hs.endpoint s).symm.trans hn)

theorem pipeFinish_unwritten (h : Unwritten s w) : (pipeFinish e w).Always (Unwritten s) :=
  pipeFinish_cases e w (fun _ _ _ => h) (fun _ => h) fun _ _ => h.same trySuspend_same

/-- **The step in which `s` closes**: both reads are done by the time of the first write. -/
theorem pipeing_unwritten (ht : wroteTo s w.trace = []) :
    (pipeing e w).Always (Unwritten s) := by
  unfold pipeing
  split
  · exact Unwritten.same (fun _ => ht) tryActivate_same
  · exact (pipeRead_unwritten .client ht).bind fun _ _ h =>
      (pipeRead_unwritten .server h).bind fun _ _ h =>
      (pipeWrite_unwritten .client fun _ => h).bind fun _ _ h =>
      (pipeWrite_unwritten .server h).bind fun _ w' h =>
        pipeFinish_unwritten (w := w'.onSelect _) h

end

/-! ### The runs -/

section
variable {w₀ w : World} {us vs ts rest : List Visit} {b : Bool} {v : Visit} {s : Side}

/-- A visit to a relay, an exception included. -/
theorem work_always {P : World → Prop} {e : Env} (hst : w.conn.state = .pipeing)
    (h : (pipeing e w).Always P) (hp : ∀ u, P u → P (u.onSelect u.conn.clearSelect)) :
    (work e w).Always P := by
  rw [work, handler, hst]
  exact Outcome.Sat.recover h hp

/-- From the visit on in which `s` closes, nothing is written to it; afterwards nothing is read from
the other end, and what waited for `s` waits. -/
theorem Run.cut (h : Run w₀ vs b w) (hst : w₀.conn.state = .pipeing)
    (hs : w₀.conn.endpoint s = none) :
    wroteTo s (events vs) = [] ∧ readFrom s.other (events vs) = [] ∧
      w.conn.pending s = w₀.conn.pending s ∧ w.conn.endpoint s = none := by
  have cut : w.conn.state = .pipeing ∧ wroteTo s (events vs) = [] ∧
      readFrom s.other (events vs) = [] ∧ w.conn.pending s = w₀.conn.pending s ∧
      w.conn.endpoint s = none := by
    induction h with
    | start => exact ⟨hst, rfl, rfl, rfl, hs⟩
    | @step vs w w' b i h hw ih =>
        obtain ⟨state, wrote, read, pending, gone⟩ := ih
        have start : Cut s (w.enter i) (w.enter i) := ⟨state, rfl, rfl, rfl, gone⟩
        have cut := (work_always (w := w.enter i) state (pipeing_cut start)
          fun u hu => ⟨hu.state, hu.wrote, hu.read, hu.pending, hu.gone⟩).of_ok hw
        refine ⟨cut.state, ?_, ?_, cut.pending.trans pending, cut.gone⟩
        · rw [events_append, events_singleton, wroteTo_append, wrote]
          exact cut.wrote
        · rw [events_append, events_singleton, readFrom_append, read]
          exact cut.read
  exact cut.2

/-- The last visit, and those after an earlier one. -/
theorem Run.resume (h : Run w₀ (ts ++ v :: rest) b w) :
    rest = [] ∧ b = v.alive ∧ w = v.after ∨ rest ≠ [] ∧ Run v.after rest b w := by
  cases rest with
  | nil =>
      left
      generalize hv : ts ++ [v] = us at h
      cases h with
      | start => simp at hv
      | step i _ _ =>
          obtain ⟨-, he⟩ := List.append_inj' hv rfl
          obtain rfl := List.singleton_inj.mp he
          exact ⟨rfl, rfl, rfl⟩
  | cons x rest =>
      refine .inr ⟨List.cons_ne_nil _ _, ?_⟩
      rw [List.append_cons] at h
      exact h.rest (List.append_assoc ..) ((h.split rfl).1.alive rfl v (by simp))

/-- A relay that ends without an exception has nothing left for an end that is there. -/
theorem Run.spent (he : Entry us w₀) (h : Run w₀ (ts ++ [v]) false w) (hu : v.Undisturbed) :
    Spent w.conn := by
  have relaying := he.handshaken.relaying he.state
  obtain ⟨before, hw⟩ := h.split rfl
  obtain ⟨-, hb, rfl⟩ | later := h.resume
  · have closing : Closing ((v.before.enter v.input).log (events ts)) v.before.conn := by
      rw [World.log, World.enter, List.append_nil]
      exact before.closing relaying he.closing
    have finished := (pipeing_closing closing).of_ok (hu.ok (before.relaying relaying).state hw)
    exact finished.2 hb.symm
  · exact absurd rfl later.1

/-- **The end of one stream is the end of both.**  When a read on `s` returns 0: all that was read
from `s` has been written to the other end by the time the relay ends by itself, or waits for it.
Of the opposite stream nothing more is read after this visit, and nothing more is written from this
visit on; what waited for `s` is all that is missing of what was read. -/
theorem half_close (he : Entry us w₀) (h : Run w₀ (ts ++ v :: rest) b w)
    (hs : .eof s ∈ v.after.trace) :
    (readFrom s (events (ts ++ v :: rest)) =
        wroteTo s.other (events (ts ++ v :: rest)) ++ w.conn.pending s.other ∧
      (b = false → (∀ x ∈ v :: rest, x.Undisturbed) → w.conn.pending s.other = [])) ∧
    (readFrom s.other (events rest) = [] ∧ wroteTo s (events (v :: rest)) = []) ∧
    (readFrom s.other (events (ts ++ v :: rest)) =
        wroteTo s (events (ts ++ v :: rest)) ++ v.after.conn.pending s) := by
  have relaying := he.handshaken.relaying he.state
  obtain ⟨before, hw⟩ := h.split rfl
  have here := h.upto rfl
  have mem : Event.eof s ∈ events (ts ++ [v]) := by
    rw [events_append, events_singleton]
    exact List.mem_append_right _ hs
  have all : Event.eof s ∈ events (ts ++ v :: rest) := by
    rw [List.append_cons, events_append]
    exact List.mem_append_left _ mem
  have gone := ((here.closing relaying he.closing).closed s).mpr mem
  -- the visit itself, and the rest of the run
  have unwritten : wroteTo s v.after.trace = [] :=
    (work_always (w := v.before.enter v.input) (before.relaying relaying).state
      (pipeing_unwritten rfl) fun u hu => hu).of_ok hw gone
  obtain ⟨wrote, read, pending⟩ : wroteTo s (events rest) = [] ∧
      readFrom s.other (events rest) = [] ∧ w.conn.pending s = v.after.conn.pending s := by
    rcases h.resume with ⟨rfl, -, rfl⟩ | ⟨-, later⟩
    · exact ⟨rfl, rfl, rfl⟩
    · have := later.cut (here.relaying relaying).state gone
      exact ⟨this.1, this.2.1, this.2.2.1⟩
  have balanced := (h.relaying relaying).balanced
  have wroteAll : wroteTo s (events (v :: rest)) = [] := by
    rw [show v :: rest = [v] ++ rest from rfl, events_append, events_singleton, wroteTo_append,
      unwritten, wrote]
    rfl
  refine ⟨⟨balanced s, fun hb hu => ?_⟩, ⟨read, wroteAll⟩, ?_⟩
  · have closing := h.closing relaying he.closing
    -- the last visit
    obtain ⟨front, x, hx⟩ := (List.eq_nil_or_concat (v :: rest)).resolve_left
      (List.cons_ne_nil _ _)
    rw [List.concat_eq_append] at hx
    have last : x ∈ v :: rest := hx ▸ List.mem_append_right _ (List.mem_singleton_self _)
    rw [hx, ← List.append_assoc, hb] at h
    obtain ⟨t, ht, hz⟩ := h.spent he (hu x last)
    obtain rfl | rfl := Side.eq_or_eq_other s t
    · exact hz
    · exact absurd ht (closing.survivor s ((closing.closed s).mpr all))
  · have := balanced s.other
    rwa [Side.other_other, Lib.Conserved, pending] at this

end

namespace Sample

/-- Three bytes come from either end, and neither can be written to; then the client closes, and
both take all they can get. -/
def parting : List Visit × Bool × World :=
  play (handshake request).2.2
    [visit [7, 8] [] { env with read := fun _ => .data threeBytes },
      visit [7] [7, 8] { env with read := fun _ => .eof, write := fun _ => .wrote 100 }]

theorem run_parting : Run (handshake request).2.2 parting.1 parting.2.1 parting.2.2 :=
  run_play _ _

end Sample

set_option maxRecDepth 10000 in
theorem half_close_sample :
    ∃ ts v, Sample.parting.1 = ts ++ [v] ∧ .eof .client ∈ v.after.trace ∧
      wroteTo .client (events [v]) = [] ∧
      readFrom .server (events (ts ++ [v])) =
        wroteTo .client (events (ts ++ [v])) ++ v.after.conn.clientWriteBuff := by
  have run : Run _ ([Sample.parting.1.get ⟨0, by decide⟩] ++ [Sample.parting.1.get ⟨1, by decide⟩])
    _ _ := Sample.run_parting
  have closed : .eof .client ∈ (Sample.parting.1.get ⟨1, by decide⟩).after.trace := by decide
  have := half_close Sample.entry run closed
  exact ⟨_, _, rfl, closed, this.2.1.2, this.2.2⟩

set_option maxRecDepth 10000 in
/-- The client has sent all it had to send and waits for the answer, three bytes that have come from
the server.  It takes all it is given, and is given nothing. -/
theorem half_close_truncates :
    Entry (Sample.handshake Sample.request).1 (Sample.handshake Sample.request).2.2 ∧
      Run (Sample.handshake Sample.request).2.2 Sample.parting.1 false Sample.parting.2.2 ∧
      .eof .client ∈ events Sample.parting.1 ∧
      (∃ v ∈ Sample.parting.1, .eof .client ∈ v.after.trace ∧
        v.before.conn.clientWriteBuff = [1, 2, 3] ∧ 7 ∈ v.input.select.writeSet ∧
        (v.input.env.write .client).count 3 = some 3) ∧
      readFrom .server (events Sample.parting.1) = [1, 2, 3] ∧
      wroteTo .client (events Sample.parting.1) = [] :=
  ⟨Sample.entry, Sample.run_parting, by decide,
    ⟨Sample.parting.1.get ⟨1, by decide⟩, List.get_mem .., by decide, by decide, by decide,
      by decide⟩, by decide, by decide⟩

end OldStuff.Socks
