import OldStuff.Socks.Steady

/-!
# Socks — a relay that has lost one end

An end that reports the end of its stream is deleted, and the relay goes on for the other, the
survivor, until what waits for it has been written.  `Closing` says that the pointers tell which
ends have closed, and that never both have: an end is only read from while the other is there.

`graceful_close` is what the survivor is owed.  `read_interest_iff` is about the registration of the
survivor for reading: the second of two blocks undoes what the first has decided, so that a server
that has survived is read from, although `pipeing` will not read.
-/

namespace OldStuff.Socks
open OldStuff.Io
open OldStuff.Lib (Outcome)

/-! ### Which ends have closed -/

/-- A relay that has done `es`: the ends that are gone are those that reported the end of their
stream, and one end is there. -/
structure Closing (es : List Event) (c : SocksConnection) : Prop where
  closed : ∀ s, c.endpoint s = none ↔ .eof s ∈ es
  survivor : ∀ s, c.endpoint s = none → c.endpoint (Side.other s) ≠ none

/-- One end is gone, and everything that waited for the other has been written. -/
def Spent (c : SocksConnection) : Prop :=
  ∃ s, c.endpoint s = none ∧ c.pending (Side.other s) = []

section
variable {past : List Event} {e : Env} {w : World}

/-- The pointers stay, and no end of a stream is reported. -/
theorem Closing.congr {es fs : List Event} {c c' : SocksConnection} (h : Closing es c)
    (he : ∀ s, c'.endpoint s = c.endpoint s) (hf : ∀ s, .eof s ∈ fs ↔ .eof s ∈ es) :
    Closing fs c' where
  closed := fun s => by rw [he, h.closed, hf]
  survivor := by
    intro s hs
    rw [he] at hs ⊢
    exact h.survivor s hs

theorem pipeRead_closing (s : Side) (h : Closing (w.log past) w.conn) :
    (pipeRead s e w).Always fun w' => Closing (w'.log past) w'.conn := by
  refine pipeRead_cases s e w (fun _ => h) (fun _ _ _ _ => h) (fun _ _ _ _ => h)
    (fun d d' asked _ => ?_) fun d d' chunk _ _ => ?_
  · -- the other end is there, and it is not the one that closes
    have hd' := asked.other
    have there : .eof s.other ∉ w.log past := by
      intro hm
      rw [(h.closed _).mpr hm] at hd'
      cases hd'
    refine ⟨fun t => ?_, fun t ht => ?_⟩
    · obtain rfl | rfl := Side.eq_or_eq_other s t
      · simp [World.delete]
      · simp [World.delete, hd', there]
    · obtain rfl | rfl := Side.eq_or_eq_other s t
      · simp [World.delete, hd']
      · simp [World.delete, hd'] at ht
  · exact h.congr (fun t => by simp [updateLastActive]) fun t => by simp [updateLastActive]

theorem pipeWrite_closing (s : Side) (h : Closing (w.log past) w.conn) :
    (pipeWrite s e w).Always fun w' => Closing (w'.log past) w'.conn := by
  refine pipeWrite_cases s e w (fun _ => h) (fun _ _ _ => h) (fun _ _ _ => ?_)
    fun _ _ _ _ _ => ?_
  · exact h.congr (fun t => by simp [World.sent]) fun t => by simp [World.sent]
  · exact h.congr (fun t => by simp [updateLastActive, World.sent])
      fun t => by simp [updateLastActive, World.sent]

theorem Closing.same {w' : World} (h : Closing (w.log past) w.conn) (hs : SameRelay w w') :
    Closing (w'.log past) w'.conn :=
  h.congr hs.endpoint fun s => by rw [World.log, hs.trace, World.log]

/-- A relay ends by itself only when nothing waits for the survivor. -/
theorem pipeFinish_closing (h : Closing (w.log past) w.conn) :
    (pipeFinish e w).Sat
      (fun b w' => Closing (w'.log past) w'.conn ∧ (b = false → Spent w'.conn))
      fun w' => Closing (w'.log past) w'.conn := by
  refine pipeFinish_cases e w (fun s hs hz => ⟨h, fun _ => ⟨s, hs, hz⟩⟩) (fun gone => ?_)
    fun _ _ => ⟨h.same trySuspend_same, fun hb => by cases hb⟩
  exact absurd (gone .client) (h.survivor .server (gone .server))

/-- **One step of a relay**, and how it may end. -/
theorem pipeing_closing (h : Closing (w.log past) w.conn) :
    (pipeing e w).Sat
      (fun b w' => Closing (w'.log past) w'.conn ∧ (b = false → Spent w'.conn))
      fun w' => Closing (w'.log past) w'.conn := by
  unfold pipeing
  split
  · exact ⟨h.same tryActivate_same, fun hb => by cases hb⟩
  · exact (pipeRead_closing .client h).bind fun _ _ h =>
      (pipeRead_closing .server h).bind fun _ _ h =>
      (pipeWrite_closing .client h).bind fun _ _ h =>
      (pipeWrite_closing .server h).bind fun _ w' h => pipeFinish_closing (w := w'.onSelect _) h

end

section
variable {w₀ w : World} {us vs : List Visit} {b : Bool}

/-- When the relay starts both ends are there. -/
theorem Entry.closing (h : Entry us w₀) : Closing [] w₀.conn := by
  obtain ⟨client, server⟩ := h.handshaken.ends h.state
  have there (s : Side) : w₀.conn.endpoint s ≠ none := by
    cases s with
    | client => exact client
    | server => exact server
  exact ⟨fun s => iff_of_false (there s) List.not_mem_nil, fun s hs => absurd hs (there s)⟩

theorem Run.closing (h : Run w₀ vs b w) (h₀ : Relaying [] w₀.conn) (hc : Closing [] w₀.conn) :
    Closing (events vs) w.conn := by
  refine (h.invariant (P := fun _ es c => Relaying es c ∧ Closing es c) ⟨h₀, hc⟩ ?_).2
  rintro e w past ⟨relaying, closing⟩
  have closing' : Keeps (fun _ => Closing) past (work e w) := by
    refine keeps_work ?_
    simp only [handler, relaying.state]
    exact (pipeing_closing closing).mono (fun _ _ h => h.1) fun _ h => h
  exact (work_relaying relaying).and closing'

end

/-! ### The end of a relay -/

/-- `pipeing` throws nothing in this visit. -/
def Visit.Undisturbed (v : Visit) : Prop :=
  ∀ w, pipeing v.input.env (v.before.enter v.input) ≠ .thrown w

section
variable {w₀ w : World} {us vs ts rest : List Visit} {b : Bool} {v : Visit}

/-- A visit to a relay that throws nothing is the call of `pipeing`. -/
theorem Visit.Undisturbed.ok (hu : v.Undisturbed) (hst : v.before.conn.state = .pipeing)
    (hw : work v.input.env (v.before.enter v.input) = .ok v.alive v.after) :
    pipeing v.input.env (v.before.enter v.input) = .ok v.alive v.after := by
  obtain ho | ⟨-, u, ho, -⟩ := work_relay (w := v.before.enter v.input) hst hw
  · exact ho
  · exact absurd ho (hu u)

/-- **A graceful close flushes.**  In every run, when `pipeing` returns false an end has reported
the end of its stream, and all that was ever read from it has been written to the other end, which
is still there.  As long as something of it is not written, `pipeing` returns true, and the survivor
is registered for writing or suspended. -/
theorem graceful_close (he : Entry us w₀) (h : Run w₀ vs b w) (hh : ∀ v ∈ us ++ vs, v.Honest)
    (hv : vs = ts ++ v :: rest) (hu : v.Undisturbed) :
    (v.alive = false → (∃ s, .eof s ∈ events (ts ++ [v])) ∧
      ∀ s, .eof s ∈ events (ts ++ [v]) → v.after.conn.endpoint s.other ≠ none ∧
        readFrom s (events (ts ++ [v])) = wroteTo s.other (events (ts ++ [v]))) ∧
    ∀ s, .eof s ∈ events (ts ++ [v]) →
      readFrom s (events (ts ++ [v])) ≠ wroteTo s.other (events (ts ++ [v])) →
      v.alive = true ∧ (v.after.conn.suspended = true ∨
        ∃ d, v.after.conn.endpoint s.other = some d ∧
          some d ∈ v.after.select.fileDescriptorsWrite) := by
  obtain ⟨hrun, hw⟩ := h.split hv
  have relaying := he.handshaken.relaying he.state
  have before := hrun.relaying relaying
  have closing : Closing ((v.before.enter v.input).log (events ts)) v.before.conn := by
    rw [World.log, World.enter, List.append_nil]
    exact hrun.closing relaying he.closing
  -- what the visit leaves
  have here := h.upto hv
  have after := here.closing relaying he.closing
  have balanced := (here.relaying relaying).balanced
  have spent := ((pipeing_closing closing).of_ok (hu.ok before.state hw)).2
  have gone {s : Side} (hs : .eof s ∈ events (ts ++ [v])) :
      v.after.conn.endpoint s = none ∧ v.after.conn.endpoint s.other ≠ none :=
    ⟨(after.closed s).mpr hs, after.survivor s ((after.closed s).mpr hs)⟩
  have flushed (ha : v.alive = false) {s : Side} (hs : .eof s ∈ events (ts ++ [v])) :
      readFrom s (events (ts ++ [v])) = wroteTo s.other (events (ts ++ [v])) := by
    obtain ⟨t, ht, hz⟩ := spent ha
    obtain rfl | rfl := Side.eq_or_eq_other s t
    · have := balanced t
      rwa [Lib.Conserved, hz, List.append_nil] at this
    · exact absurd ht (gone hs).2
  refine ⟨fun ha => ⟨?_, fun s hs => ⟨(gone hs).2, flushed ha hs⟩⟩, fun s hs hne => ?_⟩
  · obtain ⟨t, ht, -⟩ := spent ha
    exact ⟨t, (after.closed t).mp ht⟩
  · have alive : v.alive = true := Bool.eq_true_of_not_eq_false fun ha => hne (flushed ha hs)
    refine ⟨alive, Classical.or_iff_not_imp_left.mpr fun hq => ?_⟩
    obtain ⟨d, hd⟩ := Option.ne_none_iff_exists'.mp (gone hs).2
    obtain ⟨self, client, time, arrival⟩ := he.run
    have honest : ∀ u ∈ us ++ (ts ++ [v]), u.Honest := by
      intro u hu
      refine hh u ?_
      rw [hv]
      grind
    have steady := (arrival.trans here).steady honest alive
    have writes := steady.writes_iff (here.relaying relaying).state (Bool.eq_false_iff.mpr hq) hd
    refine ⟨d, hd, writes.mpr ⟨(gone hs).2, fun hz => hne ?_⟩⟩
    have := balanced s
    rwa [Lib.Conserved, hz, List.append_nil] at this

end

namespace Sample

/-- Three bytes come from the client, which then closes; at last they go to the server. -/
def farewell : List (World → Input) :=
  [visit [7] [] { env with read := fun _ => .data threeBytes },
    visit [7] [] { env with read := fun _ => .eof },
    visit [] [8] { env with write := fun _ => .wrote 3 }]

def closing (n : Nat) : List Visit × Bool × World :=
  play (handshake request).2.2 (farewell.take n)

theorem run_closing (n : Nat) :
    Run (handshake request).2.2 (closing n).1 (closing n).2.1 (closing n).2.2 :=
  run_play _ _

end Sample

theorem graceful_close_sample :
    ∃ ts v, (Sample.closing 3).1 = ts ++ [v] ∧ v.alive = false ∧
      (∃ s, .eof s ∈ events (ts ++ [v])) ∧
      ∀ s, .eof s ∈ events (ts ++ [v]) → v.after.conn.endpoint s.other ≠ none ∧
        readFrom s (events (ts ++ [v])) = wroteTo s.other (events (ts ++ [v])) := by
  refine ⟨[_, _], _, rfl, rfl, ?_⟩
  have honest : ∀ v ∈ (Sample.handshake Sample.request).1 ++ (Sample.closing 3).1, v.Honest := by
    decide
  exact (graceful_close Sample.entry (Sample.run_closing 3) honest rfl fun w hw => by cases hw).1
    rfl

/-! ### What the survivor is registered for -/

/-- The client reports the end of its stream to a relay that is not suspended. -/
def ClientCloses (e : Env) (w : World) : Prop :=
  w.conn.suspended = false ∧ w.conn.endpoint .server ≠ none ∧
    ∃ d, w.conn.endpoint .client = some d ∧ w.select.canRead d = true ∧ e.read .client = .eof

/-- Between two blocks of `pipeing`: the client is gone if it was or closes now, and then what
waited for it waits still. -/
structure Parted (e : Env) (w₀ w : World) : Prop where
  client : w.conn.endpoint .client = none ↔ w₀.conn.endpoint .client = none ∨ ClientCloses e w₀
  kept : w.conn.endpoint .client = none → w.conn.pending .client = w₀.conn.pending .client

section
variable {e : Env} {w₀ w w' : World}

/-- The client stays as it is, and so does what waits for a client that is gone. -/
theorem Parted.congr (h : Parted e w₀ w) (hc : w'.conn.endpoint .client = w.conn.endpoint .client)
    (hp : w.conn.endpoint .client = none → w'.conn.pending .client = w.conn.pending .client) :
    Parted e w₀ w' where
  client := by rw [hc]; exact h.client
  kept := fun hn => by
    rw [hc] at hn
    exact (hp hn).trans (h.kept hn)

theorem pipeRead_client_parted (hq : w.conn.suspended = false) :
    (pipeRead .client e w).Sat (fun _ => Parted e w) fun _ => True := by
  have stays (hn : ¬ ClientCloses e w) : Parted e w w :=
    ⟨(or_iff_left hn).symm, fun _ => rfl⟩
  have goes_on (he : e.read .client ≠ .eof) : Parted e w w :=
    stays fun ⟨_, _, _, _, _, eof⟩ => he eof
  refine pipeRead_cases .client e w (fun idle => stays ?_) (fun _ _ _ _ => trivial)
    (fun _ _ _ hr => goes_on fun he => ?_) (fun d d' asked hr => ?_) fun d d' chunk _ hr => ?_
  · rintro ⟨-, hs, d, hd, hc, -⟩
    obtain ⟨d', hd'⟩ := Option.ne_none_iff_exists'.mp hs
    exact idle d d' ⟨hd, hd', hc⟩
  · rw [hr] at he
    cases he
  · have server : w.conn.endpoint .server ≠ none := by
      rw [show w.conn.endpoint .server = some d' from asked.other]
      exact Option.some_ne_none d'
    refine ⟨iff_of_true (by simp [World.delete])
      (.inr ⟨hq, server, d, asked.endpoint, asked.ready, hr⟩), ?_⟩
    simp [World.delete]
  · refine (goes_on fun he => ?_).congr (by simp [updateLastActive]) fun _ => ?_
    · rw [hr] at he
      cases he
    · simp [updateLastActive, Side.other]

theorem pipeRead_server_parted (h : Parted e w₀ w) :
    (pipeRead .server e w).Sat (fun _ => Parted e w₀) fun _ => True := by
  -- the client is there
  have there {d d' : FileDescriptor} {P : Prop} (asked : Asked .server w d d')
      (hn : w.conn.endpoint .client = none) : P := by
    cases asked.other.symm.trans hn
  exact pipeRead_cases .server e w (fun _ => h) (fun _ _ _ _ => trivial) (fun _ _ _ _ => h)
    (fun _ _ asked _ => h.congr (by simp [World.delete]) (there asked))
    fun _ _ _ asked _ => h.congr (by simp [updateLastActive]) (there asked)

theorem pipeWrite_parted (s : Side) (h : Parted e w₀ w) :
    (pipeWrite s e w).Sat (fun _ => Parted e w₀) fun _ => True := by
  have kept {d : FileDescriptor} (due : Due s w d) (n : Nat)
      (hn : w.conn.endpoint .client = none) :
      (w.sent s n).conn.pending .client = w.conn.pending .client := by
    cases s with
    | client => cases due.endpoint.symm.trans hn
    | server => simp [World.sent]
  refine pipeWrite_cases s e w (fun _ => h) (fun _ _ _ => trivial) (fun d due _ => ?_)
    fun d n due _ _ => ?_
  · exact h.congr (by simp [World.sent]) (kept due 0)
  · refine h.congr (by simp [updateLastActive, World.sent]) fun hn => ?_
    simpa [updateLastActive] using kept due n hn

theorem pipeFinish_parted (h : Parted e w₀ w) :
    (pipeFinish e w).Sat (fun _ => Parted e w₀) fun _ => True := by
  have ended : Parted e w₀ (w.onSelect w.conn.clearSelect) := h.congr rfl fun _ => rfl
  have same := trySuspend_same (e := e) (w := w)
  exact pipeFinish_cases e w (fun _ _ _ => ended) (fun _ => ended) fun _ _ =>
    h.congr (same.endpoint .client) fun _ => same.pending .client

/-- **One step**, for the client's end. -/
theorem pipeing_parted : (pipeing e w).Sat (fun _ => Parted e w) fun _ => True := by
  unfold pipeing
  split
  · next hq =>
      have same := tryActivate_same (e := e) (w := w)
      have awake : ¬ ClientCloses e w := fun h => by rw [h.1] at hq; cases hq
      refine ⟨?_, fun _ => same.pending .client⟩
      rw [same.endpoint .client, or_iff_left awake]
  · next hq =>
      exact (pipeRead_client_parted (Bool.eq_false_iff.mpr hq)).bind fun _ _ h =>
        (pipeRead_server_parted h).bind fun _ _ h =>
        (pipeWrite_parted .client h).bind fun _ _ h =>
        (pipeWrite_parted .server h).bind fun _ w' h =>
          pipeFinish_parted (w := w'.onSelect _) (h.congr rfl fun _ => rfl)

end

/-- The client is gone at the end of this visit. -/
def Visit.ClientGone (v : Visit) : Prop :=
  v.before.conn.client = none ∨
    v.before.conn.state = .pipeing ∧ ClientCloses v.input.env (v.before.enter v.input)

/-- The server survives, with no more than the limit waiting for the client that is gone. -/
def Visit.Lopsided (v : Visit) : Prop :=
  v.ClientGone ∧ v.before.conn.clientWriteBuff.length ≤ maxBuffSize

/-- An end is in the read list exactly while the other end is there and has room. -/
def ReadsExactly (w : World) : Prop :=
  ∀ s d, w.conn.endpoint s = some d → (some d ∈ w.select.fileDescriptorsRead ↔
    w.conn.endpoint (Side.other s) ≠ none ∧ (w.conn.pending (Side.other s)).length ≤ maxBuffSize)

section
variable {self : Nat} {client : FileDescriptor} {time : Int} {w : World} {vs : List Visit}
  {b : Bool}

/-- Of a relay that is not suspended only the client's end can be registered in vain. -/
theorem Steady.readsExactly_iff {es : List Event} (h : Steady es w) (hst : w.conn.state = .pipeing)
    (hq : w.conn.suspended = false) :
    ReadsExactly w ↔
      ¬ (w.conn.client = none ∧ w.conn.clientWriteBuff.length ≤ maxBuffSize) := by
  have shaped := h.sound.shaped
  rw [Shaped, hst] at shaped
  constructor
  · rintro exact ⟨hc, hl⟩
    have hs : w.conn.endpoint .server ≠ none := shaped.1.resolve_left fun h => h hc
    obtain ⟨d, hd⟩ := Option.ne_none_iff_exists'.mp hs
    -- the server is registered while there is room, client or no client
    have := (exact .server d hd).mp ((h.reads_iff hst hq hd).mpr ⟨hs, .inl rfl, hl⟩)
    exact this.1 hc
  · intro hn s d hd
    have there : w.conn.endpoint s ≠ none := by
      rw [hd]
      exact Option.some_ne_none d
    rw [h.reads_iff hst hq hd, SocksConnection.WantsRead, and_iff_right there]
    cases s with
    | client => exact and_congr_left fun _ => or_iff_right fun h => by cases h
    | server =>
        refine and_congr_left fun hl => iff_of_true (.inl rfl) fun hc => hn ⟨hc, hl⟩

/-- **Read interest.**  In every run, after every visit that leaves a relay going and not suspended:
an end is in the read list exactly while the other end is there and has room, unless the client is
gone and no more than the limit waits for it. -/
theorem read_interest_iff (h : Run (World.fresh self client time) vs b w)
    (hh : ∀ v ∈ vs, v.Honest) :
    ∀ v ∈ vs, v.alive = true → v.after.conn.state = .pipeing → v.after.conn.suspended = false →
      (ReadsExactly v.after ↔ ¬ v.Lopsided) := by
  intro v hv ha hst hq
  obtain ⟨us, ts, hvs, hrun, hw⟩ := h.visit hv
  have honest : ∀ u ∈ us ++ [v], u.Honest := by
    intro u hu
    refine hh u ?_
    rw [hvs]
    grind
  have before := hrun.steady (fun u hu => honest u (List.mem_append_left _ hu)) rfl
  have after := (h.upto hvs).steady honest ha
  rw [ha] at hw
  rw [after.readsExactly_iff hst hq]
  refine not_congr ?_
  by_cases hp : v.before.conn.state = .pipeing
  · have parted : Parted v.input.env (v.before.enter v.input) v.after := by
      obtain ho | ⟨hb, -⟩ := work_relay (w := v.before.enter v.input) hp hw
      · exact pipeing_parted.of_ok ho
      · cases hb
    -- what the visit leaves is known from what it found and what `read` said
    have gone : v.after.conn.client = none ↔ v.ClientGone :=
      parted.client.trans (or_congr_right (and_iff_right hp).symm)
    rw [Visit.Lopsided, ← gone]
    refine and_congr_right fun hc => ?_
    rw [show v.after.conn.clientWriteBuff = v.before.conn.clientWriteBuff from parted.kept hc]
  · -- the visit has entered `PIPEING`, and both ends are there
    have there : v.before.conn.client ≠ none := before.sound.shaped.client hp
    refine iff_of_false (fun hn => ?_) fun hn => ?_
    · obtain ⟨-, handshaken⟩ | ⟨hp', -⟩ := before.sound.cases
      · have keeps : Keeps Handshaken (events us) (work v.input.env (v.before.enter v.input)) :=
          work_handshaken hp (by rwa [World.log, World.enter, List.append_nil])
        exact ((keeps.of_ok hw).ends hst).1 hn.1
      · exact hp hp'
    · rcases hn.1 with hc | ⟨hp', -⟩
      · exact there hc
      · exact hp hp'

end

/-- From the arrival of the client to the visit `n` of the relay. -/
theorem Sample.closing_run (n : Nat) :
    Run (World.fresh 0 Sample.client 0)
      ((Sample.handshake Sample.request).1 ++ (Sample.closing n).1) (Sample.closing n).2.1
      (Sample.closing n).2.2 :=
  (run_play (.fresh 0 Sample.client 0) (Sample.connect Sample.request)).trans (Sample.run_closing n)

theorem read_interest_sample :
    ∃ v ∈ (Sample.handshake Sample.request).1 ++ (Sample.closing 1).1,
      v.after.conn.serverWriteBuff = [1, 2, 3] ∧ (ReadsExactly v.after ↔ ¬ v.Lopsided) := by
  have honest : ∀ v ∈ (Sample.handshake Sample.request).1 ++ (Sample.closing 1).1, v.Honest := by
    decide
  have mem : (Sample.closing 1).1.head (by decide) ∈
      (Sample.handshake Sample.request).1 ++ (Sample.closing 1).1 :=
    List.mem_append_right _ (List.head_mem _)
  exact ⟨_, mem, by decide,
    read_interest_iff (Sample.closing_run 1) honest _ mem rfl rfl rfl⟩

/-- The client has closed with three bytes on their way to the server.  The server is registered
for reading, although what it sends will not be read. -/
theorem survivor_read :
    (∀ v ∈ (Sample.handshake Sample.request).1 ++ (Sample.closing 2).1, v.Honest) ∧
      Run (World.fresh 0 Sample.client 0)
        ((Sample.handshake Sample.request).1 ++ (Sample.closing 2).1) true
        (Sample.closing 2).2.2 ∧
      (Sample.closing 2).2.2.conn.state = .pipeing ∧
      (Sample.closing 2).2.2.conn.suspended = false ∧
      (Sample.closing 2).2.2.conn.client = none ∧
      ¬ ReadsExactly (Sample.closing 2).2.2 := by
  refine ⟨by decide, Sample.closing_run 2, rfl, rfl, rfl, fun exact => ?_⟩
  have listed : some ⟨1, 8, ⟨20480, 16777226⟩⟩ ∈
      (Sample.closing 2).2.2.select.fileDescriptorsRead := by decide
  exact ((exact .server ⟨1, 8, ⟨20480, 16777226⟩⟩ rfl).mp listed).1 rfl

end OldStuff.Socks
