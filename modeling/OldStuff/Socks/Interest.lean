import OldStuff.Socks.Wiring

/-!
# Socks — the relay wants to write exactly what it has to

`pipeing` edits the lists in nine places.  `Piping` holds after each of them: the write list has an
end of the relay exactly when something waits for it, and the read list has nothing of the
connection but its ends.  The registration at the end of a round makes the read list exact too
(`registerRead_shared`), and a suspension takes down exactly these registrations
(`registrations_eq`), so that the activation puts them back.
-/

namespace OldStuff.Socks
open OldStuff.Io
open OldStuff.Lib (Outcome Roster)
open OldStuff.Io.Select (Holds)

/-- There are two ends, and what holds of one of them holds of one or the other. -/
theorem Side.exists_iff (s : Side) {P : Side → Prop} : (∃ t, P t) ↔ P s ∨ P s.other := by
  constructor
  · rintro ⟨t, ht⟩
    obtain rfl | rfl := Side.eq_or_eq_other s t
    · exact .inl ht
    · exact .inr ht
  · rintro (h | h)
    · exact ⟨_, h⟩
    · exact ⟨_, h⟩

/-- The two ends are two objects. -/
def Distinct (c : SocksConnection) : Prop :=
  ∀ s d, c.endpoint s = some d → c.endpoint (Side.other s) ≠ some d

theorem distinct_of_nodup {c : SocksConnection} (h : c.owned.Nodup) : Distinct c := by
  have apart {d : FileDescriptor} (hc : c.client = some d) (hs : c.server = some d) : False := by
    simp [SocksConnection.owned, hc, hs] at h
  intro s d hd hd'
  cases s with
  | client => exact apart hd hd'
  | server => exact apart hd' hd

section
variable {c : SocksConnection} {d : FileDescriptor} {p : Pointer} (s : Side)

theorem relayWatch_read : c.relayWatch.read p ↔
    c.WantsRead s ∧ p = c.endpoint s ∨ c.WantsRead s.other ∧ p = c.endpoint s.other :=
  Side.exists_iff s

theorem relayWatch_write : c.relayWatch.write p ↔
    c.WantsWrite s ∧ p = c.endpoint s ∨ c.WantsWrite s.other ∧ p = c.endpoint s.other :=
  Side.exists_iff s

theorem Distinct.reads (h : Distinct c) {s : Side} (hd : c.endpoint s = some d) :
    c.relayWatch.read (some d) ↔ c.WantsRead s := by
  have := h s d hd
  rw [relayWatch_read s, hd]
  grind

theorem Distinct.writes (h : Distinct c) {s : Side} (hd : c.endpoint s = some d) :
    c.relayWatch.write (some d) ↔ c.WantsWrite s := by
  have := h s d hd
  rw [relayWatch_write s, hd]
  grind

end

/-- The registrations of the read list, between two blocks: nothing but the ends. -/
def Ends (c : SocksConnection) (reads : Pointer → Prop) : Prop :=
  ∀ p, reads p → ∃ s d, c.endpoint s = some d ∧ p = some d

/-- The relay leaves the buffers of the handshake alone. -/
def SameBuffs (c c' : SocksConnection) : Prop :=
  c'.clientReadBuff = c.clientReadBuff ∧ c'.serverReadBuff = c.serverReadBuff

/-- Between two blocks of `pipeing`. -/
structure Piping (theirs : Watch) (e : Env) (w₀ w : World) : Prop where
  kept : Kept e w₀ w
  state : w.conn.state = .pipeing
  running : w.conn.suspended = false
  listen : w.conn.listen = none
  buffs : SameBuffs w₀.conn w.conn
  distinct : Distinct w.conn
  ends : ∀ s d, w.conn.endpoint s = some d → w₀.conn.endpoint s = some d
  read : ∃ reads, w.select.fileDescriptorsRead.Shared theirs.read reads ∧ Ends w.conn reads
  write : w.select.fileDescriptorsWrite.Shared theirs.write w.conn.relayWatch.write

/-- Where an exception leaves a relay. -/
structure Strayed (theirs : Watch) (e : Env) (w₀ w : World) : Prop where
  kept : Kept e w₀ w
  loose : Loose theirs w
  buffs : SameBuffs w₀.conn w.conn

/-- What a visit to a relay leaves. -/
structure Switched (theirs : Watch) (e : Env) (w₀ : World) (alive : Bool) (w : World) : Prop where
  kept : Kept e w₀ w
  live : alive = true → Holds theirs w.conn.watch w.select
  ended : alive = false → Holds theirs .nothing w.select
  buffs : SameBuffs w₀.conn w.conn
  shaped : alive = true → Shaped w.conn
  saved : alive = true → w.conn.suspended = true → w.conn.suspendedDescriptorsSet = w.conn.wants

section
variable {theirs : Watch} {e : Env} {w₀ w : World}

/-- The relay goes on. -/
theorem Switched.going (hk : Kept e w₀ w) (hs : Holds theirs w.conn.watch w.select)
    (hb : SameBuffs w₀.conn w.conn) (hsh : Shaped w.conn)
    (hsv : w.conn.suspended = true → w.conn.suspendedDescriptorsSet = w.conn.wants) :
    Switched theirs e w₀ true w where
  kept := hk
  live := fun _ => hs
  ended := nofun
  buffs := hb
  shaped := fun _ => hsh
  saved := fun _ => hsv

/-- The relay is over. -/
theorem Switched.gone (hk : Kept e w₀ w) (hs : Holds theirs .nothing w.select)
    (hb : SameBuffs w₀.conn w.conn) : Switched theirs e w₀ false w where
  kept := hk
  live := nofun
  ended := fun _ => hs
  buffs := hb
  shaped := nofun
  saved := nofun

theorem Piping.loose (h : Piping theirs e w₀ w) : Loose theirs w := by
  obtain ⟨reads, hr, own⟩ := h.read
  refine ⟨⟨reads, w.conn.relayWatch.write⟩, ⟨hr, h.write⟩, ?_⟩
  rintro p (hp | hp)
  · obtain ⟨s, d, hd, rfl⟩ := own p hp
    exact ⟨d, SocksConnection.endpoint_mem_owned hd, rfl⟩
  · exact SocksConnection.relayWatch_of p (.inr hp)

theorem Piping.without (ht : theirs.Aloof w₀.nextId w₀.conn.owned) (h : Piping theirs e w₀ w)
    {s : Side} {d : FileDescriptor} (hd : w.conn.endpoint s = some d) : theirs.Without (some d) :=
  h.kept.without ht (SocksConnection.endpoint_mem_owned hd)

/-- `update_last_active`, and the bytes counted. -/
theorem Piping.edit (h : Piping theirs e w₀ w) (f : SocksConnection → SocksConnection)
    (he : ∀ s, (f w.conn).endpoint s = w.conn.endpoint s)
    (hp : ∀ s, (f w.conn).pending s = w.conn.pending s) (hs : (f w.conn).state = w.conn.state)
    (hr : (f w.conn).suspended = w.conn.suspended) (hl : (f w.conn).listen = w.conn.listen)
    (hb : SameBuffs w.conn (f w.conn)) : Piping theirs e w₀ (w.onConn f) where
  kept := h.kept.edit f (he .client) (he .server) hl
  state := hs.trans h.state
  running := hr.trans h.running
  listen := hl.trans h.listen
  buffs := ⟨hb.1.trans h.buffs.1, hb.2.trans h.buffs.2⟩
  distinct := fun s d => by simpa only [World.onConn_conn, he] using h.distinct s d
  ends := fun s d => by simpa only [World.onConn_conn, he] using h.ends s d
  read := by
    obtain ⟨reads, hr, own⟩ := h.read
    refine ⟨reads, hr, fun p hp => ?_⟩
    simpa only [World.onConn_conn, he] using own p hp
  write := by
    rw [World.onConn_conn, SocksConnection.relayWatch_congr he hp]
    exact h.write

/-! ### The blocks -/

/-- End of file: the end goes out of both lists, and its pointer is `NULL`. -/
theorem Piping.drop (ht : theirs.Aloof w₀.nextId w₀.conn.owned) (h : Piping theirs e w₀ w)
    {s : Side} {d : FileDescriptor} (hd : w.conn.endpoint s = some d) :
    Piping theirs e w₀ (((w.emit (.eof s)).onSelect (·.forget (some d))).delete s d) where
  kept := ((h.kept.note _ rfl rfl fun _ => rfl).select (·.forget (some d)) rfl rfl).dropEndpoint hd
  state := by simpa [World.delete] using h.state
  running := by simpa [World.delete] using h.running
  listen := by simpa [World.delete] using h.listen
  buffs := by simpa [World.delete, SameBuffs] using h.buffs
  distinct := by
    intro t d' ht
    have := h.distinct t d'
    simp only [World.delete, World.onConn_conn, World.emit_conn, World.onSelect_conn,
      SocksConnection.endpoint_setEndpoint] at ht ⊢
    split at ht
    · cases ht
    · split
      · exact (Option.some_ne_none d').symm
      · exact this ht
  ends := by
    intro t d' ht
    refine h.ends t d' ?_
    simp only [World.delete, World.onConn_conn, World.emit_conn, World.onSelect_conn,
      SocksConnection.endpoint_setEndpoint] at ht
    split at ht
    · cases ht
    · exact ht
  read := by
    obtain ⟨reads, hr, own⟩ := h.read
    refine ⟨_, hr.remove (h.without ht hd).1 fun _ => Iff.rfl, ?_⟩
    rintro p ⟨hp, hne⟩
    obtain ⟨t, d', ht, rfl⟩ := own p hp
    have hts : t ≠ s := by
      rintro rfl
      rw [hd] at ht
      exact hne ht.symm
    exact ⟨t, d', by simpa [World.delete, hts] using ht, rfl⟩
  write := by
    -- the other end keeps its place, as it is another object
    have apart := h.distinct s d hd
    refine h.write.remove (h.without ht hd).2 fun p => ?_
    simp only [relayWatch_write s, SocksConnection.WantsWrite,
      World.delete, World.onConn_conn, World.emit_conn, World.onSelect_conn,
      SocksConnection.endpoint_setEndpoint, SocksConnection.pending_setEndpoint, hd, if_true,
      Side.other_ne, if_false]
    grind

/-- Bytes go into a buffer or out of it: only the write list can change. -/
theorem Piping.refill (h : Piping theirs e w₀ w) {t : Side} {bs : Bytes} {w' : World}
    (kept : Kept e w₀ w') (hc : w'.conn = w.conn.setPending t bs)
    (hr : w'.select.fileDescriptorsRead = w.select.fileDescriptorsRead)
    (write : w'.select.fileDescriptorsWrite.Shared theirs.write w'.conn.relayWatch.write) :
    Piping theirs e w₀ w' where
  kept := kept
  state := by simpa [hc] using h.state
  running := by simpa [hc] using h.running
  listen := by simpa [hc] using h.listen
  buffs := by simpa [hc, SameBuffs] using h.buffs
  distinct := fun t d => by simpa [hc] using h.distinct t d
  ends := fun t d => by simpa [hc] using h.ends t d
  read := by
    obtain ⟨reads, shared, own⟩ := h.read
    exact ⟨reads, hr ▸ shared, fun p hp => by simpa [hc] using own p hp⟩
  write := write

/-- What comes from `s` waits for the other end, which is registered for it. -/
theorem Piping.receive (h : Piping theirs e w₀ w) {s : Side} {d d' : FileDescriptor}
    (hs : w.conn.endpoint s = some d') (hd : w.conn.endpoint s.other = some d) (chunk : Chunk)
    (hn : readFrom s w.trace = []) (hc : w.select.canRead d' = true) :
    Piping theirs e w₀ (((w.onConn fun c =>
      c.setPending s.other (c.pending s.other ++ chunk.bytes)).emit (.read s chunk.bytes)).onSelect
        (·.addWrite (some d))) := by
  have kept := (h.kept.setPending s.other fun c => c.pending s.other ++ chunk.bytes).noteRead chunk
    hn (h.ends s d' hs) hc
  refine h.refill (kept.select _ rfl rfl) rfl rfl ?_
  have filled : w.conn.pending s.other ++ chunk.bytes ≠ [] := by simp [chunk.ne_nil]
  refine h.write.add fun p => ?_
  simp only [relayWatch_write s, SocksConnection.WantsWrite,
    World.onConn_conn, World.emit_conn, World.onSelect_conn, SocksConnection.endpoint_setPending,
    SocksConnection.pending_setPending, hd, if_true, Side.ne_other, if_false]
  grind

theorem pipeRead_piping (ht : theirs.Aloof w₀.nextId w₀.conn.owned) (s : Side)
    (h : Piping theirs e w₀ w) (hn : readFrom s w.trace = []) :
    (pipeRead s e w).Sat
      (fun _ w' => Piping theirs e w₀ w' ∧ readFrom s.other w'.trace = readFrom s.other w.trace)
      (Strayed theirs e w₀) := by
  refine pipeRead_cases s e w (fun _ => ⟨h, rfl⟩) (fun _ _ _ _ => ⟨h.kept, h.loose, h.buffs⟩)
    (fun _ _ _ _ => ⟨h, rfl⟩) (fun d d' asked _ => ?_) fun d d' chunk asked _ => ?_
  · exact ⟨h.drop ht asked.endpoint, by simp [World.delete, Event.readFrom]⟩
  · have received := h.receive asked.endpoint asked.other chunk hn asked.ready
    have filled : s = .client ∨ (w.conn.pending s.other ++ chunk.bytes).length ≠ 0 :=
      .inr (by simp [chunk.ne_nil])
    simp only [SocksConnection.pending_setPending, if_true, SocksConnection.endpoint_setPending,
      asked.other, filled, decide_true]
    exact ⟨received.edit _ (fun _ => by simp) (fun _ => by simp) rfl rfl rfl ⟨rfl, rfl⟩,
      by simp [updateLastActive, Event.readFrom]⟩

/-- Something is left for an end, which stays registered. -/
theorem Piping.sent (h : Piping theirs e w₀ w) {s : Side} {n : Nat} (hw : w.conn.pending s ≠ [])
    (hz : (w.conn.pending s).drop n ≠ []) :
    Piping theirs e w₀ ((w.onConn fun c => c.setPending s ((c.pending s).drop n)).emit
      (.wrote s ((w.conn.pending s).take n))) := by
  have kept := (h.kept.setPending s fun c => (c.pending s).drop n).note
    (.wrote s ((w.conn.pending s).take n)) rfl rfl fun _ => rfl
  refine h.refill kept rfl rfl (h.write.congr fun p => ?_)
  simp only [relayWatch_write s, SocksConnection.WantsWrite,
    World.onConn_conn, World.emit_conn, SocksConnection.endpoint_setPending,
    SocksConnection.pending_setPending, if_true, Side.other_ne, if_false, hz, hw, ne_eq,
    not_false_eq_true, and_true]

/-- An end that has been sent everything is not written to any more. -/
theorem Piping.drained (ht : theirs.Aloof w₀.nextId w₀.conn.owned) (h : Piping theirs e w₀ w)
    {s : Side} {d : FileDescriptor} (hd : w.conn.endpoint s = some d) {n : Nat}
    (hz : (w.conn.pending s).drop n = []) :
    Piping theirs e w₀ (((w.onConn fun c => c.setPending s ((c.pending s).drop n)).emit
      (.wrote s ((w.conn.pending s).take n))).onSelect (·.removeWrite (some d))) := by
  have kept := (h.kept.setPending s fun c => (c.pending s).drop n).note
    (.wrote s ((w.conn.pending s).take n)) rfl rfl fun _ => rfl
  have apart := h.distinct s d hd
  refine h.refill (kept.select _ rfl rfl) rfl rfl (h.write.remove (h.without ht hd).2 fun p => ?_)
  simp only [relayWatch_write s, SocksConnection.WantsWrite,
    World.onSelect_conn, World.onConn_conn, World.emit_conn,
    SocksConnection.endpoint_setPending, SocksConnection.pending_setPending, hd, if_true,
    Side.other_ne, if_false, hz]
  grind

@[simp] theorem removeWriteIf_true (p : Pointer) :
    removeWriteIf true p = Select.removeWrite p := rfl

@[simp] theorem removeWriteIf_false (p : Pointer) : removeWriteIf false p = id := rfl

@[simp] theorem World.onSelect_id (w : World) : w.onSelect id = w := rfl

theorem pipeWrite_piping (ht : theirs.Aloof w₀.nextId w₀.conn.owned) (s : Side)
    (h : Piping theirs e w₀ w) :
    (pipeWrite s e w).Sat (fun _ => Piping theirs e w₀)
      (Strayed theirs e w₀) := by
  have count {w : World} (h : Piping theirs e w₀ w) (n : Nat) :
      Piping theirs e w₀ (updateLastActive e (w.onConn (·.addPiped n))) :=
    (h.edit (·.addPiped n) (fun _ => by simp) (fun _ => by simp) rfl rfl rfl ⟨rfl, rfl⟩).edit
      (·.touch e.time) (fun _ => by simp) (fun _ => by simp) rfl rfl rfl ⟨rfl, rfl⟩
  have left {d : FileDescriptor} (due : Due s w d) : w.conn.pending s ≠ [] :=
    mt List.length_eq_zero_iff.mpr due.waits
  refine pipeWrite_cases s e w (fun _ => h) (fun _ _ _ => ⟨h.kept, h.loose, h.buffs⟩)
    (fun d due _ => h.sent (left due) (left due)) fun d n due _ _ => ?_
  -- what is left decides whether `remove_write` follows
  by_cases hz : (w.conn.pending s).drop n = []
  · have := count (h.drained ht due.endpoint hz) n
    simpa [World.sent, hz] using this
  · have hlen : ¬ ((w.conn.pending s).drop n).length = 0 := mt List.length_eq_zero_iff.mp hz
    simpa only [Outcome.sat_ok, World.sent, World.emit_conn, World.onConn_conn, hlen,
      decide_false, SocksConnection.pending_setPending, if_true, removeWriteIf_false,
      World.onSelect_id] using count (h.sent (left due) hz) n

/-! ### The registration at the end of a round -/

section
variable {c : SocksConnection} {sel : Select} {s : Side} {d : FileDescriptor} {p : Pointer}

/-- An end that is there is registered anew. -/
theorem mem_registerRead (hd : c.endpoint s = some d) :
    p ∈ (registerRead s c sel).fileDescriptorsRead ↔
      (p ∈ sel.fileDescriptorsRead ∧ p ≠ some d) ∨
        ((c.pending s.other).length ≤ maxBuffSize ∧ p = some d) := by
  simp only [registerRead, hd]
  split
  · next hlen => simp [Nat.not_le_of_lt hlen]
  · next hlen =>
      rw [Select.mem_addRead]
      by_cases hp : p = some d
      · simp [hp, Nat.le_of_not_lt hlen]
      · simp [hp]

/-- An end that is not there takes the other one's registration away. -/
theorem mem_registerRead_null (hn : c.endpoint s = none) (hd : c.endpoint s.other = some d) :
    p ∈ (registerRead s c sel).fileDescriptorsRead ↔ p ∈ sel.fileDescriptorsRead ∧ p ≠ some d := by
  simp only [registerRead, hn, hd, Select.mem_removeRead]

theorem registerRead_write :
    (registerRead s c sel).fileDescriptorsWrite = sel.fileDescriptorsWrite := by
  unfold registerRead
  split
  · split <;> rfl
  · split <;> rfl

end

/-- Both ends registered anew, the read list is exact. -/
theorem registerRead_holds (ht : theirs.Aloof w₀.nextId w₀.conn.owned) (h : Piping theirs e w₀ w) :
    Holds theirs w.conn.relayWatch
      (registerRead .server w.conn (registerRead .client w.conn w.select)) := by
  obtain ⟨reads, hr, own⟩ := h.read
  refine ⟨fun p => ?_, by rw [registerRead_write, registerRead_write]; exact h.write⟩
  have hr := hr p
  have wants : w.conn.relayWatch.read p ↔
      w.conn.WantsRead .client ∧ p = w.conn.endpoint .client ∨
        w.conn.WantsRead .server ∧ p = w.conn.endpoint .server := relayWatch_read .client
  have alone (s : Side) (d : FileDescriptor) (hd : w.conn.endpoint s = some d) :
      ¬ theirs.read (some d) := (h.without ht hd).1
  have ends : reads p → p = w.conn.endpoint .client ∨ p = w.conn.endpoint .server := by
    intro hp
    obtain ⟨s, d, hd, rfl⟩ := own p hp
    cases s with
    | client => exact .inl hd.symm
    | server => exact .inr hd.symm
  have some_of : reads p → p ≠ none := by
    intro hp
    obtain ⟨s, d, -, rfl⟩ := own p hp
    nofun
  rw [wants]
  -- an end that is gone is `NULL`, and `register_read` of the other then looks at `NULL`
  unfold SocksConnection.WantsRead
  cases hc : w.conn.endpoint .client with
  | none =>
      cases hs : w.conn.endpoint .server with
      | none =>
          simp only [registerRead, hc, hs, Side.other]
          grind
      | some d =>
          rw [mem_registerRead hs, mem_registerRead_null hc hs, hr]
          have := alone .server d hs
          grind
  | some d =>
      have := alone .client d hc
      cases hs : w.conn.endpoint .server with
      | none =>
          rw [mem_registerRead_null hs hc, mem_registerRead hc, hr]
          simp only [Side.other, hs]
          grind
      | some d' =>
          have := alone .server d' hs
          have apart := h.distinct .client d hc
          rw [mem_registerRead hs, mem_registerRead hc, hr]
          simp only [Side.other, hs] at apart ⊢
          grind

/-! ### Suspension and activation -/

section
variable {c : SocksConnection} {s : Select} {p q : Pointer}

theorem mem_takeRead :
    p ∈ (takeRead q s).fileDescriptorsRead ↔ p ∈ s.fileDescriptorsRead ∧ (p = q → q = none) := by
  unfold takeRead Select.readContains
  split
  · next h =>
      rw [Bool.and_eq_true, decide_eq_true_eq, Option.isSome_iff_ne_none] at h
      simp [h.1]
  · next h =>
      rw [Bool.and_eq_true, decide_eq_true_eq, Option.isSome_iff_ne_none] at h
      grind

theorem mem_takeWrite :
    p ∈ (takeWrite q s).fileDescriptorsWrite ↔ p ∈ s.fileDescriptorsWrite ∧ (p = q → q = none) := by
  unfold takeWrite Select.writeContains
  split
  · next h =>
      rw [Bool.and_eq_true, decide_eq_true_eq, Option.isSome_iff_ne_none] at h
      simp [h.1]
  · next h =>
      rw [Bool.and_eq_true, decide_eq_true_eq, Option.isSome_iff_ne_none] at h
      grind

@[simp] theorem takeRead_write : (takeRead q s).fileDescriptorsWrite = s.fileDescriptorsWrite := by
  unfold takeRead
  split <;> rfl

@[simp] theorem takeWrite_read : (takeWrite q s).fileDescriptorsRead = s.fileDescriptorsRead := by
  unfold takeWrite
  split <;> rfl

@[simp] theorem takeRead_readSet : (takeRead q s).readSet = s.readSet := by
  unfold takeRead
  split <;> rfl

@[simp] theorem takeRead_writeSet : (takeRead q s).writeSet = s.writeSet := by
  unfold takeRead
  split <;> rfl

@[simp] theorem takeWrite_readSet : (takeWrite q s).readSet = s.readSet := by
  unfold takeWrite
  split <;> rfl

@[simp] theorem takeWrite_writeSet : (takeWrite q s).writeSet = s.writeSet := by
  unfold takeWrite
  split <;> rfl

/-- A suspension takes the ends out of both lists. -/
theorem take_holds {theirs : Watch} (h : Holds theirs c.relayWatch s)
    (ht : ∀ t d, c.endpoint t = some d → theirs.Without (some d)) :
    Holds theirs .nothing
      (takeWrite c.server (takeRead c.server (takeWrite c.client (takeRead c.client s)))) := by
  -- what was registered was an end, and it is taken out
  have gone {p : Pointer} (hp : c.relayWatch.read p ∨ c.relayWatch.write p)
      (hn : p = c.client → c.client = none) (hn' : p = c.server → c.server = none) : False := by
    have away (t : Side) (hne : c.endpoint t ≠ none) (he : p = c.endpoint t) : False := by
      cases t with
      | client => exact hne (hn he)
      | server => exact hne (hn' he)
    rcases hp with ⟨t, hw, he⟩ | ⟨t, hw, he⟩
    · exact away t hw.1 he
    · exact away t hw.1 he
  -- what others registered is no end of this one
  have stays {p : Pointer} (hp : theirs.read p ∨ theirs.write p) :
      (p = c.client → c.client = none) ∧ (p = c.server → c.server = none) := by
    have alone (t : Side) (he : p = c.endpoint t) : c.endpoint t = none := by
      cases hd : c.endpoint t with
      | none => rfl
      | some d =>
          rw [he, hd] at hp
          exact (hp.elim (ht t d hd).1 (ht t d hd).2).elim
    exact ⟨alone .client, alone .server⟩
  refine ⟨fun p => ?_, fun p => ?_⟩
  · simp only [mem_takeRead, takeWrite_read, h.read p]
    constructor
    · rintro ⟨⟨hp | hp, hn⟩, hn'⟩
      · exact .inl hp
      · exact (gone (.inl hp) hn hn').elim
    · rintro (hp | hp)
      · exact ⟨⟨.inl hp, (stays (.inl hp)).1⟩, (stays (.inl hp)).2⟩
      · cases hp
  · simp only [mem_takeWrite, takeRead_write, h.write p]
    constructor
    · rintro ⟨⟨hp | hp, hn⟩, hn'⟩
      · exact .inl hp
      · exact (gone (.inr hp) hn hn').elim
    · rintro (hp | hp)
      · exact ⟨⟨.inl hp, (stays (.inr hp)).1⟩, (stays (.inr hp)).2⟩
      · cases hp

/-- A suspension writes down the registrations that the relay wants. -/
theorem registrations_eq {theirs : Watch} (h : Holds theirs c.relayWatch s) (hd : Distinct c)
    (ht : ∀ t d, c.endpoint t = some d → theirs.Without (some d)) :
    registrations c s = c.wants := by
  have read (t : Side) : ((c.endpoint t).isSome && s.readContains (c.endpoint t)) =
      decide (c.WantsRead t) := by
    cases hp : c.endpoint t with
    | none => simp [SocksConnection.WantsRead, hp]
    | some d =>
        rw [Option.isSome_some, Bool.true_and]
        refine decide_eq_decide.mpr ((h.read _).trans ?_)
        rw [or_iff_right (ht t d hp).1, hd.reads hp]
  have write (t : Side) : ((c.endpoint t).isSome && s.writeContains (c.endpoint t)) =
      decide (c.WantsWrite t) := by
    cases hp : c.endpoint t with
    | none => simp [SocksConnection.WantsWrite, hp]
    | some d =>
        rw [Option.isSome_some, Bool.true_and]
        refine decide_eq_decide.mpr ((h.write _).trans ?_)
        rw [or_iff_right (ht t d hp).2, hd.writes hp]
  exact congr (congr (congr (congrArg DescriptorsSet.mk (read .client)) (write .client))
    (read .server)) (write .server)

end

theorem trySuspend_switched (ht : theirs.Aloof w₀.nextId w₀.conn.owned) (hk : Kept e w₀ w)
    (hst : w.conn.state = .pipeing) (hr : w.conn.suspended = false) (hd : Distinct w.conn)
    (hs : Holds theirs w.conn.relayWatch w.select) (hsh : Shaped w.conn)
    (hb : SameBuffs w₀.conn w.conn) : Switched theirs e w₀ true (trySuspend e w) := by
  have alone (t : Side) (d : FileDescriptor) (hp : w.conn.endpoint t = some d) :
      theirs.Without (some d) := hk.without ht (SocksConnection.endpoint_mem_owned hp)
  have awake : w.conn.suspended ≠ true := by simp [hr]
  have still : Switched theirs e w₀ true w :=
    .going hk (by rwa [SocksConnection.watch_relay hst hr]) hb hsh fun h => (awake h).elim
  unfold trySuspend
  dsimp only
  split
  · exact still
  · split
    · exact still
    · split
      · -- late: only the deadline moves
        refine .going (hk.edit _ rfl rfl rfl) ?_ hb hsh fun h => (awake h).elim
        rw [SocksConnection.watch_relay (by exact hst) (by exact hr)]
        exact hs
      · refine .going (((hk.timeout _).edit _ rfl rfl rfl).select _ (by simp) (by simp)) ?_ hb hsh
          fun _ => ?_
        · rw [SocksConnection.watch_suspended (by exact hst) rfl]
          exact take_holds hs alone
        · exact (registrations_eq hs hd alone).trans
            (SocksConnection.wants_congr (fun s => by cases s <;> rfl) fun s => by cases s <;> rfl)

section
variable {s : Select} {p q : Pointer} {b : Bool}

theorem mem_addReadIf :
    p ∈ (addReadIf b q s).fileDescriptorsRead ↔
      p ∈ s.fileDescriptorsRead ∨ b = true ∧ p = q := by
  cases b <;> simp [addReadIf]

theorem mem_addWriteIf :
    p ∈ (addWriteIf b q s).fileDescriptorsWrite ↔
      p ∈ s.fileDescriptorsWrite ∨ b = true ∧ p = q := by
  cases b <;> simp [addWriteIf]

@[simp] theorem addReadIf_write :
    (addReadIf b q s).fileDescriptorsWrite = s.fileDescriptorsWrite := by
  cases b <;> rfl
@[simp] theorem addWriteIf_read :
    (addWriteIf b q s).fileDescriptorsRead = s.fileDescriptorsRead := by
  cases b <;> rfl
@[simp] theorem addReadIf_readSet : (addReadIf b q s).readSet = s.readSet := by cases b <;> rfl
@[simp] theorem addReadIf_writeSet : (addReadIf b q s).writeSet = s.writeSet := by cases b <;> rfl
@[simp] theorem addWriteIf_readSet : (addWriteIf b q s).readSet = s.readSet := by cases b <;> rfl
@[simp] theorem addWriteIf_writeSet : (addWriteIf b q s).writeSet = s.writeSet := by cases b <;> rfl

end

/-- At the deadline the registrations come back as the relay wants them: nothing has changed since
they were written down. -/
theorem tryActivate_switched (hk : Kept e w₀ w) (hst : w.conn.state = .pipeing)
    (hr : w.conn.suspended = true) (hs : Holds theirs .nothing w.select) (hsh : Shaped w.conn)
    (hsv : w.conn.suspendedDescriptorsSet = w.conn.wants) (hb : SameBuffs w₀.conn w.conn) :
    Switched theirs e w₀ true (tryActivate e w) := by
  unfold tryActivate
  rw [if_neg (by simp [hr])]
  split
  · have watch : ({ w.conn with suspended := false } : SocksConnection).watch =
        w.conn.relayWatch := by
      simp only [SocksConnection.watch, hst, Bool.false_eq_true, if_false]
      exact SocksConnection.relayWatch_congr (fun s => by cases s <;> rfl)
        fun s => by cases s <;> rfl
    refine .going ((hk.edit _ rfl rfl rfl).select _ (by simp) (by simp)) ?_ hb hsh
      fun h => by cases h
    dsimp only [World.onSelect_conn, World.onConn_conn]
    rw [watch, hsv]
    refine ⟨fun p => ?_, fun p => ?_⟩
    · rw [relayWatch_read .client]
      simp only [World.onSelect_select, World.onConn_select, mem_addReadIf, addWriteIf_read,
        hs.read p, SocksConnection.wants, decide_eq_true_eq, Watch.nothing, or_false, or_assoc]
      rfl
    · rw [relayWatch_write .client]
      simp only [World.onSelect_select, World.onConn_select, mem_addWriteIf, addReadIf_write,
        hs.write p, SocksConnection.wants, decide_eq_true_eq, Watch.nothing, or_false, or_assoc]
      rfl
  · have watch := SocksConnection.watch_suspended hst hr
    exact .going (hk.timeout _) (watch ▸ hs) hb hsh fun _ => hsv

/-! ### A visit -/

theorem pipeFinish_switched (ht : theirs.Aloof w₀.nextId w₀.conn.owned) (hk : Kept e w₀ w)
    (hst : w.conn.state = .pipeing) (hr : w.conn.suspended = false) (hl : w.conn.listen = none)
    (hd : Distinct w.conn) (hs : Holds theirs w.conn.relayWatch w.select)
    (hb : SameBuffs w₀.conn w.conn) :
    (pipeFinish e w).Sat (Switched theirs e w₀) (Strayed theirs e w₀) := by
  have ended : Switched theirs e w₀ false (w.onSelect w.conn.clearSelect) :=
    .gone (hk.select _ (by simp) (by simp)) (SocksConnection.clearSelect_holds hs
      SocksConnection.relayWatch_of fun d hd => hk.without ht hd) hb
  refine pipeFinish_cases e w (fun _ _ _ => ended) (fun _ => ended) fun waits here => ?_
  have shaped : Shaped w.conn := by
    rw [Shaped, hst]
    refine ⟨?_, hl, waits .server, waits .client⟩
    obtain ⟨_ | _, h⟩ := here
    · exact .inl h
    · exact .inr h
  exact trySuspend_switched ht hk hst hr hd hs shaped hb

/-- **A visit to a relay** leaves exactly the registrations it wants, or, suspended, none and a note
of these. -/
theorem pipeing_switched (ht : theirs.Aloof w.nextId w.conn.owned) (hst : w.conn.state = .pipeing)
    (h₀ : w.trace = []) (hsh : Shaped w.conn) (hd : Distinct w.conn)
    (hsv : w.conn.suspended = true → w.conn.suspendedDescriptorsSet = w.conn.wants)
    (hs : Holds theirs w.conn.watch w.select) :
    (pipeing e w).Sat (Switched theirs e w) (Strayed theirs e w) := by
  unfold pipeing
  split
  · next hr =>
      have watch := SocksConnection.watch_suspended hst hr
      exact tryActivate_switched (.refl w h₀) hst hr (watch ▸ hs) hsh (hsv hr) ⟨rfl, rfl⟩
  · next hr =>
      have hr : w.conn.suspended = false := Bool.eq_false_iff.mpr hr
      have watch := SocksConnection.watch_relay hst hr
      have listen : w.conn.listen = none := by
        rw [Shaped, hst] at hsh
        exact hsh.2.1
      have ends : Ends w.conn w.conn.relayWatch.read := by
        rintro p ⟨s, hw, hp⟩
        obtain ⟨d, hd⟩ := Option.ne_none_iff_exists'.mp hw.1
        exact ⟨s, d, hd, hp.trans hd⟩
      have start : Piping theirs e w w :=
        ⟨.refl w h₀, hst, hr, listen, ⟨rfl, rfl⟩, hd, fun _ _ => id, ⟨_, (watch ▸ hs).read, ends⟩,
          (watch ▸ hs).write⟩
      have unread (s : Side) : readFrom s w.trace = [] := by rw [h₀]; rfl
      refine (pipeRead_piping ht .client start (unread _)).bind fun _ _ h => ?_
      refine (pipeRead_piping ht .server h.1 (h.2.trans (unread _))).bind fun _ _ h => ?_
      refine (pipeWrite_piping ht .client h.1).bind fun _ _ h => ?_
      refine (pipeWrite_piping ht .server h).bind fun _ w' h => ?_
      have set (s : Side) (c : SocksConnection) (sel : Select) :
          (registerRead s c sel).readSet = sel.readSet ∧
            (registerRead s c sel).writeSet = sel.writeSet := by
        unfold registerRead
        split
        · split <;> exact ⟨rfl, rfl⟩
        · split <;> exact ⟨rfl, rfl⟩
      exact pipeFinish_switched ht
        (h.kept.select _ ((set _ _ _).1.trans (set _ _ _).1) ((set _ _ _).2.trans (set _ _ _).2))
        h.state h.running h.listen h.distinct (registerRead_holds ht h) h.buffs

end

end OldStuff.Socks
