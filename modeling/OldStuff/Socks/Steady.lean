import OldStuff.Socks.Interest
import OldStuff.Socks.Stages

/-!
# Socks — a connection among others

A connection shares the lists, the timeout, the status map and the supply of objects with the rest
of the server.  What it relies on is little (`Rely`): its own registrations are as it left them,
the others have registered nothing of its, and a descriptor of its is reported ready only if it is
registered.  In return every visit leaves the shared objects in order (`visit_tended`), whatever the
state, and the buffers within their bounds, at every moment of the visit (`Peak`).

`Honest` states the reliance of a visit in terms of the visit before; a run of honest visits is
`Steady` throughout.
-/

namespace OldStuff.Socks
open OldStuff.Io
open OldStuff.Lib (Outcome)
open OldStuff.Io.Select (Holds)

/-- What a connection finds when `work` is called. -/
structure Rely (theirs : Watch) (w : World) : Prop where
  holds : Holds theirs w.conn.watch w.select
  aloof : theirs.Aloof w.nextId w.conn.owned
  ids : ∀ d ∈ w.conn.owned, d.id < w.nextId
  ready : ∀ d ∈ w.conn.owned, w.select.canRead d = true → some d ∈ w.select.fileDescriptorsRead

/-- A connection that lives, after the events `es`. -/
structure Sound (es : List Event) (c : SocksConnection) : Prop where
  staged : Staged true es c
  shaped : Shaped c
  nodup : c.owned.Nodup
  saved : c.suspended = true → c.suspendedDescriptorsSet = c.wants
  sized : Sized true c

/-- The buffers of `c` and all that a visit reads: no buffer holds more at any moment of the
visit. -/
structure Peak (c : SocksConnection) (es : List Event) : Prop where
  request : c.clientReadBuff.length + (readFrom .client es).length ≤ 2 * maxBuffSize
  relay : ∀ s, (c.pending (Side.other s)).length + (readFrom s es).length ≤ 2 * maxBuffSize

theorem Sized.pending {alive : Bool} {c : SocksConnection} (h : Sized alive c) (s : Side) :
    (c.pending s).length ≤ 2 * maxBuffSize := by
  cases s with
  | client => exact h.clientWriteBuff
  | server => exact h.serverWriteBuff

theorem sound_new (client : FileDescriptor) (time : Int) : Sound [] (.new client time) where
  staged := .handshake (handshaken_new client time)
  shaped := ⟨nofun, rfl, rfl⟩
  nodup := List.nodup_singleton client
  saved := nofun
  sized := ⟨fun _ => maxBuffSize_pos, Nat.zero_le _, Nat.zero_le _, rfl, Nat.zero_le _⟩

section
variable {theirs : Watch} {past : List Event} {i : Input} {w w' : World} {b : Bool}

theorem Sound.distinct {c : SocksConnection} (h : Sound past c) : Distinct c :=
  distinct_of_nodup h.nodup

/-- A connection is in its handshake, or it relays. -/
theorem Sound.cases {c : SocksConnection} (h : Sound past c) :
    c.state ≠ .pipeing ∧ Handshaken true past c ∨ c.state = .pipeing ∧ ∃ fs, Relaying fs c := by
  by_cases hst : c.state = .pipeing
  · exact .inr ⟨hst, h.staged.relays hst⟩
  · exact .inl ⟨hst, h.staged.handshaken hst⟩

/-! ### One visit -/

/-- **`work` returns**: no exception leaves it, and no `NULL` is followed. -/
theorem visit_total (i : Input) (hs : Sound past w.conn) :
    ∃ b w', work i.env (w.enter i) = .ok b w' := by
  have keeps : Keeps Staged past (work i.env (w.enter i)) := work_staged rfl hs.staged
  unfold work at *
  cases h : handler i.env (w.enter i) with
  | ok b w' => exact ⟨b, w', rfl⟩
  | thrown w' => exact ⟨false, _, rfl⟩
  | fault =>
      rw [h] at keeps
      exact keeps.elim

/-- A visit to a relay, an exception included. -/
theorem visit_switched (hw : work i.env (w.enter i) = .ok b w') (hr : Rely theirs (w.enter i))
    (hs : Sound past w.conn) (hst : w.conn.state = .pipeing) :
    Switched theirs i.env (w.enter i) b w' := by
  have switched := pipeing_switched (e := i.env) hr.aloof hst rfl hs.shaped hs.distinct hs.saved
    hr.holds
  have worked : (work i.env (w.enter i)).Sat (Switched theirs i.env (w.enter i))
      fun _ => False := by
    unfold work
    rw [handler, show (w.enter i).conn.state = .pipeing from hst]
    refine switched.recover fun w' h => ?_
    obtain ⟨mine, holds, own⟩ := h.loose
    exact .gone (h.kept.select _ (by simp) (by simp)) (SocksConnection.clearSelect_holds
      holds own fun d hd => h.kept.without hr.aloof hd) h.buffs
  exact worked.of_ok hw

/-- A visit to a handshake, an exception included. -/
theorem visit_handshake (hw : work i.env (w.enter i) = .ok b w') (hr : Rely theirs (w.enter i))
    (hs : Sound past w.conn) (hst : w.conn.state ≠ .pipeing)
    (hq : w.conn.suspended = false) : Tended theirs i.env (w.enter i) b w' := by
  have tended := handler_tended (e := i.env) hr.aloof hst rfl hs.shaped hq hr.holds hs.sized
  have worked : (work i.env (w.enter i)).Sat (Tended theirs i.env (w.enter i)) fun _ => False :=
    tended.recover fun w' h => clear_tended hr.aloof h.kept h.loose h.sized
  exact worked.of_ok hw

theorem visit_kept (hw : work i.env (w.enter i) = .ok b w') (hr : Rely theirs (w.enter i))
    (hs : Sound past w.conn) : Kept i.env (w.enter i) w' := by
  obtain ⟨hst, h⟩ | ⟨hst, -⟩ := hs.cases
  · exact (visit_handshake hw hr hs hst h.quiet.suspended).kept
  · exact (visit_switched hw hr hs hst).kept

/-- What is read from an end goes into a buffer that is not over the limit: it is registered, or it
would not be ready. -/
theorem visit_peak (hw : work i.env (w.enter i) = .ok b w') (hr : Rely theirs (w.enter i))
    (hs : Sound past w.conn) : Peak w.conn w'.trace := by
  have kept := visit_kept hw hr hs
  have short (s : Side) : (readFrom s w'.trace).length ≤ maxBuffSize := by
    rcases kept.reads s with hn | ⟨hl, -⟩
    · rw [hn]
      exact Nat.zero_le _
    · exact hl
  have calm := hs.sized.calm rfl
  refine ⟨by have := short .client; omega, fun s => ?_⟩
  have nothing (hn : readFrom s w'.trace = []) :
      (w.conn.pending s.other).length + (readFrom s w'.trace).length ≤ 2 * maxBuffSize := by
    rw [hn]
    exact hs.sized.pending s.other
  obtain ⟨hst, h⟩ | ⟨hst, -⟩ := hs.cases
  · cases s with
    | server =>
        have keeps : Keeps Handshaken past (work i.env (w.enter i)) :=
          work_handshaken hst (by rwa [World.log, World.enter, List.append_nil])
        have := (keeps.of_ok hw).fromServer
        rw [World.log, readFrom_append, h.fromServer, List.nil_append] at this
        exact nothing this
    | client =>
        have := short .client
        have : w.conn.pending (Side.other .client) = [] := h.quiet.serverWriteBuff
        rw [this]
        simp only [List.length_nil]
        omega
  · rcases kept.reads s with hn | ⟨hl, d, hd, hc⟩
    · exact nothing hn
    · have own : d ∈ w.conn.owned := SocksConnection.endpoint_mem_owned hd
      have registered := (hr.holds.read _).mp (hr.ready d own hc)
      have wants : w.conn.WantsRead s := by
        rcases registered with ht | hm
        · exact absurd ht (hr.aloof.without own).1
        · change w.conn.watch.read (some d) at hm
          unfold SocksConnection.watch at hm
          rw [hst] at hm
          dsimp only at hm
          split at hm
          · cases hm
          · exact (hs.distinct.reads hd).mp hm
      have := wants.2.2
      omega

/-- Over a visit to a relay, what waited for an end and what came for it is what was written to it
and what waits. -/
theorem visit_conserved (hw : work i.env (w.enter i) = .ok b w') {fs : List Event}
    (h : Relaying fs w.conn) (s : Side) :
    w.conn.pending s.other ++ readFrom s w'.trace =
      wroteTo s.other w'.trace ++ w'.conn.pending s.other := by
  have after := (visit_relaying hw h).balanced s
  have before := h.balanced s
  unfold Lib.Conserved at after before
  rw [readFrom_append, wroteTo_append, before, List.append_assoc, List.append_assoc] at after
  exact List.append_cancel_left after

theorem visit_sized (hw : work i.env (w.enter i) = .ok b w') (hr : Rely theirs (w.enter i))
    (hs : Sound past w.conn) : Sized b w'.conn := by
  obtain ⟨hst, h⟩ | ⟨hst, fs, h⟩ := hs.cases
  · exact (visit_handshake hw hr hs hst h.quiet.suspended).sized
  · have peak := visit_peak hw hr hs
    obtain ⟨client, server⟩ : SameBuffs w.conn w'.conn := (visit_switched hw hr hs hst).buffs
    have pending (s : Side) : (w'.conn.pending s.other).length ≤ 2 * maxBuffSize := by
      have conserved := congrArg List.length (visit_conserved hw h s)
      have := peak.relay s
      simp only [List.length_append] at conserved
      omega
    exact ⟨fun _ => by rw [client]; exact hs.sized.calm rfl,
      by rw [client]; exact hs.sized.clientReadBuff, pending .server,
      by rw [server]; exact hs.sized.serverReadBuff, pending .client⟩

/-- **What a connection guarantees**: after `work` nothing is registered but what the others have
and what the state says, nothing at all of a connection that ends. -/
theorem visit_tended (hw : work i.env (w.enter i) = .ok b w') (hr : Rely theirs (w.enter i))
    (hs : Sound past w.conn) : Tended theirs i.env (w.enter i) b w' := by
  obtain ⟨hst, h⟩ | ⟨hst, -⟩ := hs.cases
  · exact visit_handshake hw hr hs hst h.quiet.suspended
  · have switched := visit_switched hw hr hs hst
    exact ⟨switched.kept, switched.live, switched.ended, visit_sized hw hr hs⟩

theorem Kept.nodup {e : Env} {w₀ : World} (h : Kept e w₀ w) (hn : w₀.conn.owned.Nodup)
    (hi : ∀ d ∈ w₀.conn.owned, d.id < w₀.nextId) : w.conn.owned.Nodup := by
  have all : (w₀.conn.owned ++ created w.trace).Nodup := by
    rcases h.supply with ⟨hc, -⟩ | ⟨d, hc, hid, -⟩
    · rwa [hc, List.append_nil]
    · rw [hc]
      refine List.nodup_append.mpr ⟨hn, List.nodup_singleton d, fun d' hd' d'' hd'' he => ?_⟩
      obtain rfl := List.mem_singleton.mp hd''
      subst he
      have := hi _ hd'
      omega
  exact (List.nodup_append.mp (h.books.nodup_iff.mp all)).1

/-- A visit that `work` survives leaves a sound connection. -/
theorem visit_sound (hw : work i.env (w.enter i) = .ok true w') (hr : Rely theirs (w.enter i))
    (hs : Sound past w.conn) : Sound (past ++ w'.trace) w'.conn := by
  have staged : Keeps Staged past (work i.env (w.enter i)) := work_staged rfl hs.staged
  have nodup := (visit_kept hw hr hs).nodup hs.nodup hr.ids
  have sized := visit_sized hw hr hs
  obtain ⟨hst, h⟩ | ⟨hst, -⟩ := hs.cases
  · have keeps : Keeps Handshaken past (work i.env (w.enter i)) :=
      work_handshaken hst (by rwa [World.log, World.enter, List.append_nil])
    have after := keeps.of_ok hw
    refine ⟨staged.of_ok hw, after.shaped, nodup, fun hsu => ?_, sized⟩
    rw [after.quiet.suspended] at hsu
    cases hsu
  · have switched := visit_switched hw hr hs hst
    exact ⟨staged.of_ok hw, switched.shaped rfl, nodup, switched.saved rfl, sized⟩

end

/-! ### Runs among others -/

/-- The rest of the server leaves a connection's registrations as they are, its own are of objects
that exist, and of the connection's descriptors only registered ones are reported ready. -/
structure Visit.Honest (v : Visit) : Prop where
  read : ∀ d ∈ v.before.conn.owned, some d ∈ v.input.select.fileDescriptorsRead ↔
    some d ∈ v.before.select.fileDescriptorsRead
  write : ∀ d ∈ v.before.conn.owned, some d ∈ v.input.select.fileDescriptorsWrite ↔
    some d ∈ v.before.select.fileDescriptorsWrite
  known : ∀ p, p ∈ v.input.select.fileDescriptorsRead ∨ p ∈ v.input.select.fileDescriptorsWrite →
    ∃ d, p = some d ∧ d.id < v.input.nextId
  ids : ∀ d ∈ v.before.conn.owned, d.id < v.input.nextId
  ready : ∀ d ∈ v.before.conn.owned, v.input.select.canRead d = true →
    some d ∈ v.input.select.fileDescriptorsRead

/-- The promise can be checked. -/
instance (v : Visit) : Decidable v.Honest :=
  decidable_of_iff
    ((∀ d ∈ v.before.conn.owned, some d ∈ v.input.select.fileDescriptorsRead ↔
        some d ∈ v.before.select.fileDescriptorsRead) ∧
      (∀ d ∈ v.before.conn.owned, some d ∈ v.input.select.fileDescriptorsWrite ↔
        some d ∈ v.before.select.fileDescriptorsWrite) ∧
      (∀ p ∈ v.input.select.fileDescriptorsRead.toList ++
          v.input.select.fileDescriptorsWrite.toList,
        (p.map fun d => decide (d.id < v.input.nextId)) = some true) ∧
      (∀ d ∈ v.before.conn.owned, d.id < v.input.nextId) ∧
      ∀ d ∈ v.before.conn.owned, v.input.select.canRead d = true →
        some d ∈ v.input.select.fileDescriptorsRead)
    ⟨fun ⟨hr, hw, hk, hi, hd⟩ => ⟨hr, hw, fun p hp => by
        obtain ⟨d, hd, hid⟩ := Option.map_eq_some_iff.mp (hk p (List.mem_append.mpr hp))
        exact ⟨d, hd, of_decide_eq_true hid⟩, hi, hd⟩,
      fun h => ⟨h.read, h.write, fun p hp => by
        obtain ⟨d, rfl, hid⟩ := h.known p (List.mem_append.mp hp)
        simp [hid], h.ids, h.ready⟩⟩

/-- What stands in the lists that is none of the connection's. -/
def others (i : Input) (w : World) : Watch where
  read := fun p => p ∈ i.select.fileDescriptorsRead ∧ ∀ d ∈ w.conn.owned, p ≠ some d
  write := fun p => p ∈ i.select.fileDescriptorsWrite ∧ ∀ d ∈ w.conn.owned, p ≠ some d

/-- A connection that lives, between two visits. -/
structure Steady (es : List Event) (w : World) : Prop where
  sound : Sound es w.conn
  read : ∀ d ∈ w.conn.owned, some d ∈ w.select.fileDescriptorsRead ↔ w.conn.watch.read (some d)
  write : ∀ d ∈ w.conn.owned, some d ∈ w.select.fileDescriptorsWrite ↔ w.conn.watch.write (some d)

/-- A relay that is not suspended has its ends in the read list as it wants them there. -/
theorem Steady.reads_iff {es : List Event} {w : World} (h : Steady es w)
    (hst : w.conn.state = .pipeing) (hq : w.conn.suspended = false) {s : Side} {d : FileDescriptor}
    (hd : w.conn.endpoint s = some d) :
    some d ∈ w.select.fileDescriptorsRead ↔ w.conn.WantsRead s := by
  rw [h.read d (SocksConnection.endpoint_mem_owned hd), SocksConnection.watch_relay hst hq,
    h.sound.distinct.reads hd]

/-- And in the write list. -/
theorem Steady.writes_iff {es : List Event} {w : World} (h : Steady es w)
    (hst : w.conn.state = .pipeing) (hq : w.conn.suspended = false) {s : Side} {d : FileDescriptor}
    (hd : w.conn.endpoint s = some d) :
    some d ∈ w.select.fileDescriptorsWrite ↔ w.conn.WantsWrite s := by
  rw [h.write d (SocksConnection.endpoint_mem_owned hd), SocksConnection.watch_relay hst hq,
    h.sound.distinct.writes hd]

theorem steady_fresh (self : Nat) (client : FileDescriptor) (time : Int) :
    Steady [] (World.fresh self client time) where
  sound := sound_new client time
  read := by
    intro d hd
    obtain rfl := List.mem_singleton.mp hd
    exact iff_of_true (Select.mem_addRead.mpr (.inr rfl)) rfl
  write := fun _ _ => iff_of_false (Lib.Roster.not_mem_empty _) nofun

section
variable {es : List Event} {i : Input} {w w' : World} {b : Bool}

/-- An honest visit finds what the connection relies on. -/
theorem Visit.Honest.rely {v : Visit} (h : v.Honest) (hs : Steady es v.before) :
    Rely (others v.input v.before) (v.before.enter v.input) where
  holds := by
    have own := SocksConnection.watch_of hs.sound.shaped
    have share {list theirs mine : Pointer → Prop}
        (ht : ∀ p, theirs p ↔ list p ∧ ∀ d ∈ v.before.conn.owned, p ≠ some d)
        (hm : ∀ d ∈ v.before.conn.owned, list (some d) ↔ mine (some d))
        (ho : ∀ p, mine p → ∃ d ∈ v.before.conn.owned, p = some d) (p : Pointer) :
        list p ↔ theirs p ∨ mine p := by
      rw [ht]
      constructor
      · intro hp
        by_cases hd : ∃ d ∈ v.before.conn.owned, p = some d
        · obtain ⟨d, hd, rfl⟩ := hd
          exact .inr ((hm d hd).mp hp)
        · exact .inl ⟨hp, fun d hd' he => hd ⟨d, hd', he⟩⟩
      · rintro (hp | hp)
        · exact hp.1
        · obtain ⟨d, hd, rfl⟩ := ho p hp
          exact (hm d hd).mpr hp
    exact ⟨share (fun _ => Iff.rfl) (fun d hd => (h.read d hd).trans (hs.read d hd))
        fun p hp => own p (.inl hp),
      share (fun _ => Iff.rfl) (fun d hd => (h.write d hd).trans (hs.write d hd))
        fun p hp => own p (.inr hp)⟩
  aloof := by
    intro p hp
    obtain ⟨d, rfl, hid⟩ := h.known p (hp.imp And.left And.left)
    exact ⟨d, rfl, hid, fun hd => hp.elim (fun hp => hp.2 d hd rfl) fun hp => hp.2 d hd rfl⟩
  ids := h.ids
  ready := h.ready

/-- What a connection relies on makes the visit an honest one. -/
theorem Rely.honest {theirs : Watch} (h : Rely theirs (w.enter i)) (hs : Steady es w) (b : Bool)
    (w' : World) : (⟨i, w, b, w'⟩ : Visit).Honest where
  read := by
    intro d hd
    have own := h.aloof.without hd
    rw [hs.read d hd]
    exact (h.holds.read _).trans (or_iff_right own.1)
  write := by
    intro d hd
    have own := h.aloof.without hd
    rw [hs.write d hd]
    exact (h.holds.write _).trans (or_iff_right own.2)
  known := by
    intro p hp
    -- a registered object is the connection's own or another's, and both exist
    have known {list theirs' mine : Pointer → Prop} (hl : ∀ p, list p ↔ theirs' p ∨ mine p)
        (ht : ∀ p, theirs' p → ∃ d, p = some d ∧ d.id < i.nextId)
        (hm : ∀ p, mine p → ∃ d ∈ w.conn.owned, p = some d) {p : Pointer} (hp : list p) :
        ∃ d, p = some d ∧ d.id < i.nextId := by
      rcases (hl p).mp hp with hp | hp
      · exact ht p hp
      · obtain ⟨d, hd, rfl⟩ := hm p hp
        exact ⟨d, rfl, h.ids d hd⟩
    have theirs {p : Pointer} (hp : theirs.read p ∨ theirs.write p) :
        ∃ d, p = some d ∧ d.id < i.nextId := by
      obtain ⟨d, rfl, hid, -⟩ := h.aloof p hp
      exact ⟨d, rfl, hid⟩
    have own := SocksConnection.watch_of hs.sound.shaped
    rcases hp with hp | hp
    · exact known h.holds.read (fun p hp => theirs (.inl hp)) (fun p hp => own p (.inl hp)) hp
    · exact known h.holds.write (fun p hp => theirs (.inr hp)) (fun p hp => own p (.inr hp)) hp
  ids := h.ids
  ready := h.ready

/-- A visit that `work` survives leaves a steady connection. -/
theorem visit_steady {theirs : Watch} (hw : work i.env (w.enter i) = .ok true w')
    (hr : Rely theirs (w.enter i)) (hs : Sound es w.conn) : Steady (es ++ w'.trace) w' := by
  have tended := visit_tended hw hr hs
  have holds := tended.live rfl
  refine ⟨visit_sound hw hr hs, fun d hd => ?_, fun d hd => ?_⟩
  · rw [holds.read, or_iff_right (tended.kept.without hr.aloof hd).1]
  · rw [holds.write, or_iff_right (tended.kept.without hr.aloof hd).2]

variable {self : Nat} {client : FileDescriptor} {time : Int} {vs : List Visit}

/-- **A run of honest visits** is steady after each of them. -/
theorem Run.steady (h : Run (World.fresh self client time) vs b w) (hh : ∀ v ∈ vs, v.Honest)
    (hb : b = true) : Steady (events vs) w := by
  induction h with
  | start => exact steady_fresh self client time
  | step i _ hw ih =>
      subst hb
      have before := ih (fun v hv => hh v (List.mem_append_left _ hv)) rfl
      have honest := hh _ (List.mem_append_right _ (List.mem_singleton_self _))
      rw [events_append, events_singleton]
      exact visit_steady hw (honest.rely before) before.sound

end

end OldStuff.Socks
