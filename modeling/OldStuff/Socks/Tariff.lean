import OldStuff.Socks.Clock
import OldStuff.Socks.Readiness
import OldStuff.Socks.Survivor
import OldStuff.Socks.Throttle

/-!
# Socks — the speed of the destination port

`try_suspend` asks for the port of `server` each time, and a server that has closed has none: the
question is then about port 0.  `port_limit_iff` says in which visits the slices of the port decide
all the same.
-/

namespace OldStuff.Socks
open OldStuff.Io
open OldStuff.Lib (Outcome)

/-- The server reports the end of its stream to a relay that is not suspended; the client is there,
and does not report the end of its own before. -/
def ServerCloses (e : Env) (w : World) : Prop :=
  w.conn.suspended = false ∧ w.conn.endpoint .client ≠ none ∧ ¬ ClientCloses e w ∧
    ∃ d, w.conn.endpoint .server = some d ∧ w.select.canRead d = true ∧ e.read .server = .eof

/-- The server is gone at the end of this visit. -/
def Visit.ServerGone (v : Visit) : Prop :=
  v.before.conn.server = none ∨ ServerCloses v.input.env (v.before.enter v.input)

section
variable {e : Env} {w w' w₀ u : World} {b : Bool}

/-- The client's block leaves the server's end alone. -/
theorem pipeRead_client_server : (pipeRead .client e w).Within fun w' =>
    w'.conn.endpoint .server = w.conn.endpoint .server ∧ w'.select.readSet = w.select.readSet := by
  refine pipeRead_cases .client e w (fun _ => ⟨rfl, rfl⟩) (fun _ _ _ _ => ⟨rfl, rfl⟩)
    (fun _ _ _ _ => ⟨rfl, rfl⟩) (fun _ _ _ _ => ⟨by simp [World.delete], rfl⟩) fun _ _ _ _ _ => ?_
  exact ⟨by simp [updateLastActive], by simp [updateLastActive]⟩

theorem pipeWrite_endpoint (s t : Side) :
    (pipeWrite s e w).Within fun w' => w'.conn.endpoint t = w.conn.endpoint t := by
  refine pipeWrite_cases s e w (fun _ => rfl) (fun _ _ _ => rfl) (fun _ _ _ => ?_)
    fun _ _ _ _ _ => ?_
  · simp [Outcome.Within, World.sent]
  · simp [Outcome.Within, updateLastActive, World.sent]

/-- The server's block, of a client that is there. -/
theorem pipeRead_server_server (hw : pipeRead .server e w = .ok () w') :
    w'.conn.endpoint .server = none ↔ w.conn.endpoint .server = none ∨
      w.conn.endpoint .client ≠ none ∧
        ∃ d, w.conn.endpoint .server = some d ∧ w.select.canRead d = true ∧
          e.read .server = .eof := by
  have stays (hn : ∀ d d', Asked .server w d d' → e.read .server ≠ .eof) :
      w.conn.endpoint .server = none ↔ w.conn.endpoint .server = none ∨
        w.conn.endpoint .client ≠ none ∧
          ∃ d, w.conn.endpoint .server = some d ∧ w.select.canRead d = true ∧
            e.read .server = .eof := by
    refine (or_iff_left ?_).symm
    rintro ⟨hc, d, hd, hr, he⟩
    obtain ⟨d', hd'⟩ := Option.ne_none_iff_exists'.mp hc
    exact hn d d' ⟨hd, hd', hr⟩ he
  revert hw
  refine pipeRead_cases .server e w (fun idle hw => ?_) (fun _ _ _ _ hw => by cases hw)
    (fun _ _ _ hr hw => ?_) (fun d d' asked hr hw => ?_) fun _ _ _ _ hr hw => ?_ <;>
    obtain rfl := (Outcome.ok.inj hw).2
  · exact stays fun d d' asked => absurd asked (idle d d')
  · exact stays fun _ _ _ he => by rw [hr] at he; cases he
  · refine iff_of_true (by simp [World.delete])
      (.inr ⟨?_, d, asked.endpoint, asked.ready, hr⟩)
    rw [show w.conn.endpoint .client = some d' from asked.other]
    exact Option.some_ne_none d'
  · have := stays fun _ _ _ he => by rw [hr] at he; cases he
    simpa [updateLastActive] using this

/-- The four blocks of a round; the registration that follows is no edit of the connection. -/
theorem pipeRound_blocks (hr : pipeRound e w = .ok () u) : ∃ a₁ w₁ a₂ w₂ a₃ w₃ a₄ w₄,
    pipeRead .client e w = .ok a₁ w₁ ∧ pipeRead .server e w₁ = .ok a₂ w₂ ∧
      pipeWrite .client e w₂ = .ok a₃ w₃ ∧ pipeWrite .server e w₃ = .ok a₄ w₄ ∧
      u.conn = w₄.conn := by
  unfold pipeRound at hr
  obtain ⟨a₁, w₁, h₁, hr⟩ := Outcome.bind_eq_ok.mp hr
  obtain ⟨a₂, w₂, h₂, hr⟩ := Outcome.bind_eq_ok.mp hr
  obtain ⟨a₃, w₃, h₃, hr⟩ := Outcome.bind_eq_ok.mp hr
  obtain ⟨a₄, w₄, h₄, hr⟩ := Outcome.bind_eq_ok.mp hr
  obtain rfl := (Outcome.ok.inj hr).2
  exact ⟨a₁, w₁, a₂, w₂, a₃, w₃, a₄, w₄, h₁, h₂, h₃, h₄, rfl⟩

/-- **The server after a round**: it is gone if it was, or closes now. -/
theorem pipeRound_server (hq : w.conn.suspended = false) (hr : pipeRound e w = .ok () u) :
    u.conn.endpoint .server = none ↔ w.conn.endpoint .server = none ∨ ServerCloses e w := by
  obtain ⟨_, w₁, _, w₂, _, w₃, _, w₄, h₁, h₂, h₃, h₄, hu⟩ := pipeRound_blocks hr
  obtain ⟨server, bits⟩ := pipeRead_client_server.of_ok h₁
  have client := ((pipeRead_client_parted hq).of_ok h₁).client
  have third := (pipeWrite_endpoint .client .server).of_ok h₃
  have fourth := (pipeWrite_endpoint .server .server).of_ok h₄
  rw [hu, fourth, third, pipeRead_server_server h₂, server, ne_eq, client, not_or,
    ServerCloses, and_iff_right hq, and_assoc]
  refine or_congr_right (and_congr_right fun _ => and_congr_right fun _ => ?_)
  simp only [Select.canRead, bits]

/-- A round of a relay puts no end in the place of another. -/
theorem pipeRound_endpoint (s : Side) {d : FileDescriptor} (hr : pipeRound e w = .ok () u)
    (hd : u.conn.endpoint s = some d) : w.conn.endpoint s = some d := by
  obtain ⟨_, w₁, _, w₂, _, w₃, _, w₄, h₁, h₂, h₃, h₄, hu⟩ := pipeRound_blocks hr
  rw [hu] at hd
  have reads := ((pipeRead_inert .client).of_ok h₁).trans ((pipeRead_inert .server).of_ok h₂)
  have writes := ((pipeWrite_inert .client).of_ok h₃).trans ((pipeWrite_inert .server).of_ok h₄)
  exact (reads.trans writes).endpoint s d hd

/-- Nor does a visit. -/
theorem work_endpoint (s : Side) {d : FileDescriptor} (hst : w.conn.state = .pipeing)
    (hw : work e w = .ok true w') (hd : w'.conn.endpoint s = some d) :
    w.conn.endpoint s = some d := by
  cases hq : w.conn.suspended with
  | true =>
      rw [work_waits hst hq] at hw
      obtain rfl := (Outcome.ok.inj hw).2
      rwa [tryActivate_same.endpoint] at hd
  | false =>
      obtain ⟨u, hr, rfl⟩ := work_limits hst hq hw
      rw [trySuspend_same.endpoint] at hd
      exact pipeRound_endpoint s hr hd

/-- As long as there is a server, it is the one the relay began with. -/
theorem Run.server {us vs : List Visit} {d d' : FileDescriptor} (he : Entry us w₀)
    (h : Run w₀ vs true w) (hs : w₀.conn.server = some d) (hd : w.conn.server = some d') :
    d' = d := by
  generalize hb : true = b at h
  induction h generalizing d' with
  | start => exact Option.some.inj (hd.symm.trans hs)
  | @step vs w w' b i h hw ih =>
      subst hb
      have relaying := h.relaying (he.handshaken.relaying he.state)
      exact ih (work_endpoint (w := w.enter i) .server relaying.state hw hd) rfl

/-- **The port's limit.**  Of a relay to the port of `d`, while the configuration has slices for
that port: `try_suspend` charges by them unless the server is gone by then and the slices for
port 0, or of the day, give another speed. -/
theorem port_limit_iff {us vs : List Visit} {d : FileDescriptor} (he : Entry us w₀)
    (h : Run w₀ vs b w) (hs : w₀.conn.server = some d) {v : Visit} (hv : v ∈ vs)
    {slices : List TimeSlice}
    (hc : v.input.env.config.speedPort.lookup (d.getRemotePortHostOrder v.input.env.abi) =
      some slices) (hne : slices ≠ []) {u : World} (hl : v.Limits u) :
    getSpeed v.input.env u.conn = Config.getSpeedTime v.input.env.tm slices ↔
      ¬ v.ServerGone ∨ (v.input.env.config.getSpeed v.input.env.tm 0).1 =
        Config.getSpeedTime v.input.env.tm slices := by
  obtain ⟨vs₁, ts, -, before, -⟩ := h.visit hv
  have gone : u.conn.server = none ↔ v.ServerGone :=
    pipeRound_server (w := v.before.enter v.input) hl.awake hl.round
  cases hu : u.conn.server with
  | none =>
      rw [getSpeed, remotePort, hu, or_iff_right (not_not.mpr (gone.mp hu))]
  | some d' =>
      have there : ¬ v.ServerGone := fun hg => by
        rw [gone.mpr hg] at hu
        cases hu
      obtain rfl : d' = d :=
        before.server he hs (pipeRound_endpoint (w := v.before.enter v.input) .server hl.round hu)
      rw [getSpeed, remotePort, hu]
      refine iff_of_true ?_ (.inl there)
      -- the port has slices, so they decide
      have some' : ¬ slices.length = 0 := fun h => hne (List.length_eq_zero_iff.mp h)
      simp only [Config.getSpeed, hc, Option.getD_some, ne_eq, some', not_false_eq_true, if_true]

end

namespace Sample

/-- Port 80 is without a limit; anything else is held to one byte a second. -/
def port80 : Config where
  speed := fun _ => [⟨0, 0, 24, 0, 1⟩]
  speedPort := AList.insert 80 [⟨0, 0, 24, 0, 0⟩] ∅

/-- Three bytes come from the server; the client takes one of them, and one more in the visit in
which the server closes. -/
def download : List Visit × Bool × World :=
  play (handshake request).2.2 (List.map
    (fun i w => { i w with env := { (i w).env with config := port80 } })
    [visit [8] [] { env with read := fun _ => .data threeBytes },
      visit [] [7] { env with write := fun _ => .wrote 1 },
      visit [8] [7] { env with read := fun _ => .eof, write := fun _ => .wrote 1 }])

theorem run_download : Run (handshake request).2.2 download.1 download.2.1 download.2.2 :=
  run_play _ _

theorem port80_lookup : port80.speedPort.lookup 80 = some [⟨0, 0, 24, 0, 0⟩] :=
  AList.lookup_insert _

end Sample

set_option maxRecDepth 10000 in
theorem port_limit_sample :
    ∃ v ∈ Sample.download.1, ∃ u, v.Limits u ∧ relayed v.after.trace = 1 ∧
      getSpeed v.input.env u.conn = 0 := by
  have mem : Sample.download.1.get ⟨1, by decide⟩ ∈ Sample.download.1 := List.get_mem ..
  have limits : (Sample.download.1.get ⟨1, by decide⟩).Limits _ := ⟨rfl, rfl, rfl, rfl⟩
  have there : ¬ (Sample.download.1.get ⟨1, by decide⟩).ServerGone := by
    rintro (hn | ⟨-, -, -, d, -, hr, -⟩)
    · cases hn
    · exact absurd (of_decide_eq_true hr) List.not_mem_nil
  refine ⟨_, mem, _, limits, by decide, ?_⟩
  exact (port_limit_iff Sample.entry Sample.run_download rfl mem Sample.port80_lookup (by decide)
    limits).mpr (.inl there)

set_option maxRecDepth 10000 in
/-- The server has closed, and the byte that still goes to the client is charged at one byte a
second. -/
theorem port_limit_lost :
    Entry (Sample.handshake Sample.request).1 (Sample.handshake Sample.request).2.2 ∧
      Run (Sample.handshake Sample.request).2.2 Sample.download.1 Sample.download.2.1
        Sample.download.2.2 ∧
      ¬ ∀ v ∈ Sample.download.1, ∀ u slices, v.Limits u → relayed v.after.trace ≠ 0 →
        v.input.env.config.speedPort.lookup 80 = some slices → slices ≠ [] →
        getSpeed v.input.env u.conn = Config.getSpeedTime v.input.env.tm slices := by
  refine ⟨Sample.entry, Sample.run_download, fun h => ?_⟩
  have mem : Sample.download.1.get ⟨2, by decide⟩ ∈ Sample.download.1 := List.get_mem ..
  have charged := h _ mem _ _ ⟨rfl, rfl, rfl, rfl⟩ (by decide +kernel) Sample.port80_lookup
    (by decide)
  exact absurd charged (by decide)

end OldStuff.Socks
