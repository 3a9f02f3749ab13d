import OldStuff.Socks.Access
import OldStuff.Socks.Chronicle
import OldStuff.Socks.Network

/-!
# Socks — the list in force

The check of a client stands in one place, `serve_request`, and the list that it goes through may be
another at every visit: `main` loads the file again on a signal.  `firewall` says what comes of it
for the whole server.  Of a client that no list in force ever admits nothing gets through: no socket
is created for it, and no byte is written to a server on its behalf.

`Run.shut_out` says so of a run.  Until the client is let in a connection has no descriptor but the
client's (`Run.books`), so that it is this client's address that is checked.
-/

namespace OldStuff.Socks
open OldStuff.Io
open OldStuff.Lib (Accounted Ere.Search Ere.wildSearch Ere.search_wildSearch)

section
variable {self id : Nat} {client : FileDescriptor} {time : Int} {vs : List Visit} {b : Bool}
  {w : World} {ts : List Calls} {es : List Event} {conn : Option Connection}
  {log : List (Nat × Event)} {s : Server}

/-! ### A run -/

/-- What a run has created it has, or has deleted. -/
theorem Run.books (h : Run (.fresh self client time) vs b w) (honest : ∀ v ∈ vs, v.Honest) :
    Accounted [client] (Socks.created (events vs)) w.conn.owned (deleted (events vs)) := by
  induction h with
  | start => exact .refl [client]
  | @step vs w w' b i h hw ih =>
      have honest' : ∀ v ∈ vs, v.Honest := fun v hv => honest v (List.mem_append_left _ hv)
      have last := honest _ (List.mem_append_right _ (List.mem_singleton_self _))
      have steady := h.steady honest' rfl
      have kept := visit_kept hw (last.rely steady) steady.sound
      have whole : w.conn.owned.Perm ((w.enter i).conn.owned ++ []) := by
        rw [List.append_nil]
        exact .refl _
      have books := (ih honest').part whole kept.books
      rw [events_append, events_singleton, created_append, deleted_append]
      rwa [List.append_nil] at books

/-- A relay was let in. -/
theorem Run.admitted (h : Run (.fresh self client time) vs b w)
    (hs : wroteTo .server (events vs) ≠ []) : .asked (some true) ∈ events vs := by
  have staged := h.staged
  have relays : w.conn.state = .pipeing := by
    by_contra other
    exact hs (staged.handshaken other).toServer
  have course := staged.course
  rw [relays] at course
  refine (mem_milestones rfl).mp ?_
  have granted : Granted (milestones (events vs)) := course
  generalize milestones (events vs) = ms at granted
  cases granted with
  | connect => simp
  | bind => simp

/-- While nothing has been created the address that is checked is that of the client. -/
theorem Run.checked (h : Run (.fresh self client time) vs true w) (honest : ∀ v ∈ vs, v.Honest)
    (none : Socks.created (events vs) = []) {i : Input} {w' : World}
    (hw : work i.env (w.enter i) = .ok b w') {ev : Event} (hev : ev ∈ w'.trace)
    (hr : ev.requests = true) (hp : ∀ i buf, ev ≠ .parsed i buf) : Follows i.env client ev := by
  obtain ⟨d, hd, follows⟩ := (h.step i hw).follows (v := ⟨i, w, b, w'⟩)
    (List.mem_append_right _ (List.mem_singleton_self _)) hev hr hp
  have books := h.books honest
  rw [none] at books
  have mine := books.mem_iff.mpr (.inl (SocksConnection.mem_owned.mpr (.inl hd)))
  simp only [List.mem_singleton, List.not_mem_nil, or_false] at mine
  exact mine ▸ follows

/-- Where no socket is opened for a request, none is created. -/
theorem Run.created_of_opens (h : Run (.fresh self client time) vs b w)
    (ho : ∀ ev ∈ events vs, ev.opens = false) : Socks.created (events vs) = [] := by
  refine List.flatMap_eq_nil_iff.mpr fun ev hev => ?_
  cases ev with
  | opened d => cases ho _ hev
  | listening d => cases ho _ hev
  | accepted d =>
      -- it came in through a listener
      obtain ⟨l, hl⟩ := h.staged.course.listened ((mem_milestones rfl).mpr hev)
      cases ho _ ((mem_milestones rfl).mp hl)
  | _ => rfl

/-- **A client that is not let in**, whatever it asks for. -/
theorem Run.shut_out (h : Run (.fresh self client time) vs b w) (honest : ∀ v ∈ vs, v.Honest)
    (shut : ∀ v ∈ vs, canConnect v.input.env client ≠ some true) :
    Socks.created (events vs) = [] ∧ wroteTo .server (events vs) = [] := by
  have quiet : ∀ ev ∈ events vs, ev.opens = false ∧ ev ≠ .asked (some true) := by
    induction h with
    | start => exact fun _ hev => absurd hev List.not_mem_nil
    | @step vs w w' b i h hw ih =>
        have honest' : ∀ v ∈ vs, v.Honest := fun v hv => honest v (List.mem_append_left _ hv)
        have before := ih honest' fun v hv => shut v (List.mem_append_left _ hv)
        have none := h.created_of_opens fun ev hev => (before ev hev).1
        have refused := shut _ (List.mem_append_right _ (List.mem_singleton_self _))
        have checked {ev : Event} : ev ∈ w'.trace → ev.requests = true →
            (∀ i buf, ev ≠ .parsed i buf) → Follows i.env client ev := h.checked honest' none hw
        rw [events_append, events_singleton]
        intro ev hev
        rcases List.mem_append.mp hev with hev | hev
        · exact before ev hev
        · cases ev with
          | opened d => exact absurd (checked hev rfl nofun) refused
          | listening d => exact absurd (checked hev rfl nofun) refused
          | asked a =>
              refine ⟨rfl, fun he => refused ?_⟩
              have follows : a = canConnect i.env client := checked hev rfl nofun
              exact follows ▸ Event.asked.inj he
          | _ => exact ⟨rfl, nofun⟩
  refine ⟨h.created_of_opens fun ev hev => (quiet ev hev).1, ?_⟩
  by_contra hs
  exact (quiet _ (h.admitted hs)).2 rfl

/-! ### The server -/

/-- A connection that got anywhere was let in when it was visited. -/
theorem Life.let_in (h : Life ts id client es conn)
    (hs : created es ≠ [] ∨ wroteTo .server es ≠ []) :
    ∃ t ∈ ts, canConnect t.env client = some true := by
  have socks {time : Int} {vs : List Visit} {b : Bool} {w : World}
      (run : Run (.fresh id client time) vs b w) (honest : ∀ v ∈ vs, v.Honest)
      (told : Told (vs.map (·.input.env)) ts)
      (hs : created (events vs) ≠ [] ∨ wroteTo .server (events vs) ≠ []) :
      ∃ t ∈ ts, canConnect t.env client = some true := by
    by_contra shut
    have out := run.shut_out honest fun v hv hc => by
      obtain ⟨t, ht, same⟩ := List.mem_map.mp (told.subset (List.mem_map_of_mem hv))
      exact shut ⟨t, ht, by rw [same]; exact hc⟩
    exact hs.elim (fun h => h out.1) fun h => h out.2
  have closed (ds : List FileDescriptor) : wroteTo .server (ds.map .closed) = [] := by
    simp [wroteTo, List.flatMap_map, Event.wroteTo]
  cases h with
  | socks run honest told => exact socks run honest told hs
  | socksGone run honest told =>
      rw [created_append, created_closed, wroteTo_append, closed, List.append_nil,
        List.append_nil] at hs
      exact socks run honest told hs
  | http run =>
      exact hs.elim (fun h => absurd run.posted.created h) fun h => absurd run.posted.server h
  | @httpGone _ _ w _ run =>
      have none := closed [w.conn.client]
      rw [List.map_singleton] at none
      rw [created_append, created_singleton, wroteTo_append, none, run.posted.created,
        run.posted.server] at hs
      exact hs.elim (fun h => absurd rfl h) fun h => absurd rfl h

/-- The check is of the address of the client. -/
theorem canConnect_rules {e : Env} {rules : List Rule} (h : Ere.Search e.regcomp)
    (conf : e.config.acceptFrom = rules.map (Rule.pattern e.abi))
    (hc : canConnect e client = some true) :
    ∃ r ∈ rules, r.Admits e.abi client.addr.sinAddr := by
  unfold canConnect at hc
  split at hc
  · cases hc
  · have lists := canConnect_entries h e.abi rules client.addr.sinAddr
    rw [← conf] at lists
    exact of_decide_eq_true (Option.some.inj (lists.symm.trans hc))

/-- **The firewall.**  In any run of the server, whatever lists of entries are in force in its
steps: of a connection, to its present state or to its end, for which an object was ever created,
or for which a byte was ever written to a server, the address that the client came in from is
admitted by an entry that was in force in some step. -/
theorem firewall (h : Chronicle ts log s) (matcher : ∀ t ∈ ts, Ere.Search t.env.regcomp)
    (rules : Calls → List Rule)
    (conf : ∀ t ∈ ts, t.env.config.acceptFrom = (rules t).map (Rule.pattern t.env.abi)) :
    ∀ id < s.nextConnection, ∃ client conn, Came ts client ∧
      Life ts id client (eventsOf id log) conn ∧
      (created (eventsOf id log) ≠ [] ∨ wroteTo .server (eventsOf id log) ≠ [] →
        ∃ t ∈ ts, ∃ r ∈ rules t, r.Admits t.env.abi client.addr.sinAddr) := by
  intro id hid
  obtain ⟨client, conn, came, life⟩ := h.recorded.life hid
  refine ⟨client, conn, came, life, fun hs => ?_⟩
  obtain ⟨t, ht, admitted⟩ := life.let_in hs
  exact ⟨t, ht, canConnect_rules (matcher t ht) (conf t ht) admitted⟩

end

namespace Sample

/-- The list of `socks.conf`, and a matcher. -/
def guarded (t : Calls) : Calls :=
  { t with
    env := { t.env with
      config := { acceptFrom := [(Rule.network 193 [168, 40]).pattern .littleEndian] }
      regcomp := Ere.wildSearch } }

/-- A client of that network comes, and asks for a server. -/
def caller : List Calls :=
  (pass [5] [] (.socket 7 ⟨0, 0x0728A8C1⟩) env ++
    pass [7] [] .null { env with read := fun _ => .data request, newSocket := some 8 }).map guarded

end Sample

theorem firewall_sample :
    let r := (Server.boot 5 6 ⟨0, 0⟩ ⟨0, 0⟩).recount Sample.caller
    created (eventsOf 0 r.2) ≠ [] ∧ ∃ client conn, Came r.1 client ∧
      Life r.1 0 client (eventsOf 0 r.2) conn ∧ ∃ t ∈ r.1, ∃ rule ∈ [Rule.network 193 [168, 40]],
        rule.Admits t.env.abi client.addr.sinAddr := by
  intro r
  have history : Chronicle r.1 r.2 _ :=
    chronicle_play (.boot 5 6 ⟨0, 0⟩ ⟨0, 0⟩ (by decide)) Sample.caller
  have taken {t : Calls} (ht : t ∈ r.1) : ∃ u, Sample.guarded u = t := by
    obtain ⟨u, -, same⟩ := List.mem_map.mp (mem_of_recount ht)
    exact ⟨u, same⟩
  obtain ⟨client, conn, came, life, admitted⟩ := firewall history
    (fun t ht => by
      obtain ⟨u, rfl⟩ := taken ht
      exact Ere.search_wildSearch)
    (fun _ => [.network 193 [168, 40]])
    (fun t ht => by
      obtain ⟨u, rfl⟩ := taken ht
      rfl) 0 (by decide +kernel)
  have opened : created (eventsOf 0 r.2) ≠ [] := by decide +kernel
  exact ⟨opened, client, conn, came, life, admitted (.inl opened)⟩

end OldStuff.Socks
