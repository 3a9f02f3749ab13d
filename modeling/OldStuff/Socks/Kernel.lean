import OldStuff.Io.Sockets
import OldStuff.Socks.Load
import OldStuff.Socks.Order

/-!
# Socks — the open descriptors of the server

`Reachable` lets a step come to any number that no object has.  Here the numbers are the kernel's:
the server runs beside a table of open files, its objects are made by the constructors, call by
call, and go by `close`.  In a step the objects are made before any is deleted.

`no_leak`: in every state what the process has open is what it had at the start and one file for
each object, and none of these blocks.  Every step of the server goes through beside the table; so
no `close` is of a number that is not open, and no number in use is handed out (`Calls.Honest`).
-/

namespace OldStuff.Socks
open OldStuff.Io
open OldStuff.Lib (Outcome Prog Accounted)

/-! ### Beginning and end of `main` -/

section
variable (strerror : SysError → String) (inetPton : String → Option UInt32) (abi : Abi)

/-- The two sockets; `errno` is what `inet_pton` leaves.  If the second constructor throws, `die`
deletes the first socket. -/
def openSockets (c : Instance) (errno : SysError) :
    Routine ((Nat × SockaddrIn) × (Nat × SockaddrIn)) :=
  (newServerSocket strerror inetPton abi c.port 20 (String.ofList c.listenInterface) errno).bind
    fun (socksSock : Nat × SockaddrIn) =>
      ((newServerSocket strerror inetPton abi c.httpPort 20 (String.ofList c.httpListenInterface)
        errno).bind fun httpSock => .done (socksSock, httpSock)).guarded (closeFd socksSock.1)

/-- The functions of `io` that a step of the server may call on its sockets. -/
inductive Use where
  | socket (addr : Nat) (port : UInt16)
  | serverSocket (port backlog : Int) (address : String) (errno : SysError)
  | accept (sock : Nat)
  | tryConnect (fd : Nat) (serv : SockaddrIn)
  | isConnected (fd : Nat)

/-- What is called, with the number and the address of the object it makes, if any. -/
def Use.routine : Use → Routine (Option (Nat × SockaddrIn))
  | .socket addr port => (newSocket strerror addr port).bind fun d => .done (some d)
  | .serverSocket port backlog address errno =>
    (newServerSocket strerror inetPton abi port backlog address errno).bind fun d => .done (some d)
  | .accept sock => Io.accept strerror sock
  | .tryConnect fd serv => (tryConnectNonblock strerror fd serv).bind fun _ => .done none
  | .isConnected fd => (Io.isConnected strerror fd).bind fun _ => .done none

/-- Some calls, one after the other, have made the objects `new`. -/
inductive Made : Table → List FileDescriptor → Table → Prop where
  | nil {T : Table} : Made T [] T
  | object {T T₁ T' : Table} {u : Use} {d : FileDescriptor} {addr : SockaddrIn}
      {new : List FileDescriptor}
      (h : (u.routine strerror inetPton abi).Returns kernel T (some (d.fd, addr)) T₁)
      (rest : Made T₁ new T') : Made T (d :: new) T'
  | nothing {T T₁ T' : Table} {u : Use} {new : List FileDescriptor}
      (h : (u.routine strerror inetPton abi).Returns kernel T none T₁) (rest : Made T₁ new T') :
      Made T new T'
  | threw {T T₁ T' : Table} {u : Use} {what : String} {new : List FileDescriptor}
      (h : (u.routine strerror inetPton abi).Throws kernel T what T₁) (rest : Made T₁ new T') :
      Made T new T'

/-- The numbers that a step may come to are those of objects that can be made. -/
def Calls.From (T : Table) (t : Calls) : Prop :=
  ∀ n ∈ t.numbers, ∃ (u : Use) (addr : SockaddrIn) (T' : Table),
    (u.routine strerror inetPton abi).Returns kernel T (some (n, addr)) T'

/-- The objects `gone` are destroyed one after the other, each while its number is open. -/
inductive Closes : Table → List FileDescriptor → Table → Prop where
  | nil {T : Table} : Closes T [] T
  | cons {T T₁ T' : Table} {d : FileDescriptor} {ds : List FileDescriptor} (open' : T d.fd ≠ none)
      (h : (closeFd d.fd).Returns kernel T () T₁) (rest : Closes T₁ ds T') : Closes T (d :: ds) T'

/-- The server and the table, from the table `T₀` on. -/
inductive Beside (T₀ : Table) : Server → Table → Prop where
  | boot {c : Instance} {errno : SysError} {socksSock httpSock : Nat × SockaddrIn} {T : Table}
      (h : (openSockets strerror inetPton abi c errno).Returns kernel T₀ (socksSock, httpSock) T) :
      Beside T₀ (.boot socksSock.1 httpSock.1 socksSock.2 httpSock.2) T
  | step {s s' : Server} {t : Calls} {T T₁ T' : Table} {new gone : List FileDescriptor}
      (h : Beside T₀ s T) (ht : t.From strerror inetPton abi T) (hs : s.step t = .ok () s')
      (created : s'.created = s.created ++ new) (deleted : s'.deleted = s.deleted ++ gone)
      (hm : Made strerror inetPton abi T new T₁) (hc : Closes T₁ gone T') : Beside T₀ s' T'

end

/-- `T` is `T₀` with a file for each of `ds`, which does not block. -/
structure Holding (T₀ T : Table) (ds : List FileDescriptor) : Prop where
  others : ∀ n, n ∉ ds.map (·.fd) → T n = T₀ n
  free : ∀ d ∈ ds, T₀ d.fd = none
  files : ∀ d ∈ ds, ∃ f : File, T d.fd = some f ∧ f.Nonblocking
  fds : (ds.map (·.fd)).Nodup

section
variable {strerror : SysError → String} {inetPton : String → Option UInt32} {abi : Abi}
  {T₀ T T' : Table} {d : FileDescriptor} {ds new gone held : List FileDescriptor}

/-- **A call of the server**: an object more, with a file that does not block, or nothing. -/
theorem Use.routine_sat (u : Use) : (u.routine strerror inetPton abi).Sat kernel
    (fun r T' => r = none ∧ T' = T ∨ ∃ d, r = some d ∧ T.Opens d.1 T') (fun _ T' => T' = T) T := by
  cases u with
  | socket => exact newSocket_sat.bind fun d _ h => .inr ⟨d, rfl, h.2⟩
  | serverSocket => exact newServerSocket_sat.bind fun d _ h => .inr ⟨d, rfl, h.1⟩
  | accept => exact accept_sat
  | tryConnect => exact tryConnectNonblock_sat.bind fun _ _ h => .inl ⟨rfl, h⟩
  | isConnected => exact isConnected_sat.bind fun _ _ h => .inl ⟨rfl, h⟩

theorem Use.opens {u : Use} {n : Nat} {addr : SockaddrIn}
    (h : (u.routine strerror inetPton abi).Returns kernel T (some (n, addr)) T') :
    T.Opens n T' := by
  obtain ⟨none, -⟩ | ⟨d, some, opens⟩ := u.routine_sat.returns h
  · cases none
  · obtain rfl := Option.some.inj some
    exact opens

theorem closeFd_returns {fd : Nat} (h : (closeFd fd).Returns kernel T () T') :
    T' = Function.update T fd none :=
  (closeFd_sat (Q := fun _ => (· = _)) (E := fun _ _ => False) rfl).returns h

namespace Holding

theorem none (T : Table) : Holding T T [] where
  others := fun _ _ => rfl
  free := fun _ h => (List.not_mem_nil h).elim
  files := fun _ h => (List.not_mem_nil h).elim
  fds := List.nodup_nil

theorem perm (h : Holding T₀ T ds) (hp : held.Perm ds) : Holding T₀ T held where
  others := fun n hn => h.others n fun hm => hn ((hp.map _).mem_iff.mpr hm)
  free := fun d hd => h.free d (hp.mem_iff.mp hd)
  files := fun d hd => h.files d (hp.mem_iff.mp hd)
  fds := (hp.map _).nodup_iff.mpr h.fds

theorem is_open {n : Nat} (h : Holding T₀ T ds) (hn : n ∈ ds.map (·.fd)) : T n ≠ Option.none := by
  obtain ⟨d, hd, rfl⟩ := List.mem_map.mp hn
  obtain ⟨f, open', -⟩ := h.files d hd
  rw [open']
  exact Option.some_ne_none f

/-- One more is open. -/
theorem add (h : Holding T₀ T ds) (ho : T.Opens d.fd T') : Holding T₀ T' (d :: ds) := by
  obtain ⟨free, f, flags, rfl⟩ := ho
  have fresh : d.fd ∉ ds.map (·.fd) := fun hm => h.is_open hm free
  have apart {d' : FileDescriptor} (hd : d' ∈ ds) : d'.fd ≠ d.fd := fun he =>
    fresh (List.mem_map.mpr ⟨d', hd, he⟩)
  refine ⟨fun n hn => ?_, fun d' hd => ?_, fun d' hd => ?_, List.nodup_cons.mpr ⟨fresh, h.fds⟩⟩
  · rw [List.map_cons, List.mem_cons, not_or] at hn
    rw [Function.update_of_ne hn.1, h.others n hn.2]
  · rcases List.mem_cons.mp hd with rfl | hd
    · rw [← h.others _ fresh, free]
    · exact h.free d' hd
  · rcases List.mem_cons.mp hd with rfl | hd
    · exact ⟨f, Function.update_self .., flags⟩
    · rw [Function.update_of_ne (apart hd)]
      exact h.files d' hd

/-- One fewer is. -/
theorem remove (h : Holding T₀ T (d :: ds)) :
    Holding T₀ (Function.update T d.fd Option.none) ds := by
  have fresh := (List.nodup_cons.mp h.fds).1
  refine ⟨fun n hn => ?_, fun d' hd => h.free d' (List.mem_cons_of_mem _ hd), fun d' hd => ?_,
    (List.nodup_cons.mp h.fds).2⟩
  · by_cases he : n = d.fd
    · subst he
      rw [Function.update_self, h.free d (List.mem_cons_self ..)]
    · rw [Function.update_of_ne he]
      refine h.others n fun hm => ?_
      rcases List.mem_cons.mp hm with hm | hm
      · exact he hm
      · exact hn hm
  · have apart : d'.fd ≠ d.fd := fun he => fresh (List.mem_map.mpr ⟨d', hd, he⟩)
    rw [Function.update_of_ne apart]
    exact h.files d' (List.mem_cons_of_mem _ hd)

theorem made (h : Holding T₀ T ds) (hm : Made strerror inetPton abi T new T') :
    Holding T₀ T' (new ++ ds) := by
  induction hm generalizing ds with
  | nil => exact h
  | object hr _ ih => exact (ih (h.add (Use.opens hr))).perm List.perm_middle.symm
  | nothing hr _ ih =>
      obtain ⟨-, rfl⟩ | ⟨_, some, -⟩ := (Use.routine_sat _).returns hr
      · exact ih h
      · cases some
  | threw hr _ ih =>
      obtain rfl := (Use.routine_sat _).throws hr
      exact ih h

theorem closes (h : Holding T₀ T (gone ++ ds)) (hc : Closes T gone T') : Holding T₀ T' ds := by
  induction hc with
  | nil => exact h
  | cons _ hr _ ih =>
      obtain rfl := closeFd_returns hr
      exact ih h.remove

end Holding

theorem openSockets_sat {c : Instance} {errno : SysError} :
    (openSockets strerror inetPton abi c errno).Sat kernel
      (fun r T' => Holding T T' [⟨1, r.2.1, r.2.2⟩, ⟨0, r.1.1, r.1.2⟩]) (fun _ T' => T' = T) T := by
  refine newServerSocket_sat.bind fun socksSock T₁ h => ?_
  have first : Holding T T₁ [⟨0, socksSock.1, socksSock.2⟩] := (Holding.none T).add h.1
  obtain ⟨free, f, -, rfl⟩ := h.1
  refine Prog.Sat.guarded (E := fun _ T' => T' = Function.update T socksSock.1 (some f)) ?_ ?_
  · exact newServerSocket_sat.bind fun httpSock T₂ h =>
      first.add (d := ⟨1, httpSock.1, httpSock.2⟩) h.1
  · rintro _ _ rfl
    exact closeFd_sat (update_close free _)

/-- What is open has no number that the kernel hands out. -/
theorem Holding.honest {s : Server} {t : Calls} (h : Holding T₀ T s.owned)
    (ht : t.From strerror inetPton abi T) : t.Honest s := by
  intro n hn hm
  obtain ⟨u, addr, T', hr⟩ := ht n hn
  exact h.is_open hm (Use.opens hr).free

/-- The books of a step. -/
theorem Orderly.step_owned {s s' : Server} (h : Orderly s) (h' : Orderly s')
    (created : s'.created = s.created ++ new) (deleted : s'.deleted = s.deleted ++ gone) :
    (gone ++ s'.owned).Perm (new ++ s.owned) := by
  have books := h'.books
  rw [created, deleted] at books
  exact (List.perm_append_comm.trans (h.books.between books).symm).trans List.perm_append_comm

theorem Beside.holding {s : Server} (h : Beside strerror inetPton abi T₀ s T) :
    Reachable s ∧ Holding T₀ T s.owned := by
  induction h with
  | boot hr =>
      have holding := openSockets_sat.returns hr
      have apart : _ ≠ _ := fun he => (List.nodup_cons.mp holding.fds).1
        (List.mem_singleton.mpr he)
      exact ⟨.boot _ _ _ _ apart.symm, holding⟩
  | step _ ht hs created deleted hm hc ih =>
      obtain ⟨reachable, holding⟩ := ih
      have reachable' := reachable.step _ (holding.honest ht) hs
      have balance := reachable.orderly.step_owned reachable'.orderly created deleted
      exact ⟨reachable', ((holding.made hm).perm balance).closes hc⟩

end

end OldStuff.Socks
