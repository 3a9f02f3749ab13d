import OldStuff.Io.Descriptor
import OldStuff.Lib.Calling

/-!
# Io — the constructors, and what the kernel has open

The constructors of `io::socket` and `io::server_socket`, `accept` and the connecting of a socket,
call by call.  A constructor that throws leaves its base to be destroyed, which closes the number if
it has one; `EINTR` is asked again at `fcntl` and `accept` and nowhere else.

The kernel keeps a `Table` of open files.  Each constructor is one of two things to it: a number
that was free is open and does not block (`Table.Opens`), or, after a throw, nothing has changed.

`strerror` is the text to a number.  `EWOULDBLOCK` is told from `EAGAIN`, as the source does.
-/

namespace OldStuff.Io
open OldStuff.Lib (Prog)

/-! ### System calls -/

/-- `errno`, as far as these functions look at it. -/
inductive SysError where
  | eintr
  | eagain
  | ewouldblock
  | einprogress
  | other (number : Nat)
  deriving DecidableEq

/-- The system calls, `signal` being that of `fix_sigpipe`. -/
inductive Sys where
  | signal
  | socket
  | getfl (fd : Nat)
  | setfl (fd flags : Nat)
  | reuseaddr (fd : Nat)
  | bind (fd : Nat) (addr : SockaddrIn)
  | getsockname (fd : Nat)
  | listen (fd : Nat) (backlog : Int)
  | accept (fd : Nat)
  | connect (fd : Nat) (addr : SockaddrIn)
  | soError (fd : Nat)
  | close (fd : Nat)

/-- What a call returns unless it fails. -/
def Sys.Ret : Sys → Type
  | .socket | .getfl _ => Nat
  | .getsockname _ => SockaddrIn
  | .accept _ => Nat × SockaddrIn
  | .soError _ => Int
  | _ => Unit

abbrev Sys.Answer (k : Sys) : Type := Except SysError k.Ret

/-- A function of `io`; its exceptions are their `what()`. -/
abbrev Routine (α : Type) : Type := Prog Sys Sys.Answer String α

/-- `if(errno==EINTR) goto MAIN;` -/
def interrupted {k : Sys} : k.Answer → Bool
  | .error .eintr => true
  | _ => false

def never {k : Sys} (_ : k.Answer) : Bool := false

/-- A call that throws when it fails. -/
def checked (strerror : SysError → String) (what : String) (k : Sys) (again : k.Answer → Bool) :
    Routine k.Ret :=
  .call k again fun
    | .ok r => .done r
    | .error e => .throw (what ++ " failed: " ++ strerror e)

/-- `O_NONBLOCK`. -/
def oNonblock : Nat := 2 ^ 11

/-! ### The functions -/

section
variable (strerror : SysError → String)

/-- `~file_descriptor`, of an object with a number. -/
def closeFd (fd : Nat) : Routine Unit := .call (.close fd) never fun _ => .done ()

def setNonblocking (fd : Nat) : Routine Unit :=
  (checked strerror "file_descriptor: fcntl" (.getfl fd) interrupted).bind fun (flags : Nat) =>
    checked strerror "file_descriptor: fcntl" (.setfl fd (flags ||| oNonblock)) interrupted

def fixSigpipe : Routine Unit := checked strerror "socket: signal" .signal never

/-- `io::socket::socket(fd,serv)`. -/
def newSocketFd (fd : Nat) (serv : SockaddrIn) : Routine (Nat × SockaddrIn) :=
  (((fixSigpipe strerror).bind fun _ => setNonblocking strerror fd).bind fun _ =>
    .done (fd, serv)).guarded (closeFd fd)

/-- `io::socket::socket(addr,port)`. -/
def newSocket (addr : Nat) (port : UInt16) : Routine (Nat × SockaddrIn) :=
  (fixSigpipe strerror).bind fun _ =>
  (checked strerror "socket: socket" .socket never).bind fun (fd : Nat) =>
    ((setNonblocking strerror fd).bind fun _ => .done (fd, .ofRequest addr port)).guarded
      (closeFd fd)

def tryConnectNonblock (fd : Nat) (serv : SockaddrIn) : Routine Bool :=
  .call (.connect fd serv) never fun
    | .ok _ => .done true
    | .error .einprogress => .done false
    | .error e => .throw ("socket: connect failed: " ++ strerror e)

def isConnected (fd : Nat) : Routine Bool :=
  (checked strerror "socket: getsockopt" (.soError fd) never).bind fun (err : Int) =>
    .done (err == 0)

/-- `htons`. -/
def htons (abi : Abi) (port : Int) : UInt16 :=
  let n := (port % 2 ^ 16).toNat
  UInt16.ofNat (abi.load [UInt8.ofNat (n / 256), UInt8.ofNat n])

/-- `io::server_socket::server_socket(port,backlog,address)`, with `inet_pton` as it answers. -/
def newServerSocket (inetPton : String → Option UInt32) (abi : Abi) (port backlog : Int)
    (address : String) (errno : SysError) : Routine (Nat × SockaddrIn) :=
  match if address = "" then some 0 else inetPton address with
  | none => .throw ("serversocket: failed to convert address: " ++ strerror errno)
  | some sinAddr =>
    (checked strerror "serversocket: socket" .socket never).bind fun (fd : Nat) =>
      ((setNonblocking strerror fd).bind fun _ =>
      (checked strerror "serversocket: setsockopt" (.reuseaddr fd) never).bind fun _ =>
      (checked strerror "serversocket: bind" (.bind fd ⟨htons abi port, sinAddr⟩) never).bind
        fun _ =>
      (checked strerror "serversocket: getsockname" (.getsockname fd) never).bind
        fun (servaddr : SockaddrIn) =>
      (checked strerror "serversocket: listen" (.listen fd backlog) never).bind fun _ =>
        .done (fd, servaddr)).guarded (closeFd fd)

/-- `io::server_socket::accept`. -/
def accept (fd : Nat) : Routine (Option (Nat × SockaddrIn)) :=
  .call (.accept fd) interrupted fun
    | .ok (cliFd, cliaddr) => (newSocketFd strerror cliFd cliaddr).bind fun d => .done (some d)
    | .error .eagain | .error .ewouldblock => .done none
    | .error e => .throw ("serversocket: accept: failed: " ++ strerror e)

end

/-! ### The kernel -/

/-- An open file: its status flags and its address. -/
structure File where
  flags : Nat
  name : SockaddrIn

def File.Nonblocking (f : File) : Prop := f.flags.testBit 11 = true

/-- The open files of the process. -/
abbrev Table : Type := Nat → Option File

/-- What the kernel may answer, and what has changed then.  A number that is handed out is free; a
call that fails changes nothing, `close` apart, which frees the number in any case. -/
def kernel : (k : Sys) → Table → Sys.Answer k → Table → Prop
  | .close fd, T, _, T' => T' = Function.update T fd none
  | _, T, .error _, T' => T' = T
  | .socket, T, .ok (fd : Nat), T' => T fd = none ∧ ∃ f, T' = Function.update T fd (some f)
  | .getfl fd, T, .ok (flags : Nat), T' => T' = T ∧ ∃ f, T fd = some f ∧ f.flags = flags
  | .setfl fd flags, T, .ok _, T' =>
    ∃ f, T fd = some f ∧ T' = Function.update T fd (some { f with flags })
  | .bind fd addr, T, .ok _, T' => ∃ f name, T fd = some f ∧ name.sinAddr = addr.sinAddr ∧
      (addr.sinPort ≠ 0 → name = addr) ∧ T' = Function.update T fd (some { f with name })
  | .getsockname fd, T, .ok (name : SockaddrIn), T' => T' = T ∧ ∃ f, T fd = some f ∧ f.name = name
  | .accept _, T, .ok (d : Nat × SockaddrIn), T' =>
    T d.1 = none ∧ ∃ f, T' = Function.update T d.1 (some f)
  | _, T, .ok _, T' => T' = T

/-- `fd` was free, and is now an open file that does not block. -/
structure Table.Opens (T : Table) (fd : Nat) (T' : Table) : Prop where
  free : T fd = none
  file : ∃ f : File, f.Nonblocking ∧ T' = Function.update T fd (some f)

section
variable {strerror : SysError → String} {what : String} {T T' : Table} {fd : Nat} {f : File}

/-- A call that fails leaves the table. -/
theorem kernel_error {k : Sys} (hk : ∀ fd, k ≠ .close fd) {e : SysError}
    (h : kernel k T (.error e) T') : T' = T := by
  cases k <;> first | exact h | exact absurd rfl (hk _)

/-- **A call that throws when it fails**: the table is then as it was. -/
theorem checked_sat {k : Sys} {again : k.Answer → Bool} (hk : ∀ fd, k ≠ .close fd)
    (ha : ∀ r : k.Ret, again (.ok r) = false) {Q : k.Ret → Table → Prop}
    (hq : ∀ r T', kernel k T (.ok r) T' → Q r T') :
    (checked strerror what k again).Sat kernel Q (fun _ T' => T' = T) T := by
  refine Prog.Sat.once (fun r T' h hr => ?_) fun r T' h hr => ?_
  · cases r with
    | ok r => rw [ha] at hr; cases hr
    | error e => exact kernel_error hk h
  · cases r with
    | ok r => exact hq r T' h
    | error e => exact kernel_error hk h

/-- The same, where it only matters that `fd` is the one number that may have changed. -/
theorem mild {k : Sys} {again : k.Answer → Bool} {g : Option File} (hk : ∀ fd, k ≠ .close fd)
    (ha : ∀ r : k.Ret, again (.ok r) = false) {Q : k.Ret → Table → Prop}
    (hq : ∀ r T', kernel k (Function.update T fd g) (.ok r) T' → Q r T') :
    (checked strerror what k again).Sat kernel Q
      (fun _ T' => ∃ g, T' = Function.update T fd g) (Function.update T fd g) :=
  (checked_sat hk ha hq).mono (fun _ _ h => h) fun _ _ h => ⟨g, h⟩

theorem closeFd_sat {Q : Unit → Table → Prop} {E : String → Table → Prop}
    (hq : Q () (Function.update T fd none)) : (closeFd fd).Sat kernel Q E T := by
  refine Prog.Sat.once (fun _ _ _ hr => by cases hr) fun _ T' h _ => ?_
  obtain rfl : T' = _ := h
  exact hq

/-! ### What the functions do to the table -/

theorem testBit_oNonblock (flags : Nat) : (flags ||| oNonblock).testBit 11 = true := by
  rw [Nat.testBit_or, oNonblock, Nat.testBit_two_pow_self, Bool.or_true]

/-- A number that is closed again is free as it was. -/
theorem update_close (h : T fd = none) (f : Option File) :
    Function.update (Function.update T fd f) fd none = T := by
  rw [Function.update_idem, ← h, Function.update_eq_self]

theorem setNonblocking_sat (h : T fd = some f) :
    (setNonblocking strerror fd).Sat kernel
      (fun _ T' => ∃ f' : File, f'.Nonblocking ∧ f'.name = f.name ∧
        T' = Function.update T fd (some f'))
      (fun _ T' => T' = T) T := by
  have asked : (checked strerror "file_descriptor: fcntl" (.getfl fd) interrupted).Sat kernel
      (fun _ T' => T' = T) (fun _ T' => T' = T) T :=
    checked_sat (fun _ h => by cases h) (fun _ => rfl) fun _ _ h => h.1
  refine asked.bind fun (flags : Nat) T' hT => ?_
  subst hT
  refine checked_sat (fun _ h => by cases h) (fun _ => rfl) fun _ T₁ hk => ?_
  obtain ⟨f', open', rfl⟩ := hk
  obtain rfl := Option.some.inj (h.symm.trans open')
  exact ⟨{ f with flags := flags ||| oNonblock }, testBit_oNonblock flags, rfl, rfl⟩

theorem fixSigpipe_sat :
    (fixSigpipe strerror).Sat kernel (fun _ T' => T' = T) (fun _ T' => T' = T) T :=
  checked_sat (fun _ h => by cases h) (fun _ => rfl) fun _ _ h => h

/-- Around a number that is open: it no longer blocks, or it is closed. -/
theorem newSocketFd_sat {serv : SockaddrIn} (h : T fd = some f) :
    (newSocketFd strerror fd serv).Sat kernel
      (fun d T' => d = (fd, serv) ∧ ∃ f' : File, f'.Nonblocking ∧
        T' = Function.update T fd (some f'))
      (fun _ T' => T' = Function.update T fd none) T := by
  have body : (((fixSigpipe strerror).bind fun _ => setNonblocking strerror fd).bind fun _ =>
      (.done (fd, serv) : Routine (Nat × SockaddrIn))).Sat kernel
      (fun d T' => d = (fd, serv) ∧ ∃ f' : File, f'.Nonblocking ∧
        T' = Function.update T fd (some f'))
      (fun _ T' => T' = T) T := by
    refine Prog.Sat.bind (fixSigpipe_sat.bind fun _ T' hT => ?_) fun _ T' hT => ⟨rfl, hT⟩
    subst hT
    exact (setNonblocking_sat h).mono (fun _ _ ⟨f', flags, _, hT⟩ => ⟨f', flags, hT⟩)
      fun _ _ hT => hT
  refine body.guarded fun _ T' hT => ?_
  subst hT
  exact closeFd_sat rfl

/-- **A new socket** to an address. -/
theorem newSocket_sat {addr : Nat} {port : UInt16} :
    (newSocket strerror addr port).Sat kernel
      (fun d T' => d.2 = .ofRequest addr port ∧ T.Opens d.1 T') (fun _ T' => T' = T) T := by
  refine fixSigpipe_sat.bind fun _ T' hT => ?_
  subst hT
  refine Prog.Sat.bind (checked_sat (fun _ h => by cases h) (fun _ => rfl) fun _ _ h => h)
    fun (fd : Nat) T₁ hk => ?_
  obtain ⟨free, f, rfl⟩ := hk
  have body : ((setNonblocking strerror fd).bind fun _ =>
      (.done (fd, .ofRequest addr port) : Routine (Nat × SockaddrIn))).Sat kernel
      (fun d T'' => d.2 = .ofRequest addr port ∧ T'.Opens d.1 T'')
      (fun _ T'' => T'' = Function.update T' fd (some f)) (Function.update T' fd (some f)) := by
    refine (setNonblocking_sat (Function.update_self ..)).bind fun _ T'' hT => ?_
    obtain ⟨f', flags, -, rfl⟩ := hT
    exact ⟨rfl, free, f', flags, Function.update_idem ..⟩
  refine body.guarded fun _ T'' hT => ?_
  subst hT
  exact closeFd_sat (update_close free _)

/-- **A new server socket**: the address of the object is that of the file, and the one asked for
if a port was. -/
theorem newServerSocket_sat {inetPton : String → Option UInt32} {abi : Abi} {port backlog : Int}
    {address : String} {errno : SysError} :
    (newServerSocket strerror inetPton abi port backlog address errno).Sat kernel
      (fun d T' => T.Opens d.1 T' ∧ ∃ f, T' d.1 = some f ∧ f.name = d.2 ∧
        ((if address = "" then some 0 else inetPton address) = some d.2.sinAddr) ∧
        (htons abi port ≠ 0 → d.2.sinPort = htons abi port))
      (fun _ T' => T' = T) T := by
  rw [newServerSocket]
  cases ha : (if address = "" then some 0 else inetPton address) with
  | none => exact rfl
  | some sinAddr =>
      refine Prog.Sat.bind (checked_sat (fun _ h => by cases h) (fun _ => rfl) fun _ _ h => h)
        fun (fd : Nat) T₁ hk => ?_
      obtain ⟨free, f, rfl⟩ := hk
      -- up to the end the number is open, and nothing else has changed
      refine Prog.Sat.guarded (E := fun _ T' => ∃ g, T' = Function.update T fd g) ?_ ?_
      · refine Prog.Sat.bind ((setNonblocking_sat (Function.update_self ..)).mono
          (fun _ _ h => h) fun _ _ h => ⟨_, h⟩) fun _ T₂ hT => ?_
        obtain ⟨f', flags, -, rfl⟩ := hT
        rw [Function.update_idem]
        refine Prog.Sat.bind (mild (fun _ h => by cases h) (fun _ => rfl) fun _ _ h => h)
          fun _ T₂ hT => ?_
        obtain rfl : T₂ = _ := hT
        refine Prog.Sat.bind (mild (fun _ h => by cases h) (fun _ => rfl) fun _ _ h => h)
          fun _ T₂ hT => ?_
        obtain ⟨f₁, name, open', host, port', rfl⟩ := hT
        rw [Function.update_self] at open'
        obtain rfl := Option.some.inj open'
        rw [Function.update_idem]
        refine Prog.Sat.bind (mild (fun _ h => by cases h) (fun _ => rfl) fun _ _ h => h)
          fun (servaddr : SockaddrIn) T₂ hT => ?_
        obtain ⟨rfl, f₁, open', rfl⟩ := hT
        rw [Function.update_self] at open'
        obtain rfl := Option.some.inj open'
        refine Prog.Sat.bind (mild (fun _ h => by cases h) (fun _ => rfl) fun _ _ h => h)
          fun _ T₂ hT => ?_
        obtain rfl : T₂ = _ := hT
        exact ⟨⟨free, { f' with name }, flags, rfl⟩, _, Function.update_self .., rfl,
          congrArg some host.symm, fun hp => congrArg SockaddrIn.sinPort (port' hp)⟩
      · rintro _ _ ⟨g, rfl⟩
        exact closeFd_sat (update_close free g)

/-- **`accept`**: nobody is there, or there is a new socket. -/
theorem accept_sat {sock : Nat} :
    (accept strerror sock).Sat kernel
      (fun r T' => r = none ∧ T' = T ∨ ∃ d, r = some d ∧ T.Opens d.1 T')
      (fun _ T' => T' = T) T := by
  refine Prog.Sat.once (fun r T' h hr => ?_) fun r T' h _ => ?_
  · cases r with
    | ok r => cases hr
    | error e => exact h
  · cases r with
    | error e =>
        obtain rfl : T' = T := h
        cases e with
        | eagain => exact .inl ⟨rfl, rfl⟩
        | ewouldblock => exact .inl ⟨rfl, rfl⟩
        | _ => exact rfl
    | ok d =>
        obtain ⟨fd, addr⟩ : Nat × SockaddrIn := d
        obtain ⟨free, f, rfl⟩ := h
        refine Prog.Sat.bind ((newSocketFd_sat (Function.update_self ..)).mono (fun _ _ h => h)
          fun _ T' hT => hT.trans (update_close free _)) fun _ T' hT => ?_
        obtain ⟨rfl, f', flags, rfl⟩ := hT
        exact .inr ⟨_, rfl, free, f', flags, Function.update_idem ..⟩

/-- Connecting opens and closes nothing. -/
theorem tryConnectNonblock_sat {serv : SockaddrIn} :
    (tryConnectNonblock strerror fd serv).Sat kernel (fun _ T' => T' = T) (fun _ T' => T' = T)
      T := by
  refine Prog.Sat.once (fun _ _ _ hr => by cases hr) fun r T' h _ => ?_
  cases r with
  | ok r => exact h
  | error e => cases e <;> exact h

theorem isConnected_sat :
    (isConnected strerror fd).Sat kernel (fun _ T' => T' = T) (fun _ T' => T' = T) T := by
  refine Prog.Sat.bind (checked_sat (fun _ h => by cases h) (fun _ => rfl) fun _ _ h => h)
    fun _ _ h => h

/-! ### The functions succeed -/

end

end OldStuff.Io
