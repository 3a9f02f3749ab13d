import OldStuff.Socks.Grammar

/-!
# Socks — where a request leads

The port and the address of a request are copied from the wire into a `short` and into the first
four bytes of a `long`; a socket is made of the port and the low 32 bits of the long.  The bytes
come out as they went in unless those four bytes are not the low ones: `byte_exact_iff`.

Only an IPv4 address is copied at all.  A request that names a host, or an IPv6 address, is
accepted with the address that the object happened to hold: `determined_iff` says which requests
lead where the client's bytes say.
-/

namespace OldStuff.Socks
open OldStuff.Io
open SocksRequest

section
variable {abi : Abi} {this r : SocksRequest} {req bs : Bytes} {initial : Bool}

/-! ### What is copied from where -/

/-- The four bytes from position 4 on are copied. -/
def CopiesAddress (req : Bytes) : Prop :=
  req[0]? = some 4 ∨ req[0]? = some 5 ∧ req[3]? = some socks5AddressIpv4

/-- Where the port of a request stands. -/
def portAt (req : Bytes) : Option Nat :=
  if req[0]? = some 4 then some 2 else req[3]?.bind (portPos req)

/-- What an accepted request leaves in the object. -/
structure Leads (abi : Abi) (this : SocksRequest) (req : Bytes) (r : SocksRequest) : Prop where
  command : req[1]? = some r.command
  port : ∃ pos, portAt req = some pos ∧ r.port = UInt16.ofNat (abi.load ((req.drop pos).take 2))
  copied : CopiesAddress req → 8 ≤ req.length ∧
    r.address = (this.setAddress abi ((req.drop 4).take 4)).address
  kept : ¬ CopiesAddress req → r.address = this.address

theorem setAddress_address {this' : SocksRequest} (h : this.address = this'.address) :
    (this.setAddress abi bs).address = (this'.setAddress abi bs).address := by
  rw [setAddress, setAddress, h]

theorem SocksRequest.Layout.leads (h : Layout abi this req initial r)
    (hr : ¬ (req[0]? = some 5 ∧ initial = true)) : Leads abi this req r := by
  cases h with
  | socks4 first second long =>
      refine ⟨second, ⟨2, if_pos first, rfl⟩, fun _ => ⟨long, ?_⟩, fun h => absurd (.inl first) h⟩
      exact setAddress_address rfl
  | greeting first => exact absurd ⟨first, rfl⟩ hr
  | @socks5 command reserved type pos first second third fourth port long =>
      have five : req[0]? ≠ some 4 := by
        rw [first]
        exact fun h => by cases h
      have copies : CopiesAddress req ↔ type = socks5AddressIpv4 := by
        constructor
        · rintro (h | ⟨-, h⟩)
          · exact absurd h five
          · exact Option.some.inj (fourth.symm.trans h)
        · intro h
          exact .inr ⟨first, fourth.trans (congrArg some h)⟩
      have at' : portAt req = some pos := by
        rw [portAt, if_neg five, fourth]
        exact port
      refine ⟨?_, ⟨pos, at', rfl⟩, fun h => ?_, fun h => ?_⟩
      · rw [second, setPort, setIpv4_command]
      · have hi := copies.mp h
        obtain rfl : 8 = pos := by
          rw [portPos, if_pos hi] at port
          exact Option.some.inj port
        rw [setIpv4, if_pos hi]
        exact ⟨by omega, setAddress_address rfl⟩
      · have hi : type ≠ socks5AddressIpv4 := fun hi => h (copies.mpr hi)
        rw [setIpv4, if_neg hi, setPort]

/-! ### The low half of the address -/

/-- Four bytes make an address of 32 bits. -/
theorem load_lt_of_four (hb : bs.length = 4) : abi.load bs < 2 ^ 32 := by
  have := abi.load_lt bs
  rwa [hb] at this

/-- If the bytes copied are the low ones, nothing of what was there is left in the low half. -/
theorem setAddress_low (hb : bs.length = 4) (ha : abi.bigEndian = false ∨ abi.longBytes = 4) :
    (this.setAddress abi bs).address % 2 ^ 32 = abi.load bs := by
  have := congrArg UInt32.toNat (@sinAddr_setAddress abi this bs hb ha)
  rwa [UInt32.toNat_ofNat', UInt32.toNat_ofNat', Nat.mod_eq_of_lt (load_lt_of_four hb)] at this

/-- On a big-endian machine with a `long` of eight bytes, the low half is what was there. -/
theorem setAddress_high {low : Bytes} (hlow : low.length = 4)
    (he : abi.bigEndian = true) (hl : abi.longBytes = 8)
    (ht : this.address = abi.load (List.replicate 4 0 ++ low)) :
    (this.setAddress abi bs).address % 2 ^ 32 = abi.load low := by
  have image : abi.store abi.longBytes this.address = List.replicate 4 0 ++ low := by
    rw [ht]
    refine abi.store_load ?_
    rw [List.length_append, List.length_replicate, hlow, hl]
  have small : abi.load low < 2 ^ 32 := load_lt_of_four hlow
  rw [setAddress, image, List.drop_left' List.length_replicate]
  rw [Abi.load_eq, he] at small ⊢
  simp only [if_true] at small ⊢
  rw [List.reverse_append, Abi.value_append, List.length_reverse, hlow]
  rw [Abi.load_eq, he, if_pos rfl]
  omega

/-! ### Two objects -/

/-- Two objects, whatever they held, are left with the same command, port and low half of the
address by a request that is accepted: one socket is opened. -/
def Determined (abi : Abi) (req : Bytes) (initial : Bool) : Prop :=
  ∀ this this' r r', parse abi this req initial = .accepted r →
    parse abi this' req initial = .accepted r' → ¬ (r.version = 5 ∧ initial = true) →
    (r.command = r'.command ∧ r.port = r'.port ∧ r.address % 2 ^ 32 = r'.address % 2 ^ 32) ∧
      SockaddrIn.ofRequest r.address r.port = SockaddrIn.ofRequest r'.address r'.port

/-- The address of the request is not copied, or not to where it is read: a complete version 5
request for a host name or an IPv6 address; and any request at all, if the machine is big-endian
and its `long` has eight bytes. -/
def LeavesAddress (abi : Abi) (req : Bytes) (initial : Bool) : Prop :=
  initial = false ∧ req[0]? = some 5 ∧ Addressed req ∧ req[3]? ≠ some socks5AddressIpv4 ∨
  (abi.bigEndian = true ∧ abi.longBytes = 8) ∧
    (req[0]? = some 4 ∧ (∃ p, UserEnds req p) ∨
      initial = false ∧ req[0]? = some 5 ∧ req[3]? = some socks5AddressIpv4 ∧ 10 ≤ req.length)

/-- An object just constructed, with `address` in its address. -/
def holding (address : Nat) : SocksRequest := { (default : SocksRequest) with address }

theorem ofRequest_congr {a a' : Nat} {port : UInt16} (h : a % 2 ^ 32 = a' % 2 ^ 32) :
    SockaddrIn.ofRequest a port = SockaddrIn.ofRequest a' port := by
  have : UInt32.ofNat a = UInt32.ofNat a' := by
    refine UInt32.toNat_inj.mp ?_
    rwa [UInt32.toNat_ofNat', UInt32.toNat_ofNat']
  rw [SockaddrIn.ofRequest, this, SockaddrIn.ofRequest]

/-- What is accepted is accepted in every object. -/
theorem exists_accepted (abi : Abi) (this : SocksRequest) (h : complete initial req = true) :
    ∃ r, parse abi this req initial = .accepted r := by
  rw [← parse_accepts abi this] at h
  cases hp : parse abi this req initial with
  | accepted r => exact ⟨r, rfl⟩
  | rejected => rw [hp] at h; cases h
  | overread => rw [hp] at h; cases h

/-- A request, as `parse` tells it from a greeting. -/
theorem SocksRequest.Layout.isRequest (h : Layout abi this req initial r)
    (hr : ¬ (r.version = 5 ∧ initial = true)) : ¬ (req[0]? = some 5 ∧ initial = true) := by
  rintro ⟨first, hi⟩
  exact hr ⟨Option.some.inj (h.first.symm.trans first), hi⟩

/-- What is accepted and copies no address asks for an address that is not copied. -/
theorem leavesAddress_of_not_copies (hc : complete initial req = true)
    (hr : ¬ (req[0]? = some 5 ∧ initial = true)) (h : ¬ CopiesAddress req) :
    initial = false ∧ req[0]? = some 5 ∧ Addressed req ∧ req[3]? ≠ some socks5AddressIpv4 := by
  rcases complete_first hc with first | first
  · exact absurd (.inl first) h
  · obtain rfl : initial = false := Bool.eq_false_iff.mpr fun hi => hr ⟨first, hi⟩
    exact ⟨rfl, first, (complete_socks5 first).mp hc, fun hi => h (.inr ⟨first, hi⟩)⟩

/-- What two objects are left with, both accepting the same request. -/
theorem Leads.agree {this' r' : SocksRequest} (h : Leads abi this req r)
    (h' : Leads abi this' req r') : r.command = r'.command ∧ r.port = r'.port := by
  obtain ⟨pos, hpos, port⟩ := h.port
  obtain ⟨pos', hpos', port'⟩ := h'.port
  obtain rfl := Option.some.inj (hpos.symm.trans hpos')
  exact ⟨Option.some.inj (h.command.symm.trans h'.command), port.trans port'.symm⟩

/-- If no address is copied, both objects keep theirs. -/
theorem not_determined_of_kept (first : req[0]? = some 5) (whole : Addressed req)
    (notIpv4 : req[3]? ≠ some socks5AddressIpv4) : ¬ Determined abi req false := by
  intro h
  have hc := (complete_socks5 first).mpr whole
  obtain ⟨r, hp⟩ := exists_accepted abi (holding 0) hc
  obtain ⟨r', hp'⟩ := exists_accepted abi (holding 1) hc
  have none : ¬ CopiesAddress req := by
    rintro (h4 | ⟨-, hi⟩)
    · rw [first] at h4
      cases h4
    · exact notIpv4 hi
  have request : ¬ (req[0]? = some 5 ∧ false = true) := fun h => by cases h.2
  have low := (h _ _ r r' hp hp' fun h => by cases h.2).1.2.2
  rw [((parse_layout hp).leads request).kept none,
    ((parse_layout hp').leads request).kept none] at low
  exact absurd low (by decide)

/-- If the bytes copied are the high ones, both objects keep their low ones. -/
theorem not_determined_of_high (he : abi.bigEndian = true) (hl : abi.longBytes = 8)
    (hc : complete initial req = true) (copies : CopiesAddress req)
    (request : ¬ (req[0]? = some 5 ∧ initial = true)) : ¬ Determined abi req initial := by
  intro h
  have zeros := exists_accepted abi (holding (abi.load (.replicate 4 0 ++ .replicate 4 0))) hc
  have ones := exists_accepted abi (holding (abi.load (.replicate 4 0 ++ .replicate 4 1))) hc
  obtain ⟨r, hp⟩ := zeros
  obtain ⟨r', hp'⟩ := ones
  have version : ¬ (r.version = 5 ∧ initial = true) := fun h =>
    request ⟨(parse_layout hp).first.trans (congrArg some h.1), h.2⟩
  have low := (h _ _ r r' hp hp' version).1.2.2
  rw [(((parse_layout hp).leads request).copied copies).2,
    (((parse_layout hp').leads request).copied copies).2,
    setAddress_high List.length_replicate he hl rfl,
    setAddress_high List.length_replicate he hl rfl] at low
  have images := congrArg (abi.store 4) low
  rw [abi.store_load List.length_replicate, abi.store_load List.length_replicate] at images
  exact absurd images (by decide)

/-- A version 5 request for an IPv4 address ends behind position 10. -/
theorem SocksRequest.Addressed.ipv4 (h : Addressed req) (ipv4 : req[3]? = some socks5AddressIpv4) :
    10 ≤ req.length := by
  rcases h with ⟨-, long⟩ | ⟨-, other, -⟩ | ⟨other, -⟩
  · exact long
  · rw [ipv4] at other
    cases other
  · rw [ipv4] at other
    cases other

/-- Which requests copy their address, in terms of the bytes. -/
theorem copies_iff (request : ¬ (req[0]? = some 5 ∧ initial = true)) :
    complete initial req = true ∧ CopiesAddress req ↔
      req[0]? = some 4 ∧ (∃ p, UserEnds req p) ∨
        initial = false ∧ req[0]? = some 5 ∧ req[3]? = some socks5AddressIpv4 ∧
          10 ≤ req.length := by
  constructor
  · rintro ⟨hc, first | ⟨first, ipv4⟩⟩
    · exact .inl ⟨first, (complete_socks4 first).mp hc⟩
    · obtain rfl : initial = false := Bool.eq_false_iff.mpr fun hi => request ⟨first, hi⟩
      exact .inr ⟨rfl, first, ipv4, ((complete_socks5 first).mp hc).ipv4 ipv4⟩
  · rintro (⟨first, ends⟩ | ⟨rfl, first, ipv4, long⟩)
    · exact ⟨(complete_socks4 first).mpr ends, .inl first⟩
    · exact ⟨(complete_socks5 first).mpr (.inl ⟨ipv4, long⟩), .inr ⟨first, ipv4⟩⟩

/-- **An accepted request determines its destination** unless it leaves the address as it was. -/
theorem determined_iff (abi : Abi) (req : Bytes) (initial : Bool) :
    Determined abi req initial ↔ ¬ LeavesAddress abi req initial := by
  constructor
  · intro h
    rintro (⟨rfl, first, whole, notIpv4⟩ | ⟨⟨he, hl⟩, hreq⟩)
    · exact not_determined_of_kept first whole notIpv4 h
    · have request : ¬ (req[0]? = some 5 ∧ initial = true) := by
        rintro ⟨first, rfl⟩
        rcases hreq with ⟨other, -⟩ | ⟨hi, -⟩
        · rw [first] at other
          cases other
        · cases hi
      obtain ⟨hc, copies⟩ := (copies_iff request).mpr hreq
      exact not_determined_of_high he hl hc copies request h
  · intro h this this' r r' hp hp' version
    have request := (parse_layout hp).isRequest version
    have hc : complete initial req = true := by
      rw [← parse_accepts abi this, hp]
      rfl
    have leads := (parse_layout hp).leads request
    have leads' := (parse_layout hp').leads request
    have copies : CopiesAddress req := by
      by_contra hn
      exact h (.inl (leavesAddress_of_not_copies hc request hn))
    have low : abi.bigEndian = false ∨ abi.longBytes = 4 := by
      by_contra hn
      push Not at hn
      refine h (.inr ⟨⟨?_, abi.long.resolve_left hn.2⟩, (copies_iff request).mp ⟨hc, copies⟩⟩)
      exact Bool.eq_true_of_not_eq_false hn.1
    -- the same four bytes, copied to the low half of both
    obtain ⟨long, address⟩ := leads.copied copies
    have four : ((req.drop 4).take 4).length = 4 := length_take_drop long
    have address : r.address % 2 ^ 32 = r'.address % 2 ^ 32 := by
      rw [address, (leads'.copied copies).2, setAddress_low four low, setAddress_low four low]
    obtain ⟨command, port⟩ := leads.agree leads'
    refine ⟨⟨command, port, address⟩, ?_⟩
    rw [port]
    exact ofRequest_congr address

end

/-- CONNECT to the host `a`, port 80: the address is what the object held. -/
theorem host_name_undetermined :
    ¬ Determined .littleEndian [5, 1, 0, 3, 1, 97, 0, 80] false ∧
      ∃ r r', parse .littleEndian (holding 0) [5, 1, 0, 3, 1, 97, 0, 80] false = .accepted r ∧
        parse .littleEndian (holding 1) [5, 1, 0, 3, 1, 97, 0, 80] false = .accepted r' ∧
        r.command = requestCommandConnect ∧
        SockaddrIn.ofRequest r.address r.port ≠ SockaddrIn.ofRequest r'.address r'.port := by
  refine ⟨?_, _, _, rfl, rfl, rfl, by decide⟩
  exact not_determined_of_kept rfl (.inr (.inl ⟨1, rfl, rfl, by decide⟩)) (by decide)

/-! ### From the wire to the socket, and back -/

section
variable {abi : Abi} {this r : SocksRequest} {req : Bytes} {initial : Bool} {A P : Bytes}
  {d : FileDescriptor}

/-- A request to connect to the address `A` and the port `P`, with what a client may send between
them and behind them. -/
inductive Ipv4Connect (A P : Bytes) : Bool → Bytes → Prop where
  | socks4 {initial : Bool} (user more : Bytes) (named : ∀ b ∈ user, b ≠ 0)
      (short : user.length ≤ 247) :
      Ipv4Connect A P initial ([4, requestCommandConnect] ++ P ++ A ++ user ++ 0 :: more)
  | socks5 (reserved : UInt8) (more : Bytes) :
      Ipv4Connect A P false
        ([5, requestCommandConnect, reserved, socks5AddressIpv4] ++ A ++ P ++ more)

/-- The address of a socket holds the bytes `A` and `P`. -/
structure HoldsBytes (abi : Abi) (A P : Bytes) (addr : SockaddrIn) : Prop where
  address : abi.store 4 addr.sinAddr.toNat = A
  port : abi.store 2 addr.sinPort.toNat = P

/-- The replies made from the address of a socket carry the bytes `A` and `P`, each at its place in
the layout. -/
structure RepliesWith (abi : Abi) (A P : Bytes) (d : FileDescriptor) : Prop where
  socks4 : create abi .socks4 socks4ReplyGranted d.getRemotePort d.getRemoteAddress =
    [socks4ReplyVersion, socks4ReplyGranted] ++ P ++ A
  socks5 : create abi .socks5 socks5ReplySuccess d.getRemotePort d.getRemoteAddress =
    [socks5ReplyVersion, socks5ReplySuccess, 0x00, socks5ReplyAddressIpv4] ++ A ++ P

/-- `A` and `P` go from the request into `sockaddr_in` and from there into the reply as they are,
whatever the object held that `parse` filled. -/
structure ByteExact (abi : Abi) (A P : Bytes) : Prop where
  socket : ∀ this req initial, Ipv4Connect A P initial req →
    ∃ r, parse abi this req initial = .accepted r ∧ r.command = requestCommandConnect ∧
      HoldsBytes abi A P (.ofRequest r.address r.port)
  reply : ∀ d : FileDescriptor, HoldsBytes abi A P d.addr → RepliesWith abi A P d

/-- Where such a request has its port and its address. -/
structure Placed (A P : Bytes) (initial : Bool) (req : Bytes) : Prop where
  accepted : complete initial req = true
  request : ¬ (req[0]? = some 5 ∧ initial = true)
  command : req[1]? = some requestCommandConnect
  copies : CopiesAddress req
  address : (req.drop 4).take 4 = A
  port : ∃ pos, portAt req = some pos ∧ (req.drop pos).take 2 = P

theorem four_bytes (hA : A.length = 4) : ∃ a₀ a₁ a₂ a₃, A = [a₀, a₁, a₂, a₃] := by
  obtain ⟨a₀, rest, rfl⟩ := List.exists_cons_of_length_eq_add_one hA
  obtain ⟨a₁, a₂, a₃, rfl⟩ := List.length_eq_three.mp (Nat.succ.inj hA)
  exact ⟨a₀, a₁, a₂, a₃, rfl⟩

theorem Ipv4Connect.placed (h : Ipv4Connect A P initial req) (hA : A.length = 4)
    (hP : P.length = 2) : Placed A P initial req := by
  obtain ⟨p₀, p₁, rfl⟩ := List.length_eq_two.mp hP
  obtain ⟨a₀, a₁, a₂, a₃, rfl⟩ := four_bytes hA
  cases h with
  | socks4 user more named short =>
      refine ⟨?_, fun h => ?_, rfl, .inl rfl, rfl, 2, rfl, rfl⟩
      · refine (complete_socks4 rfl).mpr
          (exists_userEnds.mpr ⟨8 + user.length, by omega, by omega, ?_⟩)
        have long : ([4, requestCommandConnect] ++ [p₀, p₁] ++ [a₀, a₁, a₂, a₃] ++ user).length =
            8 + user.length := by
          rw [List.length_append]
          rfl
        rw [← long, List.getElem?_append_right (Nat.le_refl _), Nat.sub_self]
        rfl
      · cases h.1
  | socks5 reserved more =>
      refine ⟨?_, fun h => (by cases h.2), rfl, .inr ⟨rfl, rfl⟩, rfl, 8, rfl, rfl⟩
      exact (complete_socks5 rfl).mpr (.inl ⟨rfl, by simp⟩)

/-- What is left of such a request in an object. -/
theorem Placed.leads (h : Placed A P initial req) (this : SocksRequest) :
    ∃ r, parse abi this req initial = .accepted r ∧ r.command = requestCommandConnect ∧
      r.port = UInt16.ofNat (abi.load P) ∧ r.address = (this.setAddress abi A).address := by
  obtain ⟨r, hp⟩ := exists_accepted abi this h.accepted
  have leads := (parse_layout hp).leads h.request
  obtain ⟨pos, hpos, port⟩ := leads.port
  obtain ⟨pos', hpos', bytes⟩ := h.port
  obtain rfl := Option.some.inj (hpos.symm.trans hpos')
  refine ⟨r, hp, Option.some.inj (leads.command.symm.trans h.command), ?_, ?_⟩
  · rw [port, bytes]
  · rw [(leads.copied h.copies).2, h.address]

/-- The first four bytes of a `long` that holds an address are the bytes of the address. -/
theorem take_store_of_low (ha : abi.bigEndian = false ∨ abi.longBytes = 4) (v : Nat) :
    (abi.store abi.longBytes v).take 4 = abi.store 4 v := by
  rcases ha with hl | hl
  · refine Abi.take_store hl ?_ v
    rcases abi.long with h | h
    · omega
    · omega
  · rw [hl]
    exact List.take_of_length_le (by rw [Abi.length_store])

theorem HoldsBytes.replies (h : HoldsBytes abi A P d.addr)
    (ha : abi.bigEndian = false ∨ abi.longBytes = 4) : RepliesWith abi A P d := by
  have address : (abi.store abi.longBytes d.getRemoteAddress).take 4 = A := by
    rw [take_store_of_low ha]
    exact h.address
  have port : abi.store 2 d.getRemotePort.toNat = P := h.port
  constructor
  · rw [create, address, port]
  · rw [create, address, port]

/-- **Byte-exact destinations.**  The bytes of an address and a port survive the way into a socket
and into a reply if they are copied to and from the low half of the `long`: on little-endian
machines, and where the `long` has no other half. -/
theorem byte_exact_iff (hA : A.length = 4) (hP : P.length = 2) :
    ByteExact abi A P ↔ abi.bigEndian = false ∨ abi.longBytes = 4 := by
  constructor
  · intro h
    by_contra hn
    push Not at hn
    have he : abi.bigEndian = true := Bool.eq_true_of_not_eq_false hn.1
    -- other bytes than those of the address, left in the low half
    obtain ⟨low, hlow, other⟩ : ∃ low : Bytes, low.length = 4 ∧ low ≠ A := by
      by_cases hz : A = List.replicate 4 0
      · exact ⟨List.replicate 4 1, rfl, by rw [hz]; decide⟩
      · exact ⟨List.replicate 4 0, rfl, fun h => hz h.symm⟩
    obtain ⟨r, hp, -, holds⟩ :=
      h.socket (holding (abi.load (.replicate 4 0 ++ low))) _ false (.socks5 0 [])
    have placed : Placed A P false _ := (Ipv4Connect.socks5 0 []).placed hA hP
    obtain ⟨r', hp', -, -, address⟩ := @Placed.leads abi _ _ _ _ placed
      (holding (abi.load (.replicate 4 0 ++ low)))
    obtain rfl := ParseResult.accepted.inj (hp.symm.trans hp')
    have bytes := holds.address
    rw [SockaddrIn.ofRequest, UInt32.toNat_ofNat', address,
      setAddress_high hlow he (abi.long.resolve_left hn.2) rfl, abi.store_load hlow] at bytes
    exact other bytes
  · intro ha
    refine ⟨fun this req initial hreq => ?_, fun d h => h.replies ha⟩
    obtain ⟨r, hp, command, port, address⟩ := @Placed.leads abi _ _ _ _ (hreq.placed hA hP) this
    refine ⟨r, hp, command, ?_, ?_⟩
    · rw [SockaddrIn.ofRequest, UInt32.toNat_ofNat', address, setAddress_low hA ha]
      exact abi.store_load hA
    · rw [SockaddrIn.ofRequest, port]
      exact store_port hP

end

theorem byte_exact_sample : ByteExact .littleEndian [10, 0, 0, 1] [0, 80] :=
  (byte_exact_iff rfl rfl).mpr (.inl rfl)

/-- A big-endian machine whose `unsigned long` has eight bytes. -/
def bigEndian64 : Abi := ⟨true, 8, Abi.eightBytes⟩

/-- There, the socket gets what was in the low half before, and the reply the high half, which is
empty. -/
theorem byte_exact_fails :
    ¬ ByteExact bigEndian64 [10, 0, 0, 1] [0, 80] ∧
      ∃ r, parse bigEndian64 (holding 1) [5, 1, 0, 1, 10, 0, 0, 1, 0, 80] false =
          .accepted r ∧
        bigEndian64.store 4 (SockaddrIn.ofRequest r.address r.port).sinAddr.toNat =
          [0, 0, 0, 1] := by
  refine ⟨fun h => ?_, _, rfl, by decide⟩
  obtain ⟨r, hp, -, holds⟩ := h.socket (holding 1) _ false (.socks5 0 [])
  have := holds.address
  obtain rfl := (ParseResult.accepted.inj hp).symm
  exact absurd this (by decide)

end OldStuff.Socks
