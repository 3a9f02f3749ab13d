import OldStuff.Socks.Segments

/-!
# Socks — the grammar of messages

Which byte strings `parse` accepts, said without `parse`: the request of version 4, with its user
name up to a NUL (`UserEnds`); the greeting of version 5, with its count of methods; the request of
version 5, with its port behind an address of one of three types (`Addressed`).

`request_grammar` reads the two requests exactly.  The greeting is not read so: its count is a
signed `char`, and `greeting_exact` says when that makes no difference.

A message that is not accepted is either the beginning of one, or `Malformed`.  `parse` throws for
some of the malformed messages and catches its own exceptions, so that the handler cannot tell:
`rejected_incomplete` says that only the malformed ones are reported wrongly, and `malformed_waits`
what becomes of the connection.

Positions are unbounded here, where the source has `int`: a buffer has fewer than `2^31` bytes.
-/

namespace OldStuff.Socks
open OldStuff.Io

namespace SocksRequest

/-! ### The stages of `parse` -/

section
variable {abi : Abi} {this r : SocksRequest} {req : Bytes}

theorem charAt_accepts_iff {pos : Nat} {k : UInt8 → ParseResult} :
    (charAt req pos k).accepts = true ↔ ∃ b, req[pos]? = some b ∧ (k b).accepts = true := by
  rw [charAt]
  cases hb : req[pos]? with
  | none => exact ⟨fun h => (by cases h), fun ⟨_, h, _⟩ => (by cases h)⟩
  | some b =>
      refine ⟨fun h => ⟨b, rfl, h⟩, ?_⟩
      rintro ⟨b', h, hk⟩
      obtain rfl := Option.some.inj h
      exact hk

theorem memcpy_accepts_iff {pos n : Nat} {k : Bytes → ParseResult} :
    (memcpy req pos n k).accepts = true ↔
      pos + n ≤ req.length ∧ (k ((req.drop pos).take n)).accepts = true := by
  rw [memcpy]
  by_cases hn : pos + n ≤ req.length
  · rw [if_pos hn]
    exact ⟨fun h => ⟨hn, h⟩, And.right⟩
  · rw [if_neg hn]
    exact ⟨fun h => (by cases h), fun h => absurd h.1 hn⟩

theorem guard_accepts_iff {c : Prop} [Decidable c] {p : ParseResult} :
    (if c then .rejected else p : ParseResult).accepts = true ↔ ¬ c ∧ p.accepts = true := by
  by_cases hc : c
  · rw [if_pos hc]
    exact ⟨fun h => (by cases h), fun h => absurd hc h.1⟩
  · rw [if_neg hc]
    exact ⟨fun h => ⟨hc, h⟩, And.right⟩

theorem parsePort_accepts_iff {pos : Nat} :
    (parsePort abi this req pos).accepts = true ↔ pos + 2 ≤ req.length := by
  rw [parsePort, guard_accepts_iff, memcpy_accepts_iff]
  constructor
  · intro h
    omega
  · intro h
    exact ⟨by omega, h, rfl⟩

/-- The loop over the user name ends at the first NUL, which has to come before position 256. -/
theorem parseUser_accepts_iff {pos : Nat} {bs : Bytes} (hpos : pos ≤ 255) :
    (parseUser this pos bs).accepts = true ↔
      ∃ k, pos + k ≤ 255 ∧ bs[k]? = some 0 ∧ ∀ i < k, bs[i]? ≠ some 0 := by
  induction bs generalizing this pos with
  | nil =>
      refine ⟨fun h => (by cases h), ?_⟩
      rintro ⟨k, -, h, -⟩
      cases h
  | cons b bs ih =>
      rw [parseUser]
      by_cases hz : b = 0
      · subst hz
        refine ⟨fun _ => ⟨0, hpos, rfl, fun i hi => absurd hi (Nat.not_lt_zero i)⟩, fun _ => ?_⟩
        rfl
      · rw [if_neg hz, guard_accepts_iff]
        constructor
        · rintro ⟨hlt, h⟩
          obtain ⟨k, hk, hnul, huser⟩ := (ih (by omega)).mp h
          refine ⟨k + 1, by omega, hnul, fun i hi => ?_⟩
          cases i with
          | zero => exact fun h => hz (Option.some.inj h)
          | succ i => exact huser i (by omega)
        · rintro ⟨k, hk, hnul, huser⟩
          cases k with
          | zero => exact absurd (Option.some.inj hnul) hz
          | succ k =>
              refine ⟨by omega, (ih (by omega)).mpr ⟨k, by omega, hnul, fun i hi => ?_⟩⟩
              exact huser (i + 1) (by omega)

/-- The loop over the methods takes as many bytes as it has rounds. -/
theorem parseMethods_accepts_iff {i n : Nat} {bs : Bytes} (hn : i + n ≤ 256) :
    (parseMethods this i n bs).accepts = true ↔ n ≤ bs.length := by
  induction n generalizing this i bs with
  | zero => exact ⟨fun _ => Nat.zero_le _, fun _ => rfl⟩
  | succ n ih =>
      cases bs with
      | nil => exact ⟨fun h => (by cases h), fun h => absurd h (Nat.not_succ_le_zero n)⟩
      | cons b bs =>
          rw [parseMethods, guard_accepts_iff, ih (by omega), List.length_cons]
          omega

theorem signedChar_le (b : UInt8) : (signedChar b).toNat ≤ 127 := by
  have := b.toNat_lt
  unfold signedChar
  split
  · omega
  · omega

theorem signedChar_of_lt {b : UInt8} (h : b.toNat < 128) : signedChar b = b.toNat := if_pos h

theorem signedChar_of_ge {b : UInt8} (h : 128 ≤ b.toNat) : signedChar b = (b.toNat : Int) - 256 :=
  if_neg (Nat.not_lt_of_le h)

/-! ### The three formats -/

/-- The NUL behind the user name of a version 4 request stands at position `p`. -/
structure UserEnds (req : Bytes) (p : Nat) : Prop where
  late : 8 ≤ p
  early : p ≤ 255
  nul : req[p]? = some 0
  user : ∀ i, 8 ≤ i → i < p → req[i]? ≠ some 0

theorem UserEnds.inside {p : Nat} (h : UserEnds req p) : p < req.length :=
  (List.getElem?_eq_some_iff.mp h.nul).1

/-- The first NUL is the one that matters. -/
theorem exists_userEnds :
    (∃ p, UserEnds req p) ↔ ∃ i, 8 ≤ i ∧ i ≤ 255 ∧ req[i]? = some 0 := by
  classical
  constructor
  · rintro ⟨p, h⟩
    exact ⟨p, h.late, h.early, h.nul⟩
  · intro h
    obtain ⟨late, early, nul⟩ := Nat.find_spec h
    refine ⟨Nat.find h, late, early, nul, fun i hi hlt hz => ?_⟩
    exact Nat.find_min h hlt ⟨hi, by omega, hz⟩

/-- A request of version 5 ends behind its port, and the port stands behind the address. -/
def Addressed (req : Bytes) : Prop :=
  req[3]? = some socks5AddressIpv4 ∧ 10 ≤ req.length ∨
  (∃ n, req[3]? = some socks5AddressDomainname ∧ req[4]? = some n ∧ 7 + n.toNat ≤ req.length) ∨
  req[3]? = some socks5AddressIpv6 ∧ 22 ≤ req.length

/-- The type of the address has arrived. -/
theorem Addressed.fourth (h : Addressed req) : ∃ type, req[3]? = some type := by
  rcases h with ⟨h, -⟩ | ⟨-, h, -⟩ | ⟨h, -⟩
  · exact ⟨_, h⟩
  · exact ⟨_, h⟩
  · exact ⟨_, h⟩

/-- What stands before a byte that has arrived has arrived. -/
theorem getElem?_of_le {i j : Nat} {b : UInt8} (h : req[j]? = some b) (hi : i ≤ j) :
    ∃ c, req[i]? = some c :=
  ⟨_, List.getElem?_eq_getElem (Nat.lt_of_le_of_lt hi (List.getElem?_eq_some_iff.mp h).1)⟩

/-- **Version 4.** -/
theorem complete_socks4 {initial : Bool} (first : req[0]? = some 4) :
    complete initial req = true ↔ ∃ p, UserEnds req p := by
  have drop (k : Nat) : (req.drop 8)[k]? = req[8 + k]? := List.getElem?_drop
  rw [complete, parse, charAt, first]
  dsimp only
  rw [if_pos rfl, charAt_accepts_iff]
  constructor
  · rintro ⟨command, -, h⟩
    rw [guard_accepts_iff, memcpy_accepts_iff, guard_accepts_iff, memcpy_accepts_iff,
      parseUser_accepts_iff (by omega)] at h
    obtain ⟨-, -, -, -, k, hk, hnul, huser⟩ := h
    rw [drop] at hnul
    refine ⟨8 + k, Nat.le_add_right 8 k, hk, hnul, fun i hi hlt => ?_⟩
    have := huser (i - 8) (by omega)
    rwa [drop, Nat.add_sub_cancel' hi] at this
  · rintro ⟨p, h⟩
    have long := h.inside
    have late := h.late
    refine ⟨_, List.getElem?_eq_getElem (show 1 < req.length by omega), ?_⟩
    rw [guard_accepts_iff, memcpy_accepts_iff, guard_accepts_iff, memcpy_accepts_iff,
      parseUser_accepts_iff (by omega)]
    refine ⟨by omega, by omega, by omega, by omega, p - 8, by have := h.early; omega, ?_, ?_⟩
    · rw [drop, Nat.add_sub_cancel' late]
      exact h.nul
    · intro i hi
      rw [drop]
      exact h.user _ (Nat.le_add_right 8 i) (by omega)

/-- **The greeting of version 5**, whose count is a signed `char`. -/
theorem complete_greeting (first : req[0]? = some 5) :
    complete true req = true ↔ ∃ n, req[1]? = some n ∧ 2 + (signedChar n).toNat ≤ req.length := by
  rw [complete, parse, charAt, first]
  dsimp only
  rw [if_neg (by decide), if_pos ⟨rfl, rfl⟩, charAt_accepts_iff]
  refine exists_congr fun n => and_congr_right fun second => ?_
  have two := (List.getElem?_eq_some_iff.mp second).1
  rw [parseMethods_accepts_iff (by have := signedChar_le n; omega), List.length_drop]
  omega

/-- **Version 5.** -/
theorem complete_socks5 (first : req[0]? = some 5) :
    complete false req = true ↔ Addressed req := by
  rw [complete, parse, charAt, first]
  dsimp only
  rw [if_neg (by decide), if_neg (by rintro ⟨-, h⟩; cases h), if_pos rfl]
  simp only [charAt_accepts_iff]
  constructor
  · rintro ⟨command, -, reserved, -, type, fourth, h⟩
    by_cases hi : type = socks5AddressIpv4
    · rw [if_pos hi, guard_accepts_iff, memcpy_accepts_iff, parsePort_accepts_iff] at h
      exact .inl ⟨fourth.trans (congrArg some hi), h.2.2⟩
    · rw [if_neg hi] at h
      by_cases hd : type = socks5AddressDomainname
      · rw [if_pos hd, charAt_accepts_iff] at h
        obtain ⟨n, fifth, h⟩ := h
        rw [parsePort_accepts_iff] at h
        exact .inr (.inl ⟨n, fourth.trans (congrArg some hd), fifth, by omega⟩)
      · rw [if_neg hd] at h
        by_cases h6 : type = socks5AddressIpv6
        · rw [if_pos h6, parsePort_accepts_iff] at h
          exact .inr (.inr ⟨fourth.trans (congrArg some h6), h⟩)
        · rw [if_neg h6] at h
          cases h
  · intro h
    obtain ⟨type, fourth⟩ := h.fourth
    obtain ⟨command, hc⟩ := getElem?_of_le fourth (show 1 ≤ 3 by decide)
    obtain ⟨reserved, hr⟩ := getElem?_of_le fourth (show 2 ≤ 3 by decide)
    refine ⟨command, hc, reserved, hr, type, fourth, ?_⟩
    rcases h with ⟨h, long⟩ | ⟨n, h, fifth, long⟩ | ⟨h, long⟩
    · obtain rfl := Option.some.inj (fourth.symm.trans h)
      rw [if_pos rfl, guard_accepts_iff, memcpy_accepts_iff, parsePort_accepts_iff]
      omega
    · obtain rfl := Option.some.inj (fourth.symm.trans h)
      rw [if_neg (by decide), if_pos rfl, charAt_accepts_iff]
      exact ⟨n, fifth, parsePort_accepts_iff.mpr (by omega)⟩
    · obtain rfl := Option.some.inj (fourth.symm.trans h)
      rw [if_neg (by decide), if_neg (by decide), if_pos rfl]
      exact parsePort_accepts_iff.mpr long

/-! ### What the two requests carry -/

variable {bs : Bytes} {initial : Bool} {p : Nat}

/-- Both bytes of the port lie where they were copied. -/
theorem store_port (hb : bs.length = 2) :
    abi.store 2 (UInt16.ofNat (abi.load bs)).toNat = bs := by
  have small : abi.load bs < 2 ^ 16 := by
    have := abi.load_lt bs
    rwa [hb] at this
  rw [UInt16.toNat_ofNat', Nat.mod_eq_of_lt small]
  exact abi.store_load hb

theorem takeWhile_of_first {k : Nat} (nul : bs[k]? = some 0) (user : ∀ i < k, bs[i]? ≠ some 0) :
    bs.takeWhile (· ≠ 0) = bs.take k := by
  induction bs generalizing k with
  | nil => cases nul
  | cons b bs ih =>
      cases k with
      | zero =>
          obtain rfl := Option.some.inj nul
          rfl
      | succ k =>
          have hz : b ≠ 0 := fun h => user 0 (Nat.succ_pos k) (congrArg some h)
          rw [List.takeWhile_cons_of_pos (by simpa using hz), List.take_succ_cons,
            ih nul fun i hi => user (i + 1) (Nat.succ_lt_succ hi)]

/-- The name in front of the NUL. -/
theorem UserEnds.takeWhile (h : UserEnds req p) :
    (req.drop 8).takeWhile (· ≠ 0) = (req.drop 8).take (p - 8) := by
  have late := h.late
  refine takeWhile_of_first ?_ fun i hi => ?_
  · rw [List.getElem?_drop, Nat.add_sub_cancel' late]
    exact h.nul
  · rw [List.getElem?_drop]
    exact h.user _ (Nat.le_add_right 8 i) (by omega)

/-- The fields of a version 4 request whose user name ends at `p`. -/
structure Socks4Fields (abi : Abi) (req : Bytes) (p : Nat) (r : SocksRequest) : Prop where
  command : req[1]? = some r.command
  port : abi.store 2 r.port.toNat = (req.drop 2).take 2
  address : (abi.store abi.longBytes r.address).take 4 = (req.drop 4).take 4
  user : r.socks4User = (req.drop 8).take (p - 8)

/-- The fields of a version 5 request: its port stands behind its address. -/
structure Socks5Fields (abi : Abi) (req : Bytes) (r : SocksRequest) : Prop where
  command : req[1]? = some r.command
  port : ∃ type pos, req[3]? = some type ∧ portPos req type = some pos ∧ pos + 2 ≤ req.length ∧
    abi.store 2 r.port.toNat = (req.drop pos).take 2

theorem length_take_drop {pos n : Nat} (h : pos + n ≤ req.length) :
    ((req.drop pos).take n).length = n := by
  rw [List.length_take, List.length_drop]
  omega

theorem Layout.socks4Fields (h : Layout abi this req initial r) (first : req[0]? = some 4)
    (hc : this.Constructed) (hp : UserEnds req p) : Socks4Fields abi req p r := by
  cases h with
  | socks4 _ second long =>
      refine ⟨second, store_port (length_take_drop (by omega)), ?_, ?_⟩
      · exact store_setAddress (length_take_drop (by omega))
      · rw [← hp.takeWhile, hc.socks4User, List.nil_append]
  | greeting first' => rw [first] at first'; cases first'
  | socks5 first' => rw [first] at first'; cases first'

theorem setIpv4_command (abi : Abi) (req : Bytes) (this : SocksRequest) :
    (this.setIpv4 abi req).command = this.command := by
  unfold setIpv4
  split
  · rfl
  · rfl

theorem Layout.socks5Fields (h : Layout abi this req false r) (first : req[0]? = some 5) :
    Socks5Fields abi req r := by
  cases h with
  | socks4 first' => rw [first] at first'; cases first'
  | @socks5 command reserved type pos _ second _ fourth port long =>
      refine ⟨?_, type, pos, fourth, port, long, store_port (length_take_drop long)⟩
      rw [second, setPort, setIpv4_command]

end

end SocksRequest

open SocksRequest

/-- **The grammar of requests.**  A buffer that begins with 4 is accepted, for both values of
`initial`, if the name from position 8 on ends at a NUL at position 255 at the latest; one that
begins with 5 if its port has arrived, behind the address that its type asks for.  The fields are
those bytes, and nothing outside the buffer is read. -/
theorem request_grammar (abi : Abi) (this : SocksRequest) (req : Bytes) :
    (req[0]? = some 4 → ∀ initial,
      ((parse abi this req initial).accepts = true ↔ ∃ p, UserEnds req p) ∧
      ∀ r p, this.Constructed → parse abi this req initial = .accepted r → UserEnds req p →
        Socks4Fields abi req p r) ∧
    (req[0]? = some 5 →
      ((parse abi this req false).accepts = true ↔ Addressed req) ∧
      ∀ r, parse abi this req false = .accepted r → Socks5Fields abi req r) ∧
    ∀ initial, parse abi this req initial ≠ .overread := by
  refine ⟨fun first initial => ⟨?_, fun r p hc h hp => ?_⟩, fun first => ⟨?_, fun r h => ?_⟩,
    parse_ne_overread abi this req⟩
  · rw [parse_accepts]
    exact complete_socks4 first
  · exact (parse_layout h).socks4Fields first hc hp
  · rw [parse_accepts]
    exact complete_socks5 first
  · exact (parse_layout h).socks5Fields first

/-! ### The greeting -/

section
variable {abi : Abi} {this r : SocksRequest} {req : Bytes}

/-- An octet as a number. -/
def octet (b : UInt8) : Int := b.toNat

/-- What `parse` makes of a greeting is what the client has sent: it waits for as many methods as
the second octet counts, and keeps each of them as `entry` says. -/
structure Greets (abi : Abi) (this : SocksRequest) (req : Bytes) (entry : UInt8 → Int) : Prop where
  accepts : (parse abi this req true).accepts = true ↔
    ∃ n, req[1]? = some n ∧ 2 + n.toNat ≤ req.length
  methods : ∀ r n, parse abi this req true = .accepted r → req[1]? = some n →
    r.socks5AuthMethods.length = n.toNat ∧
      r.socks5AuthMethods = ((req.drop 2).take n.toNat).map entry

/-- The methods that `parse` keeps. -/
theorem greeting_methods {n : UInt8} (hc : this.Constructed) (first : req[0]? = some 5)
    (second : req[1]? = some n) (h : parse abi this req true = .accepted r) :
    r.socks5AuthMethods = ((req.drop 2).take (signedChar n).toNat).map signedChar := by
  cases parse_layout h with
  | socks4 first' => rw [first] at first'; cases first'
  | greeting _ second' =>
      obtain rfl := Option.some.inj (second.symm.trans second')
      rw [hc.socks5AuthMethods, List.nil_append]

/-- Read as signed, the octets of a count or of methods are right up to 127. -/
theorem greets_of_small (hc : this.Constructed) (first : req[0]? = some 5)
    (hn : ∀ n : UInt8, req[1]? = some n → n.toNat < 128) : Greets abi this req signedChar := by
  have count {n : UInt8} (second : req[1]? = some n) : (signedChar n).toNat = n.toNat := by
    rw [signedChar_of_lt (hn n second), Int.toNat_natCast]
  constructor
  · rw [parse_accepts, complete_greeting first]
    refine exists_congr fun n => and_congr_right fun second => ?_
    rw [count second]
  · intro r n h second
    have all := (complete_greeting first).mp (by rw [← parse_accepts abi this, h]; rfl)
    obtain ⟨n', second', long⟩ := all
    obtain rfl := Option.some.inj (second.symm.trans second')
    have methods := greeting_methods hc first second h
    rw [count second] at methods long
    refine ⟨?_, methods⟩
    rw [methods, List.length_map, length_take_drop long]

/-- A count of 128 or more is a negative number: the loop has no rounds. -/
theorem accepts_of_large {n : UInt8} (first : req[0]? = some 5) (second : req[1]? = some n)
    (hn : 128 ≤ n.toNat) : complete true req = true := by
  have two := (List.getElem?_eq_some_iff.mp second).1
  have small := n.toNat_lt
  refine (complete_greeting first).mpr ⟨n, second, ?_⟩
  rw [signedChar_of_ge hn]
  omega

theorem Greets.small {entry : UInt8 → Int} (h : Greets abi this req entry)
    (hc : this.Constructed) (first : req[0]? = some 5) {n : UInt8} (second : req[1]? = some n) :
    n.toNat < 128 := by
  refine Nat.lt_of_not_le fun hn => ?_
  have whole := accepts_of_large first second hn
  rw [← parse_accepts abi this] at whole
  cases hp : parse abi this req true with
  | accepted r =>
      have none := greeting_methods hc first second hp
      have small := n.toNat_lt
      have count : (signedChar n).toNat = 0 := by
        rw [signedChar_of_ge hn]
        omega
      rw [count, List.take_zero, List.map_nil] at none
      have := (h.methods r n hp second).1
      rw [none, List.length_nil] at this
      omega
  | rejected => rw [hp] at whole; cases whole
  | overread => rw [hp] at whole; cases whole

theorem map_signedChar {bs : Bytes} :
    bs.map signedChar = bs.map octet ↔ ∀ b ∈ bs, b.toNat < 128 := by
  rw [List.map_inj_left]
  refine forall₂_congr fun b _ => ?_
  constructor
  · intro h
    refine Nat.lt_of_not_le fun hb => ?_
    rw [signedChar_of_ge hb, octet] at h
    omega
  · exact signedChar_of_lt

/-- **The greeting is read exactly** if its count is below 128.  That is with the methods taken as
they are kept, as signed `char`s; with the methods taken as octets, those that have arrived have to
be below 128 as well. -/
theorem greeting_exact (hc : this.Constructed) (first : req[0]? = some 5) :
    (Greets abi this req signedChar ↔ ∀ n : UInt8, req[1]? = some n → n.toNat < 128) ∧
    (Greets abi this req octet ↔ ∀ n : UInt8, req[1]? = some n → n.toNat < 128 ∧
      (2 + n.toNat ≤ req.length → ∀ b ∈ (req.drop 2).take n.toNat, b.toNat < 128)) := by
  refine ⟨⟨fun h n => h.small hc first, greets_of_small hc first⟩, ?_⟩
  constructor
  · intro h n second
    refine ⟨h.small hc first second, fun long => ?_⟩
    have signed : Greets abi this req signedChar :=
      greets_of_small hc first fun n => h.small hc first
    -- the same methods, kept in two ways
    have whole := h.accepts.mpr ⟨n, second, long⟩
    cases hp : parse abi this req true with
    | accepted r =>
        have := (signed.methods r n hp second).2.symm.trans (h.methods r n hp second).2
        exact map_signedChar.mp this
    | rejected => rw [hp] at whole; cases whole
    | overread => rw [hp] at whole; cases whole
  · intro h
    have signed : Greets abi this req signedChar :=
      greets_of_small hc first fun n second => (h n second).1
    refine ⟨signed.accepts, fun r n hp second => ?_⟩
    obtain ⟨long, methods⟩ := signed.methods r n hp second
    obtain ⟨n', second', arrived⟩ := signed.accepts.mp (by rw [hp]; rfl)
    obtain rfl := Option.some.inj (second.symm.trans second')
    refine ⟨long, methods.trans ?_⟩
    exact map_signedChar.mpr ((h n second).2 arrived)

end

theorem greeting_exact_sample :
    Greets .littleEndian default [5, 1, 0] signedChar ∧
      Greets .littleEndian default [5, 1, 0] octet := by
  obtain ⟨signed, octets⟩ :=
    @greeting_exact .littleEndian default [5, 1, 0] ⟨rfl, rfl⟩ rfl
  have one (n : UInt8) (h : ([5, 1, 0] : Bytes)[1]? = some n) : n = 1 :=
    (Option.some.inj h).symm
  refine ⟨signed.mpr fun n h => ?_, octets.mpr fun n h => ?_⟩
  · rw [one n h]
    decide
  · rw [one n h]
    refine ⟨by decide, fun _ b hb => ?_⟩
    have zero : b = 0 := List.mem_singleton.mp hb
    rw [zero]
    decide

/-- 128 methods are announced, none has arrived, and the greeting is accepted. -/
theorem greeting_accepted_early :
    (∃ r, parse .littleEndian default [5, 128] true = .accepted r ∧ r.socks5AuthMethods = []) ∧
      ¬ Greets .littleEndian default [5, 128] signedChar ∧
      ¬ Greets .littleEndian default [5, 128] octet := by
  have early : (parse .littleEndian default [5, 128] true).accepts = true := by decide
  have refuted {entry : UInt8 → Int} : ¬ Greets .littleEndian default [5, 128] entry := by
    intro h
    obtain ⟨n, second, long⟩ := h.accepts.mp early
    have count : n = 128 := (Option.some.inj second).symm
    rw [count] at long
    exact absurd long (by decide)
  exact ⟨⟨_, rfl, rfl⟩, refuted, refuted⟩

/-! ### Incomplete or malformed -/

section
variable {initial : Bool} {req : Bytes}

/-- What no further bytes repair: an unknown version, a user name without a NUL up to position 255,
and an unknown type of address. -/
def Malformed (initial : Bool) (req : Bytes) : Prop :=
  (∃ b, req[0]? = some b ∧ b ≠ 4 ∧ b ≠ 5) ∨
  (req[0]? = some 4 ∧ 256 ≤ req.length ∧ ∀ i, 8 ≤ i → i ≤ 255 → req[i]? ≠ some 0) ∨
  (initial = false ∧ req[0]? = some 5 ∧ ∃ type, req[3]? = some type ∧ type ≠ socks5AddressIpv4 ∧
    type ≠ socks5AddressDomainname ∧ type ≠ socks5AddressIpv6)

theorem complete_first (h : complete initial req = true) :
    req[0]? = some 4 ∨ req[0]? = some 5 := by
  rw [complete, parse, charAt_accepts_iff] at h
  obtain ⟨b, first, h⟩ := h
  by_cases h4 : b = 4
  · exact .inl (first.trans (congrArg some h4))
  · by_cases h5 : b = 5
    · exact .inr (first.trans (congrArg some h5))
    · dsimp only at h
      rw [if_neg h4, if_neg fun h => h5 h.1, if_neg h5] at h
      cases h

theorem getElem?_append_of_some {bs more : Bytes} {i : Nat} {b : UInt8} (h : bs[i]? = some b) :
    (bs ++ more)[i]? = some b := by
  rw [List.getElem?_append_left (List.getElem?_eq_some_iff.mp h).1, h]

/-- A malformed message stays one, whatever follows. -/
theorem Malformed.append (h : Malformed initial req) (more : Bytes) :
    Malformed initial (req ++ more) := by
  obtain ⟨b, first, other⟩ | ⟨first, long, none⟩ | ⟨second, first, type, fourth, other⟩ := h
  · exact .inl ⟨b, getElem?_append_of_some first, other⟩
  · refine .inr (.inl ⟨getElem?_append_of_some first, by rw [List.length_append]; omega, ?_⟩)
    intro i late early
    rw [List.getElem?_append_left (by omega)]
    exact none i late early
  · exact .inr (.inr ⟨second, getElem?_append_of_some first, type,
      getElem?_append_of_some fourth, other⟩)

theorem Malformed.not_complete (h : Malformed initial req) : complete initial req = false := by
  refine Bool.eq_false_iff.mpr fun hc => ?_
  obtain ⟨b, first, h4, h5⟩ | ⟨first, long, none⟩ | ⟨rfl, first, type, fourth, hi, hd, h6⟩ := h
  · rcases complete_first hc with h | h
    · exact h4 (Option.some.inj (first.symm.trans h))
    · exact h5 (Option.some.inj (first.symm.trans h))
  · obtain ⟨i, late, early, nul⟩ := exists_userEnds.mp ((complete_socks4 first).mp hc)
    exact none i late early nul
  · rcases (complete_socks5 first).mp hc with ⟨h, -⟩ | ⟨-, h, -⟩ | ⟨h, -⟩
    · exact hi (Option.some.inj (fourth.symm.trans h))
    · exact hd (Option.some.inj (fourth.symm.trans h))
    · exact h6 (Option.some.inj (fourth.symm.trans h))

/-- 300 bytes are more than any message lacks. -/
theorem length_padded (bs : Bytes) (b : UInt8) :
    300 ≤ (bs ++ List.replicate 300 b).length := by
  rw [List.length_append, List.length_replicate]
  omega

theorem padded_of_length_le {bs : Bytes} {i : Nat} (b : UInt8) (hi : bs.length ≤ i)
    (h : i < 300) : (bs ++ List.replicate 300 b)[i]? = some b := by
  rw [List.getElem?_append_right hi, List.getElem?_replicate_of_lt (by omega)]

/-- Zeros end the name of a version 4 request. -/
theorem repair_socks4 (first : req[0]? = some 4) (h : ¬ Malformed initial req) :
    complete initial (req ++ List.replicate 300 0) = true := by
  refine (complete_socks4 (getElem?_append_of_some first)).mpr (exists_userEnds.mpr ?_)
  rcases Nat.lt_or_ge req.length 256 with short | long
  · exact ⟨255, by omega, Nat.le_refl 255, padded_of_length_le 0 (by omega) (by omega)⟩
  · -- a name this long has its end among the bytes that have arrived
    by_contra none
    refine h (.inr (.inl ⟨first, long, fun i late early nul => none ?_⟩))
    exact ⟨i, late, early, getElem?_append_of_some nul⟩

/-- Ones are methods, and they are the head of a request for an IPv4 address. -/
theorem repair_socks5 (first : req[0]? = some 5) (h : ¬ Malformed initial req) :
    complete initial (req ++ List.replicate 300 1) = true := by
  have first' : (req ++ List.replicate 300 1)[0]? = some 5 := getElem?_append_of_some first
  have long := length_padded req 1
  cases initial with
  | true =>
      refine (complete_greeting first').mpr
        ⟨_, List.getElem?_eq_getElem (Nat.lt_of_lt_of_le (by decide) long), ?_⟩
      exact Nat.le_trans (Nat.add_le_add_left (signedChar_le _) 2) (by omega)
  | false =>
      refine (complete_socks5 first').mpr ?_
      cases fourth : req[3]? with
      | none =>
          have short : req.length ≤ 3 := List.getElem?_eq_none_iff.mp fourth
          exact .inl ⟨padded_of_length_le 1 short (by decide), by omega⟩
      | some type =>
          have fourth' : (req ++ List.replicate 300 1)[3]? = some type :=
            getElem?_append_of_some fourth
          by_cases hi : type = socks5AddressIpv4
          · exact .inl ⟨fourth'.trans (congrArg some hi), by omega⟩
          · by_cases hd : type = socks5AddressDomainname
            · refine .inr (.inl ⟨_, fourth'.trans (congrArg some hd),
                List.getElem?_eq_getElem (Nat.lt_of_lt_of_le (by decide) long), ?_⟩)
              exact Nat.le_trans (Nat.add_le_add_left (UInt8.toNat_lt _).le 7) (by omega)
            · by_cases h6 : type = socks5AddressIpv6
              · exact .inr (.inr ⟨fourth'.trans (congrArg some h6), by omega⟩)
              · exact absurd (.inr (.inr ⟨rfl, first, type, fourth, hi, hd, h6⟩)) h

/-- **Everything else is the beginning of a message.** -/
theorem repairable_iff : (∃ more, complete initial (req ++ more) = true) ↔
    ¬ Malformed initial req := by
  constructor
  · rintro ⟨more, hc⟩ h
    rw [(h.append more).not_complete] at hc
    cases hc
  · intro h
    cases req with
    | nil =>
        have four : ¬ Malformed initial [4] := by
          rintro (⟨b, first, h4, -⟩ | ⟨-, long, -⟩ | ⟨-, first, -⟩)
          · exact h4 (Option.some.inj first).symm
          · exact absurd long (by decide)
          · cases first
        exact ⟨4 :: List.replicate 300 0, @repair_socks4 initial [4] rfl four⟩
    | cons b bs =>
        by_cases h4 : b = 4
        · exact ⟨_, repair_socks4 (congrArg some h4) h⟩
        · by_cases h5 : b = 5
          · exact ⟨_, repair_socks5 (congrArg some h5) h⟩
          · exact absurd (.inl ⟨b, rfl, h4, h5⟩) h

/-- A visit to the reading state of `v` that finds `req` in the buffer and calls `parse`. -/
structure Visit.Parses (v : Version) (req : Bytes) (x : Visit) : Prop where
  state : x.before.conn.state = v.readingRequest
  client : x.before.conn.client ≠ none
  delivers : x.Delivers
  run : work x.input.env (x.before.enter x.input) = .ok x.alive x.after
  buffer : x.before.conn.clientReadBuff ++ x.delivered = req
  short : req.length < maxBuffSize

/-- `false` means that more bytes can help; what none can repair is told apart from it, and the
connection does not wait. -/
structure Reports (initial : Bool) (req : Bytes) : Prop where
  incomplete : ∀ abi this, parse abi this req initial = .rejected →
    ∃ more, (parse abi this (req ++ more) initial).accepts = true
  malformed : (∀ abi this more, (parse abi this (req ++ more) initial).accepts = false) →
    (∀ abi this, parse abi this req initial ≠ .rejected) ∧
      ∀ v x, v.initial = initial → Visit.Parses v req x → ¬ x.Waits

/-- **A malformed message is waited on**, as if more of it were to come. -/
theorem malformed_waits {v : Version} {x : Visit} (h : Malformed v.initial req)
    (hx : x.Parses v req) : x.Waits := by
  have open' := h.not_complete
  have short := hx.short
  rw [← hx.buffer] at open' short
  exact visit_waits hx.state hx.client hx.delivers hx.run short open'

theorem rejected_iff {abi : Abi} {this : SocksRequest} :
    parse abi this req initial = .rejected ↔ complete initial req = false := by
  rw [← parse_accepts abi this]
  cases hp : parse abi this req initial with
  | accepted r => exact ⟨fun h => (by cases h), fun h => by cases h⟩
  | rejected => exact ⟨fun _ => rfl, fun _ => rfl⟩
  | overread => exact absurd hp (parse_ne_overread abi this req initial)

/-- **Rejected means incomplete**, unless the message is malformed. -/
theorem rejected_incomplete (initial : Bool) (req : Bytes) :
    Reports initial req ↔ ¬ Malformed initial req := by
  constructor
  · intro h hm
    have open' : parse .littleEndian default req initial = .rejected :=
      rejected_iff.mpr hm.not_complete
    obtain ⟨more, hc⟩ := h.incomplete _ _ open'
    rw [parse_accepts] at hc
    exact repairable_iff.mp ⟨more, hc⟩ hm
  · intro h
    obtain ⟨more, hc⟩ := repairable_iff.mpr h
    refine ⟨fun abi this _ => ⟨more, by rwa [parse_accepts]⟩, fun never => ?_⟩
    have := never .littleEndian default more
    rw [parse_accepts, hc] at this
    cases this

end

namespace Sample

/-- A version that is not served. -/
def strange : Chunk := ⟨[9], fun h => (by cases h), by decide⟩

/-- A client that sends it. -/
def strangeVisit : List Visit × Bool × World :=
  play (.fresh 0 client 0) [visit [7] [] { env with read := fun _ => .data strange }]

end Sample

/-- An unknown version is waited on. -/
theorem strange_version_waits :
    ¬ Reports true [9] ∧
      ∃ x, Sample.strangeVisit.1 = [x] ∧ x.Parses .socks4 [9] ∧ x.Waits := by
  have malformed : Malformed true [9] := .inl ⟨9, rfl, by decide, by decide⟩
  have parses (x : Visit) (hx : x ∈ Sample.strangeVisit.1) : x.Parses .socks4 [9] := by
    obtain rfl := List.mem_singleton.mp hx
    exact ⟨rfl, Option.some_ne_none _, fun _ _ _ => .inr ⟨_, rfl⟩, rfl, rfl, by decide⟩
  refine ⟨fun h => (rejected_incomplete true [9]).mp h malformed, _, rfl, ?_⟩
  have := parses _ (List.mem_singleton_self _)
  exact ⟨this, malformed_waits (v := .socks4) malformed this⟩

end OldStuff.Socks
