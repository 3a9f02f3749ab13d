import OldStuff.Io.Descriptor

/-!
# Socks — `socks_request`

`parse` reads a request out of the bytes received so far.  It answers `false` for an incomplete
message and for a malformed one alike; `ParseResult` keeps apart only what the caller can tell
apart, and the outcome that must not occur, a `memcpy` that leaves the buffer.

`socks_request` has no constructor: `parse` overwrites some of the fields of an object whose
contents are arbitrary (`this`).
-/

namespace OldStuff.Socks
open OldStuff.Io

/-- `SOCKS4_REQUEST_COMMAND_CONNECT` and `SOCKS5_REQUEST_COMMAND_CONNECT`. -/
def requestCommandConnect : UInt8 := 0x01
/-- `SOCKS4_REQUEST_COMMAND_BIND` and `SOCKS5_REQUEST_COMMAND_BIND`. -/
def requestCommandBind : UInt8 := 0x02

def socks5AddressIpv4 : UInt8 := 0x01
def socks5AddressDomainname : UInt8 := 0x03
def socks5AddressIpv6 : UInt8 := 0x04

/-- The fields of a request; `address` is an `unsigned long`. -/
structure SocksRequest where
  version : UInt8
  command : UInt8
  socks5Reserved : UInt8
  socks5AddressType : UInt8
  port : UInt16
  address : Nat
  socks4User : Bytes
  socks5AuthMethods : List Int
  deriving DecidableEq, Inhabited

/-- What a call of `parse` comes to: `true` with the fields as they are left, `false`, or a read
outside the string. -/
inductive ParseResult where
  | accepted (req : SocksRequest)
  | rejected
  | overread
  deriving DecidableEq

namespace SocksRequest

/-- `req.at(pos)`; `std::out_of_range` is caught at the end of `parse`. -/
def charAt (req : Bytes) (pos : Nat) (k : UInt8 → ParseResult) : ParseResult :=
  match req[pos]? with
  | some b => k b
  | none   => .rejected

/-- `memcpy` of `n` bytes from `req.c_str()+pos`. -/
def memcpy (req : Bytes) (pos n : Nat) (k : Bytes → ParseResult) : ParseResult :=
  if pos + n ≤ req.length then k ((req.drop pos).take n) else .overread

/-- `memcpy(&port,p,2)`. -/
def setPort (abi : Abi) (bs : Bytes) (this : SocksRequest) : SocksRequest :=
  { this with port := UInt16.ofNat (abi.load bs) }

/-- `memcpy(&address,p,4)`: the first four bytes of the field, whatever its size. -/
def setAddress (abi : Abi) (bs : Bytes) (this : SocksRequest) : SocksRequest :=
  { this with address := abi.load (bs ++ (abi.store abi.longBytes this.address).drop 4) }

/-- `while(req.at(pos))`: the user name, up to its NUL. -/
def parseUser (this : SocksRequest) (pos : Nat) : Bytes → ParseResult
  | [] => .rejected
  | b :: rest =>
    if b = 0 then .accepted this
    else if pos + 1 ≥ 256 then .rejected
    else parseUser { this with socks4User := this.socks4User ++ [b] } (pos + 1) rest

/-- A `char` as `int`; `char` is signed. -/
def signedChar (b : UInt8) : Int := if b.toNat < 128 then b.toNat else (b.toNat : Int) - 256

/-- `for(int i=0;i<nmethods;i++)`, with `n` rounds to go. -/
def parseMethods (this : SocksRequest) (i : Nat) : Nat → Bytes → ParseResult
  | 0, _ => .accepted this
  | _ + 1, [] => .rejected
  | n + 1, b :: rest =>
    if i ≥ 256 then .rejected
    else parseMethods
      { this with socks5AuthMethods := this.socks5AuthMethods ++ [signedChar b] } (i + 1) n rest

/-- The port of a version 5 request, behind its address. -/
def parsePort (abi : Abi) (this : SocksRequest) (req : Bytes) (pos : Nat) : ParseResult :=
  if req.length < pos + 2 then .rejected
  else memcpy req pos 2 fun bs => .accepted (this.setPort abi bs)

def parse (abi : Abi) (this : SocksRequest) (req : Bytes) (initial : Bool) : ParseResult :=
  charAt req 0 fun version =>
  let this := { this with version }
  if version = 4 then
    charAt req 1 fun command =>
    let this := { this with command }
    if req.length < 4 then .rejected
    else memcpy req 2 2 fun port =>
      let this := this.setPort abi port
      if req.length < 8 then .rejected
      else memcpy req 4 4 fun address => parseUser (this.setAddress abi address) 8 (req.drop 8)
  else if version = 5 ∧ initial then
    charAt req 1 fun nmethods => parseMethods this 0 (signedChar nmethods).toNat (req.drop 2)
  else if version = 5 then
    charAt req 1 fun command =>
    charAt req 2 fun socks5Reserved =>
    charAt req 3 fun socks5AddressType =>
    let this := { this with command, socks5Reserved, socks5AddressType }
    if socks5AddressType = socks5AddressIpv4 then
      if req.length < 8 then .rejected
      else memcpy req 4 4 fun address => parsePort abi (this.setAddress abi address) req 8
    else if socks5AddressType = socks5AddressDomainname then
      charAt req 4 fun bytes => parsePort abi this req (5 + bytes.toNat)
    else if socks5AddressType = socks5AddressIpv6 then parsePort abi this req 20
    else .rejected
  else .rejected

/-! ### No read outside the string -/

section
variable {abi : Abi} {this : SocksRequest} {req : Bytes}

theorem charAt_ne_overread {pos : Nat} {k : UInt8 → ParseResult}
    (h : ∀ b, k b ≠ .overread) : charAt req pos k ≠ .overread := by
  unfold charAt
  split
  · exact h _
  · nofun

theorem memcpy_ne_overread {pos n : Nat} {k : Bytes → ParseResult} (hn : pos + n ≤ req.length)
    (h : ∀ bs, k bs ≠ .overread) : memcpy req pos n k ≠ .overread := by
  rw [memcpy, if_pos hn]; exact h _

theorem parseUser_ne_overread (pos : Nat) (bs : Bytes) : parseUser this pos bs ≠ .overread := by
  induction bs generalizing this pos with
  | nil => nofun
  | cons b bs ih =>
      unfold parseUser
      split
      · nofun
      · split
        · nofun
        · exact ih _

theorem parseMethods_ne_overread (i n : Nat) (bs : Bytes) :
    parseMethods this i n bs ≠ .overread := by
  induction n generalizing this i bs with
  | zero => nofun
  | succ n ih =>
      cases bs with
      | nil => nofun
      | cons b bs =>
          unfold parseMethods
          split
          · nofun
          · exact ih _ _

theorem parsePort_ne_overread (pos : Nat) : parsePort abi this req pos ≠ .overread := by
  unfold parsePort
  split
  · nofun
  · next h => exact memcpy_ne_overread (by omega) fun _ => nofun

/-- **No read outside the string**: every `memcpy` stands behind a test of the length. -/
theorem parse_ne_overread (abi : Abi) (this : SocksRequest) (req : Bytes) (initial : Bool) :
    parse abi this req initial ≠ .overread := by
  refine charAt_ne_overread fun version => ?_
  split
  · refine charAt_ne_overread fun command => ?_
    split
    · nofun
    · refine memcpy_ne_overread (by omega) fun _ => ?_
      split
      · nofun
      · exact memcpy_ne_overread (by omega) fun _ => parseUser_ne_overread _ _
  · split
    · exact charAt_ne_overread fun _ => parseMethods_ne_overread _ _ _
    · split
      · refine charAt_ne_overread fun _ => charAt_ne_overread fun _ =>
          charAt_ne_overread fun _ => ?_
        split
        · split
          · nofun
          · exact memcpy_ne_overread (by omega) fun _ => parsePort_ne_overread _
        · split
          · exact charAt_ne_overread fun _ => parsePort_ne_overread _
          · split
            · exact parsePort_ne_overread _
            · nofun
      · nofun

end

/-! ### Which buffers are accepted

The verdict depends on the bytes only, not on the machine and not on what the object held. -/

end SocksRequest

def ParseResult.accepts : ParseResult → Bool
  | .accepted _ => true
  | _ => false

namespace SocksRequest

section
variable {abi abi' : Abi} {this this' : SocksRequest} {req : Bytes}

theorem charAt_accepts {pos : Nat} {k k' : UInt8 → ParseResult}
    (h : ∀ b, (k b).accepts = (k' b).accepts) :
    (charAt req pos k).accepts = (charAt req pos k').accepts := by
  unfold charAt
  split
  · exact h _
  · rfl

theorem memcpy_accepts {pos n : Nat} {k k' : Bytes → ParseResult}
    (h : ∀ bs, (k bs).accepts = (k' bs).accepts) :
    (memcpy req pos n k).accepts = (memcpy req pos n k').accepts := by
  unfold memcpy
  split
  · exact h _
  · rfl

theorem parseUser_accepts (pos : Nat) (bs : Bytes) :
    (parseUser this pos bs).accepts = (parseUser this' pos bs).accepts := by
  induction bs generalizing this this' pos with
  | nil => rfl
  | cons b bs ih =>
      unfold parseUser
      split
      · rfl
      · split
        · rfl
        · exact ih _

theorem parseMethods_accepts (i n : Nat) (bs : Bytes) :
    (parseMethods this i n bs).accepts = (parseMethods this' i n bs).accepts := by
  induction n generalizing this this' i bs with
  | zero => rfl
  | succ n ih =>
      cases bs with
      | nil => rfl
      | cons b bs =>
          unfold parseMethods
          split
          · rfl
          · exact ih _ _

theorem parsePort_accepts (pos : Nat) :
    (parsePort abi this req pos).accepts = (parsePort abi' this' req pos).accepts := by
  unfold parsePort
  split
  · rfl
  · exact memcpy_accepts fun _ => rfl

theorem parse_accepts_congr (initial : Bool) :
    (parse abi this req initial).accepts = (parse abi' this' req initial).accepts := by
  refine charAt_accepts fun version => ?_
  split
  · refine charAt_accepts fun command => ?_
    split
    · rfl
    · refine memcpy_accepts fun _ => ?_
      split
      · rfl
      · exact memcpy_accepts fun _ => parseUser_accepts _ _
  · split
    · exact charAt_accepts fun _ => parseMethods_accepts _ _ _
    · split
      · refine charAt_accepts fun _ => charAt_accepts fun _ => charAt_accepts fun _ => ?_
        split
        · split
          · rfl
          · exact memcpy_accepts fun _ => parsePort_accepts _
        · split
          · exact charAt_accepts fun _ => parsePort_accepts _
          · split
            · exact parsePort_accepts _
            · rfl
      · rfl

end

/-- `parse` accepts the buffer. -/
def complete (initial : Bool) (req : Bytes) : Bool :=
  (parse ⟨false, 8, .inr rfl⟩ default req initial).accepts

theorem parse_accepts (abi : Abi) (this : SocksRequest) (req : Bytes) (initial : Bool) :
    (parse abi this req initial).accepts = complete initial req :=
  parse_accepts_congr initial

/-- The message at the front of a buffer: its shortest prefix that `parse` accepts, or all of it if
no shorter one is. -/
def message (initial : Bool) (buf : Bytes) : Bytes :=
  buf.take (((List.range buf.length).find? fun k => complete initial (buf.take k)).getD buf.length)

/-- What `message` picks from a buffer that is accepted. -/
theorem message_spec {initial : Bool} {buf : Bytes} (h : complete initial buf = true) :
    complete initial (message initial buf) = true ∧ message initial buf <+: buf ∧
      ∀ m, m <+: buf → complete initial m = true → (message initial buf).length ≤ m.length := by
  unfold message
  cases hf : (List.range buf.length).find? fun k => complete initial (buf.take k) with
  | none =>
      refine ⟨by simpa using h, List.take_prefix _ _, fun m hm hc => ?_⟩
      rcases Nat.lt_or_ge m.length buf.length with hlt | hge
      · have := List.find?_eq_none.mp hf _ (List.mem_range.mpr hlt)
        rw [← List.prefix_iff_eq_take.mp hm] at this
        exact absurd hc this
      · simpa using hge
  | some k =>
      obtain ⟨hk, hmem, hfirst⟩ := List.find?_range_eq_some.mp hf
      refine ⟨hk, List.take_prefix _ _, fun m hm hc => Nat.le_of_not_lt fun hlt => ?_⟩
      have hmk : m.length < k := by
        simp only [Option.getD_some, List.length_take] at hlt
        omega
      have := hfirst m.length hmk
      rw [← List.prefix_iff_eq_take.mp hm, hc] at this
      cases this

/-- A buffer is one message if no proper prefix of it is accepted. -/
theorem message_eq_self {initial : Bool} {buf : Bytes} :
    message initial buf = buf ↔ ∀ k < buf.length, complete initial (buf.take k) = false := by
  unfold message
  cases hf : (List.range buf.length).find? fun k => complete initial (buf.take k) with
  | none => simpa using hf
  | some k =>
      obtain ⟨hk, hmem, -⟩ := List.find?_range_eq_some.mp hf
      have hlt := List.mem_range.mp hmem
      constructor
      · intro h
        have := congrArg List.length h
        simp only [Option.getD_some, List.length_take] at this
        omega
      · intro h
        rw [h k hlt] at hk
        cases hk

/-! ### More bytes behind a message

What `parse` accepts it accepts with anything behind it, and with the same result. -/

section
variable {abi : Abi} {this r : SocksRequest} {req : Bytes}

theorem charAt_append {pos : Nat} {k k' : UInt8 → ParseResult} (more : Bytes)
    (h : charAt req pos k = .accepted r) (hk : ∀ b, k b = .accepted r → k' b = .accepted r) :
    charAt (req ++ more) pos k' = .accepted r := by
  unfold charAt at h ⊢
  split at h
  · next b hb =>
      have there : (req ++ more)[pos]? = some b := by
        rw [List.getElem?_append_left (List.getElem?_eq_some_iff.mp hb).1, hb]
      rw [there]
      exact hk b h
  · cases h

theorem memcpy_append {pos n : Nat} {k k' : Bytes → ParseResult} (more : Bytes)
    (h : memcpy req pos n k = .accepted r) (hk : ∀ bs, k bs = .accepted r → k' bs = .accepted r) :
    memcpy (req ++ more) pos n k' = .accepted r := by
  unfold memcpy at h ⊢
  split at h
  · next hn =>
      have same : ((req ++ more).drop pos).take n = (req.drop pos).take n := by
        rw [List.drop_append_of_le_length (by omega)]
        exact List.take_append_of_le_length (by rw [List.length_drop]; omega)
      rw [if_pos (by rw [List.length_append]; omega), same]
      exact hk _ h
  · cases h

theorem parseUser_append {pos : Nat} {bs : Bytes} (more : Bytes)
    (h : parseUser this pos bs = .accepted r) : parseUser this pos (bs ++ more) = .accepted r := by
  induction bs generalizing this pos with
  | nil => cases h
  | cons b bs ih =>
      rw [List.cons_append]
      unfold parseUser at h ⊢
      by_cases hz : b = 0
      · rwa [if_pos hz] at h ⊢
      · rw [if_neg hz] at h ⊢
        by_cases hl : pos + 1 ≥ 256
        · rw [if_pos hl] at h
          cases h
        · rw [if_neg hl] at h ⊢
          exact ih h

theorem parseMethods_append {i n : Nat} {bs : Bytes} (more : Bytes)
    (h : parseMethods this i n bs = .accepted r) :
    parseMethods this i n (bs ++ more) = .accepted r := by
  induction n generalizing this i bs with
  | zero => rwa [parseMethods] at h ⊢
  | succ n ih =>
      cases bs with
      | nil => cases h
      | cons b bs =>
          rw [List.cons_append]
          unfold parseMethods at h ⊢
          by_cases hi : i ≥ 256
          · rw [if_pos hi] at h
            cases h
          · rw [if_neg hi] at h ⊢
            exact ih h

theorem parsePort_append {pos : Nat} (more : Bytes)
    (h : parsePort abi this req pos = .accepted r) :
    parsePort abi this (req ++ more) pos = .accepted r := by
  unfold parsePort at h ⊢
  by_cases hl : req.length < pos + 2
  · rw [if_pos hl] at h
    cases h
  · rw [if_neg hl] at h
    rw [if_neg (by rw [List.length_append]; omega)]
    exact memcpy_append more h fun _ => id

/-- A test of the length that more bytes cannot fail. -/
theorem guard_append {n : Nat} {p p' : ParseResult} (more : Bytes)
    (h : (if req.length < n then .rejected else p) = ParseResult.accepted r)
    (hp : p = .accepted r → p' = .accepted r) :
    (if (req ++ more).length < n then .rejected else p') = ParseResult.accepted r := by
  by_cases hl : req.length < n
  · rw [if_pos hl] at h
    cases h
  · rw [if_neg hl] at h
    rw [if_neg (by rw [List.length_append]; omega)]
    exact hp h

/-- **More bytes change nothing.** -/
theorem parse_append {initial : Bool} (more : Bytes)
    (h : parse abi this req initial = .accepted r) :
    parse abi this (req ++ more) initial = .accepted r := by
  refine charAt_append more h fun version h => ?_
  by_cases h4 : version = 4
  · rw [if_pos h4] at h ⊢
    refine charAt_append more h fun command h => guard_append more h fun h =>
      memcpy_append more h fun port h => guard_append more h fun h => ?_
    by_cases h8 : 8 ≤ req.length
    · -- the user name is the rest of the request, from byte 8 on
      refine memcpy_append more h fun address h => ?_
      rw [List.drop_append_of_le_length h8]
      exact parseUser_append more h
    · rw [memcpy, if_neg h8] at h
      cases h
  · rw [if_neg h4] at h ⊢
    by_cases h5 : version = 5 ∧ initial = true
    · rw [if_pos h5] at h ⊢
      -- the methods are the rest, from byte 2 on
      have long : 2 ≤ req.length := by
        unfold charAt at h
        split at h
        · next hb => exact (List.getElem?_eq_some_iff.mp hb).1
        · cases h
      refine charAt_append more h fun nmethods h => ?_
      rw [List.drop_append_of_le_length long]
      exact parseMethods_append more h
    · rw [if_neg h5] at h ⊢
      by_cases h5' : version = 5
      · rw [if_pos h5'] at h ⊢
        refine charAt_append more h fun command h => charAt_append more h fun reserved h =>
          charAt_append more h fun type h => ?_
        dsimp only at h ⊢
        by_cases ht : type = socks5AddressIpv4
        · rw [if_pos ht] at h ⊢
          exact guard_append more h fun h => memcpy_append more h fun _ => parsePort_append more
        · rw [if_neg ht] at h ⊢
          by_cases ht' : type = socks5AddressDomainname
          · rw [if_pos ht'] at h ⊢
            -- a domain name: its length says where the port stands
            exact charAt_append more h fun _ => parsePort_append more
          · rw [if_neg ht'] at h ⊢
            by_cases ht'' : type = socks5AddressIpv6
            · rw [if_pos ht''] at h ⊢
              exact parsePort_append more h
            · rw [if_neg ht''] at h
              cases h
      · rw [if_neg h5'] at h
        cases h

theorem complete_append {initial : Bool} (more : Bytes) (h : complete initial req = true) :
    complete initial (req ++ more) = true := by
  unfold complete at h ⊢
  cases hp : parse ⟨false, 8, .inr rfl⟩ default req initial with
  | accepted r => rw [parse_append more hp]; rfl
  | rejected => rw [hp] at h; cases h
  | overread => rw [hp] at h; cases h

/-- A buffer is accepted as soon as it begins with a message. -/
theorem complete_of_isPrefix {initial : Bool} {m : Bytes} (hm : m <+: req)
    (h : complete initial m = true) : complete initial req = true := by
  obtain ⟨more, rfl⟩ := hm
  exact complete_append more h

end

/-! ### What an accepted message says -/

section
variable {abi : Abi} {this r : SocksRequest} {req : Bytes} {initial : Bool}

/-- The object that a call of `parse` finds: a string and a vector construct themselves empty,
nothing is known of the other fields. -/
structure Constructed (this : SocksRequest) : Prop where
  socks4User : this.socks4User = []
  socks5AuthMethods : this.socks5AuthMethods = []

/-- Where the port of a version 5 request stands, by the type of its address. -/
def portPos (req : Bytes) (type : UInt8) : Option Nat :=
  if type = socks5AddressIpv4 then some 8
  else if type = socks5AddressDomainname then req[4]?.map fun bytes => 5 + bytes.toNat
  else if type = socks5AddressIpv6 then some 20
  else none

/-- The four bytes behind the head of a version 5 request are its address if they are to be. -/
def setIpv4 (abi : Abi) (req : Bytes) (this : SocksRequest) : SocksRequest :=
  if this.socks5AddressType = socks5AddressIpv4 then this.setAddress abi ((req.drop 4).take 4)
  else this

/-- **The three layouts**: a request of version 4, the greeting of version 5, and a request of
version 5, each with the fields it leaves in the object. -/
inductive Layout (abi : Abi) (this : SocksRequest) (req : Bytes) : Bool → SocksRequest → Prop where
  | socks4 {initial : Bool} {command : UInt8} (first : req[0]? = some 4)
      (second : req[1]? = some command) (long : 8 ≤ req.length) :
      Layout abi this req initial
        { (({ this with version := 4, command }).setPort abi ((req.drop 2).take 2)).setAddress abi
            ((req.drop 4).take 4) with
          socks4User := this.socks4User ++ (req.drop 8).takeWhile (· ≠ 0) }
  | greeting {nmethods : UInt8} (first : req[0]? = some 5) (second : req[1]? = some nmethods) :
      Layout abi this req true
        { this with
          version := 5
          socks5AuthMethods := this.socks5AuthMethods ++
            ((req.drop 2).take (signedChar nmethods).toNat).map signedChar }
  | socks5 {command reserved type : UInt8} {pos : Nat} (first : req[0]? = some 5)
      (second : req[1]? = some command) (third : req[2]? = some reserved)
      (fourth : req[3]? = some type) (port : portPos req type = some pos)
      (long : pos + 2 ≤ req.length) :
      Layout abi this req false
        (({ this with
            version := 5
            command
            socks5Reserved := reserved
            socks5AddressType := type }).setIpv4 abi req |>.setPort abi ((req.drop pos).take 2))

theorem charAt_accepted {pos : Nat} {k : UInt8 → ParseResult} (h : charAt req pos k = .accepted r) :
    ∃ b, req[pos]? = some b ∧ k b = .accepted r := by
  unfold charAt at h
  split at h
  · next b hb => exact ⟨b, hb, h⟩
  · cases h

theorem memcpy_accepted {pos n : Nat} {k : Bytes → ParseResult}
    (h : memcpy req pos n k = .accepted r) :
    pos + n ≤ req.length ∧ k ((req.drop pos).take n) = .accepted r := by
  unfold memcpy at h
  split at h
  · next hn => exact ⟨hn, h⟩
  · cases h

theorem guard_accepted {c : Prop} [Decidable c] {p : ParseResult}
    (h : (if c then .rejected else p) = ParseResult.accepted r) : ¬ c ∧ p = .accepted r := by
  by_cases hc : c
  · rw [if_pos hc] at h
    cases h
  · rw [if_neg hc] at h
    exact ⟨hc, h⟩

theorem parseUser_accepted {pos : Nat} {bs : Bytes} (h : parseUser this pos bs = .accepted r) :
    r = { this with socks4User := this.socks4User ++ bs.takeWhile (· ≠ 0) } := by
  induction bs generalizing this pos with
  | nil => cases h
  | cons b bs ih =>
      unfold parseUser at h
      by_cases hz : b = 0
      · rw [if_pos hz] at h
        cases h
        simp [hz]
      · rw [if_neg hz] at h
        rw [ih (guard_accepted h).2, List.takeWhile_cons_of_pos (by simpa using hz)]
        simp

theorem parseMethods_accepted {i n : Nat} {bs : Bytes}
    (h : parseMethods this i n bs = .accepted r) :
    r = { this with
      socks5AuthMethods := this.socks5AuthMethods ++ (bs.take n).map signedChar } := by
  induction n generalizing this i bs with
  | zero =>
      cases h
      simp
  | succ n ih =>
      cases bs with
      | nil => cases h
      | cons b bs =>
          unfold parseMethods at h
          rw [ih (guard_accepted h).2]
          simp

theorem parsePort_accepted {pos : Nat} (h : parsePort abi this req pos = .accepted r) :
    pos + 2 ≤ req.length ∧ r = this.setPort abi ((req.drop pos).take 2) := by
  unfold parsePort at h
  obtain ⟨long, h⟩ := memcpy_accepted (guard_accepted h).2
  exact ⟨long, (ParseResult.accepted.inj h).symm⟩

/-- **What is accepted has one of the layouts.** -/
theorem parse_layout (hp : parse abi this req initial = .accepted r) :
    Layout abi this req initial r := by
  obtain ⟨version, first, h⟩ := charAt_accepted hp
  by_cases h4 : version = 4
  · subst h4
    rw [if_pos rfl] at h
    -- SOCKS 4
    obtain ⟨command, second, h⟩ := charAt_accepted h
    obtain ⟨-, h⟩ := memcpy_accepted (guard_accepted h).2
    obtain ⟨long, h⟩ := memcpy_accepted (guard_accepted h).2
    rw [parseUser_accepted h]
    exact .socks4 first second long
  · rw [if_neg h4] at h
    by_cases h5 : version = 5 ∧ initial = true
    · -- the greeting of SOCKS 5
      obtain ⟨rfl, rfl⟩ := h5
      rw [if_pos ⟨rfl, rfl⟩] at h
      obtain ⟨nmethods, second, h⟩ := charAt_accepted h
      rw [parseMethods_accepted h]
      exact .greeting first second
    · rw [if_neg h5] at h
      by_cases h5' : version = 5
      · -- a request of SOCKS 5, whose type of address says where the port stands
        subst h5'
        obtain rfl : initial = false := Bool.eq_false_iff.mpr fun hi => h5 ⟨rfl, hi⟩
        rw [if_pos rfl] at h
        obtain ⟨command, second, h⟩ := charAt_accepted h
        obtain ⟨reserved, third, h⟩ := charAt_accepted h
        obtain ⟨type, fourth, h⟩ := charAt_accepted h
        dsimp only at h
        by_cases hi : type = socks5AddressIpv4
        · rw [if_pos hi] at h
          obtain ⟨-, h⟩ := memcpy_accepted (guard_accepted h).2
          obtain ⟨long, rfl⟩ := parsePort_accepted h
          have hpos : portPos req type = some 8 := by rw [portPos, if_pos hi]
          have := @Layout.socks5 abi this req _ _ _ _ first second third fourth hpos long
          rwa [setIpv4, if_pos hi] at this
        · rw [if_neg hi] at h
          have plain {pos : Nat} (hpos : portPos req type = some pos)
              (h : parsePort abi { this with
                version := 5, command, socks5Reserved := reserved, socks5AddressType := type }
                req pos = .accepted r) : Layout abi this req false r := by
            obtain ⟨long, rfl⟩ := parsePort_accepted h
            have := @Layout.socks5 abi this req _ _ _ _ first second third fourth hpos long
            rwa [setIpv4, if_neg hi] at this
          by_cases hd : type = socks5AddressDomainname
          · rw [if_pos hd] at h
            obtain ⟨bytes, hb, h⟩ := charAt_accepted h
            exact plain (by rw [portPos, if_neg hi, if_pos hd, hb]; rfl) h
          · rw [if_neg hd] at h
            by_cases h6 : type = socks5AddressIpv6
            · rw [if_pos h6] at h
              exact plain (by rw [portPos, if_neg hi, if_neg hd, if_pos h6]) h
            · rw [if_neg h6] at h
              cases h
      · rw [if_neg h5'] at h
        cases h

theorem setIpv4_version (abi : Abi) (req : Bytes) (this : SocksRequest) :
    (this.setIpv4 abi req).version = this.version := by
  unfold setIpv4
  split
  · rfl
  · rfl

/-- The version is the first byte. -/
theorem Layout.first (h : Layout abi this req initial r) : req[0]? = some r.version := by
  cases h with
  | socks4 first => exact first
  | greeting first => exact first
  | socks5 first =>
      rw [first, setPort, setIpv4_version]

/-! ### What is assigned -/

/-- `r` and `r'` agree in all that `parse` assigns: the bytes of the address are the first of the
field, and they are what the address of a socket is made of, unless the machine keeps those bytes
at the other end of a longer `unsigned long`. -/
structure Agrees (abi : Abi) (initial : Bool) (r r' : SocksRequest) : Prop where
  version : r.version = r'.version
  request : ¬ (r.version = 5 ∧ initial = true) → r.command = r'.command ∧ r.port = r'.port
  user : r.version = 4 → r.socks4User = r'.socks4User
  methods : r.version = 5 → initial = true → r.socks5AuthMethods = r'.socks5AuthMethods
  type : r.version = 5 → initial = false →
    r.socks5Reserved = r'.socks5Reserved ∧ r.socks5AddressType = r'.socks5AddressType
  address : r.version = 4 ∨
      r.version = 5 ∧ initial = false ∧ r.socks5AddressType = socks5AddressIpv4 →
    (abi.store abi.longBytes r.address).take 4 = (abi.store abi.longBytes r'.address).take 4 ∧
      (abi.bigEndian = false ∨ abi.longBytes = 4 →
        SockaddrIn.ofRequest r.address r.port = SockaddrIn.ofRequest r'.address r'.port)

variable {this' r' : SocksRequest} {bs : Bytes}

theorem length_image (hb : bs.length = 4) :
    (bs ++ (abi.store abi.longBytes this.address).drop 4).length = abi.longBytes := by
  have := abi.long
  rw [List.length_append, List.length_drop, Abi.length_store]
  omega

/-- The bytes of the address lie where they were copied. -/
theorem store_setAddress (hb : bs.length = 4) :
    (abi.store abi.longBytes (this.setAddress abi bs).address).take 4 = bs := by
  rw [setAddress, abi.store_load (length_image hb)]
  exact List.take_left' hb

/-- The address of a socket is made of them. -/
theorem sinAddr_setAddress (hb : bs.length = 4) (ha : abi.bigEndian = false ∨ abi.longBytes = 4) :
    UInt32.ofNat (this.setAddress abi bs).address = UInt32.ofNat (abi.load bs) := by
  rcases ha with hl | hl
  · refine UInt32.toNat_inj.mp ?_
    rw [UInt32.toNat_ofNat', UInt32.toNat_ofNat', setAddress]
    simp only [Abi.load_eq, hl, Bool.false_eq_true, if_false, Abi.value_append, hb]
    omega
  · have none : (abi.store abi.longBytes this.address).drop 4 = [] :=
      List.drop_eq_nil_of_le (by rw [Abi.length_store, hl])
    rw [setAddress, none, List.append_nil]

theorem setAddress_agrees (abi : Abi) (this this' : SocksRequest) (hb : bs.length = 4) :
    (abi.store abi.longBytes (this.setAddress abi bs).address).take 4 =
        (abi.store abi.longBytes (this'.setAddress abi bs).address).take 4 ∧
      (abi.bigEndian = false ∨ abi.longBytes = 4 → ∀ port,
        SockaddrIn.ofRequest (this.setAddress abi bs).address port =
          SockaddrIn.ofRequest (this'.setAddress abi bs).address port) := by
  refine ⟨by rw [store_setAddress hb, store_setAddress hb], fun ha port => ?_⟩
  rw [SockaddrIn.ofRequest, SockaddrIn.ofRequest, sinAddr_setAddress hb ha,
    sinAddr_setAddress hb ha]

/-- **A message determines what is assigned**, whatever the object held. -/
theorem Layout.agrees (h : Layout abi this req initial r) (h' : Layout abi this' req initial r')
    (ht : this.Constructed) (ht' : this'.Constructed) : Agrees abi initial r r' := by
  cases h with
  | socks4 first second long =>
      cases h' with
      | socks4 first' second' long' =>
          -- all that is read is read at fixed places
          obtain rfl := Option.some.inj (second.symm.trans second')
          have four : ((req.drop 4).take 4).length = 4 := by
            rw [List.length_take, List.length_drop]
            omega
          obtain ⟨image, addr⟩ := setAddress_agrees abi this this' four
          refine ⟨rfl, fun _ => ⟨rfl, rfl⟩, fun _ => ?_, nofun, nofun, fun _ => ⟨image, ?_⟩⟩
          · rw [ht.socks4User, ht'.socks4User]
          · exact fun ha => addr ha _
      | greeting first' => rw [first] at first'; cases first'
      | socks5 first' => rw [first] at first'; cases first'
  | greeting first second =>
      cases h' with
      | socks4 first' => rw [first] at first'; cases first'
      | greeting first' second' =>
          obtain rfl := Option.some.inj (second.symm.trans second')
          refine ⟨rfl, fun hn => absurd ⟨rfl, rfl⟩ hn, nofun, fun _ _ => ?_, nofun, ?_⟩
          · rw [ht.socks5AuthMethods, ht'.socks5AuthMethods]
          · rintro (h | ⟨-, h, -⟩)
            · cases h
            · cases h
  | @socks5 command reserved type pos first second third fourth port long =>
      cases h' with
      | socks4 first' => rw [first] at first'; cases first'
      | @socks5 command' reserved' type' pos' first' second' third' fourth' port' long' =>
          obtain rfl := Option.some.inj (second.symm.trans second')
          obtain rfl := Option.some.inj (third.symm.trans third')
          obtain rfl := Option.some.inj (fourth.symm.trans fourth')
          -- up to the type, which says where the rest stands
          obtain rfl := Option.some.inj (port.symm.trans port')
          by_cases hi : type = socks5AddressIpv4
          · obtain rfl : 8 = pos := by
              rw [portPos, if_pos hi] at port
              exact Option.some.inj port
            -- `memcpy` fills four bytes of a `long`, and the others stay what they were
            have four : ((req.drop 4).take 4).length = 4 := by
              rw [List.length_take, List.length_drop]
              omega
            rw [setIpv4, if_pos hi, setIpv4, if_pos hi]
            obtain ⟨image, addr⟩ := setAddress_agrees abi
              { this with
                version := 5, command, socks5Reserved := reserved, socks5AddressType := type }
              { this' with
                version := 5, command, socks5Reserved := reserved, socks5AddressType := type }
              four
            exact ⟨rfl, fun _ => ⟨rfl, rfl⟩, nofun, nofun, fun _ _ => ⟨rfl, rfl⟩,
              fun _ => ⟨image, fun ha => addr ha _⟩⟩
          · rw [setIpv4, if_neg hi, setIpv4, if_neg hi]
            refine ⟨rfl, fun _ => ⟨rfl, rfl⟩, nofun, nofun, fun _ _ => ⟨rfl, rfl⟩, ?_⟩
            rintro (h | ⟨-, -, h⟩)
            · cases h
            · exact absurd h hi

/-- **Two objects**, filled from one message. -/
theorem parse_agrees (h : parse abi this req initial = .accepted r)
    (h' : parse abi this' req initial = .accepted r') (ht : this.Constructed)
    (ht' : this'.Constructed) : Agrees abi initial r r' :=
  (parse_layout h).agrees (parse_layout h') ht ht'

end

end SocksRequest

end OldStuff.Socks
