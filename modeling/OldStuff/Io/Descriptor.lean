import Mathlib

/-!
# Io — descriptor objects

An `io::file_descriptor` and its two subclasses wrap one descriptor number.  The number and the
address are fixed from construction to destruction, so a live object is modelled by its value:
`id` is its identity, which no later object shares, and a pointer is such a value or `NULL`.

The address of a peer is kept as the two fields of `sockaddr_in` that the program touches.  They
hold network byte order, so their *memory images* are what travels; the images depend on the
machine (`Abi`).
-/

namespace OldStuff.Io

/-- A `std::string`, as bytes. -/
abbrev Bytes := List UInt8

/-- The characters of a literal, one byte each (the sources are in Latin-1). -/
def latin1 (s : String) : Bytes := s.toList.map fun c => UInt8.ofNat c.toNat

/-- What `memcpy` sees of a machine: its byte order, and how many bytes `unsigned long` has. -/
structure Abi where
  bigEndian : Bool
  longBytes : Nat
  long : longBytes = 4 ∨ longBytes = 8

namespace Abi

theorem eightBytes : 8 = 4 ∨ 8 = 8 := .inr rfl

/-- Little-endian integers, and eight bytes for `unsigned long`. -/
def littleEndian : Abi := ⟨false, 8, eightBytes⟩

/-- The memory image of the `n`-byte integer `v`. -/
def store (abi : Abi) (n v : Nat) : Bytes :=
  let le := (List.range n).map fun i => UInt8.ofNat (v / 256 ^ i)
  if abi.bigEndian then le.reverse else le

/-- The integer a memory image holds. -/
def load (abi : Abi) (bs : Bytes) : Nat :=
  (if abi.bigEndian then bs.reverse else bs).foldr (fun b v => b.toNat + 256 * v) 0

@[simp] theorem length_store (abi : Abi) (n v : Nat) : (abi.store n v).length = n := by
  unfold store
  split <;> simp

/-- The integer that a little-endian image holds. -/
def value (bs : Bytes) : Nat := bs.foldr (fun b v => b.toNat + 256 * v) 0

@[simp] theorem value_nil : value [] = 0 := rfl
@[simp] theorem value_cons (b : UInt8) (bs : Bytes) : value (b :: bs) = b.toNat + 256 * value bs :=
  rfl

theorem load_eq (abi : Abi) (bs : Bytes) :
    abi.load bs = value (if abi.bigEndian then bs.reverse else bs) := rfl

theorem value_append (bs cs : Bytes) :
    value (bs ++ cs) = value bs + 256 ^ bs.length * value cs := by
  induction bs with
  | nil => simp
  | cons b bs ih =>
      rw [List.cons_append, value_cons, ih, value_cons, List.length_cons, Nat.pow_succ]
      ring

theorem value_lt (bs : Bytes) : value bs < 256 ^ bs.length := by
  induction bs with
  | nil => simp
  | cons b bs ih =>
      have small : b.toNat < 256 := b.toNat_lt
      rw [value_cons, List.length_cons, Nat.pow_succ']
      omega

/-- An image of `n` bytes holds an integer of `n` bytes. -/
theorem load_lt (abi : Abi) (bs : Bytes) : abi.load bs < 256 ^ bs.length := by
  rw [load_eq]
  split
  · rw [← List.length_reverse]
    exact value_lt _
  · exact value_lt bs

/-- The bytes of an integer, from the integer. -/
theorem bytes_value (bs : Bytes) :
    (List.range bs.length).map (fun i => UInt8.ofNat (value bs / 256 ^ i)) = bs := by
  induction bs with
  | nil => rfl
  | cons b bs ih =>
      have small : b.toNat < 256 := b.toNat_lt
      rw [List.length_cons, List.range_succ_eq_map, List.map_cons, List.map_map, value_cons]
      refine congrArg₂ List.cons ?_ ?_
      · refine UInt8.toNat_inj.mp ?_
        rw [Nat.pow_zero, Nat.div_one, UInt8.toNat_ofNat']
        omega
      · refine Eq.trans (List.map_congr_left fun i _ => ?_) ih
        have rest : (b.toNat + 256 * value bs) / 256 = value bs := by omega
        rw [Function.comp_apply, Nat.succ_eq_add_one, Nat.pow_succ', ← Nat.div_div_eq_div_mul, rest]

/-- **Memory round trip**: what is loaded from an image is stored as that image. -/
theorem store_load (abi : Abi) {n : Nat} {bs : Bytes} (hn : bs.length = n) :
    abi.store n (abi.load bs) = bs := by
  subst hn
  rw [load_eq, store]
  cases abi.bigEndian with
  | false => exact bytes_value bs
  | true =>
      have := congrArg List.reverse (bytes_value bs.reverse)
      rwa [List.length_reverse, List.reverse_reverse] at this

/-- A little-endian image begins with the image of the low bytes. -/
theorem take_store {abi : Abi} (hl : abi.bigEndian = false) {m n : Nat} (hm : m ≤ n) (v : Nat) :
    (abi.store n v).take m = abi.store m v := by
  rw [store, store, hl]
  simp only [Bool.false_eq_true, if_false]
  rw [← List.map_take, List.take_range, Nat.min_eq_left hm]

end Abi

/-- The fields of `sockaddr_in` the program reads and writes. -/
structure SockaddrIn where
  sinPort : UInt16
  sinAddr : UInt32
  deriving DecidableEq, Inhabited

/-- The address `io::socket::socket(addr,port)` fills in; `s_addr` has 32 bits. -/
def SockaddrIn.ofRequest (addr : Nat) (port : UInt16) : SockaddrIn :=
  { sinPort := port, sinAddr := UInt32.ofNat addr }

/-- An `io::socket` or an `io::server_socket`: `addr` is `serv` of the one and `servaddr` of the
other. -/
structure FileDescriptor where
  id : Nat
  fd : Nat
  addr : SockaddrIn
  deriving DecidableEq, Inhabited

/-- A pointer to a descriptor object, `NULL` being `none`. -/
abbrev Pointer := Option FileDescriptor

namespace FileDescriptor

def getRemotePort (d : FileDescriptor) : UInt16 := d.addr.sinPort

def getRemoteAddress (d : FileDescriptor) : Nat := d.addr.sinAddr.toNat

/-- `inet_ntop` of the address. -/
def getRemoteAddressDottedQuad (abi : Abi) (d : FileDescriptor) : String :=
  ".".intercalate ((abi.store 4 d.addr.sinAddr.toNat).map fun b => toString b.toNat)

/-- `ntohs` of the port. -/
def getRemotePortHostOrder (abi : Abi) (d : FileDescriptor) : Int :=
  (abi.store 2 d.addr.sinPort.toNat).foldl (fun v b => 256 * v + b.toNat) 0

end FileDescriptor

end OldStuff.Io
