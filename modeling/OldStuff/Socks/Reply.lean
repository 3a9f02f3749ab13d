import OldStuff.Io.Descriptor

/-!
# Socks — `socks_reply`

`create` lays a reply out in a buffer of fixed size.  The port and the address are copied as
they lie in memory, so a reply built from `get_port` and `get_address` carries network byte
order.
-/

namespace OldStuff.Socks
open OldStuff.Io

/-- `socks_reply::type`. -/
inductive ReplyType where
  | socks4
  | socks5
  | socks5Auth
  deriving DecidableEq

def socks4ReplyVersion : UInt8 := 0
def socks4ReplyGranted : UInt8 := 90
def socks4ReplyRejectedOrFailed : UInt8 := 91

def socks5ReplyVersion : UInt8 := 5
def socks5ReplySuccess : UInt8 := 0x00
def socks5ReplyGeneralSocksOrServerFailure : UInt8 := 0x01
def socks5ReplyConnectionNotAllowed : UInt8 := 0x02
def socks5ReplyHostUnreachable : UInt8 := 0x04

def socks5AuthReplyNoAuth : UInt8 := 0

def socks5ReplyAddressIpv4 : UInt8 := 0x01

/-- `socks_reply::create`; `port` and `address` default to 0 in the header. -/
def create (abi : Abi) (type : ReplyType) (command : UInt8) (port : UInt16) (address : Nat) :
    Bytes :=
  let portBytes := abi.store 2 port.toNat
  let addressBytes := (abi.store abi.longBytes address).take 4
  match type with
  | .socks4 => [socks4ReplyVersion, command] ++ portBytes ++ addressBytes
  | .socks5 =>
    [socks5ReplyVersion, command, 0x00, socks5ReplyAddressIpv4] ++ addressBytes ++ portBytes
  | .socks5Auth => [socks5ReplyVersion, command]

theorem length_create (abi : Abi) (type : ReplyType) (command : UInt8) (port : UInt16)
    (address : Nat) : (create abi type command port address).length =
      match type with | .socks4 => 8 | .socks5 => 10 | .socks5Auth => 2 := by
  have h4 : 4 ≤ abi.longBytes := by rcases abi.long with h | h <;> omega
  cases type <;> simp [create, h4]

end OldStuff.Socks
