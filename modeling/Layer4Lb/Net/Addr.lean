import Mathlib.Data.List.Basic

/-!
# Addresses

The addresses of `std::net` the modelled code reads: `Ipv4Addr` and `Ipv6Addr`
by their octets in network order, `IpAddr`, and `SocketAddr` by its IP and port.
The flow information and scope of a `SocketAddrV6` are left out: nothing here
reads them.
-/

namespace Layer4Lb

/-- `Ipv4Addr`, by its four octets. -/
structure Ipv4Addr where
  a : UInt8
  b : UInt8
  c : UInt8
  d : UInt8
  deriving DecidableEq, Repr

/-- The `Display` of `Ipv4Addr`: the dotted decimal form. -/
instance : ToString Ipv4Addr :=
  ⟨fun ip => toString ip.a.toNat ++ "." ++ toString ip.b.toNat ++ "." ++ toString ip.c.toNat ++
    "." ++ toString ip.d.toNat⟩

/-- `Ipv4Addr::octets`. -/
def Ipv4Addr.octets (ip : Ipv4Addr) : List UInt8 := [ip.a, ip.b, ip.c, ip.d]

@[simp] theorem Ipv4Addr.length_octets (ip : Ipv4Addr) : ip.octets.length = 4 := rfl

/-- `Ipv6Addr`, by its sixteen octets; a list of any other length is not one. -/
structure Ipv6Addr where
  octets : List UInt8
  length_octets : octets.length = 16
  deriving DecidableEq

attribute [simp] Ipv6Addr.length_octets

/-- `IpAddr`. -/
inductive IpAddr
  | v4 (ip : Ipv4Addr)
  | v6 (ip : Ipv6Addr)
  deriving DecidableEq

/-- Whether two addresses are of one family. -/
def IpAddr.sameFamily : IpAddr → IpAddr → Bool
  | .v4 _, .v4 _ => true
  | .v6 _, .v6 _ => true
  | _, _ => false

/-- `SocketAddr`: an IP and a port. -/
inductive SocketAddr
  | v4 (ip : Ipv4Addr) (port : UInt16)
  | v6 (ip : Ipv6Addr) (port : UInt16)
  deriving DecidableEq

/-- `SocketAddr::ip`. -/
def SocketAddr.ip : SocketAddr → IpAddr
  | .v4 ip _ => .v4 ip
  | .v6 ip _ => .v6 ip

end Layer4Lb
