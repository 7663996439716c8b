/-
# Python.IpAddress -- addresses as numbers, and their published ranges

An `IPv4Address` or `IPv6Address` is its number; only an IPv6 address has a zone, which
takes part in equality and in nothing else.  The ranges behind `is_loopback`,
`is_link_local`, `is_unspecified`, `is_multicast`, `is_reserved`, `is_private` and
`is_global` are those of the module's constants in Python 3.12.
-/
import ApiSecurityPlatform.Python.Text
import Mathlib.Algebra.GroupWithZero.Nat
import Mathlib.Data.Prod.Lex
import Mathlib.Data.Fin.Basic

namespace ApiSecurityPlatform.Python

set_option autoImplicit false

instance neZero_v4 : NeZero (2 ^ 32) := ⟨by decide⟩

instance neZero_v6 : NeZero (2 ^ 128) := ⟨by decide⟩

inductive Address where
  | v4 (ip : Fin (2 ^ 32))
  | v6 (ip : Fin (2 ^ 128)) (scopeId : Option Str)
deriving DecidableEq

/-- The number of big-endian digits. -/
def ofDigits (base : Nat) (digits : List Nat) : Nat := digits.foldl (fun n d => n * base + d) 0

/-- The `count` big-endian digits of a number. -/
def digits (base : Nat) : Nat → Nat → List Nat
  | 0, _ => []
  | count + 1, n => digits base count (n / base) ++ [n % base]

namespace Address

def ofParts : IpAddress → Address
  | .v4 octets => .v4 (Fin.ofNat _ (ofDigits 256 octets))
  | .v6 hextets scopeId => .v6 (Fin.ofNat _ (ofDigits 65536 hextets)) scopeId

def parts : Address → IpAddress
  | .v4 ip => .v4 (digits 256 4 ip)
  | .v6 ip scopeId => .v6 (digits 65536 8 ip) scopeId

/-- `ip_address(s)`. -/
def ofText (s : Str) : Option Address := (ipAddress s).map ofParts

def compressed (a : Address) : Str := a.parts.compressed

def version : Address → Nat
  | .v4 _ => 4
  | .v6 _ _ => 6

/-- `int(address)`. -/
def value : Address → Nat
  | .v4 ip => ip
  | .v6 ip _ => ip

def withoutZone : Address → Address
  | .v4 ip => .v4 ip
  | .v6 ip _ => .v6 ip none

/-- The key `(address.version, int(address))`. -/
def key (a : Address) : Nat ×ₗ Nat := toLex (a.version, a.value)

theorem key_eq_iff (a b : Address) : a.key = b.key ↔ a.withoutZone = b.withoutZone := by
  cases a <;> cases b <;> simp [key, withoutZone, version, value, Fin.ext_iff]

/-- `ipv4_mapped`. -/
def ipv4Mapped : Address → Option Address
  | .v4 _ => none
  | .v6 ip _ => if ip.val / 2 ^ 32 = 0xFFFF then some (.v4 (Fin.ofNat _ (ip.val % 2 ^ 32))) else none

/-- The IPv4 address that an IPv4-mapped address stands for. -/
def unmapped (a : Address) : Address := a.ipv4Mapped.getD a

theorem ipv4Mapped_unmapped (a : Address) : a.unmapped.ipv4Mapped = none := by
  unfold unmapped
  cases eq : a.ipv4Mapped with
  | none => exact eq
  | some b =>
      cases a with
      | v4 ip => cases eq
      | v6 ip scopeId =>
          simp only [ipv4Mapped] at eq
          split at eq
          · cases eq
            rfl
          · cases eq

end Address

/-- `ip_network`, of one version. -/
structure IpNetwork (bits : Nat) where
  address : Nat
  length : Nat

/-- `ip in network`. -/
def IpNetwork.has {bits : Nat} (network : IpNetwork bits) (ip : Nat) : Bool :=
  ip / 2 ^ (bits - network.length) = network.address / 2 ^ (bits - network.length)

def octets (a b c d : Nat) : Nat := ofDigits 256 [a, b, c, d]

/-- An IPv6 address by its first hextets, the others zero. -/
def hextets (high : List Nat) : Nat := ofDigits 65536 (high ++ List.replicate (8 - high.length) 0)

namespace Address

/-! ## Constants -/

def loopback4 : IpNetwork 32 := ⟨octets 127 0 0 0, 8⟩

def linkLocal4 : IpNetwork 32 := ⟨octets 169 254 0 0, 16⟩

def multicast4 : IpNetwork 32 := ⟨octets 224 0 0 0, 4⟩

def reserved4 : IpNetwork 32 := ⟨octets 240 0 0 0, 4⟩

def shared4 : IpNetwork 32 := ⟨octets 100 64 0 0, 10⟩

def private4 : List (IpNetwork 32) :=
  [⟨octets 0 0 0 0, 8⟩, ⟨octets 10 0 0 0, 8⟩, ⟨octets 127 0 0 0, 8⟩, ⟨octets 169 254 0 0, 16⟩,
    ⟨octets 172 16 0 0, 12⟩, ⟨octets 192 0 0 0, 24⟩, ⟨octets 192 0 0 170, 31⟩, ⟨octets 192 0 2 0, 24⟩,
    ⟨octets 192 168 0 0, 16⟩, ⟨octets 198 18 0 0, 15⟩, ⟨octets 198 51 100 0, 24⟩,
    ⟨octets 203 0 113 0, 24⟩, ⟨octets 240 0 0 0, 4⟩, ⟨octets 255 255 255 255, 32⟩]

def privateExceptions4 : List (IpNetwork 32) := [⟨octets 192 0 0 9, 32⟩, ⟨octets 192 0 0 10, 32⟩]

def linkLocal6 : IpNetwork 128 := ⟨hextets [0xfe80], 10⟩

def multicast6 : IpNetwork 128 := ⟨hextets [0xff00], 8⟩

def reserved6 : List (IpNetwork 128) :=
  [⟨hextets [], 8⟩, ⟨hextets [0x100], 8⟩, ⟨hextets [0x200], 7⟩, ⟨hextets [0x400], 6⟩,
    ⟨hextets [0x800], 5⟩, ⟨hextets [0x1000], 4⟩, ⟨hextets [0x4000], 3⟩, ⟨hextets [0x6000], 3⟩,
    ⟨hextets [0x8000], 3⟩, ⟨hextets [0xA000], 3⟩, ⟨hextets [0xC000], 3⟩, ⟨hextets [0xE000], 4⟩,
    ⟨hextets [0xF000], 5⟩, ⟨hextets [0xF800], 6⟩, ⟨hextets [0xFE00], 9⟩]

def private6 : List (IpNetwork 128) :=
  [⟨1, 128⟩, ⟨0, 128⟩, ⟨hextets [0, 0, 0, 0, 0, 0xffff], 96⟩, ⟨hextets [0x64, 0xff9b, 1], 48⟩,
    ⟨hextets [0x100], 64⟩, ⟨hextets [0x2001], 23⟩, ⟨hextets [0x2001, 0xdb8], 32⟩, ⟨hextets [0x2002], 16⟩,
    ⟨hextets [0xfc00], 7⟩, ⟨hextets [0xfe80], 10⟩]

def privateExceptions6 : List (IpNetwork 128) :=
  [⟨hextets [0x2001, 1, 0, 0, 0, 0, 0, 1], 128⟩, ⟨hextets [0x2001, 1, 0, 0, 0, 0, 0, 2], 128⟩,
    ⟨hextets [0x2001, 3], 32⟩, ⟨hextets [0x2001, 4, 0x112], 48⟩, ⟨hextets [0x2001, 0x20], 28⟩,
    ⟨hextets [0x2001, 0x30], 28⟩]

/-! ## Properties -/

def isLoopback : Address → Bool
  | .v4 ip => loopback4.has ip
  | .v6 ip _ => ip.val = 1

def isLinkLocal : Address → Bool
  | .v4 ip => linkLocal4.has ip
  | .v6 ip _ => linkLocal6.has ip

def isUnspecified (a : Address) : Bool := a.value = 0

def isMulticast : Address → Bool
  | .v4 ip => multicast4.has ip
  | .v6 ip _ => multicast6.has ip

def isReserved : Address → Bool
  | .v4 ip => reserved4.has ip
  | .v6 ip _ => reserved6.any fun network => network.has ip

def isPrivate4 (ip : Nat) : Bool :=
  (private4.any fun network => network.has ip) && privateExceptions4.all fun network => !network.has ip

def isGlobal4 (ip : Nat) : Bool := !shared4.has ip && !isPrivate4 ip

def isGlobal : Address → Bool
  | .v4 ip => isGlobal4 ip
  | .v6 ip _ =>
      if ip.val / 2 ^ 32 = 0xFFFF then !isPrivate4 (ip.val % 2 ^ 32)
      else !((private6.any fun network => network.has ip) &&
        privateExceptions6.all fun network => !network.has ip)

end Address

end ApiSecurityPlatform.Python
