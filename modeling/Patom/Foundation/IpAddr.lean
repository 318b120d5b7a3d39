import Mathlib.Tactic

namespace Patom.Foundation

abbrev Octet := BitVec 8

abbrev Hextet := BitVec 16

structure Ipv4Addr where
  a : Octet
  b : Octet
  c : Octet
  d : Octet
  deriving DecidableEq

structure Ipv6Addr where
  a : Hextet
  b : Hextet
  c : Hextet
  d : Hextet
  e : Hextet
  f : Hextet
  g : Hextet
  h : Hextet
  deriving DecidableEq

inductive IpAddr
  | v4 (ip : Ipv4Addr)
  | v6 (ip : Ipv6Addr)
  deriving DecidableEq

namespace Ipv4Addr

variable (ip : Ipv4Addr)

def isLoopback : Bool := ip.a = 127

def isPrivate : Bool :=
  ip.a = 10 || ip.a = 172 && 16 ≤ ip.b && ip.b ≤ 31 || ip.a = 192 && ip.b = 168

def isLinkLocal : Bool := ip.a = 169 && ip.b = 254

def isBroadcast : Bool := ip = ⟨255, 255, 255, 255⟩

def isMulticast : Bool := 224 ≤ ip.a && ip.a ≤ 239

def isUnspecified : Bool := ip = ⟨0, 0, 0, 0⟩

def isDocumentation : Bool :=
  ip.a = 192 && ip.b = 0 && ip.c = 2 || ip.a = 198 && ip.b = 51 && ip.c = 100 ||
    ip.a = 203 && ip.b = 0 && ip.c = 113

def high : Hextet := ip.a ++ ip.b

def low : Hextet := ip.c ++ ip.d

end Ipv4Addr

namespace Hextet

def high (s : Hextet) : Octet := s.extractLsb' 8 8

def low (s : Hextet) : Octet := s.extractLsb' 0 8

@[simp] theorem high_append (x y : Octet) : high (x ++ y) = x :=
  (BitVec.extractLsb'_append_eq_of_le (Nat.le_refl 8)).trans BitVec.extractLsb'_eq_self

@[simp] theorem low_append (x y : Octet) : low (x ++ y) = y :=
  (BitVec.extractLsb'_append_eq_of_add_le (Nat.le_refl 8)).trans BitVec.extractLsb'_eq_self

end Hextet

namespace Ipv6Addr

variable (ip : Ipv6Addr)

def isUnspecified : Bool := ip = ⟨0, 0, 0, 0, 0, 0, 0, 0⟩

def isLoopback : Bool := ip = ⟨0, 0, 0, 0, 0, 0, 0, 1⟩

def isMulticast : Bool := ip.a &&& 0xff00 = 0xff00

def toIpv4Mapped : Option Ipv4Addr :=
  if ip.a = 0 ∧ ip.b = 0 ∧ ip.c = 0 ∧ ip.d = 0 ∧ ip.e = 0 ∧ ip.f = 0xffff then
    some ⟨ip.g.high, ip.g.low, ip.h.high, ip.h.low⟩
  else none

end Ipv6Addr

inductive Embedding
  | mapped
  | compatible
  | nat64
  | sixToFour (d e f g h : Hextet)
  deriving DecidableEq

def Embedding.embed : Embedding → Ipv4Addr → Ipv6Addr
  | .mapped, ip => ⟨0, 0, 0, 0, 0, 0xffff, ip.high, ip.low⟩
  | .compatible, ip => ⟨0, 0, 0, 0, 0, 0, ip.high, ip.low⟩
  | .nat64, ip => ⟨0x64, 0xff9b, 0, 0, 0, 0, ip.high, ip.low⟩
  | .sixToFour d e f g h, ip => ⟨0x2002, ip.high, ip.low, d, e, f, g, h⟩

variable {ip : Ipv4Addr}

theorem high_low_eq_iff (other : Ipv4Addr) :
    ip.high = other.high ∧ ip.low = other.low ↔ ip = other := by
  constructor
  · rintro ⟨hhigh, hlow⟩
    have ha := congrArg Hextet.high hhigh
    have hb := congrArg Hextet.low hhigh
    have hc := congrArg Hextet.high hlow
    have hd := congrArg Hextet.low hlow
    obtain ⟨a, b, c, d⟩ := ip
    obtain ⟨a', b', c', d'⟩ := other
    simp only [Ipv4Addr.high, Ipv4Addr.low, Hextet.high_append, Hextet.low_append]
      at ha hb hc hd
    rw [ha, hb, hc, hd]
  · rintro rfl
    exact ⟨rfl, rfl⟩

@[simp] theorem toIpv4Mapped_mapped : (Embedding.mapped.embed ip).toIpv4Mapped = some ip := by
  simp [Ipv6Addr.toIpv4Mapped, Embedding.embed, Ipv4Addr.high, Ipv4Addr.low]

theorem toIpv4Mapped_of_ne {e : Embedding} (h : e ≠ .mapped) :
    (e.embed ip).toIpv4Mapped = none := by
  cases e with
  | mapped => exact absurd rfl h
  | compatible => simp [Ipv6Addr.toIpv4Mapped, Embedding.embed]
  | nat64 => simp [Ipv6Addr.toIpv4Mapped, Embedding.embed]
  | sixToFour d e f g h => simp [Ipv6Addr.toIpv4Mapped, Embedding.embed]

def Embedding.leading : Embedding → Hextet
  | .mapped => 0
  | .compatible => 0
  | .nat64 => 0x64
  | .sixToFour .. => 0x2002

@[simp] theorem a_embed (e : Embedding) : (e.embed ip).a = e.leading := by
  cases e <;> rfl

theorem Embedding.leading_lt (e : Embedding) : e.leading < 0xfc00 := by
  cases e <;> simp only [Embedding.leading] <;> decide

theorem le_of_and_eq {s mask range : Hextet} (hrange : 0xfc00 ≤ range) (h : s &&& mask = range) :
    0xfc00 ≤ s := by
  have hle : range ≤ s := by
    rw [← h, BitVec.le_def, BitVec.toNat_and]
    exact Nat.and_le_left
  exact BitVec.le_trans hrange hle

theorem leading_and_ne (e : Embedding) {mask range : Hextet} (hrange : 0xfc00 ≤ range) :
    e.leading &&& mask ≠ range := fun h =>
  absurd (le_of_and_eq hrange h) (BitVec.not_le.mpr e.leading_lt)

theorem isMulticast_embed (e : Embedding) : (e.embed ip).isMulticast = false := by
  rw [Ipv6Addr.isMulticast, a_embed]
  exact decide_eq_false (leading_and_ne e (by decide))

theorem isUnspecified_embed (e : Embedding) :
    (e.embed ip).isUnspecified = true ↔ e = .compatible ∧ ip.isUnspecified = true := by
  have hzero : ip.high = 0 ∧ ip.low = 0 ↔ ip = ⟨0, 0, 0, 0⟩ :=
    high_low_eq_iff ⟨0, 0, 0, 0⟩
  cases e with
  | compatible =>
    simpa [Ipv6Addr.isUnspecified, Embedding.embed, Ipv4Addr.isUnspecified] using hzero
  | _ => simp [Ipv6Addr.isUnspecified, Embedding.embed]

theorem isLoopback_embed (e : Embedding) :
    (e.embed ip).isLoopback = true ↔ e = .compatible ∧ ip = ⟨0, 0, 0, 1⟩ := by
  have hone : ip.high = 0 ∧ ip.low = 1 ↔ ip = ⟨0, 0, 0, 1⟩ :=
    high_low_eq_iff ⟨0, 0, 0, 1⟩
  cases e with
  | compatible => simpa [Ipv6Addr.isLoopback, Embedding.embed] using hone
  | _ => simp [Ipv6Addr.isLoopback, Embedding.embed]

end Patom.Foundation
