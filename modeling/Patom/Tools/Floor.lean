import Mathlib.Data.List.DropRight
import Patom.Foundation.IpAddr
import Patom.Scheduling.Store

open Patom.Foundation
open Patom.Scheduling (PROMPT_MAX_BYTES)

namespace Patom.Tools

def FETCH_MAX_REDIRECTS : Nat := 5

def MAX_EGRESS_HOST_LEN : Nat := 255

inductive UrlError
  | malformed (detail : String)
  | disallowedScheme (scheme : String)
  | hostMissing
  | hostBlocked (host : String)
  | tooLong (max got : Nat)
  deriving DecidableEq

inductive Host
  | domain (name : String)
  | ipv4 (ip : Ipv4Addr)
  | ipv6 (ip : Ipv6Addr)
  deriving DecidableEq

structure Url where
  scheme : String
  host : Option Host

structure UrlLib where
  parse : String → Except String Url
  parseHost : String → Except String Host
  display : IpAddr → String

def METADATA : Ipv4Addr := ⟨169, 254, 169, 254⟩

def blocked : IpAddr → Bool
  | .v4 v4 =>
    v4.isLoopback || v4.isPrivate || v4.isLinkLocal || v4.isBroadcast || v4.isMulticast ||
      v4.isUnspecified || v4.isDocumentation || v4 = METADATA
  | .v6 v6 =>
    v6.isLoopback || v6.isUnspecified || v6.isMulticast || v6.a &&& 0xfe00 = 0xfc00 ||
      v6.a &&& 0xffc0 = 0xfe80 ||
      v6.toIpv4Mapped.any fun m =>
        m.isLoopback || m.isPrivate || m.isLinkLocal || m.isUnspecified || m = METADATA

def lowered (name : String) : List Char :=
  (name.toList.rdropWhile (· = '.')).map Char.toLower

def blockedName (name : String) : Bool :=
  lowered name = "localhost".toList || ".localhost".toList.isSuffixOf (lowered name) ||
    ".internal".toList.isSuffixOf (lowered name) || ".local".toList.isSuffixOf (lowered name)

section Checks

variable (lib : UrlLib)

def checkIp (ip : IpAddr) : Except UrlError Unit :=
  if blocked ip then .error (.hostBlocked (lib.display ip)) else .ok ()

def checkHost : Host → Except UrlError Unit
  | .domain name => if blockedName name then .error (.hostBlocked name) else .ok ()
  | .ipv4 ip => checkIp lib (.v4 ip)
  | .ipv6 ip => checkIp lib (.v6 ip)

structure FetchUrl where
  url : Url
  host : Host
  named : url.host = some host
  allowed : checkHost lib host = .ok ()
  https : url.scheme = "https"

def FetchUrl.tryFrom (raw : String) : Except UrlError (FetchUrl lib) :=
  if raw.utf8ByteSize > PROMPT_MAX_BYTES then .error (.tooLong PROMPT_MAX_BYTES raw.utf8ByteSize)
  else
    match lib.parse raw with
    | .error e => .error (.malformed e)
    | .ok url =>
      if https : url.scheme = "https" then
        match named : url.host with
        | none => .error .hostMissing
        | some host =>
          match allowed : checkHost lib host with
          | .error e => .error e
          | .ok () => .ok ⟨url, host, named, allowed, https⟩
      else .error (.disallowedScheme url.scheme)

inductive Refused
  | tooManyRedirects
  | url (e : UrlError)
  deriving DecidableEq

def redirect (previous : Nat) (url : Url) : Except Refused Unit :=
  if previous ≥ FETCH_MAX_REDIRECTS then .error .tooManyRedirects
  else
    match url.host with
    | none => .error (.url .hostMissing)
    | some host =>
      match checkHost lib host with
      | .error e => .error (.url e)
      | .ok () => .ok ()

def checkEgressHost (raw : String) : Except UrlError Unit :=
  match lib.parseHost raw with
  | .error e => .error (.malformed e)
  | .ok host => checkHost lib host

def denyFloorToParse : UrlError → ParseError
  | .hostBlocked _ =>
    .malformed "egress_host"
      "host is in a blocked range (loopback / private / link-local / metadata)"
  | _ => .malformed "egress_host" "not a valid host"

structure EgressHost where
  asStr : String
  nonempty : asStr ≠ ""
  bounded : asStr.utf8ByteSize ≤ MAX_EGRESS_HOST_LEN
  allowed : checkEgressHost lib asStr = .ok ()

def EgressHost.tryFrom (raw : String) : Except ParseError (EgressHost lib) :=
  if nonempty : raw = "" then .error (.empty "egress_host")
  else if bounded : raw.utf8ByteSize ≤ MAX_EGRESS_HOST_LEN then
    match allowed : checkEgressHost lib raw with
    | .error e => .error (denyFloorToParse e)
    | .ok () => .ok ⟨raw, nonempty, bounded, allowed⟩
  else .error (.tooLong "egress_host" MAX_EGRESS_HOST_LEN raw.utf8ByteSize)

end Checks

def Accepts (lib : UrlLib) (ip : IpAddr) : Prop := checkIp lib ip = .ok ()

section Closed

variable (lib : UrlLib) (form : Embedding) (ip : Ipv4Addr)

/-- The floor treats `ip` inside IPv6 as it treats `ip`, wherever a host is checked. -/
structure Closed : Prop where
  mapped : form = .mapped → (Accepts lib (.v6 (form.embed ip)) ↔ Accepts lib (.v4 ip))
  embedded : ¬ Accepts lib (.v4 ip) → ¬ Accepts lib (.v6 (form.embed ip))
  fetchUrl : ¬ Accepts lib (.v4 ip) → ∀ raw fetch, FetchUrl.tryFrom lib raw = .ok fetch →
    fetch.url.host ≠ some (.ipv6 (form.embed ip))
  redirect : ¬ Accepts lib (.v4 ip) → ∀ previous url, redirect lib previous url = .ok () →
    url.host ≠ some (.ipv6 (form.embed ip))
  egressHost : ¬ Accepts lib (.v4 ip) → ∀ raw host, EgressHost.tryFrom lib raw = .ok host →
    lib.parseHost host.asStr ≠ .ok (.ipv6 (form.embed ip))

end Closed

def unchecked (ip : Ipv4Addr) : Bool := ip.isBroadcast || ip.isMulticast || ip.isDocumentation

/-- The floor sees through the form, or has nothing to see. -/
def Caught : Embedding → Ipv4Addr → Prop
  | .mapped, ip => unchecked ip = false
  | .compatible, ip => ip.isUnspecified = true ∨ blocked (.v4 ip) = false
  | .nat64, ip => blocked (.v4 ip) = false
  | .sixToFour .., ip => blocked (.v4 ip) = false

variable {lib : UrlLib} {form : Embedding} {ip : Ipv4Addr}

theorem accepts_iff {ip : IpAddr} : Accepts lib ip ↔ blocked ip = false := by
  unfold Accepts checkIp
  split
  next h => simp [h]
  next h => simpa using h

def rechecked (ip : Ipv4Addr) : Bool :=
  ip.isLoopback || ip.isPrivate || ip.isLinkLocal || ip.isUnspecified || ip = METADATA

theorem blocked_v4 : blocked (.v4 ip) = (rechecked ip || unchecked ip) := by
  simp only [blocked, rechecked, unchecked]
  ac_rfl

theorem rechecked_of_unchecked (h : unchecked ip = true) : rechecked ip = false := by
  obtain ⟨a, b, c, d⟩ := ip
  simp only [unchecked, Ipv4Addr.isBroadcast, Ipv4Addr.isMulticast, Ipv4Addr.isDocumentation,
    Bool.or_eq_true, Bool.and_eq_true, decide_eq_true_eq, Ipv4Addr.mk.injEq] at h
  rw [Bool.eq_false_iff]
  intro hagain
  simp only [rechecked, Ipv4Addr.isLoopback, Ipv4Addr.isPrivate, Ipv4Addr.isLinkLocal,
    Ipv4Addr.isUnspecified, METADATA, Bool.or_eq_true, Bool.and_eq_true, decide_eq_true_eq,
    Ipv4Addr.mk.injEq] at hagain
  bv_omega

theorem blocked_embed : blocked (.v6 (form.embed ip)) =
    ((form.embed ip).isLoopback || (form.embed ip).isUnspecified ||
      (form.embed ip).toIpv4Mapped.any rechecked) := by
  have hlocal : decide (form.leading &&& 0xfe00 = 0xfc00) = false :=
    decide_eq_false (leading_and_ne form (by decide))
  have hlink : decide (form.leading &&& 0xffc0 = 0xfe80) = false :=
    decide_eq_false (leading_and_ne form (by decide))
  simp only [blocked, isMulticast_embed, a_embed, hlocal, hlink, Bool.or_false]
  rfl

theorem blocked_mapped : blocked (.v6 (Embedding.mapped.embed ip)) = rechecked ip := by
  have hloop : (Embedding.mapped.embed ip).isLoopback = false :=
    Bool.eq_false_iff.mpr fun h => Embedding.noConfusion ((isLoopback_embed _).mp h).1
  have hunspecified : (Embedding.mapped.embed ip).isUnspecified = false :=
    Bool.eq_false_iff.mpr fun h => Embedding.noConfusion ((isUnspecified_embed _).mp h).1
  rw [blocked_embed, hloop, hunspecified, toIpv4Mapped_mapped]
  rfl

theorem blocked_of_ne_mapped (h : form ≠ .mapped) : blocked (.v6 (form.embed ip)) = true ↔
    form = .compatible ∧ (ip = ⟨0, 0, 0, 1⟩ ∨ ip.isUnspecified = true) := by
  rw [blocked_embed, toIpv4Mapped_of_ne h, Option.any_none, Bool.or_false, Bool.or_eq_true,
    isLoopback_embed, isUnspecified_embed, and_or_left]

theorem caught_iff : (blocked (.v4 ip) = true → blocked (.v6 (form.embed ip)) = true) ↔
    Caught form ip := by
  have hnever (hne : form ≠ .mapped) (hne' : form ≠ .compatible) :
      (blocked (.v4 ip) = true → blocked (.v6 (form.embed ip)) = true) ↔
        blocked (.v4 ip) = false := by
    rw [blocked_of_ne_mapped hne, Bool.eq_false_iff]
    exact imp_congr_right fun _ => iff_false_intro fun h => hne' h.1
  cases form with
  | mapped =>
    rw [blocked_mapped, blocked_v4, Caught]
    constructor
    · intro h
      by_contra hun
      rw [Bool.not_eq_false] at hun
      have hagain := h (by rw [hun, Bool.or_true])
      rw [rechecked_of_unchecked hun] at hagain
      exact Bool.false_ne_true hagain
    · intro hun h
      rwa [hun, Bool.or_false] at h
  | compatible =>
    have hlast : blocked (.v4 ⟨0, 0, 0, 1⟩) = false := by decide
    rw [blocked_of_ne_mapped (by simp), Caught]
    constructor
    · intro h
      by_cases hblocked : blocked (.v4 ip) = true
      · obtain ⟨-, rfl | hzero⟩ := h hblocked
        · exact .inr hlast
        · exact .inl hzero
      · exact .inr (Bool.eq_false_iff.mpr hblocked)
    · rintro (hzero | hclear) hblocked
      · exact ⟨rfl, .inr hzero⟩
      · exact absurd (hclear.symm.trans hblocked) Bool.false_ne_true
  | nat64 => exact hnever (by simp) (by simp)
  | sixToFour d e f g h => exact hnever (by simp) (by simp)

theorem redirect_accepts {previous : Nat} {url : Url} {host : Host}
    (h : redirect lib previous url = .ok ()) (hhost : url.host = some host) :
    checkHost lib host = .ok () := by
  unfold redirect at h
  rw [hhost] at h
  split at h
  · cases h
  · cases hcheck : checkHost lib host with
    | error e =>
      simp only [hcheck] at h
      cases h
    | ok u => rfl

theorem FetchUrl.accepts (fetch : FetchUrl lib) {host : Host} (h : fetch.url.host = some host) :
    checkHost lib host = .ok () := by
  obtain rfl := Option.some.inj (fetch.named.symm.trans h)
  exact fetch.allowed

theorem EgressHost.accepts (egress : EgressHost lib) {host : Host}
    (h : lib.parseHost egress.asStr = .ok host) : checkHost lib host = .ok () := by
  have hallowed := egress.allowed
  rwa [checkEgressHost, h] at hallowed

theorem closed_iff (lib : UrlLib) (form : Embedding) (ip : Ipv4Addr) :
    Closed lib form ip ↔ Caught form ip := by
  rw [← caught_iff]
  constructor
  · intro h hblocked
    have hrefused := h.embedded (by simp [accepts_iff, hblocked])
    simpa [accepts_iff] using hrefused
  · intro h
    have hembedded (hrefused : ¬ Accepts lib (.v4 ip)) :
        ¬ Accepts lib (.v6 (form.embed ip)) := by
      rw [accepts_iff, Bool.not_eq_false] at hrefused ⊢
      exact h hrefused
    refine ⟨?_, hembedded, ?_, ?_, ?_⟩
    · rintro rfl
      refine ⟨not_imp_not.mp hembedded, fun haccepts => ?_⟩
      rw [accepts_iff] at haccepts ⊢
      rw [blocked_mapped]
      exact (Bool.or_eq_false_iff.mp (blocked_v4.symm.trans haccepts)).1
    · exact fun hrefused _ fetch _ hhost => hembedded hrefused (fetch.accepts hhost)
    · exact fun hrefused _ _ hok hhost => hembedded hrefused (redirect_accepts hok hhost)
    · exact fun hrefused _ egress _ hhost => hembedded hrefused (egress.accepts hhost)

/-- A multicast address gets in as a mapped one, and loopback in every other form. -/
theorem not_closed :
    ¬ (∀ lib ip, Closed lib .mapped ip) ∧ ¬ (∀ lib ip, Closed lib .compatible ip) ∧
      ¬ (∀ lib ip, Closed lib .nat64 ip) ∧
      ¬ ∀ lib d e f g h ip, Closed lib (.sixToFour d e f g h) ip := by
  have hopen (form : Embedding) (ip : Ipv4Addr) (h4 : blocked (.v4 ip) = true)
      (h6 : blocked (.v6 (form.embed ip)) = false)
      (hclosed : Closed ⟨fun _ => .error "", fun _ => .error "", fun _ => ""⟩ form ip) : False :=
    hclosed.embedded (by simp [accepts_iff, h4]) (accepts_iff.mpr h6)
  refine ⟨fun hall => ?_, fun hall => ?_, fun hall => ?_, fun hall => ?_⟩
  · exact hopen .mapped ⟨224, 0, 0, 1⟩ (by decide) (by decide) (hall _ _)
  · exact hopen .compatible ⟨127, 0, 0, 1⟩ (by decide) (by decide) (hall _ _)
  · exact hopen .nat64 ⟨127, 0, 0, 1⟩ (by decide) (by decide) (hall _ _)
  · exact hopen (.sixToFour 0 0 0 0 0) ⟨127, 0, 0, 1⟩ (by decide) (by decide)
      (hall _ _ _ _ _ _ _)

end Patom.Tools
