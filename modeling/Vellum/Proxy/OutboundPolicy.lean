/-
The outbound policy for plaintext HTTP (`vellum-proxy-runtime/src/outbound.rs`).
A host is admitted by the classes of its resolved addresses, and the most
exposed class among them decides for all: one public address makes the whole
host public, which refuses it to a route with a credential, and under the
policy for public hosts admits private addresses that would be refused alone.
-/
import Mathlib

namespace Vellum.Proxy.Outbound

open List

structure Ipv4Addr where
  a : UInt8
  b : UInt8
  c : UInt8
  d : UInt8
deriving DecidableEq

/-- The eight segments of an address. -/
structure Ipv6Addr where
  s0 : UInt16
  s1 : UInt16
  s2 : UInt16
  s3 : UInt16
  s4 : UInt16
  s5 : UInt16
  s6 : UInt16
  s7 : UInt16
deriving DecidableEq

inductive IpAddr where
  | v4 (ip : Ipv4Addr)
  | v6 (ip : Ipv6Addr)
deriving DecidableEq

inductive InsecureHttpPolicy where
  | deny
  | allowPrivateNetwork
  | allowPublicWithoutCredentials
deriving DecidableEq

inductive AddressClass where
  | loopback
  | privateAddress
  | publicAddress
deriving DecidableEq

/-! Addresses of the standard library. -/

namespace Ipv4Addr

def isLoopback (ip : Ipv4Addr) : Bool := ip.a = 127

/-- 10/8, 172.16/12 and 192.168/16. -/
def isPrivate (ip : Ipv4Addr) : Bool :=
  ip.a = 10 || (ip.a = 172 && 16 ≤ ip.b && ip.b ≤ 31) ||
    (ip.a = 192 && ip.b = 168)

/-- 169.254/16. -/
def isLinkLocal (ip : Ipv4Addr) : Bool := ip.a = 169 && ip.b = 254

/-- The IPv6 address that maps this one. -/
def toIpv6Mapped (ip : Ipv4Addr) : Ipv6Addr :=
  ⟨0, 0, 0, 0, 0, 0xffff, ip.a.toUInt16 <<< 8 ||| ip.b.toUInt16,
    ip.c.toUInt16 <<< 8 ||| ip.d.toUInt16⟩

end Ipv4Addr

namespace Ipv6Addr

def isLoopback (ip : Ipv6Addr) : Bool := ip = ⟨0, 0, 0, 0, 0, 0, 0, 1⟩

/-- fe80::/10. -/
def isUnicastLinkLocal (ip : Ipv6Addr) : Bool := ip.s0 &&& 0xffc0 = 0xfe80

/-- The IPv4 address in `::ffff:a.b.c.d`. -/
def toIpv4Mapped (ip : Ipv6Addr) : Option Ipv4Addr :=
  if ip.s0 = 0 ∧ ip.s1 = 0 ∧ ip.s2 = 0 ∧ ip.s3 = 0 ∧ ip.s4 = 0 ∧
      ip.s5 = 0xffff then
    some ⟨(ip.s6 >>> 8).toUInt8, ip.s6.toUInt8, (ip.s7 >>> 8).toUInt8,
      ip.s7.toUInt8⟩
  else none

end Ipv6Addr

/-! Classification. -/

def classifyIpv4 (ip : Ipv4Addr) : AddressClass :=
  if ip.isLoopback then .loopback
  else if ip.isPrivate || ip.isLinkLocal then .privateAddress
  else if ip.a = 100 ∧ ip.b &&& 0b11000000 = 0b01000000 then .privateAddress
  else .publicAddress

def classifyIpv6 (ip : Ipv6Addr) : AddressClass :=
  if ip.isLoopback then .loopback
  else if ip.isUnicastLinkLocal then .privateAddress
  else if ip.s0 &&& 0xfe00 = 0xfc00 then .privateAddress
  else .publicAddress

/-- A mapped address is classified as the address in it. -/
def classifyIp : IpAddr → AddressClass
  | .v4 ip => classifyIpv4 ip
  | .v6 ip =>
    match ip.toIpv4Mapped with
    | some mapped => classifyIpv4 mapped
    | none => classifyIpv6 ip

/-! The decision. -/

inductive OutboundWarning where
  | privateNetworkHttp (host : String)
  | publicHttpWithoutCredentials (host : String)

inductive OutboundPolicyError where
  | privateNetworkRequiresPolicy (host : String)
  | publicHttpWithCredentialsDenied (host : String)
  | publicHttpRequiresPolicy (host : String)
  | dnsResolutionFailed (host reason : String)
  | invalidUrl (url reason : String)

abbrev Decision := Except OutboundPolicyError (Option OutboundWarning)

def decide (host : String) (resolvedIps : List IpAddr)
    (isHttps hasCredentials : Bool) (policy : InsecureHttpPolicy) : Decision :=
  if isHttps then .ok none
  else if resolvedIps.isEmpty then
    .error (.dnsResolutionFailed host "no addresses resolved")
  else
    let classes := resolvedIps.map classifyIp
    if .publicAddress ∈ classes then
      if hasCredentials then .error (.publicHttpWithCredentialsDenied host)
      else
        match policy with
        | .allowPublicWithoutCredentials =>
          .ok (some (.publicHttpWithoutCredentials host))
        | .deny | .allowPrivateNetwork =>
          .error (.publicHttpRequiresPolicy host)
    else if classes.all (· = .loopback) then .ok none
    else
      match policy with
      | .allowPrivateNetwork => .ok (some (.privateNetworkHttp host))
      | .deny | .allowPublicWithoutCredentials =>
        .error (.privateNetworkRequiresPolicy host)

def Decision.admits (decision : Decision) : Bool := decision.isOk

/-! Exposure: how far an address is from the machine. -/

namespace AddressClass

def rank : AddressClass → Nat
  | .loopback => 0
  | .privateAddress => 1
  | .publicAddress => 2

theorem rank_injective : Function.Injective rank := by
  intro left right hrank
  cases left <;> cases right <;> first | rfl | cases hrank

instance : LinearOrder AddressClass := LinearOrder.lift' rank rank_injective

theorem le_publicAddress (kind : AddressClass) : kind ≤ publicAddress := by
  have hrank : kind.rank ≤ 2 := by cases kind <;> decide
  exact hrank

theorem loopback_le (kind : AddressClass) : loopback ≤ kind :=
  Nat.zero_le _

/-- The most exposed of some classes. -/
def exposure (classes : List AddressClass) : AddressClass :=
  classes.foldr max loopback

theorem le_exposure {classes : List AddressClass} {kind : AddressClass}
    (hmem : kind ∈ classes) : kind ≤ exposure classes := by
  induction classes with
  | nil => cases hmem
  | cons first rest ih =>
    rcases mem_cons.mp hmem with rfl | hrest
    · exact le_max_left _ _
    · exact (ih hrest).trans (le_max_right _ _)

theorem exposure_mem {classes : List AddressClass} (hne : classes ≠ []) :
    exposure classes ∈ classes := by
  induction classes with
  | nil => exact absurd rfl hne
  | cons first rest ih =>
    rcases max_choice first (exposure rest) with hfirst | hrest
    · exact mem_cons.mpr (.inl hfirst)
    · by_cases hempty : rest = []
      · subst hempty
        exact mem_cons.mpr
          (.inl (max_eq_left (loopback_le first)))
      · have hmem : max first (exposure rest) ∈ rest := by
          rw [hrest]
          exact ih hempty
        exact mem_cons.mpr (.inr hmem)

theorem exposure_eq_iff {classes : List AddressClass} (hne : classes ≠ [])
    {kind : AddressClass} : exposure classes = kind ↔
      kind ∈ classes ∧ ∀ other ∈ classes, other ≤ kind := by
  constructor
  · rintro rfl
    exact ⟨exposure_mem hne, fun other => le_exposure⟩
  · rintro ⟨hmem, hbound⟩
    exact le_antisymm (hbound _ (exposure_mem hne)) (le_exposure hmem)

end AddressClass

/-- What a policy says about one class. -/
def verdict (host : String) (hasCredentials : Bool)
    (policy : InsecureHttpPolicy) : AddressClass → Decision
  | .loopback => .ok none
  | .privateAddress =>
    if policy = .allowPrivateNetwork then
      .ok (some (.privateNetworkHttp host))
    else .error (.privateNetworkRequiresPolicy host)
  | .publicAddress =>
    if hasCredentials then .error (.publicHttpWithCredentialsDenied host)
    else if policy = .allowPublicWithoutCredentials then
      .ok (some (.publicHttpWithoutCredentials host))
    else .error (.publicHttpRequiresPolicy host)

section Decide

variable {host : String} {ips : List IpAddr} {hasCredentials : Bool}
  {policy : InsecureHttpPolicy}

theorem decide_eq_verdict (hne : ips ≠ []) :
    decide host ips false hasCredentials policy =
      verdict host hasCredentials policy
        (AddressClass.exposure (ips.map classifyIp)) := by
  have hclasses : ips.map classifyIp ≠ [] := by simpa using hne
  rw [decide.eq_def, if_neg Bool.false_ne_true, if_neg (by simpa using hne)]
  dsimp only
  split
  · rename_i hpublic
    rw [(AddressClass.exposure_eq_iff hclasses).mpr
      ⟨hpublic, fun other _ => other.le_publicAddress⟩]
    cases hasCredentials <;> cases policy <;> rfl
  · rename_i hpublic
    split
    · rename_i hloopback
      rw [all_eq_true] at hloopback
      have hall : ∀ other ∈ ips.map classifyIp, other = .loopback :=
        fun other hother => of_decide_eq_true (hloopback other hother)
      rw [hall _ (AddressClass.exposure_mem hclasses)]
      rfl
    · rename_i hloopback
      cases hexposure : AddressClass.exposure (ips.map classifyIp) with
      | loopback =>
        refine absurd ?_ hloopback
        rw [all_eq_true]
        intro other hother
        have hle := ((AddressClass.exposure_eq_iff hclasses).mp
          hexposure).2 other hother
        exact decide_eq_true (le_antisymm hle other.loopback_le)
      | privateAddress => cases policy <;> rfl
      | publicAddress =>
        exact absurd (hexposure ▸ AddressClass.exposure_mem hclasses) hpublic

theorem decide_single (ip : IpAddr) :
    decide host [ip] false hasCredentials policy =
      verdict host hasCredentials policy (classifyIp ip) := by
  rw [decide_eq_verdict (cons_ne_nil ip []), map_singleton]
  exact congrArg _ (max_eq_left (classifyIp ip).loopback_le)

/-- What is admitted is admitted where it is less exposed, but for a private
address under the policy for public hosts. -/
theorem verdict_admits {exposed kind : AddressClass} (hle : kind ≤ exposed)
    (hadmits : (verdict host hasCredentials policy exposed).admits = true) :
    (verdict host hasCredentials policy kind).admits = true ∨
      kind = .privateAddress ∧ policy = .allowPublicWithoutCredentials ∧
        exposed = .publicAddress := by
  have hrank : kind.rank ≤ exposed.rank := hle
  cases kind with
  | loopback => exact .inl rfl
  | privateAddress =>
    cases exposed with
    | loopback => exact absurd hrank (by decide)
    | privateAddress => exact .inl hadmits
    | publicAddress =>
      cases hasCredentials with
      | true => cases hadmits
      | false =>
        cases policy with
        | deny | allowPrivateNetwork => cases hadmits
        | allowPublicWithoutCredentials => exact .inr ⟨rfl, rfl, rfl⟩
  | publicAddress =>
    cases exposed with
    | loopback | privateAddress => exact absurd hrank (by decide)
    | publicAddress => exact .inl hadmits

end Decide

/-- An admitted list has addresses that are admitted alone, but for private
ones beside a public one; the decision is a matter of which addresses there
are, and no credential goes to a public one. -/
theorem decide_admits (host : String) (ips : List IpAddr)
    (hasCredentials : Bool) (policy : InsecureHttpPolicy) (hne : ips ≠ []) :
    ((decide host ips false hasCredentials policy).admits = true →
      ∀ ip ∈ ips,
        (decide host [ip] false hasCredentials policy).admits = true ∨
          classifyIp ip = .privateAddress ∧
            policy = .allowPublicWithoutCredentials ∧
            ∃ other ∈ ips, classifyIp other = .publicAddress) ∧
      (∀ others, (∀ ip, ip ∈ others ↔ ip ∈ ips) →
        decide host others false hasCredentials policy =
          decide host ips false hasCredentials policy) ∧
      (hasCredentials = true →
        (∃ ip ∈ ips, classifyIp ip = .publicAddress) →
        (decide host ips false hasCredentials policy).admits = false) := by
  have hclasses : ips.map classifyIp ≠ [] := by simpa using hne
  refine ⟨?_, ?_, ?_⟩
  · intro hadmits ip hmem
    rw [decide_eq_verdict hne] at hadmits
    rw [decide_single]
    have hle : classifyIp ip ≤ AddressClass.exposure (ips.map classifyIp) :=
      AddressClass.le_exposure (mem_map_of_mem hmem)
    rcases verdict_admits hle hadmits with halone | ⟨hkind, hpolicy, hpublic⟩
    · exact .inl halone
    · obtain ⟨other, hother, hclass⟩ := mem_map.mp
        (hpublic ▸ AddressClass.exposure_mem hclasses)
      exact .inr ⟨hkind, hpolicy, other, hother, hclass⟩
  · intro others hsame
    have hothers : others ≠ [] := by
      rintro rfl
      obtain ⟨ip, hip⟩ := exists_mem_of_ne_nil ips hne
      cases (hsame ip).mpr hip
    rw [decide_eq_verdict hothers, decide_eq_verdict hne]
    congr 1
    rw [AddressClass.exposure_eq_iff (by simpa using hothers)]
    have hmem : ∀ kind, kind ∈ others.map classifyIp ↔
        kind ∈ ips.map classifyIp := by
      intro kind
      simp only [mem_map, hsame]
    refine ⟨(hmem _).mpr (AddressClass.exposure_mem hclasses), ?_⟩
    intro kind hkind
    exact AddressClass.le_exposure ((hmem kind).mp hkind)
  · rintro hcredentials ⟨ip, hmem, hpublic⟩
    have hexposure : AddressClass.exposure (ips.map classifyIp) =
        .publicAddress :=
      (AddressClass.exposure_eq_iff hclasses).mpr
        ⟨mem_map.mpr ⟨ip, hmem, hpublic⟩,
          fun other _ => other.le_publicAddress⟩
    rw [decide_eq_verdict hne, hexposure, verdict, if_pos hcredentials]
    rfl

namespace MixedAnswer

def publicIp : IpAddr := .v4 ⟨8, 8, 8, 8⟩

def privateIp : IpAddr := .v6 (Ipv4Addr.toIpv6Mapped ⟨10, 0, 0, 1⟩)

theorem mixed_admits :
    (Outbound.decide "h" [privateIp] false false
        .allowPublicWithoutCredentials).admits = true ∨
      classifyIp privateIp = .privateAddress ∧
        InsecureHttpPolicy.allowPublicWithoutCredentials =
          .allowPublicWithoutCredentials ∧
        ∃ other ∈ [publicIp, privateIp],
          classifyIp other = .publicAddress :=
  (decide_admits "h" [publicIp, privateIp] false
    .allowPublicWithoutCredentials (cons_ne_nil _ _)).1 (by decide)
    privateIp (by decide)

/-- A public address carries a private one that is refused alone. -/
theorem private_beside_public_is_admitted :
    ¬ ∀ (host : String) (ips : List IpAddr) (hasCredentials : Bool)
      (policy : InsecureHttpPolicy), ips ≠ [] →
      (Outbound.decide host ips false hasCredentials policy).admits = true →
      ∀ ip ∈ ips,
        (Outbound.decide host [ip] false hasCredentials policy).admits =
          true := by
  intro hall
  have halone := hall "h" [publicIp, privateIp] false
    .allowPublicWithoutCredentials (cons_ne_nil _ _) (by decide)
    privateIp (by decide)
  exact absurd halone (by decide)

end MixedAnswer

end Vellum.Proxy.Outbound
