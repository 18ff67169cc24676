/-
# Hosts that are dialled

Where an address that the host guard lets through leads. A scope is not part of where an
address leads, and an IPv6 address may lead to an IPv4 one: the kernel does so for a mapped
address, and a tunnel or a translator for others.
-/

import DbtCraft.Core.HostGuard

namespace DbtCraft.Core.HostGuard

open DbtCraft.Python DbtCraft.Python.Url

/-- The IPv4 addresses that IPv6 addresses lead to. -/
structure Network where
  embedded : BitVec 128 → Option (BitVec 32)
  embedded_mapped : ∀ value, embedded (Address.mapped value) = some value
  embedded_unspecified : embedded 0 = none

/-- Where an address leads. -/
def Network.dialled (network : Network) : Address → Address
  | .v4 value => .v4 value
  | .v6 value _ =>
    match network.embedded value with
    | some value => .v4 value
    | none => .v6 value none

/-- The service that runs the guard. -/
structure Deployment where
  settings : Settings
  /-- Where its database, its Redis and its object store listen. -/
  stores : List (Address × ℕ)

/-- A store listens where an address leads, at the port that is dialled; without a port any
may be. -/
def ReachesStore (network : Network) (deployment : Deployment) (port : Option ℕ)
    (address : Address) : Prop :=
  ∃ store ∈ deployment.stores, store.1 = network.dialled address ∧ ∀ number, port = some number →
    number = store.2

/-- An address leads nowhere that is forbidden. -/
structure Safe (network : Network) (deployment : Deployment) (port : Option ℕ)
    (address : Address) : Prop where
  loopback : (network.dialled address).isLoopback = false
  metadata : inMetadataNetworks (network.dialled address) = false
  unspecified : (network.dialled address).isUnspecified = false
  stores : ¬ ReachesStore network deployment port address

/-- The guard accepts a host only when all of its addresses are safe. -/
def Sound (network : Network) (tables : Tables) (names : Names) (deployment : Deployment)
    (host : Text) (port : Option ℕ) : Prop :=
  assertHostAllowed names tables deployment.settings host port = .ok () →
    ∀ addresses, resolve names (normalized host) = .ok addresses →
      ∀ address ∈ addresses, Safe network deployment port address

/-! ## What the guard sees -/

/-- An own endpoint has the address, written as it is. -/
def Listed (tables : Tables) (names : Names) (settings : Settings) (port : Option ℕ)
    (address : Address) : Prop :=
  ∃ infra ∈ ownInfrastructure tables settings, samePort port infra.2 = true ∧
    ∃ infraAddresses, resolve names infra.1 = .ok infraAddresses ∧ address ∈ infraAddresses

/-- The name or an address of a host is one that the guard tells. -/
def Told (tables : Tables) (names : Names) (settings : Settings) (host : Text) (port : Option ℕ)
    (addresses : List Address) : Prop :=
  (∃ infra ∈ ownInfrastructure tables settings, samePort port infra.2 = true ∧ host = infra.1) ∨
    ∃ address ∈ addresses, Listed tables names settings port address ∨
      inMetadataNetworks address = true ∨ address.isLoopback = true ∨
      (address.isPrivate = true ∧ settings.ingestAllowPrivateHosts = false)

/-- An IPv4 address that stands for this machine or for its network. -/
def isLocal4 (value : BitVec 32) : Bool :=
  (Address.v4 value).isLoopback || inMetadataNetworks (.v4 value) || value = 0

/-- An address is no other spelling of a place that the guard tells by one spelling only. -/
structure Unaliased (network : Network) (tables : Tables) (names : Names)
    (deployment : Deployment) (port : Option ℕ) (address : Address) : Prop where
  specified : address.isUnspecified = false
  embedded : ∀ value scope, address = .v6 value scope → ∀ value4,
    network.embedded value = some value4 → isLocal4 value4 = false
  stores : ReachesStore network deployment port address →
    Listed tables names deployment.settings port address

variable {network : Network} {tables : Tables} {names : Names} {deployment : Deployment}
  {settings : Settings} {host : Text} {port : Option ℕ} {addresses : List Address}
  {address : Address}

theorem reject_ne_ok (host : Text) (reason : String) : reject host reason ≠ .ok () := by
  intro hok
  cases hok

theorem checkAddress_eq_ok (allowPrivate : Bool) :
    checkAddress allowPrivate host address = .ok () ↔
      inMetadataNetworks address = false ∧ address.isLoopback = false ∧
        ¬ (address.isPrivate = true ∧ allowPrivate = false) := by
  unfold checkAddress
  split_ifs with hmetadata hloopback hprivate
  · simp [reject_ne_ok, hmetadata]
  · simp [reject_ne_ok, hloopback]
  · rw [Bool.and_eq_true, Bool.not_eq_true'] at hprivate
    simp [reject_ne_ok, hprivate]
  · rw [Bool.and_eq_true, Bool.not_eq_true'] at hprivate
    exact iff_of_true rfl ⟨Bool.eq_false_iff.mpr hmetadata, Bool.eq_false_iff.mpr hloopback, hprivate⟩

theorem checkOwn_eq_ok (infra : Endpoint) :
    checkOwn names host port addresses infra = .ok () ↔
      (samePort port infra.2 = true → host ≠ infra.1 ∧ ∀ infraAddresses,
        resolve names infra.1 = .ok infraAddresses → ∀ address ∈ addresses,
          address ∉ infraAddresses) := by
  unfold checkOwn
  cases hport : samePort port infra.2 with
  | false => simp
  | true =>
    rw [if_neg Bool.true_eq_false.mp]
    by_cases hhost : host = infra.1
    · simp [hhost, reject_ne_ok]
    · rw [if_neg hhost]
      cases hresolve : resolve names infra.1 with
      | error raised => simp [hhost]
      | ok infraAddresses =>
        by_cases hshared : addresses.any infraAddresses.contains = true
        · obtain ⟨address, haddress, hmem⟩ := List.any_eq_true.mp hshared
          simp only [if_pos hshared, reject_ne_ok, false_iff]
          intro hnone
          exact (hnone trivial).2 infraAddresses rfl address haddress
            (List.contains_iff_mem.mp hmem)
        · simp only [if_neg hshared, true_iff]
          intro _
          apply And.intro hhost
          intro others hothers address haddress hmem
          apply hshared
          rw [List.any_eq_true]
          rw [← Except.ok.inj hothers] at hmem
          exact ⟨address, haddress, List.contains_iff_mem.mpr hmem⟩

/-- The guard accepts a host when it tells neither its name nor its addresses. -/
theorem assertHostAllowed_eq_ok :
    assertHostAllowed names tables settings host port = .ok () ↔
      normalized host ≠ [] ∧ ∃ addresses, resolve names (normalized host) = .ok addresses ∧
        ¬ Told tables names settings (normalized host) port addresses := by
  unfold assertHostAllowed
  by_cases hhost : normalized host = []
  · simp [hhost, reject_ne_ok]
  · simp only [if_neg hhost]
    rw [bind_eq_ok]
    constructor
    · rintro ⟨addresses, hresolve, hchecks⟩
      obtain ⟨⟨⟩, hown, hall⟩ := bind_eq_ok.mp hchecks
      rw [forM_eq_ok] at hown hall
      refine ⟨hhost, addresses, hresolve, ?_⟩
      rintro (⟨infra, hinfra, hport, hname⟩ | ⟨address, haddress, htold⟩)
      · exact ((checkOwn_eq_ok infra).mp (hown infra hinfra) hport).1 hname
      · obtain ⟨hmetadata, hloopback, hprivate⟩ := (checkAddress_eq_ok _).mp (hall address haddress)
        rcases htold with ⟨infra, hinfra, hport, others, hothers, hmem⟩ | htold | htold | htold
        · exact ((checkOwn_eq_ok infra).mp (hown infra hinfra) hport).2 others hothers address
            haddress hmem
        · rw [hmetadata] at htold
          cases htold
        · rw [hloopback] at htold
          cases htold
        · exact hprivate htold
    · rintro ⟨-, addresses, hresolve, htold⟩
      refine ⟨addresses, hresolve, bind_eq_ok.mpr ⟨(), ?_, ?_⟩⟩
      · rw [forM_eq_ok]
        intro infra hinfra
        rw [checkOwn_eq_ok]
        intro hport
        constructor
        · intro hname
          exact htold (Or.inl ⟨infra, hinfra, hport, hname⟩)
        · intro others hothers address haddress hmem
          exact htold (Or.inr ⟨address, haddress, Or.inl ⟨infra, hinfra, hport, others, hothers, hmem⟩⟩)
      · rw [forM_eq_ok]
        intro address haddress
        rw [checkAddress_eq_ok, ← Bool.not_eq_true, ← Bool.not_eq_true]
        refine ⟨fun hmetadata => ?_, fun hloopback => ?_, fun hprivate => ?_⟩
        · exact htold (Or.inr ⟨address, haddress, Or.inr (Or.inl hmetadata)⟩)
        · exact htold (Or.inr ⟨address, haddress, Or.inr (Or.inr (Or.inl hloopback))⟩)
        · exact htold (Or.inr ⟨address, haddress, Or.inr (Or.inr (Or.inr hprivate))⟩)

/-! ## Aliases -/

/-- The guard sees to the hosts that it accepts: it tells the host, or no address is an alias. -/
def Covered (network : Network) (tables : Tables) (names : Names) (deployment : Deployment)
    (host : Text) (port : Option ℕ) : Prop :=
  normalized host ≠ [] → ∀ addresses, resolve names (normalized host) = .ok addresses →
    Told tables names deployment.settings (normalized host) port addresses ∨
      ∀ address ∈ addresses, Unaliased network tables names deployment port address

theorem isLocal4_eq_false {value : BitVec 32} :
    isLocal4 value = false ↔ (Address.v4 value).isLoopback = false ∧
      inMetadataNetworks (.v4 value) = false ∧ (Address.v4 value).isUnspecified = false := by
  simp [isLocal4, Address.isUnspecified, and_assoc]

theorem dialled_of_embedded {value : BitVec 128} {value4 : BitVec 32}
    (hembedded : network.embedded value = some value4) (scope : Option String) :
    network.dialled (.v6 value scope) = .v4 value4 := by
  simp [Network.dialled, hembedded]

theorem dialled_of_none {value : BitVec 128} (hembedded : network.embedded value = none)
    (scope : Option String) : network.dialled (.v6 value scope) = .v6 value none := by
  simp [Network.dialled, hembedded]

/-- An address that is safe is no alias. -/
theorem unaliased_of_safe (hsafe : Safe network deployment port address) :
    Unaliased network tables names deployment port address := by
  constructor
  · have hunspecified := hsafe.unspecified
    cases address with
    | v4 value => exact hunspecified
    | v6 value scope =>
      by_contra hzero
      have hvalue : value = 0 := of_decide_eq_true (Bool.not_eq_false _ ▸ hzero)
      rw [hvalue, dialled_of_none network.embedded_unspecified] at hunspecified
      cases hunspecified
  · intro value scope haddress value4 hembedded
    have hdialled := dialled_of_embedded hembedded scope
    rw [← haddress] at hdialled
    rw [isLocal4_eq_false, ← hdialled]
    exact ⟨hsafe.loopback, hsafe.metadata, hsafe.unspecified⟩
  · intro hreaches
    exact absurd hreaches hsafe.stores

/-- An address that is no alias leads somewhere that the guard tells it does. -/
theorem safe_of_unaliased (haddress : address ∈ addresses)
    (htold : ¬ Told tables names deployment.settings host port addresses)
    (hunaliased : Unaliased network tables names deployment port address) :
    Safe network deployment port address := by
  have hnot : ¬ (Listed tables names deployment.settings port address ∨
      inMetadataNetworks address = true ∨ address.isLoopback = true ∨
      (address.isPrivate = true ∧ deployment.settings.ingestAllowPrivateHosts = false)) :=
    fun hseen => htold (Or.inr ⟨address, haddress, hseen⟩)
  obtain ⟨hlisted, hmetadata, hloopback, -⟩ :
      ¬ Listed tables names deployment.settings port address ∧
        ¬ inMetadataNetworks address = true ∧ ¬ address.isLoopback = true ∧ _ := by
    simpa only [not_or] using hnot
  have hstores : ¬ ReachesStore network deployment port address := fun hreaches =>
    hlisted (hunaliased.stores hreaches)
  cases address with
  | v4 value =>
    exact ⟨Bool.eq_false_iff.mpr hloopback, Bool.eq_false_iff.mpr hmetadata,
      hunaliased.specified, hstores⟩
  | v6 value scope =>
    cases hembedded : network.embedded value with
    | some value4 =>
      have hlocal := hunaliased.embedded value scope rfl value4 hembedded
      rw [isLocal4_eq_false, ← dialled_of_embedded hembedded scope] at hlocal
      exact ⟨hlocal.1, hlocal.2.1, hlocal.2.2, hstores⟩
    | none =>
      -- Without an IPv4 address in it only the scope is lost, which no test reads.
      have hdialled := dialled_of_none hembedded scope
      refine ⟨?_, ?_, ?_, hstores⟩
      · rw [hdialled]
        exact Bool.eq_false_iff.mpr hloopback
      · rw [hdialled]
        exact Bool.eq_false_iff.mpr hmetadata
      · rw [hdialled]
        exact hunaliased.specified

/-- The guard is sound for a host exactly when it tells it or no address of it is an alias. -/
theorem sound_iff_covered (network : Network) (tables : Tables) (names : Names)
    (deployment : Deployment) (host : Text) (port : Option ℕ) :
    Sound network tables names deployment host port ↔
      Covered network tables names deployment host port := by
  constructor
  · intro hsound hhost addresses hresolve
    by_cases htold : Told tables names deployment.settings (normalized host) port addresses
    · exact Or.inl htold
    · right
      have haccepted := assertHostAllowed_eq_ok.mpr ⟨hhost, addresses, hresolve, htold⟩
      intro address haddress
      exact unaliased_of_safe (hsound haccepted addresses hresolve address haddress)
  · intro hcovered haccepted addresses hresolve address haddress
    obtain ⟨hhost, others, hothers, htold⟩ := assertHostAllowed_eq_ok.mp haccepted
    rw [← Except.ok.inj (hresolve.symm.trans hothers)] at htold
    have hunaliased := (hcovered hhost addresses hresolve).resolve_left htold
    exact safe_of_unaliased haddress htold (hunaliased address haddress)

/-- A network in which only mapped addresses lead to IPv4. -/
def dualStack : Network where
  embedded := Address.ipv4Mapped
  embedded_mapped := Address.ipv4Mapped_mapped
  embedded_unspecified := by decide

/-- Names that know the mapped form of 127.0.0.1 only. -/
def mappedLoopback : Names where
  ipAddress text :=
    if text = "::ffff:127.0.0.1".toList then
      some (.v6 (Address.mapped (Address.ipv4 127 0 0 1)) none)
    else none
  getaddrinfo _ := .error "Name or service not known"

/-- The mapped form of 127.0.0.1 is accepted where private hosts are. -/
theorem not_sound_of_mapped_loopback :
    ¬ ∀ network tables names deployment host port,
      Sound network tables names deployment host port := by
  intro hclaim
  let deployment : Deployment := ⟨⟨[], [], [], true⟩, []⟩
  have hsound := hclaim dualStack ⟨fun _ => false, id⟩ mappedLoopback deployment
    "::ffff:127.0.0.1".toList (some 5432) (by decide +kernel)
  have hresolve : resolve mappedLoopback (normalized "::ffff:127.0.0.1".toList) =
      .ok [.v6 (Address.mapped (Address.ipv4 127 0 0 1)) none] := by decide +kernel
  have hsafe := hsound _ hresolve _ (List.mem_singleton_self _)
  exact absurd hsafe.loopback (by decide +kernel)

end DbtCraft.Core.HostGuard
