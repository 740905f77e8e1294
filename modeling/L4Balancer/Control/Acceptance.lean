import L4Balancer.Control.Startup

/-!
# Exact acceptance

A configuration is valid (`BaseConfig.Valid`) by its names, texts and numbers; the IP versions
that come with its services and reals are to be overwritten. `ConfigValidator::Validate` differs
from that in two places: it takes the port 65535 for too large, and it compares the version of
a real before it sets it. So it is exact for a configuration that is valid but for its families
if its reals are of the families of their services exactly if the validator finds neither
(`validate_exact_iff`).
-/

namespace L4Balancer

open IPValidator

variable {config : BaseConfig}

/-- The service is valid, but for the families of its reals. -/
structure BalancerService.Sound (service : BalancerService) : Prop where
  port : service.port ≠ 0 ∧ service.port ≤ 65535
  vip : (checkIP service.vip).isSome
  protocol : normalizeProtocol service.protocol = "tcp" ∨ normalizeProtocol service.protocol = "udp"
  reals : ∀ real ∈ service.reals, real.weight ≠ 0 ∧ (checkIP real.ip).isSome

instance (service : BalancerService) : Decidable service.Sound :=
  decidable_of_iff ((service.port ≠ 0 ∧ service.port ≤ 65535) ∧ (checkIP service.vip).isSome ∧
    (normalizeProtocol service.protocol = "tcp" ∨ normalizeProtocol service.protocol = "udp") ∧
    ∀ real ∈ service.reals, real.weight ≠ 0 ∧ (checkIP real.ip).isSome)
    ⟨fun ⟨h, h', h'', h'''⟩ => ⟨h, h', h'', h'''⟩, fun h => ⟨h.port, h.vip, h.protocol, h.reals⟩⟩

namespace BaseConfig

/-- The configuration is valid, but for the families of the reals. -/
structure Sound (config : BaseConfig) : Prop where
  names : (config.services.map (·.name)).Nodup
  services : ∀ service ∈ config.services, service.Sound

instance (config : BaseConfig) : Decidable config.Sound :=
  decidable_of_iff ((config.services.map (·.name)).Nodup ∧ ∀ service ∈ config.services, service.Sound)
    ⟨fun ⟨h, h'⟩ => ⟨h, h'⟩, fun h => ⟨h.names, h.services⟩⟩

/-- The configuration is valid. -/
def Valid (config : BaseConfig) : Prop := config.Sound ∧ config.OneFamily

instance (config : BaseConfig) : Decidable config.Valid :=
  inferInstanceAs (Decidable (config.Sound ∧ ∀ service ∈ config.services,
    ∀ real ∈ service.reals, checkIP real.ip = checkIP service.vip))

/-- A service with the port 65535, or a real that does not come with the version of its VIP. -/
def Mistaken (config : BaseConfig) : Prop :=
  ∃ service ∈ config.services, service.port = 65535 ∨
    ∃ real ∈ service.reals, checkIP service.vip ≠ some real.ipVersion

/-- The versions are those of the addresses. -/
def Versioned (config : BaseConfig) : Prop :=
  ∀ service ∈ config.services, checkIP service.vip = some service.ipVersion ∧
    ∀ real ∈ service.reals, checkIP real.ip = some real.ipVersion

/-- The validator accepts the configuration exactly if it is valid, and then leaves the versions of
    the addresses. -/
def ValidatedExactly (config : BaseConfig) : Prop :=
  (config.validate.2 = none ↔ config.Valid) ∧
    (config.validate.2 = none → config.validate.1.Versioned)

end BaseConfig

/-- The validator accepts a service that is valid but for its families, if it finds nothing to
    mistake in it. -/
theorem BalancerService.accepted_iff_sound {service : BalancerService} :
    service.Accepted ↔ service.Sound ∧ ¬(service.port = 65535 ∨
      ∃ real ∈ service.reals, checkIP service.vip ≠ some real.ipVersion) := by
  have hport : service.port < 65535 ↔ service.port ≤ 65535 ∧ service.port ≠ 65535 := by
    rw [UInt32.lt_iff_toNat_lt, UInt32.le_iff_toNat_le, ne_eq, ← UInt32.toNat_inj]
    exact lt_iff_le_and_ne
  constructor
  · intro h
    refine ⟨⟨⟨h.port.1, (hport.1 h.port.2).1⟩, h.vip, h.protocol, fun real hr => (h.reals real hr).2⟩,
      ?_⟩
    rintro (hmax | ⟨real, hr, hne⟩)
    · exact (hport.1 h.port.2).2 hmax
    · exact hne (h.reals real hr).1
  · rintro ⟨h, hno⟩
    refine ⟨⟨h.port.1, hport.2 ⟨h.port.2, fun hmax => hno (.inl hmax)⟩⟩, h.vip, h.protocol,
      fun real hr => ⟨?_, h.reals real hr⟩⟩
    by_contra hne
    exact hno (.inr ⟨real, hr, hne⟩)

namespace BaseConfig

theorem accepted_iff_sound : config.Accepted ↔ config.Sound ∧ ¬config.Mistaken := by
  constructor
  · intro h
    refine ⟨⟨h.names, fun s hs => (BalancerService.accepted_iff_sound.1 (h.services s hs)).1⟩, ?_⟩
    rintro ⟨s, hs, hmistaken⟩
    exact (BalancerService.accepted_iff_sound.1 (h.services s hs)).2 hmistaken
  · rintro ⟨h, hno⟩
    exact ⟨h.names, fun s hs => BalancerService.accepted_iff_sound.2
      ⟨h.services s hs, fun hmistaken => hno ⟨s, hs, hmistaken⟩⟩⟩

/-- What the validator accepts, it leaves with the versions of the addresses. -/
theorem versioned_validate (h : config.validate.2 = none) : config.validate.1.Versioned := by
  have hnormal := normal_of_validate (Prod.ext (y := (config.validate.1, none)) rfl h)
  exact fun service hs => ⟨(hnormal service hs).vip,
    fun real hr => ((hnormal service hs).reals real hr).2⟩

end BaseConfig

/-- Exact acceptance. The validator accepts a configuration exactly if it is valid, and leaves it with
    the versions of its addresses, exactly if this holds: where the configuration is valid but for
    its families, it has a real of another family than its VIP exactly if it has the port 65535 or a
    real that does not come with the version of its VIP. -/
theorem validate_exact_iff (config : BaseConfig) :
    config.ValidatedExactly ↔ (config.Sound → (¬config.OneFamily ↔ config.Mistaken)) := by
  rw [BaseConfig.ValidatedExactly, and_iff_left BaseConfig.versioned_validate,
    BaseConfig.validate_eq_none, BaseConfig.accepted_iff_sound, BaseConfig.Valid]
  tauto

/-- A service over IPv6, whose real comes with the version that the parser leaves it, and one with
    the last port. -/
def demoRefused : List BaseConfig :=
  [⟨[⟨[⟨"::2", true, 1, 4, 80⟩], "web", "::1", "tcp", 80, .rr, 4⟩], none⟩,
    ⟨[⟨[], "web", "10.0.0.1", "tcp", 65535, .rr, 4⟩], none⟩]

/-- A service over IPv4 with a real over IPv6, which comes with the version 4. -/
def demoMixed : BaseConfig :=
  ⟨[⟨[⟨"::2", true, 1, 4, 80⟩], "web", "10.0.0.1", "tcp", 80, .rr, 4⟩], none⟩

/-- The first two are valid and refused, the last one is neither. -/
theorem validated_inexactly :
    (∀ config ∈ demoRefused, config.Valid ∧ config.validate.2 ≠ none) ∧
      ¬demoMixed.Valid ∧ demoMixed.validate.2 = none ∧
      ∀ config ∈ demoMixed :: demoRefused, ¬config.ValidatedExactly := by
  have hvalid : ∀ config ∈ demoRefused, config.Valid ∧ config.validate.2 ≠ none := by decide +kernel
  have hmixed : ¬demoMixed.Valid ∧ demoMixed.validate.2 = none := by decide +kernel
  refine ⟨hvalid, hmixed.1, hmixed.2, List.forall_mem_cons.2 ⟨?_, fun config hconfig => ?_⟩⟩
  · exact fun h => hmixed.1 (h.1.1 hmixed.2)
  · obtain ⟨hv, hne⟩ := hvalid config hconfig
    exact fun h => hne (h.1.2 hv)

end L4Balancer
