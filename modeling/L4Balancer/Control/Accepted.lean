import L4Balancer.Control.Validator

/-!
# Accepted configurations

What `ConfigValidator::Validate` asks of a configuration (`BaseConfig.Accepted`), and what
it makes of one that it accepts (`BaseConfig.normalize`): `BaseConfig.validate_eq_none`.

The family of a real is compared before it is determined from its address: a configuration
that is accepted has reals that *said* they were of the family of the service. As the
validator leaves it (`BalancerService.Normal`), it is accepted once more only if their
addresses are of that family too (`BalancerService.Normal.accepted_iff`).
-/

namespace L4Balancer

open IPValidator

variable {service : BalancerService} {config config' : BaseConfig}

/-! ## The texts -/

theorem checkIP_eq_four_or_six {ip : String} {v : UInt8} (h : checkIP ip = some v) :
    v = 4 ∨ v = 6 := by
  rw [checkIP] at h
  split_ifs at h <;> simp_all

/-- What is left of a protocol that is accepted is accepted. -/
theorem normalizeProtocol_of_accepted {s : String} (h : s = "tcp" ∨ s = "udp") :
    normalizeProtocol s = s := by
  rcases h with rfl | rfl <;> rfl

/-! ## The conditions -/

/-- The real as the validator leaves it. -/
def BalancerReal.normalize (real : BalancerReal) : BalancerReal :=
  { real with ipVersion := (checkIP real.ip).getD real.ipVersion }

namespace BalancerService

/-- The service as the validator leaves it. -/
def normalize (service : BalancerService) : BalancerService :=
  { service with
    ipVersion := (checkIP service.vip).getD service.ipVersion
    protocol := normalizeProtocol service.protocol
    reals := service.reals.map BalancerReal.normalize }

/-- What the validator asks of a service. -/
structure Accepted (service : BalancerService) : Prop where
  port : service.port ≠ 0 ∧ service.port < 65535
  vip : (checkIP service.vip).isSome
  protocol : normalizeProtocol service.protocol = "tcp" ∨ normalizeProtocol service.protocol = "udp"
  reals : ∀ real ∈ service.reals, checkIP service.vip = some real.ipVersion ∧ real.weight ≠ 0 ∧
    (checkIP real.ip).isSome

theorem validateReals_cons (service : BalancerService) (real : BalancerReal)
    (reals : List BalancerReal) :
    (service.validateReals (real :: reals)).2 = none ↔
      (service.ipVersion = real.ipVersion ∧ real.weight ≠ 0 ∧ (checkIP real.ip).isSome) ∧
        (service.validateReals reals).2 = none := by
  rw [validateReals]
  split_ifs with hv hw
  · simp [Ne.symm hv]
  · simp [hw]
  · rw [not_not] at hv
    cases h : checkIP real.ip with
    | none => simp
    | some v => simp [hv, hw]

/-- The reals are accepted if each is, and each gets the family of its address. -/
theorem validateReals_spec (service : BalancerService) (reals : List BalancerReal) :
    ((service.validateReals reals).2 = none ↔ ∀ real ∈ reals,
      service.ipVersion = real.ipVersion ∧ real.weight ≠ 0 ∧ (checkIP real.ip).isSome) ∧
    ((service.validateReals reals).2 = none →
      (service.validateReals reals).1 = reals.map BalancerReal.normalize) := by
  induction reals with
  | nil => simp [validateReals]
  | cons real reals ih =>
    obtain ⟨hiff, heq⟩ := ih
    refine ⟨by rw [validateReals_cons, hiff, List.forall_mem_cons], fun h => ?_⟩
    obtain ⟨⟨hv, hw, hip⟩, hrest⟩ := (validateReals_cons service real reals).1 h
    obtain ⟨v, hip⟩ := Option.isSome_iff_exists.1 hip
    rw [validateReals, if_neg (not_not.2 hv.symm), if_neg hw, hip, List.map_cons, ← heq hrest,
      BalancerReal.normalize, hip]
    rfl

theorem validate_spec (service : BalancerService) :
    (service.validate.2 = none ↔ service.Accepted) ∧
      (service.validate.2 = none → service.validate.1 = service.normalize) := by
  rw [validate]
  split_ifs with hport
  · refine ⟨iff_of_false (by simp) fun h => ?_, by simp⟩
    obtain ⟨hne, hlt⟩ := h.port
    exact hport.elim hne (fun hge => UInt32.not_lt.2 hge hlt)
  · rw [not_or, ge_iff_le, UInt32.not_le] at hport
    cases hvip : checkIP service.vip with
    | none => exact ⟨iff_of_false (by simp) fun h => by simpa [hvip] using h.vip, by simp⟩
    | some v =>
      dsimp only
      split_ifs with hprotocol
      · refine ⟨iff_of_false (by simp) fun h => ?_, by simp⟩
        exact h.protocol.elim hprotocol.1 hprotocol.2
      · obtain ⟨hiff, heq⟩ := validateReals_spec { service with
          ipVersion := v, protocol := normalizeProtocol service.protocol } service.reals
        refine ⟨hiff.trans ⟨fun h => ?_, fun h real hreal => ?_⟩, fun h => ?_⟩
        · refine ⟨hport, by simp [hvip], by tauto, fun real hreal => ?_⟩
          obtain ⟨hv, hrest⟩ := h real hreal
          exact ⟨by rw [hvip, ← hv], hrest⟩
        · obtain ⟨hv, hrest⟩ := h.reals real hreal
          exact ⟨Option.some.inj (hvip.symm.trans hv), hrest⟩
        · dsimp only
          rw [heq h, normalize, hvip]
          rfl

/-- The families are those of the addresses, and the protocol is a lower case one. -/
structure Normal (service : BalancerService) : Prop where
  port : service.port ≠ 0 ∧ service.port < 65535
  vip : checkIP service.vip = some service.ipVersion
  protocol : service.protocol = "tcp" ∨ service.protocol = "udp"
  reals : ∀ real ∈ service.reals, real.weight ≠ 0 ∧ checkIP real.ip = some real.ipVersion

theorem Accepted.normal (h : service.Accepted) : service.normalize.Normal := by
  have hgetD : ∀ {ip : String} {v : UInt8}, (checkIP ip).isSome →
      checkIP ip = some ((checkIP ip).getD v) := by
    intro ip v hip
    obtain ⟨v', hip⟩ := Option.isSome_iff_exists.1 hip
    rw [hip, Option.getD_some]
  refine ⟨h.port, hgetD h.vip, h.protocol, fun real hreal => ?_⟩
  obtain ⟨real', hreal', rfl⟩ := List.mem_map.1 hreal
  obtain ⟨-, hw, hip⟩ := h.reals real' hreal'
  exact ⟨hw, hgetD hip⟩

namespace Normal

theorem accepted_iff (h : service.Normal) :
    service.Accepted ↔ ∀ real ∈ service.reals, real.ipVersion = service.ipVersion := by
  constructor
  · intro hacc real hreal
    exact Option.some.inj ((hacc.reals real hreal).1.symm.trans h.vip)
  · intro hfamily
    refine ⟨h.port, by rw [h.vip]; rfl, ?_, fun real hreal => ?_⟩
    · rw [normalizeProtocol_of_accepted h.protocol]
      exact h.protocol
    · obtain ⟨hw, hip⟩ := h.reals real hreal
      exact ⟨by rw [h.vip, hfamily real hreal], hw, by rw [hip]; rfl⟩

theorem normalize (h : service.Normal) : service.normalize = service := by
  have hreals : service.reals.map BalancerReal.normalize = service.reals := by
    refine (List.map_congr_left fun real hreal => ?_).trans (List.map_id _)
    rw [BalancerReal.normalize, (h.reals real hreal).2]
    rfl
  rw [BalancerService.normalize, h.vip, hreals, normalizeProtocol_of_accepted h.protocol]
  rfl

end Normal

end BalancerService

/-! ## Configurations -/

theorem duplicateName_eq_none {names : List String} {services : List BalancerService} :
    duplicateName names services = none ↔
      (∀ service ∈ services, service.name ∉ names) ∧ (services.map (·.name)).Nodup := by
  induction services generalizing names with
  | nil => simp [duplicateName]
  | cons service services ih =>
    rw [duplicateName, List.map_cons, List.nodup_cons, List.forall_mem_cons, List.mem_map]
    split_ifs with h
    · simp [h]
    · rw [ih]
      constructor
      · rintro ⟨hnames, hn⟩
        refine ⟨⟨h, fun s hs => fun hmem => hnames s hs (List.mem_cons_of_mem _ hmem)⟩, ?_, hn⟩
        rintro ⟨s, hs, heq⟩
        exact hnames s hs (heq ▸ List.mem_cons_self)
      · rintro ⟨⟨-, hnames⟩, hfresh, hn⟩
        refine ⟨fun s hs hmem => ?_, hn⟩
        rcases List.mem_cons.1 hmem with heq | hmem
        · exact hfresh ⟨s, hs, heq⟩
        · exact hnames s hs hmem

theorem validateServices_spec (services : List BalancerService) :
    ((validateServices services).2 = none ↔ ∀ service ∈ services, service.Accepted) ∧
      ((validateServices services).2 = none →
        (validateServices services).1 = services.map BalancerService.normalize) := by
  induction services with
  | nil => simp [validateServices]
  | cons service services ih =>
    obtain ⟨hiff, heq⟩ := ih
    obtain ⟨hiff₁, heq₁⟩ := service.validate_spec
    rw [validateServices, List.forall_mem_cons, ← hiff₁, ← hiff]
    rcases h : service.validate with ⟨service', _ | e⟩
    · rw [h] at heq₁
      exact ⟨by simp, fun hrest => by rw [List.map_cons, ← heq hrest, ← heq₁ rfl]⟩
    · simp

namespace BaseConfig

/-- The configuration as the validator leaves it. -/
def normalize (config : BaseConfig) : BaseConfig :=
  { config with services := config.services.map BalancerService.normalize }

/-- What the validator asks of a configuration. -/
structure Accepted (config : BaseConfig) : Prop where
  names : (config.services.map (·.name)).Nodup
  services : ∀ service ∈ config.services, service.Accepted

/-- The validator accepts exactly the configurations with its conditions. -/
theorem validate_eq_none : config.validate.2 = none ↔ config.Accepted := by
  have hnames := @duplicateName_eq_none [] config.services
  rw [validate]
  cases h : duplicateName [] config.services with
  | some name =>
    rw [h] at hnames
    refine iff_of_false (by simp) fun hacc => ?_
    exact absurd (hnames.2 ⟨by simp, hacc.names⟩) (by simp)
  | none =>
    dsimp only
    rw [(validateServices_spec config.services).1]
    exact ⟨fun hs => ⟨(hnames.1 h).2, hs⟩, Accepted.services⟩

theorem validate_fst (h : config.Accepted) : config.validate.1 = config.normalize := by
  have hs := (validateServices_spec config.services).1.2 h.services
  rw [validate, duplicateName_eq_none.2 ⟨by simp, h.names⟩, normalize]
  dsimp only
  rw [(validateServices_spec config.services).2 hs]

theorem validate_eq_ok : config.validate = (config', none) ↔
    config.Accepted ∧ config' = config.normalize := by
  constructor
  · intro h
    have hacc := validate_eq_none.1 (congrArg Prod.snd h)
    exact ⟨hacc, (congrArg Prod.fst h).symm.trans (validate_fst hacc)⟩
  · rintro ⟨h, rfl⟩
    exact Prod.ext (validate_fst h) (validate_eq_none.2 h)

theorem normal_of_validate (h : config.validate = (config', none)) :
    ∀ service ∈ config'.services, service.Normal := by
  obtain ⟨hacc, rfl⟩ := validate_eq_ok.1 h
  intro service hs
  obtain ⟨service', hs', rfl⟩ := List.mem_map.1 hs
  exact (hacc.services service' hs').normal

end BaseConfig

end L4Balancer
