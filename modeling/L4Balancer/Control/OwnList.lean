import L4Balancer.Control.Reals

/-!
# The lists that are hashed

`ReloadConfig` rebuilds the list of a service of consistent hash from the array of the
backends of all services: for each enabled real it takes the first backend with its
address, although its comment says that the port is compared too. So the list depends
on the services before: `own_list_iff` says when it is the one of the service itself.
-/

namespace L4Balancer

variable {env : Env} {config : BaseConfig} {xdp : XdpConfig} {service : BalancerService}

/-- `b` is the backend of the real as one of the service, for consistent hash: the address of the
    real, the port of the service, the weight of the real, and active. -/
structure OwnBackend (env : Env) (service : BalancerService) (real : BalancerReal) (b : Backend) :
    Prop where
  endpoint : real.endpoint env = some b.endpoint
  port : b.port = service.port.toUInt16
  weight : b.weight = real.weight
  active : b.active = 1

/-- The real stands first where its address does, or in a place that makes the same backend. -/
def BalancerService.FirstAlike (env : Env) (config : BaseConfig) (service : BalancerService)
    (real : BalancerReal) : Prop :=
  ∀ first ∈ config.firstPlace env real, first.1.port.toUInt16 = service.port.toUInt16 ∧
    first.2.weight = real.weight ∧ first.2.enabled

instance (real : BalancerReal) : Decidable (service.FirstAlike env config real) :=
  inferInstanceAs (Decidable (∀ _ ∈ _, _))

/-! ## The list of a service -/

theorem forall₂_filterMap_iff {α β : Type*} {R : α → β → Prop} {f : α → Option β} {l : List α}
    (h : ∀ a ∈ l, (f a).isSome) :
    List.Forall₂ R l (l.filterMap f) ↔ ∀ a ∈ l, ∀ b, f a = some b → R a b := by
  induction l with
  | nil => simp
  | cons a l ih =>
    obtain ⟨ha, hl⟩ := List.forall_mem_cons.1 h
    obtain ⟨b, hb⟩ := Option.isSome_iff_exists.1 ha
    rw [List.filterMap_cons_some hb, List.forall₂_cons, ih hl, List.forall_mem_cons, hb]
    simp

/-- Which list is hashed. For every configuration that is translated without an error and every
    service of it, the list that is hashed for the service is that of its enabled reals, each with
    its own address and weight, the port of the service, and active, exactly if for each of them
    the first real of all services with its address has its weight, is enabled, and is one of a
    service with the same port. -/
theorem own_list_iff (h : config.load env = (xdp, none)) (hs : service ∈ config.services) :
    List.Forall₂ (OwnBackend env service) service.enabledReals
        (service.chBackends env xdp.backends) ↔
      ∀ real ∈ service.enabledReals, service.FirstAlike env config real := by
  have hmem : ∀ real ∈ service.enabledReals, real ∈ config.reals := fun real hreal =>
    BaseConfig.mem_reals hs (BalancerService.mem_enabledReals.1 hreal).1
  rw [BalancerService.chBackends_eq, forall₂_filterMap_iff fun real hreal => by
    obtain ⟨b, hb, -⟩ := chBackend_of_mem h (hmem real hreal)
    rw [hb]
    rfl]
  refine forall₂_congr fun real hreal => ?_
  obtain ⟨j, first, firstReal, b, hfirst, hj, hjb, hb⟩ := chBackend_eq h (hmem real hreal)
  obtain ⟨b', hb', htrans⟩ := getElem?_of_forall₂ (load_places h) hj
  obtain rfl := Option.some.inj (hjb.symm.trans hb')
  have he : firstReal.endpoint env = real.endpoint env := by simpa using List.find?_some hfirst
  have hrep := htrans.represents
  obtain ⟨-, -, hport, hweight, hactive, -⟩ := htrans
  rw [BalancerService.FirstAlike, hfirst, hb]
  constructor
  · rintro hown _ ⟨⟩
    obtain ⟨-, hport', hweight', hactive'⟩ := hown b rfl
    refine ⟨hport.symm.trans hport', hweight.symm.trans hweight', hrep.active.1 ?_⟩
    rw [hactive']
    decide
  · rintro hlike _ ⟨⟩
    obtain ⟨hport', hweight', henabled⟩ := hlike _ rfl
    refine ⟨he ▸ hrep.endpoint, hport.trans hport', hweight.trans hweight', ?_⟩
    rw [hactive, if_pos henabled]

/-- A service of consistent hash alone. -/
theorem own_list_alone : List.Forall₂ (OwnBackend demoEnv (demoService "10.0.0.1" .ch ["10.0.1.1"]))
    (demoService "10.0.0.1" .ch ["10.0.1.1"]).enabledReals
    ((demoService "10.0.0.1" .ch ["10.0.1.1"]).chBackends demoEnv
      (BaseConfig.load demoEnv { services := [demoService "10.0.0.1" .ch ["10.0.1.1"]] }).1.backends) :=
  (@own_list_iff demoEnv { services := [demoService "10.0.0.1" .ch ["10.0.1.1"]] } _ _ rfl
    List.mem_cons_self).2 (by decide)

/-- A real behind a service with another port, and behind one of consistent hash. -/
def demoTwoPorts : BaseConfig where
  services := [demoService "10.0.0.1" .rr ["10.0.1.1"],
    { demoService "10.0.0.2" .ch ["10.0.1.1"] with port := 443 }]

/-- The list of the second one has the port of the first one. -/
theorem other_port_hashed : demoTwoPorts.validate = (demoTwoPorts, none) ∧
    ∃ xdp, demoTwoPorts.load demoEnv = (xdp, none) ∧
      ∃ service ∈ demoTwoPorts.services, service.LiveCh ∧
        ¬List.Forall₂ (OwnBackend demoEnv service) service.enabledReals
          (service.chBackends demoEnv xdp.backends) := by
  refine ⟨by decide +kernel, _, rfl, _, List.mem_cons_of_mem _ List.mem_cons_self, by decide,
    fun h => ?_⟩
  have hports := ((List.forall₂_and_left ..).1 (h.flip.imp fun b real hb => ⟨hb.port, hb⟩)).1
  revert hports
  decide

end L4Balancer
