import L4Balancer.Control.Translate

/-!
# The layout of a configuration

Where the loops of `ReloadConfig` put a service when they find no error
(`BaseConfig.load_placed`): the key and the entry of the service `i` at the position
`i`, its backends one after the other from `BaseConfig.start` on, the number of the
reals of the services before it. So the blocks of two services are disjoint
(`BaseConfig.start_add_le`), and together they are all the backends.
-/

namespace L4Balancer

variable {env : Env}

/-- The reals of the services before the service `i`. -/
def BaseConfig.start (config : BaseConfig) (i : ℕ) : ℕ :=
  ((config.services.take i).map fun service => service.reals.length).sum

theorem BaseConfig.start_succ {config : BaseConfig} {i : ℕ} {service : BalancerService}
    (h : config.services[i]? = some service) :
    config.start (i + 1) = config.start i + service.reals.length := by
  rw [start, List.take_add_one, h, List.map_append, List.sum_append, start]
  simp

theorem BaseConfig.start_mono (config : BaseConfig) {i j : ℕ} (h : i ≤ j) :
    config.start i ≤ config.start j := by
  rw [start, start, ← Nat.add_sub_cancel' h, List.take_add, List.map_append, List.sum_append]
  exact Nat.le_add_right _ _

/-- The block of a service ends before those of the services behind it. -/
theorem BaseConfig.start_add_le {config : BaseConfig} {i j : ℕ} {service : BalancerService}
    (h : config.services[i]? = some service) (hij : i < j) :
    config.start i + service.reals.length ≤ config.start j := by
  rw [← start_succ h]
  exact config.start_mono hij

/-- `b` is the translation of a real of a service. Over IPv4 the rest of the address is not
    initialised. -/
def Translation (env : Env) (service : BalancerService) (real : BalancerReal) (b : Backend) : Prop :=
  (∃ addr ∈ env.address real.ipVersion real.ip,
    if real.ipVersion = 4 then b.ip.ipv4 = addr.ipv4 else b.ip = addr) ∧
    env.macLookup real.ipVersion real.ip = some b.mac ∧
    b.port = service.port.toUInt16 ∧ b.weight = real.weight ∧
    b.active = (if real.enabled then 1 else 0) ∧ b.ipVersion = storedVersion real.ipVersion

namespace BalancerService

variable {service : BalancerService} {real : BalancerReal} {b : Backend} {k : ℕ}

/-- The backend of a real is its translation, over what the memory held. -/
theorem prepareReal_eq_ok : service.prepareReal env k real = .ok b ↔
    Translation env service real b ∧
      (real.ipVersion = 4 → b.ip = (env.uninit k).withIpv4 b.ip.ipv4) := by
  rw [prepareReal]
  constructor
  · intro h
    split at h
    · cases h
    · rename_i ip hip
      split at h
      · cases h
      · rename_i mac hmac
        obtain rfl := Except.ok.inj h
        refine ⟨⟨⟨ip, hip, ?_⟩, hmac, rfl, rfl, by cases real.enabled <;> rfl, rfl⟩, fun hv => ?_⟩
        · dsimp only
          split_ifs
          · exact Addr.ipv4_withIpv4 _ _
          · rfl
        · dsimp only
          rw [if_pos hv, Addr.ipv4_withIpv4]
  · rintro ⟨⟨⟨addr, haddr, hip⟩, hmac, hport, hweight, hactive, hversion⟩, huninit⟩
    obtain ⟨ip, port, mac, active, ipVersion, weight⟩ := b
    dsimp only at *
    rw [haddr, hmac, hport, hweight, hactive, hversion]
    have hstored :
        (if real.ipVersion = 4 then (env.uninit k).withIpv4 addr.ipv4 else addr) = ip := by
      split_ifs at hip ⊢ with hv
      · rw [huninit hv, ← hip]
      · exact hip.symm
    dsimp only
    rw [hstored]
    cases real.enabled <;> rfl

theorem translation_of_prepareReal (h : service.prepareReal env k real = .ok b) :
    Translation env service real b := (prepareReal_eq_ok.1 h).1

end BalancerService

/-- Where a service is in the vectors. -/
structure Placed (env : Env) (xdp : XdpConfig) (i start serviceIdx currentBackendIdx : ℕ)
    (service : BalancerService) : Prop where
  key : ∃ key, service.prepareKey env = .ok key ∧ xdp.keys[i]? = some key
  info : xdp.services[i]? = some ⟨.ofNat service.reals.length, .ofNat currentBackendIdx,
    service.type.toUInt8, .ofNat serviceIdx⟩
  reals : ∀ (k : ℕ) (real : BalancerReal), service.reals[k]? = some real →
    ∃ b, Translation env service real b ∧ xdp.backends[start + k]? = some b

theorem BalancerService.loadReals_ok {service : BalancerService} {k : ℕ} {reals : List BalancerReal}
    {backends : List Backend} (h : service.loadReals env k reals = (backends, none)) :
    List.Forall₂ (Translation env service) reals backends := by
  induction reals generalizing backends k with
  | nil =>
    obtain ⟨rfl, -⟩ := Prod.mk.inj h
    exact .nil
  | cons real reals ih =>
    rw [loadReals] at h
    split at h
    · simp at h
    · rename_i back hback
      rcases hr : service.loadReals env (k + 1) reals with ⟨bs, error⟩
      rw [hr] at h
      obtain ⟨rfl, rfl⟩ := Prod.mk.inj h
      exact .cons (translation_of_prepareReal hback) (ih hr)

/-- What the loops do at a service. -/
theorem loadServices_cons {currentBackendIdx serviceIdx : ℕ} {service : BalancerService}
    {services : List BalancerService} {xdp : XdpConfig}
    (h : loadServices env currentBackendIdx serviceIdx (service :: services) = (xdp, none)) :
    ∃ key backends rest, service.prepareKey env = .ok key ∧
      service.loadReals env currentBackendIdx service.reals = (backends, none) ∧
      backends.length = service.reals.length ∧
      loadServices env (currentBackendIdx + service.reals.length) (serviceIdx + 1) services =
        (rest, none) ∧
      xdp = ⟨backends ++ rest.backends, key :: rest.keys,
        ⟨.ofNat service.reals.length, .ofNat currentBackendIdx, service.type.toUInt8,
          .ofNat serviceIdx⟩ :: rest.services⟩ := by
  rw [loadServices] at h
  split at h
  · simp at h
  · rename_i key hkey
    split at h
    · simp at h
    · rename_i backends hbackends
      have hlen := (BalancerService.loadReals_ok hbackends).length_eq
      rw [← hlen] at h
      rcases hr : loadServices env (currentBackendIdx + service.reals.length) (serviceIdx + 1)
        services with ⟨rest, error⟩
      rw [hr] at h
      obtain ⟨rfl, rfl⟩ := Prod.mk.inj h
      exact ⟨key, backends, rest, hkey, hbackends, hlen.symm, rfl, rfl⟩

theorem loadServices_length {currentBackendIdx serviceIdx : ℕ} {services : List BalancerService}
    {xdp : XdpConfig}
    (h : loadServices env currentBackendIdx serviceIdx services = (xdp, none)) :
    xdp.keys.length = services.length ∧ xdp.services.length = services.length ∧
      xdp.backends.length = (services.map fun service => service.reals.length).sum := by
  induction services generalizing currentBackendIdx serviceIdx xdp with
  | nil =>
    obtain ⟨rfl, -⟩ := Prod.mk.inj h
    exact ⟨rfl, rfl, rfl⟩
  | cons service services ih =>
    obtain ⟨key, backends, rest, -, -, hlen, hrest, rfl⟩ := loadServices_cons h
    obtain ⟨hk, hs, hb⟩ := ih hrest
    simp [hk, hs, hb, hlen]

theorem loadServices_placed {currentBackendIdx serviceIdx : ℕ} {services : List BalancerService}
    {xdp : XdpConfig} (h : loadServices env currentBackendIdx serviceIdx services = (xdp, none))
    {i : ℕ} {service : BalancerService} (hi : services[i]? = some service) :
    Placed env xdp i ((services.take i).map fun service => service.reals.length).sum
      (serviceIdx + i)
      (currentBackendIdx + ((services.take i).map fun service => service.reals.length).sum)
      service := by
  induction services generalizing currentBackendIdx serviceIdx xdp i with
  | nil => simp at hi
  | cons first services ih =>
    obtain ⟨key, backends, rest, hkey, hbackends, hlen, hrest, rfl⟩ := loadServices_cons h
    have hreals := BalancerService.loadReals_ok hbackends
    cases i with
    | zero =>
      obtain rfl : first = service := by simpa using hi
      refine ⟨⟨key, hkey, rfl⟩, rfl, fun k real hk => ?_⟩
      obtain ⟨hlt, rfl⟩ := List.getElem?_eq_some_iff.1 hk
      refine ⟨backends[k], hreals.get hlt (hlen ▸ hlt), ?_⟩
      simp [List.getElem?_append_left (hlen ▸ hlt)]
    | succ i =>
      obtain ⟨⟨key', hkey', hk⟩, hinfo, hr⟩ := ih hrest hi
      refine ⟨⟨key', hkey', hk⟩, ?_, fun k real hreal => ?_⟩
      · have hs : serviceIdx + (i + 1) = serviceIdx + 1 + i := by omega
        rw [List.take_succ_cons, List.map_cons, List.sum_cons, ← Nat.add_assoc, hs]
        exact hinfo
      · obtain ⟨b, hb, hbk⟩ := hr k real hreal
        refine ⟨b, hb, ?_⟩
        rw [List.take_succ_cons, List.map_cons, List.sum_cons, ← hlen, Nat.add_assoc,
          List.getElem?_append_right (Nat.le_add_right _ _), Nat.add_sub_cancel_left, hbk]

namespace BaseConfig

variable {config : BaseConfig} {xdp : XdpConfig}

theorem load_length (h : config.load env = (xdp, none)) :
    xdp.keys.length = config.services.length ∧ xdp.services.length = config.services.length ∧
      xdp.backends.length = config.start config.services.length := by
  have := loadServices_length h
  rwa [start, List.take_length]

/-- Where the loops put the service `i`. -/
theorem load_placed (h : config.load env = (xdp, none)) {i : ℕ} {service : BalancerService}
    (hi : config.services[i]? = some service) :
    Placed env xdp i (config.start i) i (config.start i) service := by
  have := loadServices_placed h hi
  rwa [Nat.zero_add, Nat.zero_add] at this

end BaseConfig

end L4Balancer
