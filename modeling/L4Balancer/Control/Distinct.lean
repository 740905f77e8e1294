import L4Balancer.Control.Accepted
import L4Balancer.Control.Operation

/-!
# Entries of their own

A validated configuration has distinct names, but packets do not know names: two services
with the same address, port and protocol (`SameTarget`) have one key, and the services map
has one entry for it.

* `own_entries_iff`: every service finds its own entry exactly if no two services are
  such;
* `serves_resolved_iff`: `ReloadConfig` flips to a set that has every service, with its
  reals whose MAC is resolved, only if moreover there is no other real: the first real
  without a MAC ends the reload.
-/

namespace L4Balancer

open Bpf

variable {cpus : ℕ} {env : Env} {config config' : BaseConfig} {xdp : XdpConfig}
  {m m' : Maps cpus} {d d₁ : Dataplane cpus} {service service' : BalancerService}

/-! ## What a reload does after its flip -/

theorem SameBuffers.of_runWrites {ws : List Write} (hws : ∀ w ∈ ws, w.publishes = false)
    (m : Maps cpus) : SameBuffers m (runWrites m ws).1 :=
  rel_runWrites refl (fun _ _ _ h h' => h.trans h') (fun w hw _ _ h => of_run h (hws w hw)) m

/-- `d'` has the buffers of `d`. -/
def KeepsBuffers (d d' : Dataplane cpus) : Prop := SameBuffers d.maps d'.maps

namespace KeepsBuffers

theorem trans (d d₁ d₂ : Dataplane cpus) (h : KeepsBuffers d d₁) (h' : KeepsBuffers d₁ d₂) :
    KeepsBuffers d d₂ :=
  SameBuffers.trans h h'

theorem resetCursors (d : Dataplane cpus) : KeepsBuffers d d.resetCursors.dataplane := by
  rw [Dataplane.resetCursors]
  refine Outcome.dataplane_bind trans ?_ fun d₁ => ⟨fun _ => rfl, fun _ => rfl, rfl⟩
  rw [Outcome.dataplane_write]
  refine SameBuffers.of_runWrites (fun w hw => ?_) d.maps
  obtain ⟨key, -, rfl⟩ := List.mem_map.1 hw
  rfl

theorem switch (d : Dataplane cpus) (env : Env) : KeepsBuffers d (d.switch env).dataplane := by
  rw [Dataplane.switch]
  refine Outcome.dataplane_bind trans (resetCursors d) fun d₁ => ?_
  have hch := (Dataplane.foldl_updateCh_frame d₁ env d₁.currConfig.services).1.buffers
  exact hch.trans ⟨fun _ => rfl, fun _ => rfl, rfl⟩

theorem resetStats (d : Dataplane cpus) : KeepsBuffers d d.resetStats.dataplane := by
  obtain ⟨a, b, h⟩ := OnlyStats.resetStats d
  rw [h]
  exact ⟨fun _ => rfl, fun _ => rfl, rfl⟩

/-- Whatever happens after the flip, the buffers stay. -/
theorem reloadConfig (hpub : d.publish env config = .ok d₁) :
    KeepsBuffers d₁ (Outcome.dataplane (d.reloadConfig env config)) := by
  rw [Dataplane.reloadConfig, hpub, Dataplane.ok_bind]
  exact Outcome.dataplane_bind trans (switch d₁ env) resetStats

end KeepsBuffers

/-! ## Services with one key -/

/-- The services have the same address, port, protocol and family. -/
def BalancerService.SameTarget (env : Env) (service service' : BalancerService) : Prop :=
  env.address service.ipVersion service.vip = env.address service'.ipVersion service'.vip ∧
    service.port = service'.port ∧ service.protocol = service'.protocol ∧
    service.ipVersion = service'.ipVersion

instance : Decidable (service.SameTarget env service') := inferInstanceAs (Decidable (_ ∧ _))

/-- No two services of the configuration have the same target. -/
def BaseConfig.DistinctTargets (env : Env) (config : BaseConfig) : Prop :=
  config.services.Pairwise fun service service' => ¬service.SameTarget env service'

instance : Decidable (config.DistinctTargets env) := inferInstanceAs (Decidable (List.Pairwise ..))

theorem BalancerService.prepareKey_eq_ok {key : ServiceKey} : service.prepareKey env = .ok key ↔
    ∃ vip, env.address service.ipVersion service.vip = some vip ∧
      key = ⟨vip, service.port.toUInt16, service.protocolNumber, storedVersion service.ipVersion⟩ := by
  rw [prepareKey]
  cases env.address service.ipVersion service.vip with
  | none => simp
  | some vip => simp [eq_comm]

theorem BalancerService.Normal.ipVersion (h : service.Normal) :
    service.ipVersion = 4 ∨ service.ipVersion = 6 :=
  checkIP_eq_four_or_six h.vip

/-- Of two validated services, the one has the key of the other exactly if their targets are the
    same. -/
theorem BalancerService.Normal.prepareKey_iff (h : service.Normal) (h' : service'.Normal)
    {key : ServiceKey} (hk : service.prepareKey env = .ok key) :
    service'.prepareKey env = .ok key ↔ service.SameTarget env service' := by
  obtain ⟨vip, hvip, rfl⟩ := prepareKey_eq_ok.1 hk
  rw [prepareKey_eq_ok, SameTarget, hvip]
  have hport : service.port.toUInt16 = service'.port.toUInt16 ↔ service.port = service'.port := by
    have hlt := UInt32.lt_iff_toNat_lt.1 h.port.2
    have hlt' := UInt32.lt_iff_toNat_lt.1 h'.port.2
    rw [← UInt16.toNat_inj, ← UInt32.toNat_inj, UInt32.toNat_toUInt16, UInt32.toNat_toUInt16]
    have hmax : (65535 : UInt32).toNat = 65535 := rfl
    omega
  have hprotocol : service.protocolNumber = service'.protocolNumber ↔
      service.protocol = service'.protocol := by
    rw [protocolNumber, protocolNumber]
    rcases h.protocol with hp | hp <;> rcases h'.protocol with hp' | hp' <;> rw [hp, hp'] <;> decide
  have hversion : storedVersion service.ipVersion = storedVersion service'.ipVersion ↔
      service.ipVersion = service'.ipVersion := by
    rcases h.ipVersion with hv | hv <;> rcases h'.ipVersion with hv' | hv' <;> rw [hv, hv'] <;> decide
  simp only [ServiceKey.mk.injEq, hport, hprotocol, hversion]
  constructor
  · rintro ⟨vip', hvip', rfl, hrest⟩
    exact ⟨hvip'.symm, hrest⟩
  · rintro ⟨hvip', hrest⟩
    exact ⟨vip, hvip'.symm, rfl, hrest⟩

/-- Each service finds its own entry under its key. -/
def BaseConfig.OwnEntries (env : Env) (config : BaseConfig) (m : Maps cpus) : Prop :=
  ∀ (i : ℕ) (service : BalancerService), config.services[i]? = some service →
    ∃ key info, service.prepareKey env = .ok key ∧ m.activeServices.lookup key = some info ∧
      info.serviceIdx.toNat = i

/-- Services with entries of their own have distinct targets. -/
theorem BaseConfig.OwnEntries.distinctTargets (hn : ∀ service ∈ config.services, service.Normal)
    (h : config.OwnEntries env m) : config.DistinctTargets env := by
  refine List.pairwise_iff_getElem.2 fun i j hi hj hij hsame => ?_
  obtain ⟨key, info, hkey, hlookup, hidx⟩ := h i _ (List.getElem?_eq_getElem hi)
  obtain ⟨key', info', hkey', hlookup', hidx'⟩ := h j _ (List.getElem?_eq_getElem hj)
  have hkey₁ := ((hn _ (List.getElem_mem hi)).prepareKey_iff (hn _ (List.getElem_mem hj)) hkey).2 hsame
  obtain rfl := Except.ok.inj (hkey'.symm.trans hkey₁)
  obtain rfl := Option.some.inj (hlookup.symm.trans hlookup')
  omega

theorem BaseConfig.DistinctTargets.nodup (hn : ∀ service ∈ config.services, service.Normal)
    (hload : config.load env = (xdp, none)) (h : config.DistinctTargets env) :
    (config.services.map fun service => service.prepareKey env).Nodup := by
  rw [List.Nodup, List.pairwise_map, List.pairwise_iff_getElem]
  intro i j hi hj hij heq
  obtain ⟨⟨key, hkey, -⟩, -, -⟩ := load_placed hload (List.getElem?_eq_getElem hi)
  refine List.pairwise_iff_getElem.1 h i j hi hj hij ?_
  exact ((hn _ (List.getElem_mem hi)).prepareKey_iff (hn _ (List.getElem_mem hj)) hkey).1
    (heq.symm.trans hkey)

/-- With distinct targets, a published configuration has the entry of each service. -/
theorem Published.own_entry {buffer : Fin 2} (hn : ∀ service ∈ config.services, service.Normal)
    (hload : config.load env = (xdp, none)) (h : Published xdp buffer m m')
    (hd : config.DistinctTargets env) {i : ℕ} (hi : config.services[i]? = some service) :
    ∃ key info, service.prepareKey env = .ok key ∧ m'.activeServices.lookup key = some info ∧
      info.serviceIdx.toNat = i ∧ Entry env config m' i service info := by
  have hnodup := hd.nodup hn hload
  obtain ⟨key, info, hkey, hlookup, he⟩ := h.entry_of_nodup hload hnodup hi
  refine ⟨key, info, hkey, hlookup, ?_, he⟩
  have hle := h.length_services_le hload hnodup
  have hlt := (List.getElem?_eq_some_iff.1 hi).1
  rw [he.serviceIdx]
  exact UInt32.toNat_ofNat_of_lt' ((lt_of_lt_of_le hlt hle).trans (by decide))

/-- Every service keeps its own entry. For every configuration as the validator leaves it, loaded by
    a reload that gets past its flip: the key of the service `i` has an entry with the index `i`,
    for every `i`, exactly if no two services have the same address, port and protocol. -/
theorem own_entries_iff (hvalid : config.validate = (config', none))
    (hpub : d.publish env config' = .ok d₁) :
    config'.OwnEntries env (Outcome.dataplane (d.reloadConfig env config')).maps ↔
      config'.DistinctTargets env := by
  have hn := BaseConfig.normal_of_validate hvalid
  obtain ⟨hload, -, -, ⟨buffer, hpublished⟩, -⟩ := Dataplane.publish_eq_ok hpub
  constructor
  · exact fun h => h.distinctTargets hn
  · intro hd i service hi
    have hbuffers : SameBuffers d₁.maps _ := KeepsBuffers.reloadConfig hpub
    obtain ⟨key, info, hkey, hlookup, hidx, -⟩ :=
      (hpublished.congr hbuffers).own_entry hn hload hd hi
    exact ⟨key, info, hkey, hlookup, hidx⟩

theorem demoConfig_valid : demoConfig.validate = (demoConfig, none) := by decide +kernel

theorem own_entries_demo : demoConfig.OwnEntries demoEnv
    (Outcome.dataplane ((Dataplane.fresh 1).reloadConfig demoEnv demoConfig)).maps :=
  (own_entries_iff demoConfig_valid (demoDataplane_published (by decide +kernel))).2 (by decide +kernel)

/-- Two services with one target. -/
def demoTwins : BaseConfig where
  services := [demoService "10.0.0.1" .rr ["10.0.1.1"],
    { demoService "10.0.0.1" .rr ["10.0.1.2"] with name := "twin" }]

/-- The validator accepts them; the first one finds the entry of the second. -/
theorem twin_shadowed : demoTwins.validate = (demoTwins, none) ∧
    ((Dataplane.fresh 1).publish demoEnv demoTwins).isOk ∧
    ¬demoTwins.OwnEntries demoEnv
      (Outcome.dataplane ((Dataplane.fresh 1).reloadConfig demoEnv demoTwins)).maps := by
  have hvalid : demoTwins.validate = (demoTwins, none) := by decide +kernel
  refine ⟨hvalid, by decide +kernel, fun h => ?_⟩
  exact absurd (h.distinctTargets (BaseConfig.normal_of_validate hvalid)) (by decide)

/-! ## Resolved reals -/

/-- The reals of a service whose MAC is resolved. -/
def BalancerService.resolved (env : Env) (service : BalancerService) : List BalancerReal :=
  service.reals.filter fun real => (env.macLookup real.ipVersion real.ip).isSome

/-- Every service is present, with exactly the reals whose MAC is resolved. -/
def BaseConfig.ServesResolved (env : Env) (config : BaseConfig) (m : Maps cpus) : Prop :=
  ∀ (i : ℕ) (service : BalancerService), config.services[i]? = some service →
    ∃ key info, service.prepareKey env = .ok key ∧ m.activeServices.lookup key = some info ∧
      info.serviceIdx.toNat = i ∧ info.backendCount.toNat = (service.resolved env).length ∧
      ∀ (k : ℕ) (real : BalancerReal), (service.resolved env)[k]? = some real →
        ∃ b, m.activeBackends.lookup (info.backendStartIdx.toNat + k) = some b ∧
          Translation env service real b

/-- Every address of the configuration converts, and every real has a MAC. -/
def BaseConfig.Resolves (env : Env) (config : BaseConfig) : Prop :=
  ∀ service ∈ config.services, (env.address service.ipVersion service.vip).isSome ∧
    ∀ real ∈ service.reals, (env.address real.ipVersion real.ip).isSome ∧
      (env.macLookup real.ipVersion real.ip).isSome

instance : Decidable (config.Resolves env) := inferInstanceAs (Decidable (∀ _ ∈ _, _ ∧ ∀ _ ∈ _, _))

theorem BalancerService.loadReals_eq_none (service : BalancerService) (k : ℕ)
    (reals : List BalancerReal) : (service.loadReals env k reals).2 = none ↔ ∀ real ∈ reals,
      (env.address real.ipVersion real.ip).isSome ∧ (env.macLookup real.ipVersion real.ip).isSome := by
  induction reals generalizing k with
  | nil => simp [loadReals]
  | cons real reals ih =>
    rw [loadReals, List.forall_mem_cons, ← ih (k + 1), prepareReal]
    cases env.address real.ipVersion real.ip with
    | none => simp
    | some ip => cases env.macLookup real.ipVersion real.ip <;> simp

theorem loadServices_eq_none (currentBackendIdx serviceIdx : ℕ) (services : List BalancerService) :
    (loadServices env currentBackendIdx serviceIdx services).2 = none ↔ ∀ service ∈ services,
      (env.address service.ipVersion service.vip).isSome ∧ ∀ real ∈ service.reals,
        (env.address real.ipVersion real.ip).isSome ∧
          (env.macLookup real.ipVersion real.ip).isSome := by
  induction services generalizing currentBackendIdx serviceIdx with
  | nil => simp [loadServices]
  | cons service services ih =>
    rw [loadServices, List.forall_mem_cons, BalancerService.prepareKey]
    cases env.address service.ipVersion service.vip with
    | none => simp
    | some vip =>
      rw [← service.loadReals_eq_none currentBackendIdx]
      rcases service.loadReals env currentBackendIdx service.reals with ⟨backends, _ | e⟩
      · dsimp only
        rw [ih]
        simp
      · simp

/-- The loops find no error exactly if everything resolves. -/
theorem BaseConfig.load_eq_none : (config.load env).2 = none ↔ config.Resolves env := by
  rw [load, loadServices_eq_none, Resolves]

theorem BaseConfig.Resolves.resolved_eq (h : config.Resolves env) (hs : service ∈ config.services) :
    service.resolved env = service.reals :=
  List.filter_eq_self.2 fun real hreal => ((h service hs).2 real hreal).2

/-- A reload that finds no error in the configuration flips if its writes succeed. -/
theorem Dataplane.publish_of_writes (hload : config.load env = (xdp, none))
    (hw : (runWrites d.maps (xdp.publishWrites (1 - d.currentIndex))).2 = true) :
    ∃ d₁, d.publish env config = .ok d₁ := by
  obtain ⟨m₂, h, h₃⟩ := runWrites_append.1 (Prod.ext (y := (_, true)) rfl hw)
  obtain ⟨m₁, h₁, h₂⟩ := runWrites_append.1 h
  obtain ⟨d₀, hm, -, -, -, hpub⟩ := publish_eq hload d
  have hw₁ : d₀.write (xdp.backendWrites (1 - d.currentIndex)) backendsError =
    .ok { d₀ with maps := m₁ } := write_eq_ok.2 ⟨m₁, by rwa [hm], rfl⟩
  have hw₂ : Dataplane.write { d₀ with maps := m₁ } (xdp.serviceWrites (1 - d.currentIndex))
    servicesError = .ok { d₀ with maps := m₂ } := write_eq_ok.2 ⟨m₂, h₂, rfl⟩
  rw [hpub, hw₁, ok_bind, hw₂, ok_bind]
  exact ⟨_, write_eq_ok.2 ⟨_, h₃, rfl⟩⟩

/-- An unreachable real does not block the rest. For every configuration as the validator leaves it
    and every set of reals without a MAC, the writes up to the flip succeeding if the reload gets to
    them: it flips to a set in which every service is present, with exactly the reals that have a
    MAC, exactly if every address converts, every real has a MAC, and no two services have the same
    target. -/
theorem serves_resolved_iff (hvalid : config.validate = (config', none))
    (hwrites : ∀ xdp, config'.load env = (xdp, none) →
      (runWrites d.maps (xdp.publishWrites (1 - d.currentIndex))).2 = true) :
    (∃ d₁, d.publish env config' = .ok d₁ ∧ config'.ServesResolved env d₁.maps) ↔
      config'.Resolves env ∧ config'.DistinctTargets env := by
  have hn := BaseConfig.normal_of_validate hvalid
  constructor
  · rintro ⟨d₁, hpub, hserves⟩
    obtain ⟨hload, -⟩ := Dataplane.publish_eq_ok hpub
    refine ⟨BaseConfig.load_eq_none.1 (congrArg Prod.snd hload), ?_⟩
    refine BaseConfig.OwnEntries.distinctTargets (m := d₁.maps) hn fun i service hi => ?_
    obtain ⟨key, info, hkey, hlookup, hidx, -⟩ := hserves i service hi
    exact ⟨key, info, hkey, hlookup, hidx⟩
  · rintro ⟨hresolves, hd⟩
    have hload : config'.load env = ((config'.load env).1, none) :=
      Prod.ext rfl (BaseConfig.load_eq_none.2 hresolves)
    obtain ⟨d₁, hpub⟩ := Dataplane.publish_of_writes hload (hwrites _ hload)
    obtain ⟨hload₁, -, -, ⟨buffer, hpublished⟩, -⟩ := Dataplane.publish_eq_ok hpub
    refine ⟨d₁, hpub, fun i service hi => ?_⟩
    obtain ⟨key, info, hkey, hlookup, hidx, he⟩ := hpublished.own_entry hn hload₁ hd hi
    rw [hresolves.resolved_eq (List.mem_of_getElem? hi)]
    refine ⟨key, info, hkey, hlookup, hidx, he.backendCount, fun k real hk => ?_⟩
    obtain ⟨b, hb, hbk⟩ := he.reals k real hk
    exact ⟨b, hbk, hb⟩

theorem serves_resolved_demo : ∃ d₁, (Dataplane.fresh 1).publish demoEnv demoConfig = .ok d₁ ∧
    demoConfig.ServesResolved demoEnv d₁.maps :=
  (serves_resolved_iff demoConfig_valid (fun xdp h => by
    obtain rfl : _ = xdp := congrArg Prod.fst h
    decide +kernel)).2 (by decide +kernel)

/-- A service with a real that is disabled and has no MAC. -/
def demoUnreachable : BaseConfig where
  services := [{ demoService "10.0.0.1" .rr ["10.0.1.1"] with
    reals := [{ ip := "10.0.1.1", enabled := true, port := 80 },
      { ip := "10.0.0.3", enabled := false, port := 80 }] }]

/-- Its reload does not get to the flip, although there are no writes that fail. -/
theorem unreachable_blocks : demoUnreachable.validate = (demoUnreachable, none) ∧
    (∀ xdp, demoUnreachable.load demoEnv = (xdp, none) → (runWrites (Maps.fresh 1)
      (xdp.publishWrites (1 - (Dataplane.fresh 1).currentIndex))).2 = true) ∧
    ¬∃ d₁, (Dataplane.fresh 1).publish demoEnv demoUnreachable = .ok d₁ ∧
      demoUnreachable.ServesResolved demoEnv d₁.maps := by
  have herror : (demoUnreachable.load demoEnv).2 ≠ none := by decide
  refine ⟨by decide +kernel, fun xdp h => absurd (congrArg Prod.snd h) herror, ?_⟩
  rintro ⟨d₁, hpub, -⟩
  exact herror (congrArg Prod.snd (Dataplane.publish_eq_ok hpub).1)

end L4Balancer
