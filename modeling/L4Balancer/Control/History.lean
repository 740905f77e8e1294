import L4Balancer.Control.Phase

/-!
# What a reload publishes

After the flip, the active buffer holds the translation of the configuration
(`Published.entry`): under the key of a service the entry of the last service with
this key, and from its start on the backends of its reals in order. If the keys are
distinct, each service has its own entry (`Translates`), over every history of
reloads (`translates_of_history`).

The services map, however, is only ever added to. A buffer is used by every second
reload and keeps the keys of the earlier ones, so that a service that the last
configuration does not have is still matched (`no_stale_services_iff`).
-/

namespace L4Balancer

open Bpf

variable {cpus : ℕ} {env : Env} {config : BaseConfig} {xdp : XdpConfig} {m₀ m : Maps cpus}

/-! ## The entry of a service -/

/-- The entry of the service `i`, and the backends of its reals in the active backends map. -/
structure Entry (env : Env) (config : BaseConfig) (m : Maps cpus) (i : ℕ)
    (service : BalancerService) (info : ServiceInfo) : Prop where
  serviceIdx : info.serviceIdx = .ofNat i
  backendCount : info.backendCount.toNat = service.reals.length
  backendStartIdx : info.backendStartIdx.toNat = config.start i
  algorithm : info.algorithm = service.type.toUInt8
  reals : ∀ (k : ℕ) (real : BalancerReal), service.reals[k]? = some real →
    ∃ b, Translation env service real b ∧
      m.activeBackends.lookup (info.backendStartIdx.toNat + k) = some b

theorem Published.activeBackends {buffer : Fin 2} (h : Published xdp buffer m₀ m) :
    (m₀.backendsAt buffer).updateFrom 0 xdp.backends = some m.activeBackends := by
  rw [Maps.activeBackends, h.active, h.backends]

theorem Published.activeServices {buffer : Fin 2} (h : Published xdp buffer m₀ m) :
    (m₀.servicesAt buffer).updateAll (xdp.keys.zip xdp.services) = some m.activeServices := by
  rw [Maps.activeServices, h.active, h.services]

/-- The backends of the active map, as far as the configuration goes. -/
theorem Published.lookup_backends {buffer : Fin 2} (h : Published xdp buffer m₀ m) {j : ℕ}
    {b : Backend} (hj : xdp.backends[j]? = some b) : m.activeBackends.lookup j = some b := by
  have hlt := (List.getElem?_eq_some_iff.1 hj).1
  rw [ArrayMap.lookup_updateFrom h.activeBackends, if_pos ⟨Nat.zero_le j, by omega⟩, Nat.sub_zero,
    hj]

theorem Published.length_backends_le {buffer : Fin 2} (h : Published xdp buffer m₀ m) :
    xdp.backends.length ≤ 1024 := by
  have := ArrayMap.length_le_of_updateFrom h.activeBackends (Nat.zero_le 1024)
  omega

/-- The entry of the service `i` among the vectors. -/
theorem Published.entry_of_placed {buffer : Fin 2} (hload : config.load env = (xdp, none))
    (h : Published xdp buffer m₀ m) {i : ℕ} {service : BalancerService}
    (hi : config.services[i]? = some service) {info : ServiceInfo}
    (hinfo : xdp.services[i]? = some info) : Entry env config m i service info := by
  obtain ⟨-, hinfo', hreals⟩ := BaseConfig.load_placed hload hi
  obtain rfl := Option.some.inj (hinfo.symm.trans hinfo')
  have hlen := (BaseConfig.load_length hload).2.2
  have hend := config.start_mono (List.getElem?_eq_some_iff.1 hi).1
  rw [Nat.succ_eq_add_one, BaseConfig.start_succ hi, ← hlen] at hend
  have hle := h.length_backends_le
  have hstart : (UInt32.ofNat (config.start i)).toNat = config.start i :=
    UInt32.toNat_ofNat_of_lt' (lt_of_le_of_lt (by omega : config.start i ≤ 1024) (by decide))
  refine ⟨rfl, ?_, hstart, rfl, fun k real hk => ?_⟩
  · exact UInt32.toNat_ofNat_of_lt' (lt_of_le_of_lt (by omega : _ ≤ 1024) (by decide))
  · obtain ⟨b, hb, hbk⟩ := hreals k real hk
    dsimp only
    rw [hstart]
    exact ⟨b, hb, h.lookup_backends hbk⟩

theorem mem_zip_iff {keys : List ServiceKey} {infos : List ServiceInfo} {key : ServiceKey}
    {info : ServiceInfo} (h : (key, info) ∈ keys.zip infos) :
    ∃ i : ℕ, keys[i]? = some key ∧ infos[i]? = some info := by
  obtain ⟨i, hi⟩ := List.mem_iff_getElem?.1 h
  rw [List.getElem?_zip_eq_some] at hi
  exact ⟨i, hi⟩

theorem map_fst_zip_keys (hload : config.load env = (xdp, none)) :
    (xdp.keys.zip xdp.services).map Prod.fst = xdp.keys := by
  have := BaseConfig.load_length hload
  exact List.map_fst_zip (by omega)

/-- A key of the configuration has the entry of a service with this key. -/
theorem Published.entry {buffer : Fin 2} (hload : config.load env = (xdp, none))
    (h : Published xdp buffer m₀ m) {key : ServiceKey} (hk : key ∈ xdp.keys) :
    ∃ i service info, config.services[i]? = some service ∧ service.prepareKey env = .ok key ∧
      m.activeServices.lookup key = some info ∧ Entry env config m i service info := by
  rw [← map_fst_zip_keys hload] at hk
  obtain ⟨info, hmem, hlookup⟩ := HashMap.exists_of_updateAll h.activeServices hk
  obtain ⟨i, hkey, hinfo⟩ := mem_zip_iff hmem
  have hlt : i < config.services.length := by
    rw [← (BaseConfig.load_length hload).1]
    exact (List.getElem?_eq_some_iff.1 hkey).1
  have hi : config.services[i]? = some config.services[i] := List.getElem?_eq_getElem hlt
  obtain ⟨⟨key', hprep, hkey'⟩, -, -⟩ := BaseConfig.load_placed hload hi
  obtain rfl := Option.some.inj (hkey.symm.trans hkey')
  exact ⟨i, _, info, hi, hprep, hlookup, h.entry_of_placed hload hi hinfo⟩

/-! ## Histories -/

/-- The runs in which every `ReloadConfig` gets past its flip, with the configurations that were
    loaded. The active buffer changes exactly by a flip. -/
inductive History (cpus : ℕ) : List (Env × BaseConfig) → Process cpus → Prop
  | fresh : History cpus [] (.fresh cpus)
  | packet {hist : List (Env × BaseConfig)} {p : Process cpus} (c : Call cpus) :
      History cpus hist p → History cpus hist ((reloader cpus).next (.packet c) p)
  | reload {hist : List (Env × BaseConfig)} {p : Process cpus} {env : Env} {config : BaseConfig}
      {es : List (Event cpus)} : History cpus hist p → p.tasks = [] →
      (∀ e ∈ es, e.isReload = false) →
      ((reloader cpus).exec p (.reload env config :: es)).maps.activeBuffer ≠ p.maps.activeBuffer →
      History cpus (hist ++ [(env, config)]) ((reloader cpus).exec p (.reload env config :: es))

namespace History

variable {hist : List (Env × BaseConfig)} {p : Process cpus}

theorem activeBuffer_of_isFirstRun (h : History cpus hist p) (hf : p.dataplane.isFirstRun) :
    p.maps.activeBuffer = 0 := by
  induction h with
  | fresh => rfl
  | packet c _ ih =>
    exact (Maps.activeBuffer_congr (tables_finder c _)).trans (ih hf)
  | reload _ hidle hes _ ih =>
    exact ((Phase.begin _ _ hidle ih).run hes).activeBuffer_of_isFirstRun hf

/-- A reload publishes its configuration. -/
theorem published_of_reload {es : List (Event cpus)} (h : History cpus hist p)
    (hidle : p.tasks = []) (hes : ∀ e ∈ es, e.isReload = false)
    (hflip : ((reloader cpus).exec p (.reload env config :: es)).maps.activeBuffer ≠
      p.maps.activeBuffer) :
    ∃ xdp, config.load env = (xdp, none) ∧ Published xdp p.maps.target p.maps
      ((reloader cpus).exec p (.reload env config :: es)).maps := by
  have hphase := (Phase.begin env config hidle h.activeBuffer_of_isFirstRun).run hes
  exact hphase.spares_or_published.resolve_left fun hs => hflip hs.active

/-- The last configuration is published. -/
theorem published (h : History cpus (hist ++ [(env, config)]) p) :
    ∃ xdp buffer m₀, config.load env = (xdp, none) ∧ Published xdp buffer m₀ p.maps := by
  generalize hh : hist ++ [(env, config)] = hist' at h
  induction h with
  | fresh => simp at hh
  | packet c _ ih =>
    obtain ⟨xdp, buffer, m₀, hload, hpub⟩ := ih hh
    exact ⟨xdp, buffer, m₀, hload, hpub.congr (.of_tables (tables_finder c _))⟩
  | reload h hidle hes hflip _ =>
    obtain ⟨-, hlast⟩ := List.append_inj' hh rfl
    obtain ⟨rfl, rfl⟩ := Prod.mk.inj (List.singleton_inj.1 hlast)
    obtain ⟨xdp, hload, hpub⟩ := h.published_of_reload hidle hes hflip
    exact ⟨xdp, _, _, hload, hpub⟩

end History

/-! ## Translation -/

/-- The active maps are the translation of a configuration. -/
structure Translates (env : Env) (config : BaseConfig) (m : Maps cpus) : Prop where
  entry : ∀ (i : ℕ) (service : BalancerService), config.services[i]? = some service →
    ∃ key info, service.prepareKey env = .ok key ∧ m.activeServices.lookup key = some info ∧
      info.serviceIdx.toNat = i ∧ info.backendCount.toNat = service.reals.length ∧
      ∀ (k : ℕ) (real : BalancerReal), service.reals[k]? = some real →
        ∃ b, m.activeBackends.lookup (info.backendStartIdx.toNat + k) = some b ∧
          Translation env service real b
  disjoint : ∀ (i j : ℕ) (service service' : BalancerService) (key key' : ServiceKey)
    (info info' : ServiceInfo), i < j →
    config.services[i]? = some service → config.services[j]? = some service' →
    service.prepareKey env = .ok key → service'.prepareKey env = .ok key' →
    m.activeServices.lookup key = some info → m.activeServices.lookup key' = some info' →
    info.backendStartIdx.toNat + info.backendCount.toNat ≤ info'.backendStartIdx.toNat

/-- With distinct keys, the entry of a key is that of the one service that has it. -/
theorem Published.entry_of_nodup {buffer : Fin 2} (hload : config.load env = (xdp, none))
    (h : Published xdp buffer m₀ m)
    (hn : (config.services.map fun service => service.prepareKey env).Nodup) {i : ℕ}
    {service : BalancerService} (hi : config.services[i]? = some service) :
    ∃ key info, service.prepareKey env = .ok key ∧ m.activeServices.lookup key = some info ∧
      Entry env config m i service info := by
  obtain ⟨⟨key, hprep, hkey⟩, -, -⟩ := BaseConfig.load_placed hload hi
  obtain ⟨j, service', info, hj, hprep', hlookup, hentry⟩ :=
    h.entry hload (List.mem_iff_getElem?.2 ⟨i, hkey⟩)
  have hij : (config.services.map fun service => service.prepareKey env)[i]? =
      (config.services.map fun service => service.prepareKey env)[j]? := by
    rw [List.getElem?_map, List.getElem?_map, hi, hj, Option.map_some, Option.map_some, hprep,
      hprep']
  have hlt : i < (config.services.map fun service => service.prepareKey env).length := by
    rw [List.length_map]
    exact (List.getElem?_eq_some_iff.1 hi).1
  obtain rfl := (List.getElem?_inj hlt hn).1 hij
  obtain rfl := Option.some.inj (hi.symm.trans hj)
  exact ⟨key, info, hprep, hlookup, hentry⟩

/-- With distinct keys there are at most as many services as the services map holds. -/
theorem Published.length_services_le {buffer : Fin 2} (hload : config.load env = (xdp, none))
    (h : Published xdp buffer m₀ m)
    (hn : (config.services.map fun service => service.prepareKey env).Nodup) :
    config.services.length ≤ 256 := by
  have hkeys : xdp.keys.map Except.ok = config.services.map fun service => service.prepareKey env := by
    refine List.ext_getElem? fun i => ?_
    rw [List.getElem?_map, List.getElem?_map]
    cases hi : config.services[i]? with
    | none =>
      have hlen := (BaseConfig.load_length hload).1
      rw [List.getElem?_eq_none_iff] at hi
      rw [List.getElem?_eq_none_iff.2 (by omega)]
      rfl
    | some service =>
      obtain ⟨⟨key, hprep, hkey⟩, -, -⟩ := BaseConfig.load_placed hload hi
      rw [hkey, Option.map_some, Option.map_some, hprep]
  rw [← hkeys] at hn
  have hle := HashMap.length_le_of_updateAll h.activeServices
    (by rw [map_fst_zip_keys hload]; exact hn.of_map _)
  have hlen := BaseConfig.load_length hload
  rw [List.length_zip] at hle
  omega

/-- Configuration translation. After any sequence of reloads that get past their flips, the active
    maps are the translation of the last configuration, if the keys of its services are distinct.
    This takes `atomic_index` to be read and written as the number `0` or `1`. -/
theorem translates_of_history {hist : List (Env × BaseConfig)} {p : Process cpus}
    (h : History cpus (hist ++ [(env, config)]) p)
    (hn : (config.services.map fun service => service.prepareKey env).Nodup) :
    Translates env config p.maps := by
  obtain ⟨xdp, buffer, m₀, hload, hpub⟩ := h.published
  have hentry : ∀ i service, config.services[i]? = some service → _ :=
    fun _ _ => hpub.entry_of_nodup hload hn
  constructor
  · intro i service hi
    obtain ⟨key, info, hprep, hlookup, he⟩ := hentry i service hi
    have hlt := (List.getElem?_eq_some_iff.1 hi).1
    have hle := hpub.length_services_le hload hn
    refine ⟨key, info, hprep, hlookup, ?_, he.backendCount, fun k real hk => ?_⟩
    · rw [he.serviceIdx]
      exact UInt32.toNat_ofNat_of_lt' ((lt_of_lt_of_le hlt hle).trans (by decide))
    · obtain ⟨b, hb, hbk⟩ := he.reals k real hk
      exact ⟨b, hbk, hb⟩
  · intro i j service service' key key' info info' hij hi hj hkey hkey' hinfo hinfo'
    obtain ⟨k, inf, hk, hinf, he⟩ := hentry i service hi
    obtain ⟨k', inf', hk', hinf', he'⟩ := hentry j service' hj
    obtain rfl := Except.ok.inj (hk.symm.trans hkey)
    obtain rfl := Except.ok.inj (hk'.symm.trans hkey')
    obtain rfl := Option.some.inj (hinf.symm.trans hinfo)
    obtain rfl := Option.some.inj (hinf'.symm.trans hinfo')
    rw [he.backendStartIdx, he.backendCount, he'.backendStartIdx]
    exact BaseConfig.start_add_le hi hij

/-- A process that has loaded configurations one after the other, without packets. -/
def demoProcess (configs : List BaseConfig) : Process 1 :=
  configs.foldl (fun p config => (reloader 1).exec p
    (.reload demoEnv config :: List.replicate 24 (.task none))) (.fresh 1)

def demoConfig : BaseConfig where
  services := [demoService "10.0.0.1" .rr ["10.0.1.1", "10.0.1.2"],
    demoService "10.0.0.2" .wrr ["10.0.1.2"]]

theorem History.demo {hist : List (Env × BaseConfig)} (configs : List BaseConfig)
    (config : BaseConfig) (h : History 1 hist (demoProcess configs))
    (hidle : (demoProcess configs).tasks = [])
    (hflip : (demoProcess (configs ++ [config])).maps.activeBuffer ≠
      (demoProcess configs).maps.activeBuffer) :
    History 1 (hist ++ [(demoEnv, config)]) (demoProcess (configs ++ [config])) := by
  have hp : demoProcess (configs ++ [config]) = (reloader 1).exec (demoProcess configs)
      (.reload demoEnv config :: List.replicate 24 (.task none)) := by
    rw [demoProcess, List.foldl_append]
    rfl
  rw [hp] at hflip ⊢
  refine .reload h hidle (fun e he => ?_) hflip
  rw [List.eq_of_mem_replicate he]
  rfl

theorem translates_of_history_demo :
    Translates demoEnv demoConfig (demoProcess [demoConfig]).maps :=
  have h : History 1 ([] ++ [(demoEnv, demoConfig)]) (demoProcess [demoConfig]) :=
    .demo [] demoConfig .fresh rfl (by decide +kernel)
  translates_of_history h (by decide)

/-! ## Stale services -/

/-- The keys of the services of a configuration. -/
def BaseConfig.keys (env : Env) (config : BaseConfig) : List ServiceKey :=
  config.services.filterMap fun service => (service.prepareKey env).toOption

theorem BaseConfig.mem_keys {key : ServiceKey} : key ∈ config.keys env ↔
    ∃ service ∈ config.services, service.prepareKey env = .ok key := by
  rw [keys, List.mem_filterMap]
  refine exists_congr fun service => and_congr_right fun _ => ?_
  cases service.prepareKey env <;> simp [Except.toOption]

theorem BaseConfig.mem_load_keys (hload : config.load env = (xdp, none)) {key : ServiceKey} :
    key ∈ xdp.keys ↔ key ∈ config.keys env := by
  rw [mem_keys]
  constructor
  · intro hk
    obtain ⟨i, hi⟩ := List.mem_iff_getElem?.1 hk
    have hlt : i < config.services.length := by
      rw [← (load_length hload).1]
      exact (List.getElem?_eq_some_iff.1 hi).1
    obtain ⟨⟨key', hprep, hkey⟩, -, -⟩ := load_placed hload (List.getElem?_eq_getElem hlt)
    obtain rfl := Option.some.inj (hi.symm.trans hkey)
    exact ⟨_, List.getElem_mem hlt, hprep⟩
  · rintro ⟨service, hs, hprep⟩
    obtain ⟨i, hi⟩ := List.mem_iff_getElem?.1 hs
    obtain ⟨⟨key', hprep', hkey⟩, -, -⟩ := load_placed hload hi
    obtain rfl := Except.ok.inj (hprep.symm.trans hprep')
    exact List.mem_iff_getElem?.2 ⟨i, hkey⟩

theorem Published.mem_keys {buffer : Fin 2} (hload : config.load env = (xdp, none))
    (h : Published xdp buffer m₀ m) {key : ServiceKey} :
    key ∈ m.activeServices.keys ↔ key ∈ config.keys env ∨ key ∈ (m₀.servicesAt buffer).keys := by
  rw [HashMap.mem_keys_updateAll h.activeServices, map_fst_zip_keys hload,
    BaseConfig.mem_load_keys hload]

/-- Some configuration of the list, at an even or at an odd position, has the key. -/
def KeyAt (parity : ℕ → Prop) (hist : List (Env × BaseConfig)) (key : ServiceKey) : Prop :=
  ∃ (j : ℕ) (l : Env × BaseConfig), hist[j]? = some l ∧ parity j ∧ key ∈ l.2.keys l.1

theorem keyAt_even_cons {l : Env × BaseConfig} {hist : List (Env × BaseConfig)} {key : ServiceKey} :
    KeyAt Even (l :: hist) key ↔ key ∈ l.2.keys l.1 ∨ KeyAt Odd hist key := by
  constructor
  · rintro ⟨_ | j, l', hl, hj, hk⟩
    · obtain rfl := Option.some.inj hl
      exact .inl hk
    · exact .inr ⟨j, l', hl, Nat.not_even_iff_odd.1 (Nat.even_add_one.1 hj), hk⟩
  · rintro (hk | ⟨j, l', hl, hj, hk⟩)
    · exact ⟨0, l, rfl, Even.zero, hk⟩
    · exact ⟨j + 1, l', hl, hj.add_one, hk⟩

theorem keyAt_odd_cons {l : Env × BaseConfig} {hist : List (Env × BaseConfig)} {key : ServiceKey} :
    KeyAt Odd (l :: hist) key ↔ KeyAt Even hist key := by
  constructor
  · rintro ⟨_ | j, l', hl, hj, hk⟩
    · exact absurd hj (by decide)
    · exact ⟨j, l', hl, Nat.not_odd_iff_even.1 fun h => Nat.not_even_iff_odd.2 hj h.add_one, hk⟩
  · rintro ⟨j, l', hl, hj, hk⟩
    exact ⟨j + 1, l', hl, hj.add_one, hk⟩

/-- The keys of both buffers: those of the configurations loaded an even number of reloads ago, and
    those of the others. -/
theorem History.keys {hist : List (Env × BaseConfig)} {p : Process cpus}
    (h : History cpus hist p) (key : ServiceKey) :
    (key ∈ p.maps.activeServices.keys ↔ KeyAt Even hist.reverse key) ∧
      (key ∈ (p.maps.servicesAt p.maps.target).keys ↔ KeyAt Odd hist.reverse key) := by
  induction h with
  | fresh => exact ⟨by simp [KeyAt, HashMap.mem_keys]; rfl, by simp [KeyAt, HashMap.mem_keys]; rfl⟩
  | @packet hist p c _ ih =>
    have hs : SameBuffers p.maps ((reloader cpus).next (.packet c) p).maps :=
      .of_tables (tables_finder c p.maps)
    rwa [hs.activeServices, Maps.target, hs.activeBuffer, hs.services]
  | @reload hist p env config es h hidle hes hflip ih =>
    obtain ⟨xdp, hload, hpub⟩ := h.published_of_reload hidle hes hflip
    have hother : (((reloader cpus).exec p (.reload env config :: es)).maps.servicesAt
        ((reloader cpus).exec p (.reload env config :: es)).maps.target) =
        p.maps.activeServices := by
      have htarget : (1 - p.maps.target : Fin 2) = p.maps.activeBuffer := by
        rw [Maps.target]
        exact sub_sub_cancel 1 _
      rw [Maps.target, hpub.active, htarget, hpub.services_ne _ p.maps.activeBuffer_ne_target]
      rfl
    rw [hpub.mem_keys hload, hother, ih.1, ih.2, List.reverse_append, List.reverse_singleton,
      List.singleton_append, keyAt_even_cons, keyAt_odd_cons]
    exact ⟨Iff.rfl, Iff.rfl⟩

/-- Stale services. The active services map has exactly the keys of the last configuration if and
    only if this has the keys of all the configurations that were loaded two reloads, four reloads
    and so on before it. -/
theorem no_stale_services_iff {hist : List (Env × BaseConfig)} {l : Env × BaseConfig}
    {p : Process cpus} (h : History cpus (hist ++ [l]) p) :
    (∀ key, key ∈ p.maps.activeServices.keys ↔ key ∈ l.2.keys l.1) ↔
      ∀ (j : ℕ) (l' : Env × BaseConfig), hist.reverse[j]? = some l' → Odd j →
        l'.2.keys l'.1 ⊆ l.2.keys l.1 := by
  have hkeys : ∀ key, key ∈ p.maps.activeServices.keys ↔
      key ∈ l.2.keys l.1 ∨ KeyAt Odd hist.reverse key := fun key => by
    rw [(h.keys key).1, List.reverse_append, List.reverse_singleton, List.singleton_append,
      keyAt_even_cons]
  constructor
  · intro hall j l' hl' hj key hk
    exact (hall key).1 ((hkeys key).2 (.inr ⟨j, l', hl', hj, hk⟩))
  · intro hall key
    rw [hkeys, or_iff_left_iff_imp]
    rintro ⟨j, l', hl', hj, hk⟩
    exact hall j l' hl' hj hk

/-- The same services twice. -/
theorem no_stale_services_demo :
    (demoProcess [demoConfig, demoConfig]).maps.activeServices.keys ⊆ demoConfig.keys demoEnv :=
  have h : History 1 ([(demoEnv, demoConfig)] ++ [(demoEnv, demoConfig)])
      (demoProcess [demoConfig, demoConfig]) :=
    .demo [demoConfig] demoConfig (.demo [] demoConfig .fresh rfl (by decide +kernel))
      (by decide +kernel) (by decide +kernel)
  fun key hk => ((no_stale_services_iff h).2 (fun j l hl _ => by
    obtain ⟨-, rfl⟩ := List.mem_singleton.1 (List.mem_of_getElem? hl)
    exact List.Subset.refl _) key).1 hk

/-- A configuration without the services of `demoConfig`. -/
def demoConfig' : BaseConfig where
  services := [demoService "10.0.0.3" .rr ["10.0.1.1"]]

/-- Two reloads after the services were taken out, they are matched again. -/
theorem stale_service : ∃ p key,
    History 1 [(demoEnv, demoConfig), (demoEnv, demoConfig'), (demoEnv, demoConfig')] p ∧
      key ∈ p.maps.activeServices.keys ∧ key ∉ demoConfig'.keys demoEnv := by
  refine ⟨demoProcess [demoConfig, demoConfig', demoConfig'],
    ⟨.ofIpv4 0x0100000a, 80, IPPROTO_TCP, 4⟩, ?_, by decide +kernel, by decide⟩
  have h₁ : History 1 [(demoEnv, demoConfig)] (demoProcess [demoConfig]) :=
    .demo [] demoConfig .fresh rfl (by decide +kernel)
  have h₂ : History 1 [(demoEnv, demoConfig), (demoEnv, demoConfig')]
      (demoProcess [demoConfig, demoConfig']) :=
    .demo [demoConfig] demoConfig' h₁ (by decide +kernel) (by decide +kernel)
  exact .demo [demoConfig, demoConfig'] demoConfig' h₂ (by decide +kernel) (by decide +kernel)

end L4Balancer
