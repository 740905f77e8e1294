import L4Balancer.Control.Distinct

/-!
# What a reload resets

After its flip a reload empties the sessions and the cursors of weighted round robin, and
sets the cursors of round robin and the counters to zero. The counters are entries of
per-CPU arrays. Those of the backends are reset by their indices. Those of the services are
reset by the keys of the services, of which the array takes the first four bytes as the
index: these are the first four of the VIP (`ServiceKey.statsIndex`).

So a reload ends without an error only if these numbers are less than 256, and the counters
it resets are those at these numbers (`reload_resets_iff`).
-/

namespace L4Balancer

open Bpf

variable {cpus : ℕ} {env : Env} {config : BaseConfig} {m m' m₁ m₂ : Maps cpus}
  {d d' : Dataplane cpus} {xdp : XdpConfig}

/-! ## Batches -/

/-- A batch of writes that set the copies of all CPUs to zero. -/
theorem runWrites_fillAll {α : Type*} {n : ℕ} (write : α → Write) (index : α → ℕ)
    (get : Maps cpus → PerCpuArray PacketsData cpus n)
    (set : Maps cpus → PerCpuArray PacketsData cpus n → Maps cpus)
    (hrun : ∀ m a, (write a).run m =
      ((get m).updateAllCpus (index a) fun _ => .zero).map (set m))
    (hget : ∀ m a, get (set m a) = a) (hset : ∀ m a a', set (set m a) a' = set m a')
    (hself : ∀ m, set m (get m) = m) (as : List α) :
    runWrites m (as.map write) = (m', true) ↔
      ∃ a, (get m).fillAll .zero (as.map index) = some a ∧ m' = set m a := by
  induction as generalizing m with
  | nil => simp [runWrites, PerCpuArray.fillAll, hself, eq_comm]
  | cons v as ih =>
    rw [List.map_cons, runWrites_cons, hrun, List.map_cons, PerCpuArray.fillAll]
    cases (get m).updateAllCpus (index v) fun _ => .zero with
    | none => simp
    | some a₁ => simp [ih, hget, hset]

/-- The index under which the counters of a service are reset: the first four bytes of its key. -/
def ServiceKey.statsIndex (key : ServiceKey) : ℕ := key.vip.ipv4.toNat

theorem runWrites_backendStats (is : List ℕ) :
    runWrites m (is.map .backendStats) = (m', true) ↔
      ∃ a, m.backendsPacketsStats.fillAll .zero is = some a ∧
        m' = { m with backendsPacketsStats := a } := by
  have h : runWrites m (is.map .backendStats) = (m', true) ↔ _ :=
    runWrites_fillAll .backendStats id (·.backendsPacketsStats)
      (fun m a => { m with backendsPacketsStats := a }) (fun _ _ => rfl) (fun _ _ => rfl)
      (fun _ _ _ => rfl) (fun _ => rfl) is
  rwa [List.map_id] at h

theorem runWrites_serviceStats (keys : List ServiceKey) :
    runWrites m (keys.map .serviceStats) = (m', true) ↔
      ∃ a, m.servicesPacketsStats.fillAll .zero (keys.map ServiceKey.statsIndex) = some a ∧
        m' = { m with servicesPacketsStats := a } :=
  runWrites_fillAll .serviceStats ServiceKey.statsIndex (·.servicesPacketsStats)
    (fun m a => { m with servicesPacketsStats := a }) (fun _ _ => rfl) (fun _ _ => rfl)
    (fun _ _ _ => rfl) (fun _ => rfl) keys

namespace Dataplane

/-- Writes one by one, each with an error of its own. -/
theorem foldlM_write_eq_ok {α : Type} {write : α → Write} {error : α → String → String}
    {as : List α} : as.foldlM (fun d a => d.write [write a] (error a)) d = .ok d' ↔
      ∃ m, runWrites d.maps (as.map write) = (m, true) ∧ d' = { d with maps := m } := by
  induction as generalizing d with
  | nil => simp [runWrites, pure, Except.pure, eq_comm]
  | cons a as ih =>
    rw [List.foldlM_cons, List.map_cons, Dataplane.write, runWrites, runWrites]
    cases (write a).run d.maps with
    | none => simp [bind, Except.bind]
    | some m₁ =>
      dsimp only
      rw [runWrites, ok_bind, ih]

/-- The end of a reload succeeds exactly if the indices of the counters exist. -/
theorem resetStats_eq_ok : d.resetStats = .ok d' ↔ ∃ a b,
    d.maps.backendsPacketsStats.fillAll .zero (List.range d.xdp.backends.length) = some a ∧
    d.maps.servicesPacketsStats.fillAll .zero (d.xdp.keys.map ServiceKey.statsIndex) = some b ∧
    d' = { d with maps :=
      { d.maps with backendsPacketsStats := a, servicesPacketsStats := b } } := by
  rw [resetStats]
  constructor
  · intro h
    obtain ⟨d₁, h₁, h₂⟩ := bind_eq_ok h
    obtain ⟨m₁, hm₁, rfl⟩ := foldlM_write_eq_ok.1 h₁
    obtain ⟨m₂, hm₂, rfl⟩ := foldlM_write_eq_ok.1 h₂
    obtain ⟨a, ha, rfl⟩ := (runWrites_backendStats _).1 hm₁
    obtain ⟨b, hb, rfl⟩ := (runWrites_serviceStats _).1 hm₂
    exact ⟨a, b, ha, hb, rfl⟩
  · rintro ⟨a, b, ha, hb, rfl⟩
    have h₁ : (List.range d.xdp.backends.length).foldlM
        (fun d i => d.write [.backendStats i] (backendStatsError i)) d =
      .ok { d with maps := { d.maps with backendsPacketsStats := a } } :=
      foldlM_write_eq_ok.2 ⟨_, (runWrites_backendStats _).2 ⟨a, ha, rfl⟩, rfl⟩
    rw [h₁, ok_bind]
    exact foldlM_write_eq_ok.2 ⟨_, (runWrites_serviceStats _).2 ⟨b, hb, rfl⟩, rfl⟩

end Dataplane

/-! ## Up to the statistics -/

/-- The counters are the same. -/
structure SameStats (m m' : Maps cpus) : Prop where
  backends : m'.backendsPacketsStats = m.backendsPacketsStats
  services : m'.servicesPacketsStats = m.servicesPacketsStats

namespace SameStats

theorem refl (m : Maps cpus) : SameStats m m := ⟨rfl, rfl⟩

theorem trans (h : SameStats m m₁) (h' : SameStats m₁ m₂) : SameStats m m₂ :=
  ⟨h'.backends.trans h.backends, h'.services.trans h.services⟩

theorem of_run {w : Write} (hw : w.isCh) (h : w.run m = some m') : SameStats m m' := by
  cases w with
  | chConfig | chBackend | chCurrLookup | chPrevLookup =>
    obtain ⟨a, -, rfl⟩ := Option.map_eq_some_iff.1 h
    exact ⟨rfl, rfl⟩
  | _ => cases hw

theorem of_publishAll (m : Maps cpus) (ps : List (ServiceKey × ChPublication)) :
    SameStats m (publishAll m ps).1 := by
  induction ps generalizing m with
  | nil => exact refl m
  | cons e ps ih =>
    obtain ⟨key, p⟩ := e
    refine trans ?_ (ih _)
    rw [updateChBpfMaps_eq]
    exact rel_runWrites refl (fun _ _ _ h h' => h.trans h')
      (fun w hw _ _ h => of_run (p.isCh_of_mem w hw) h) m

theorem updateAllCh (d : Dataplane cpus) (env : Env) :
    SameStats d.maps (d.updateAllCh env).maps := by
  rw [Dataplane.updateAllCh, Dataplane.foldl_updateCh_maps]
  exact of_publishAll d.maps _

end SameStats

/-- The keys of the vectors are those of the configuration. -/
theorem BaseConfig.load_keys_eq (hload : config.load env = (xdp, none)) :
    xdp.keys = config.keys env := by
  have hmap : ∀ {services : List BalancerService} {es : List (ServiceKey × ServiceInfo)},
      List.Forall₂ (fun service e => service.prepareKey env = .ok e.1) services es →
      es.map Prod.fst = services.filterMap fun service => (service.prepareKey env).toOption := by
    intro services es h
    induction h with
    | nil => rfl
    | cons he _ ih => rw [List.map_cons, List.filterMap_cons, he, ih]; rfl
  obtain ⟨hkeys, hinfos, -⟩ := BaseConfig.load_length hload
  rw [keys, ← hmap (load_keys hload), List.map_fst_zip (by omega)]

namespace Dataplane

/-- A reload flips if the backends fit and there is room for the services. -/
theorem publish_of_room (hload : config.load env = (xdp, none))
    (hbackends : xdp.backends.length ≤ 1024)
    (hroom : (d.maps.servicesAt (1 - d.currentIndex)).HasRoomFor (config.keys env)) :
    ∃ d₁, d.publish env config = .ok d₁ := by
  refine publish_of_writes hload ?_
  generalize (1 - d.currentIndex : Fin 2) = b at hroom
  obtain ⟨m₁, h₁⟩ := runWrites_of_le (.backend b) (·.backendsAt b) (·.setBackends b ·)
    (fun _ _ _ => rfl) (by rwa [Nat.zero_add]) d.maps
  obtain ⟨a, -, rfl⟩ := runWrites_backends h₁
  obtain ⟨hkeys, hinfos, -⟩ := BaseConfig.load_length hload
  have hzip : (xdp.keys.zip xdp.services).map Prod.fst = xdp.keys := List.map_fst_zip (by omega)
  rw [← BaseConfig.load_keys_eq hload, ← hzip] at hroom
  obtain ⟨s, hs⟩ := HashMap.exists_updateAll hroom
  have h₂ : runWrites (d.maps.setBackends b a) (xdp.serviceWrites b) = (_, true) :=
    runWrites_services.2 ⟨s, by rwa [Maps.servicesAt_setBackends], rfl⟩
  have h : runWrites d.maps (xdp.publishWrites b) = (_, true) :=
    runWrites_append.2 ⟨_, runWrites_append.2 ⟨_, h₁, h₂⟩, rfl⟩
  rw [h]

/-- With room for the cursors, it gets to the statistics. -/
theorem switch_of_room (d : Dataplane cpus) (env : Env)
    (hroom : d.maps.rrIndex.HasRoomFor d.xdp.keys) :
    ∃ d₂, d.switch env = .ok d₂ ∧ d₂.xdp = d.xdp ∧ d₂.maps.tcpSessionState = .empty ∧
      d₂.maps.wrrStateMap = .empty ∧ (∀ key ∈ d.xdp.keys, d₂.maps.rrIndex.lookup key = some 0) ∧
      SameStats d.maps d₂.maps := by
  obtain ⟨rr, hrr⟩ : ∃ rr, d.maps.rrIndex.updateAll (d.xdp.keys.map fun key => (key, 0)) = some rr :=
    HashMap.exists_updateAll (by rwa [List.map_map, Function.comp_def, List.map_id'])
  have hreset : d.resetCursors =
      .ok { d with maps := { d.maps with rrIndex := rr, wrrStateMap := .empty } } := by
    have hwrite : d.write d.xdp.rrWrites rrError =
      .ok { d with maps := { d.maps with rrIndex := rr } } :=
      write_eq_ok.2 ⟨_, runWrites_rrIndex.2 ⟨rr, hrr, rfl⟩, rfl⟩
    rw [resetCursors, hwrite, ok_bind]
    rfl
  rw [switch, hreset, ok_bind]
  generalize hd₁ : ({ d with maps := { d.maps with rrIndex := rr, wrrStateMap := .empty } } :
    Dataplane cpus) = d₁
  obtain ⟨hch, hxdp, -⟩ := d₁.foldl_updateCh_frame env d₁.currConfig.services
  rw [← updateAllCh] at hch hxdp
  have hstats := SameStats.updateAllCh d₁ env
  subst hd₁
  refine ⟨_, rfl, hxdp, rfl, hch.wrrStateMap, fun key hk => ?_, ⟨hstats.backends, hstats.services⟩⟩
  exact (congrArg (·.lookup key) hch.rrIndex).trans (lookup_zeros hrr hk)

/-- What comes before the statistics, if everything resolves and fits. -/
theorem reload_of_room (hresolves : config.Resolves env) (hbackends : config.reals.length ≤ 1024)
    (hservices : (d.maps.servicesAt (1 - d.currentIndex)).HasRoomFor (config.keys env))
    (hrr : d.maps.rrIndex.HasRoomFor (config.keys env)) :
    ∃ d₂ : Dataplane cpus, d.reloadConfig env config = d₂.resetStats ∧
      d₂.xdp.keys = config.keys env ∧ d₂.xdp.backends.length = config.reals.length ∧
      d₂.maps.tcpSessionState = .empty ∧ d₂.maps.wrrStateMap = .empty ∧
      (∀ key ∈ config.keys env, d₂.maps.rrIndex.lookup key = some 0) ∧
      d₂.maps.servicesPacketsStats = d.maps.servicesPacketsStats := by
  have hload : config.load env = ((config.load env).1, none) :=
    Prod.ext rfl (BaseConfig.load_eq_none.2 hresolves)
  have hlength := (load_reals hload).length_eq
  obtain ⟨d₁, hpub⟩ := publish_of_room hload (by omega) hservices
  obtain ⟨hload₁, -, -, -, t, a, hmaps⟩ := publish_eq_ok hpub
  have hkeys := BaseConfig.load_keys_eq hload₁
  -- the flip has not touched the cursors and the counters
  have hroom : d₁.maps.rrIndex.HasRoomFor d₁.xdp.keys := by
    rw [hkeys, hmaps]
    exact hrr
  obtain ⟨d₂, hswitch, hxdp, hsessions, hwrr, hzero, hstats⟩ := d₁.switch_of_room env hroom
  refine ⟨d₂, ?_, hxdp ▸ hkeys, hxdp ▸ (load_reals hload₁).length_eq.symm, hsessions, hwrr,
    fun key hk => hzero key (hkeys ▸ hk), hstats.services.trans (by rw [hmaps]; rfl)⟩
  rw [reloadConfig, hpub, ok_bind, hswitch, ok_bind]

end Dataplane

/-! ## The whole reload -/

/-- The state that packets leave is reset, for the configuration. -/
structure BaseConfig.Reset (env : Env) (config : BaseConfig) (m : Maps cpus) : Prop where
  sessions : m.tcpSessionState = .empty
  wrr : m.wrrStateMap = .empty
  rr : ∀ key ∈ config.keys env, m.rrIndex.lookup key = some 0
  backends : ∀ (cpu : Fin cpus) (i : Fin 1024), ↑i < config.reals.length →
    m.backendsPacketsStats.get cpu i = .zero
  services : ∀ (cpu : Fin cpus) (i : Fin 256), ↑i < config.services.length →
    m.servicesPacketsStats.get cpu i = .zero

/-- A reload completes and resets. For every configuration whose addresses convert and whose MACs
    resolve, with backends and services that fit the maps: the reload returns no error and has reset
    the state exactly if the first four bytes of each VIP are a number below 256, and the counters
    of every service are either at such a number or were zero before. -/
theorem reload_resets_iff (hresolves : config.Resolves env) (hbackends : config.reals.length ≤ 1024)
    (hservices : (d.maps.servicesAt (1 - d.currentIndex)).HasRoomFor (config.keys env))
    (hrr : d.maps.rrIndex.HasRoomFor (config.keys env)) :
    (∃ d', d.reloadConfig env config = .ok d' ∧ config.Reset env d'.maps) ↔
      (∀ key ∈ config.keys env, key.statsIndex < 256) ∧
      ∀ (cpu : Fin cpus) (i : Fin 256), ↑i < config.services.length →
        ↑i ∈ (config.keys env).map ServiceKey.statsIndex ∨
          d.maps.servicesPacketsStats.get cpu i = .zero := by
  obtain ⟨d₂, hreload, hkeys, hlength, hsessions, hwrr, hzero, hcounters⟩ :=
    d.reload_of_room hresolves hbackends hservices hrr
  rw [hreload]
  simp only [Dataplane.resetStats_eq_ok, hkeys, hcounters]
  constructor
  · -- the counters were cleared at the numbers of the VIPs, and the reload got through them all
    rintro ⟨d', ⟨a, b, -, hb, rfl⟩, h⟩
    refine ⟨fun key hk => ?_, fun cpu i hi => ?_⟩
    · exact PerCpuArray.fillAll_isSome.1 (Option.isSome_of_eq_some hb) _ (List.mem_map_of_mem hk)
    · have hz := h.services cpu i hi
      dsimp only at hz
      rw [PerCpuArray.get_fillAll hb] at hz
      split_ifs at hz with hmem
      · exact .inl hmem
      · exact .inr hz
  · rintro ⟨hlt, hz⟩
    obtain ⟨a, ha⟩ : ∃ a, d₂.maps.backendsPacketsStats.fillAll .zero
        (List.range d₂.xdp.backends.length) = some a :=
      Option.isSome_iff_exists.1 (PerCpuArray.fillAll_isSome.2 fun i hi =>
        lt_of_lt_of_le (List.mem_range.1 hi) (hlength ▸ hbackends))
    obtain ⟨b, hb⟩ : ∃ b, d.maps.servicesPacketsStats.fillAll .zero
        ((config.keys env).map ServiceKey.statsIndex) = some b :=
      Option.isSome_iff_exists.1 (PerCpuArray.fillAll_isSome.2 (List.forall_mem_map.2 hlt))
    refine ⟨_, ⟨a, b, ha, hb, rfl⟩, hsessions, hwrr, hzero, fun cpu i hi => ?_, fun cpu i hi => ?_⟩
    · dsimp only
      rw [PerCpuArray.get_fillAll ha, if_pos (List.mem_range.2 (hlength ▸ hi))]
    · dsimp only
      rw [PerCpuArray.get_fillAll hb]
      split_ifs with hmem
      · rfl
      · exact (hz cpu i hi).resolve_left hmem

/-- A service with a VIP whose first four bytes are the number 10. -/
def demoLow : BaseConfig := { services := [demoService "10.0.0.0" .rr ["10.0.1.1"]] }

def demoLowEnv : Env :=
  { demoEnv with inetAton := fun text => if text = "10.0.0.0" then some 10 else demoEnv.inetAton text }

theorem reload_resets_low : ∃ d',
    (Dataplane.fresh 1).reloadConfig demoLowEnv demoLow = .ok d' ∧ demoLow.Reset demoLowEnv d'.maps :=
  (reload_resets_iff (by decide) (by decide) (by decide) (by decide)).2
    ⟨by decide, fun _ _ _ => .inr rfl⟩

/-- The reload of a validated configuration that fits ends with an error. -/
theorem reload_not_complete : demoConfig.validate = (demoConfig, none) ∧
    demoConfig.Resolves demoEnv ∧ (demoConfig.keys demoEnv).Nodup ∧
    demoConfig.reals.length ≤ 1024 ∧
    ((Dataplane.fresh 1).maps.servicesAt (1 - (Dataplane.fresh 1).currentIndex)).HasRoomFor
      (demoConfig.keys demoEnv) ∧
    (Dataplane.fresh 1).maps.rrIndex.HasRoomFor (demoConfig.keys demoEnv) ∧
    ∀ d', (Dataplane.fresh 1).reloadConfig demoEnv demoConfig ≠ .ok d' := by
  have herror : ((Dataplane.fresh 1).reloadConfig demoEnv demoConfig).isOk = false := by
    decide +kernel
  refine ⟨demoConfig_valid, by decide, by decide, by decide, by decide, by decide, fun d' h => ?_⟩
  rw [h] at herror
  cases herror

end L4Balancer
