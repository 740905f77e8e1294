import L4Balancer.Control.Turns

/-!
# Services with a live real

Of a service with an enabled real one expects that its packets always get a backend. That
depends on where the disabled reals are (`BaseConfig.Serves`): a round robin gives up at a
run of disabled reals that is as long as its window, consistent hash at a hash of a backend
that is disabled, and always for UDP. All of this can be read off the configuration
(`live_served_iff`).
-/

namespace L4Balancer

open Bpf Scan

variable {cpus : ℕ} {env : Env} {config config' : BaseConfig} {m : Maps cpus} {info : ServiceInfo}
  {key : ServiceKey} {service : BalancerService} {i : ℕ}

/-- In the cycle of the `n` positions from the start of the service `i` on, of any `w` successive
    ones one is that of an enabled real. -/
def BaseConfig.NoGap (config : BaseConfig) (i n w : ℕ) : Prop :=
  ∀ j < n, ∃ d < w, (config.reals[config.start i + (j + d) % n]?).any BalancerReal.enabled

instance (n w : ℕ) : Decidable (config.NoGap i n w) :=
  inferInstanceAs (Decidable (∀ j < n, ∃ d < w, _))

/-- There is an enabled real of consistent hash, and the addresses of the enabled reals of the last
    service that has one are those of reals that are enabled where they are first named. -/
def BaseConfig.ChComplete (env : Env) (config : BaseConfig) : Prop :=
  ∃ last, config.lastCh = some last ∧
    ∀ real ∈ last.enabledReals, ∃ first, config.firstAt env real = some first ∧ first.enabled

/-- The service `i`, to which packets with the key are addressed, has a backend for each of them. -/
def BaseConfig.ServesAt (env : Env) (config : BaseConfig) (key : ServiceKey) (i : ℕ)
    (service : BalancerService) : Prop :=
  match service.type with
  -- without reals, it takes what is at its start for its only one
  | .rr => config.NoGap i (max 1 service.reals.length) 4
  | .wrr => service.reals ≠ [] ∧ config.NoGap i service.reals.length 32
  | .ch => key.protocol = IPPROTO_TCP ∧ config.ChComplete env

/-- Packets with the key always have a backend. -/
def BaseConfig.Serves (env : Env) (config : BaseConfig) (key : ServiceKey) : Prop :=
  ∀ i service, config.LastAt env key i service → config.ServesAt env key i service

theorem BaseConfig.LastAt.unique {j : ℕ} {service' : BalancerService}
    (h : config.LastAt env key i service) (h' : config.LastAt env key j service') :
    i = j ∧ service = service' := by
  obtain ⟨hi, hkey, hlater⟩ := h
  obtain ⟨hj, hkey', hlater'⟩ := h'
  rcases lt_trichotomy i j with hlt | rfl | hlt
  · exact absurd hkey' (hlater j service' hlt hj)
  · exact ⟨rfl, Option.some.inj (hi.symm.trans hj)⟩
  · exact absurd hkey (hlater' i service hlt hi)

theorem BaseConfig.LastAt.serves_iff (h : config.LastAt env key i service) :
    config.Serves env key ↔ config.ServesAt env key i service := by
  refine ⟨fun hserves => hserves i service h, fun hat j service' h' => ?_⟩
  obtain ⟨rfl, rfl⟩ := h.unique h'
  exact hat

theorem BaseConfig.exists_lastAt (hs : service ∈ config.services)
    (hprep : service.prepareKey env = .ok key) : ∃ i last, config.LastAt env key i last := by
  have hsome : (config.serviceAt env key).isSome := by
    refine List.find?_isSome.2 ⟨service, List.mem_reverse.2 hs, ?_⟩
    rw [hprep]
    exact decide_eq_true rfl
  obtain ⟨last, hlast⟩ := Option.isSome_iff_exists.1 hsome
  obtain ⟨i, hi⟩ := serviceAt_eq_some_iff.1 hlast
  exact ⟨i, last, hi⟩

/-! ## The positions of the block -/

section Positions

variable {xdp : XdpConfig} {buffer : Fin 2}

/-- After a first publication, the active positions of the backends map are those of enabled
    reals. -/
theorem Published.active_iff (hload : config.load env = (xdp, none))
    (h : Published xdp buffer (.fresh cpus) m) (j : ℕ) :
    (m.activeBackends.lookup j).any (·.active ≠ 0) =
      (config.reals[j]?).any BalancerReal.enabled := by
  have hreals := load_reals hload
  cases hj : config.reals[j]? with
  | none =>
    -- the batch has not got there, and the map was zeroed
    have hle : xdp.backends.length ≤ j := by
      rw [← hreals.length_eq]
      exact List.getElem?_eq_none_iff.1 hj
    have hzero : (Maps.fresh cpus).backendsAt buffer = .const .zero := by
      rw [Maps.backendsAt]
      split_ifs <;> rfl
    rw [ArrayMap.lookup_updateFrom h.activeBackends, if_neg (by omega), hzero,
      ArrayMap.lookup_const]
    split_ifs <;> rfl
  | some real =>
    obtain ⟨b, hb, hrep⟩ := getElem?_of_forall₂ hreals hj
    rw [h.lookup_backends hb, Option.any_some, Option.any_some, Bool.eq_iff_iff, decide_eq_true_iff]
    exact hrep.active

end Positions

section Windows

variable (he : Entry env config m i service info)

include he in
/-- The windows of active backends are those of enabled reals. -/
theorem Entry.forall_first_iff (hactive : ∀ j, (m.activeBackends.lookup j).any (·.active ≠ 0) =
      (config.reals[j]?).any BalancerReal.enabled) {n : ℕ} (hn : 0 < n) (w : ℕ) :
    (∀ p, (first (info.hits m.activeBackends (·.active ≠ 0) n) w p).isSome) ↔
      config.NoGap i n w := by
  rw [forall_iff_lt (ServiceInfo.hits_periodic n) hn]
  refine forall₂_congr fun j _ => first_isSome.trans ?_
  refine exists_congr fun d => and_congr_right fun _ => ?_
  rw [ServiceInfo.hits, he.backendStartIdx, hactive]

include he in
/-- The reals of a validated service have weights. -/
theorem Entry.hits_eligible (hn : service.Normal) (hc : info.backendCount ≠ 0) :
    info.hits m.activeBackends Backend.eligible info.backendCount.toNat =
      info.hits m.activeBackends (·.active ≠ 0) info.backendCount.toNat := by
  funext k
  have hlt := Nat.mod_lt k (UInt32.pos_iff_ne_zero.2 hc)
  have hk : k % info.backendCount.toNat < service.reals.length := he.backendCount ▸ hlt
  obtain ⟨b, hprep, hb⟩ := he.reals _ _ (List.getElem?_eq_getElem hk)
  obtain ⟨-, -, -, hweight, -⟩ := hprep
  have hpos : b.weight > 0 := by
    rw [hweight]
    exact UInt8.pos_iff_ne_zero.2 (hn.reals _ (List.getElem_mem hk)).1
  rw [ServiceInfo.hits, ServiceInfo.hits, hb, Option.any_some, Option.any_some, Backend.eligible]
  simp [hpos]

end Windows

/-! ## Consistent hash -/

/-- What consistent hash has after a first reload. -/
theorem forall_chPick_isSome_iff (hok : ((Operation.fresh cpus).reload env config).2.intact) :
    (∀ keyHash, (((Operation.fresh cpus).reload env config).2.maps.chPick keyHash).isSome) ↔
      config.ChComplete env := by
  have hr := Operation.reloaded_of_intact (.empty _) hok
  have hload := hr.dataplane.load
  rcases hr.tables with ⟨hnone, hsame, -⟩ | ⟨last, p, hlast, -, ht, hp, hw⟩
  · -- nothing was published
    refine iff_of_false (fun hpicks => ?_) ?_
    · have hsome := hpicks 0
      rw [hsame.chPick] at hsome
      cases hsome
    · rintro ⟨last, hlast, -⟩
      cases hnone.symm.trans hlast
  · have hreals := chBackends_reals hload (BaseConfig.lastCh_spec hlast).1
    rw [(hw hok).forall_isSome_iff ht, hp]
    constructor
    · intro hactive
      -- the backend of a real is that of the first real with its address
      refine ⟨last, hlast, fun real hreal => ?_⟩
      obtain ⟨k, hk⟩ := List.mem_iff_getElem?.1 hreal
      obtain ⟨b, hb, hback⟩ := getElem?_of_forall₂ hreals hk
      obtain ⟨first, hfirst, hrep, -⟩ := hback.represents hload
      exact ⟨first, hfirst, hrep.active.1 (hactive b (List.mem_of_getElem? hb))⟩
    · rintro ⟨last', hlast', hfirst⟩ b hmem
      obtain rfl := Option.some.inj (hlast.symm.trans hlast')
      obtain ⟨k, hb⟩ := List.mem_iff_getElem?.1 hmem
      obtain ⟨real, hk, hback⟩ := getElem?_of_forall₂ hreals.flip hb
      obtain ⟨first, hfirst', hrep, -⟩ := FirstBackend.represents hload hback
      obtain ⟨first', hfirst'', henabled⟩ := hfirst real (List.mem_of_getElem? hk)
      obtain rfl := Option.some.inj (hfirst'.symm.trans hfirst'')
      exact hrep.active.2 henabled

/-! ## All services -/

/-- A key of a configuration, after a first reload. -/
theorem alwaysServed_iff [NeZero cpus] (hvalid : config.validate = (config', none))
    (hok : ((Operation.fresh cpus).reload env config').2.intact)
    (hs : service ∈ config'.services) (hprep : service.prepareKey env = .ok key) :
    AlwaysServed key ((Operation.fresh cpus).reload env config').2.maps ↔
      config'.Serves env key := by
  have hr := Operation.reloaded_of_intact (.empty _) hok
  have hload := hr.dataplane.load
  have hpub := Operation.reload_published hok
  have hpos := Positioned.of_loaded hr.dataplane
  have hactive := hpub.active_iff hload
  obtain ⟨i, last, hlast⟩ := BaseConfig.exists_lastAt hs hprep
  obtain ⟨info, hinfo, he⟩ := hpub.entry_lastAt hload hlast
  have hfits := Entry.fits hload hpub hlast.1 he
  have hk : key ∈ config'.keys env :=
    BaseConfig.mem_keys.2 ⟨service, hs, hprep⟩
  obtain ⟨c₀, hc₀, hopens, hkey⟩ : ∃ c : Call cpus, c.OfFrame ∧ c.Opens ∧ c.key = key :=
    exists_opens hprep
  have halgorithm := he.algorithm
  rw [hlast.serves_iff, BaseConfig.ServesAt]
  cases htype : last.type with
  | rr =>
    rw [htype] at halgorithm
    rw [hpos.alwaysServed_rr_iff hk hinfo hfits halgorithm hc₀ hopens hkey,
      he.forall_first_iff hactive info.span_pos, ServiceInfo.span, he.backendCount]
  | wrr =>
    rw [htype] at halgorithm
    have hempty := hr.dataplane.wrr
    have hreals : last.reals ≠ [] ↔ info.backendCount ≠ 0 := by
      rw [← UInt32.toNat_inj.ne, he.backendCount, UInt32.toNat_zero, ne_eq, ne_eq,
        List.length_eq_zero_iff]
    dsimp only
    rw [hreals]
    by_cases hc : info.backendCount = 0
    · -- there are no attempts
      exact iff_of_false (not_alwaysServed_wrr hempty hinfo halgorithm hc hc₀ hopens hkey)
        fun h => h.1 hc
    · have hcount : 0 < info.backendCount.toNat := UInt32.pos_iff_ne_zero.2 hc
      have hnormal := BaseConfig.normal_of_validate hvalid last (List.mem_of_getElem? hlast.1)
      rw [hpos.alwaysServed_wrr_iff hempty hinfo hfits halgorithm hc hc₀ hopens hkey,
        he.hits_eligible hnormal hc, and_iff_right hc, ← he.backendCount,
        ← he.forall_first_iff hactive hcount 32]
      -- two rounds of a small block see as much as 32 positions
      exact forall_congr' fun p =>
        isSome_min_iff (ServiceInfo.hits_periodic _) hcount (Nat.le_mul_of_pos_left _ (by decide))
  | ch =>
    rw [htype] at halgorithm
    rw [alwaysServed_ch_iff hprep hinfo halgorithm, forall_chPick_isSome_iff hok]

/-- The key is that of a service with an enabled real. -/
def BaseConfig.Live (env : Env) (config : BaseConfig) (key : ServiceKey) : Prop :=
  ∃ service ∈ config.services, service.prepareKey env = .ok key ∧
    ∃ real ∈ service.reals, real.enabled

/-- The services with an enabled real are always served. -/
def LiveServed (env : Env) (config : BaseConfig) (m : Maps cpus) : Prop :=
  ∀ key, config.Live env key → AlwaysServed key m

/-- Every service with a live real is served. For every configuration as the validator leaves it,
    loaded by a first reload whose writes up to the statistics succeed: every packet that is
    addressed to a service with an enabled real and opens a flow gets a backend, after every run of
    packets, exactly if the configuration serves the keys of these services. -/
theorem live_served_iff [NeZero cpus] (hvalid : config.validate = (config', none))
    (hok : ((Operation.fresh cpus).reload env config').2.intact) :
    LiveServed env config' ((Operation.fresh cpus).reload env config').2.maps ↔
      ∀ key, config'.Live env key → config'.Serves env key :=
  forall₂_congr fun _ ⟨_, hs, hprep, _⟩ => alwaysServed_iff hvalid hok hs hprep

theorem live_served_demo : LiveServed demoEnv demoConfig
    ((Operation.fresh 1).reload demoEnv demoConfig).2.maps := by
  have hok : ((Operation.fresh 1).reload demoEnv demoConfig).2.intact :=
    Operation.reload_intact (.empty _) (by decide) (by decide +kernel)
  refine (live_served_iff demoConfig_valid hok).2 fun key _ i last hlast => ?_
  obtain ⟨hi, -⟩ := hlast
  match i, hi with
  | 0, hi =>
    obtain rfl := Option.some.inj hi
    exact (by decide : demoConfig.NoGap 0 2 4)
  | 1, hi =>
    obtain rfl := Option.some.inj hi
    exact ⟨by decide, (by decide : demoConfig.NoGap 1 1 32)⟩

/-- A service of round robin with an enabled real before four disabled ones. -/
def demoGap : BaseConfig where
  services := [{ demoService "10.0.0.1" .rr [] with
    reals := { ip := "10.0.1.1", enabled := true, port := 80 } ::
      List.replicate 4 { ip := "10.0.1.2", enabled := false, port := 80 } }]

/-- Already the first packet finds nothing: the cursor begins behind the enabled real. -/
theorem live_service_dropped : demoGap.validate = (demoGap, none) ∧
    ((Operation.fresh 1).reload demoEnv demoGap).2.intact ∧
    ¬LiveServed demoEnv demoGap ((Operation.fresh 1).reload demoEnv demoGap).2.maps := by
  have hok : ((Operation.fresh 1).reload demoEnv demoGap).2.intact :=
    Operation.reload_intact (.empty _) (by decide) (by decide +kernel)
  refine ⟨by decide +kernel, hok, fun h => ?_⟩
  have hlive : demoGap.Live demoEnv demoKey :=
    ⟨_, List.mem_cons_self, by decide +kernel, _, List.mem_cons_self, rfl⟩
  have hframe : (demoCall 0 1 true).OfFrame :=
    ⟨rfl, .inr ⟨rfl, 0x0100000b, 0x0100000a, rfl, rfl⟩, rfl, ⟨rfl, rfl⟩, rfl⟩
  have hsome := h demoKey hlive [] (by simp) (.tcp (demoCall 0 1 true)) hframe rfl rfl
  exact absurd hsome (by decide +kernel)

end L4Balancer
