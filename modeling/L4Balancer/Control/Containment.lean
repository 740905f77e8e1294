import L4Balancer.Control.Loaded
import L4Balancer.Control.Validator
import L4Balancer.Xdp.Calls

/-!
# Containment

After a reload, what round robin and weighted round robin return for a service of the
configuration is one of its own reals, except for services of round robin without
reals (`index_containment_iff`): for such a service `rr_balancer_handle` returns the
backend at its start, which belongs to the next service, or to none.
-/

namespace L4Balancer

open Bpf

variable {cpus : ℕ} {env : Env} {config : BaseConfig} {m : Maps cpus} {info : ServiceInfo}
  {key : ServiceKey}

/-! ## One's own reals -/

/-- The index is one of the block of the entry, and the backend is the translation of the real there
    of a service that has the key. -/
structure OwnReal (env : Env) (config : BaseConfig) (key : ServiceKey) (info : ServiceInfo)
    (b : Backend) (idx : UInt32) : Prop where
  holds : info.Holds idx
  real : ∃ service ∈ config.services, service.prepareKey env = .ok key ∧
    ∃ real, service.reals[idx.toNat - info.backendStartIdx.toNat]? = some real ∧
      Translation env service real b

theorem Entry.fits {buffer : Fin 2} {xdp : XdpConfig} {m₀ : Maps cpus}
    (hload : config.load env = (xdp, none)) (h : Published xdp buffer m₀ m) {i : ℕ}
    {service : BalancerService} (hi : config.services[i]? = some service)
    (he : Entry env config m i service info) : info.Fits := by
  have hlt := (List.getElem?_eq_some_iff.1 hi).1
  have hend := config.start_mono (Nat.succ_le_of_lt hlt)
  have hlen := (BaseConfig.load_length hload).2.2
  have hle := h.length_backends_le
  rw [Nat.succ_eq_add_one, BaseConfig.start_succ hi] at hend
  rw [ServiceInfo.Fits, he.backendStartIdx, he.backendCount]
  omega

/-- A backend of the block of a service is that of a real of it. -/
theorem Entry.exists_real {i : ℕ} {service : BalancerService}
    (he : Entry env config m i service info) {idx : UInt32} (hholds : info.Holds idx) {b : Backend}
    (hb : m.activeBackends.lookup idx.toNat = some b) :
    ∃ real, service.reals[idx.toNat - info.backendStartIdx.toNat]? = some real ∧
      Translation env service real b := by
  obtain ⟨hle, hlt⟩ := hholds
  rw [he.backendCount] at hlt
  have hk : idx.toNat - info.backendStartIdx.toNat < service.reals.length := by omega
  obtain ⟨b', hb', hlookup⟩ := he.reals _ _ (List.getElem?_eq_getElem hk)
  rw [Nat.add_sub_cancel' hle] at hlookup
  obtain rfl := Option.some.inj (hb.symm.trans hlookup)
  exact ⟨_, List.getElem?_eq_getElem hk, hb'⟩

theorem Entry.ownReal {i : ℕ} {service : BalancerService}
    (hi : config.services[i]? = some service) (hkey : service.prepareKey env = .ok key)
    (he : Entry env config m i service info) {idx : UInt32} (hholds : info.Holds idx) {b : Backend}
    (hb : m.activeBackends.lookup idx.toNat = some b) : OwnReal env config key info b idx :=
  ⟨hholds, service, List.mem_of_getElem? hi, hkey, he.exists_real hholds hb⟩

/-- What the handlers return to a packet to a service of the configuration is an own real of it. -/
def Call.Contained (env : Env) (config : BaseConfig) (m : Maps cpus) (c : Call cpus) : Prop :=
  c.key ∈ config.keys env → ∀ r ∈ c.handlerCalls m, ∀ b, r.2.1 = some b →
    OwnReal env config c.key r.1 b r.2.2

/-- The packet reaches round robin for a service of the configuration that has no reals, and whose
    start is not the end of the backends map. -/
def Call.ReachesEmpty (env : Env) (config : BaseConfig) (m : Maps cpus) (c : Call cpus) : Prop :=
  c.key ∈ config.keys env ∧ ∃ r ∈ c.reaches m,
    r.1.algorithm = BALANCER_RR ∧ r.1.backendCount = 0 ∧ r.1.backendStartIdx.toNat < 1024

instance (c : Call cpus) : Decidable (c.ReachesEmpty env config m) :=
  inferInstanceAs (Decidable (_ ∧ ∃ r ∈ c.reaches m, _))

/-! ## The invariant -/

/-- The maps have the configuration and cursors in the blocks of the active services. -/
structure Positioned (env : Env) (config : BaseConfig) (m : Maps cpus) : Prop where
  published : ∃ xdp buffer m₀, config.load env = (xdp, none) ∧ Published xdp buffer m₀ m
  cursors : Cursors (config.keys env) m.activeServices m

namespace Positioned

theorem of_loaded {d : Dataplane cpus} (h : Loaded env config d) : Positioned env config d.maps := by
  obtain ⟨buffer, m₀, hpub⟩ := h.published
  refine ⟨⟨d.xdp, buffer, m₀, h.load, hpub⟩, h.rr, fun key info st _ hst => ?_⟩
  rw [h.wrr] at hst
  cases hst

theorem next (h : Positioned env config m) (c : Call cpus) :
    Positioned env config ((finder cpus).next c m) := by
  obtain ⟨xdp, buffer, m₀, hload, hpub⟩ := h.published
  exact ⟨⟨xdp, buffer, m₀, hload, hpub.congr (.of_tables (tables_finder c m))⟩, h.cursors.next c⟩

theorem entry (h : Positioned env config m) (hk : key ∈ config.keys env) :
    ∃ i service info, config.services[i]? = some service ∧ service.prepareKey env = .ok key ∧
      m.activeServices.lookup key = some info ∧ Entry env config m i service info ∧ info.Fits := by
  obtain ⟨xdp, buffer, m₀, hload, hpub⟩ := h.published
  obtain ⟨i, service, info, hi, hprep, hlookup, hentry⟩ :=
    hpub.entry hload ((BaseConfig.mem_load_keys hload).2 hk)
  exact ⟨i, service, info, hi, hprep, hlookup, hentry, Entry.fits hload hpub hi hentry⟩

/-- Where a packet reaches the algorithms, the cursors are still in their blocks. -/
theorem cursors_reached (h : Positioned env config m) {c : Call cpus} {last : UInt32}
    {m₁ : Maps cpus} (hreach : c.reaches m = some (info, last, m₁)) :
    Cursors (config.keys env) m.activeServices m₁ := by
  obtain ⟨-, rfl | ⟨c, state, hl⟩⟩ := Call.reaches_spec hreach
  · exact h.cursors
  · exact h.cursors.lookup hl

theorem contained_iff (h : Positioned env config m) (c : Call cpus) :
    c.Contained env config m ↔ ¬c.ReachesEmpty env config m := by
  constructor
  · -- the first call of the handler returns the start of the empty block
    rintro hcont ⟨hk, ⟨info, last, m₁⟩, hreach, hrr, hc, hlt⟩
    dsimp only at hrr hc hlt
    obtain ⟨hb, hidx⟩ : (rrBalancerHandle m.activeBackends info c.key last m₁).1 = _ ∧ _ :=
      rrBalancerHandle_empty hc ((h.cursors_reached hreach).rr _ hk) last
    rw [ArrayMap.lookup_of_lt _ hlt] at hb
    have hmem : (info, some (m.activeBackends.get ⟨_, hlt⟩), info.backendStartIdx) ∈
        c.handlerCalls m := by
      rw [Call.handlerCalls, hreach, ← hb, ← hidx]
      refine List.mem_map_of_mem (f := (info, ·)) ?_
      rw [handlerCalls, if_pos hrr, loopCalls]
      exact List.mem_cons_self
    obtain ⟨hholds, -⟩ := hcont hk _ hmem _ rfl
    rw [ServiceInfo.Holds, hc] at hholds
    exact absurd hholds.2 (lt_irrefl _)
  · intro hne hk r hr b hb
    rw [Call.handlerCalls] at hr
    split at hr
    · cases hr
    · rename_i info last m₁ hreach
      obtain ⟨r', hr', rfl⟩ := List.mem_map.1 hr
      obtain ⟨hlookup, -⟩ := Call.reaches_spec hreach
      obtain ⟨i, service, info', hi, hprep, hinfo', hentry, hfits⟩ := h.entry hk
      obtain rfl := Option.some.inj (hlookup.symm.trans hinfo')
      have hnames := handlerCalls_names hr' hb
      rcases (h.cursors_reached hreach).handlerCalls hlookup hfits r' hr' b hb with
        hholds | ⟨hrr, hc, hidx⟩
      · exact hentry.ownReal hi hprep hholds hnames
      · refine absurd ⟨hk, (info, last, m₁), hreach, hrr, hc, ?_⟩ hne
        dsimp only
        rw [← hidx]
        exact ArrayMap.lt_of_lookup hnames

end Positioned

variable {d d₁ d₂ : Dataplane cpus}

/-- Index containment. After a reload whose calls up to the statistics succeed, along any run of
    packets, what the handlers of round robin and weighted round robin return for the services of
    the configuration is always one of their own reals if and only if no packet of the run reaches
    round robin for a service without reals that starts inside the backends map. -/
theorem index_containment_iff (hpub : d.publish env config = .ok d₁)
    (hswitch : d₁.switch env = .ok d₂) (cs : List (Call cpus)) :
    (finder cpus).Each (fun m c => c.Contained env config m) d₂.maps cs ↔
      (finder cpus).Each (fun m c => ¬c.ReachesEmpty env config m) d₂.maps cs :=
  Machine.each_congr (I := Positioned env config) (fun _ c h => h.next c)
    (fun _ c h => h.contained_iff c) (.of_loaded (.of_reload hpub hswitch))

/-- Two services with reals. -/
theorem index_containment_iff_demo :
    (finder 1).Each (fun m c => c.Contained demoEnv demoConfig m) (demoDataplane demoConfig).maps
      [.tcp (demoCall 0 1 true), .tcp (demoCall 0 2 true), .tcp (demoCall 1 1 false)] :=
  (index_containment_iff (demoDataplane_published (by decide +kernel))
    (demoDataplane_switched (by decide +kernel)) _).2 (by decide +kernel)

/-- A service without reals before another one. -/
def demoEmptyService : BaseConfig where
  services := [demoService "10.0.0.1" .rr [], demoService "10.0.0.2" .rr ["10.0.1.1"]]

/-- A valid configuration, and a SYN to its first service: it goes to the real of the second. -/
theorem empty_service_not_contained :
    demoEmptyService.validate = (demoEmptyService, none) ∧
    ((Dataplane.fresh 1).publish demoEnv demoEmptyService).isOk ∧
    ((demoPublished demoEmptyService).switch demoEnv).isOk ∧
    ¬(finder 1).Each (fun m c => c.Contained demoEnv demoEmptyService m)
      (demoDataplane demoEmptyService).maps [.tcp (demoCall 0 1 true)] := by
  refine ⟨by decide +kernel, by decide +kernel, by decide +kernel, fun h => ?_⟩
  have hpos : Positioned demoEnv demoEmptyService (demoDataplane demoEmptyService).maps :=
    .of_loaded (.of_reload (demoDataplane_published (by decide +kernel))
      (demoDataplane_switched (by decide +kernel)))
  exact (hpos.contained_iff _).1 h.1 (by decide +kernel)

end L4Balancer
