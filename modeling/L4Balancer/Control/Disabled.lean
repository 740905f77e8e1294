import L4Balancer.Control.Addressed
import L4Balancer.Control.Overlong
import L4Balancer.Control.Single

/-!
# Disabled reals

A packet that opens a flow should not go to an address that its service lists as disabled
only (`SparesDisabled`). Round robin and weighted round robin look at the flag of the
backend; consistent hash goes by what was published last. As long as the loaded
configuration has a service with an enabled real, a reload publishes it. But a reload whose
service of consistent hash has lost its last enabled real publishes nothing, and the old
backends stay in the maps; and a maintenance publishes an instance of the manager, whatever
the configuration is, and as much of it as fits (`spares_disabled_iff`).
-/

namespace L4Balancer

open Bpf

variable {cpus : ℕ} {env : Env} {config : BaseConfig} {m m' : Maps cpus} {p : ChPublication}
  {service : BalancerService} {b : Backend} {s s' : Operation cpus} {a : Action cpus}
  {as : List (Action cpus)}

/-- The service has reals with the address of the backend, but only disabled ones. -/
def BalancerService.OnlyDisabled (env : Env) (service : BalancerService) (b : Backend) : Prop :=
  (∃ real ∈ service.reals, real.endpoint env = some b.endpoint) ∧
    ∀ real ∈ service.reals, real.endpoint env = some b.endpoint → ¬real.enabled

/-- No packet that opens a flow goes to an address that its service lists as disabled only. -/
def SparesDisabled (env : Env) (config : BaseConfig) (m : Maps cpus) : Prop :=
  ∀ c : Call cpus, c.OfFrame → c.Opens →
    ∀ service, config.serviceAt env c.key = some service →
      ∀ b, (finder cpus).out c m = some b → ¬service.OnlyDisabled env b

/-- Nor does consistent hash have such an address for its service. -/
def ChSparesDisabled (env : Env) (config : BaseConfig) (m : Maps cpus) : Prop :=
  ∀ service, config.TcpCh env service →
    ∀ keyHash b idx, m.chPick keyHash = some (b, idx) → ¬service.OnlyDisabled env b

/-- Disabled reals are a matter of consistent hash. -/
theorem Positioned.sparesDisabled_iff [NeZero cpus] (h : Positioned env config m) :
    SparesDisabled env config m ↔ ChSparesDisabled env config m := by
  constructor
  · intro hspares service hch
    refine (h.forall_syn_iff hch _).1 fun c hframe hsyn hs => ?_
    exact hspares (.tcp c) hframe hsyn service hs
  · intro hspares c hframe hopens service hs b hout hdis
    obtain ⟨⟨real, hreal, -⟩, hall⟩ := id hdis
    -- an enabled real, and a service without reals, are not listed as disabled only
    rcases h.opens_cases hopens hs hout with ⟨real, hreal, henabled, he⟩ | hnil |
      ⟨htype, tc, idx, rfl, hpick⟩
    · exact hall real hreal he henabled
    · rw [hnil] at hreal
      cases hreal
    · exact hspares service ⟨htype, tc.key, hs, hframe.protocol⟩ _ b idx hpick hdis

theorem ChSparesDisabled.congr (h : ∀ keyHash, m'.chPick keyHash = m.chPick keyHash) :
    ChSparesDisabled env config m' ↔ ChSparesDisabled env config m := by
  simp only [ChSparesDisabled, h]

/-! ## Publications -/

/-- What the service of consistent hash publishes are enabled reals of its own. -/
theorem chSparesDisabled_of_own {xdp : XdpConfig} (hload : config.load env = (xdp, none))
    (hone : config.OneCh) (hlast : config.lastCh = some service) (ht : p.IsTable env.xxh3)
    (hp : p.backends = service.chBackends env xdp.backends) (hw : ChWritten p m) :
    ChSparesDisabled env config m := by
  rintro service' ⟨htype, key, hs, -⟩ keyHash b idx hpick ⟨-, hall⟩
  obtain ⟨hmem, hlive⟩ := BaseConfig.lastCh_spec hlast
  obtain rfl := hone.eq hmem (BaseConfig.serviceAt_mem hs) hlive.1 htype
  have hb := hw.getElem?_of_chPick ht hpick
  rw [hp] at hb
  obtain ⟨real, hreal, hfirst⟩ := getElem?_of_forall₂ (chBackends_reals hload hmem).flip hb
  obtain ⟨-, -, -, he⟩ := FirstBackend.represents hload hfirst
  obtain ⟨hmem, henabled⟩ := BalancerService.mem_enabledReals.1 (List.mem_of_getElem? hreal)
  exact hall real hmem he henabled

/-! ## Steps -/

/-- After a reload none of whose writes has failed, whatever maintenances have done since: no packet
    that opens a flow goes to an address that its service lists as disabled only. -/
def Operation.SparesDisabled (env : Env) (s : Operation cpus) : Prop :=
  s.intact → ∀ config, s.loaded = some config → L4Balancer.SparesDisabled env config s.maps

/-- The step does not leave or bring an address to the service of consistent hash that it lists as
    disabled only: a reload with such a service without enabled reals finds no such address in the
    maps; the last instance that a maintenance merges, as far as it fits `ch_backends`, has no such
    backend that is active and that the table names after the maintenance. -/
def Operation.NoneLeft (env : Env) (s : Operation cpus) : Action cpus → Prop
  | .reload config => ∀ service, config.TcpCh env service → service.enabledReals = [] →
    ∀ keyHash b idx, s.maps.chPick keyHash = some (b, idx) → ¬service.OnlyDisabled env b
  | .maintain => ∀ e, s.dataplane.chManager.dueInstances.getLast? = some e →
    ∀ config, s.loaded = some config → ∀ service, config.TcpCh env service →
      ∀ (i : ℕ) (b : Backend), e.2.backends[i]? = some b → i < 257 →
        s.maps.NamesAfter (s.dataplane.chManager.dueInstances.map (·.2.backends.length)) i →
        b.active ≠ 0 → ¬service.OnlyDisabled env b
  | .packet _ => True

/-- The loaded configuration is in the maps, if no write of its reload has failed. -/
structure Operation.Running (env : Env) (s : Operation cpus) : Prop where
  sound : s.dataplane.chManager.Sound env.xxh3
  positioned : s.intact → ∃ config, s.loaded = some config ∧ Positioned env config s.maps

/-- No write of the last reload, which may be the step itself, has failed. -/
def Operation.Succeeds (env : Env) (s : Operation cpus) (a : Action cpus) : Prop :=
  ((operation cpus env).next a s).intact

theorem Positioned.of_chFrame (h : Positioned env config m) (hf : ChFrame m m') :
    Positioned env config m' := by
  obtain ⟨xdp, buffer, m₀, hload, hpub⟩ := h.published
  have hservices : m'.activeServices = m.activeServices := by
    rw [Maps.activeServices, hf.buffers.activeBuffer, hf.buffers.services, Maps.activeServices]
  refine ⟨⟨xdp, buffer, m₀, hload, hpub.congr hf.buffers⟩, ?_⟩
  rw [hservices]
  exact h.cursors.congr hf.rrIndex hf.wrrStateMap

namespace Operation.Running

theorem fresh (env : Env) (cpus : ℕ) : (Operation.fresh cpus).Running env :=
  ⟨.empty env.xxh3, fun h => by cases h⟩

theorem reloaded (hr : Reloaded env config s s') : s'.Running env :=
  ⟨hr.sound, fun _ => ⟨config, hr.loaded, .of_loaded hr.dataplane⟩⟩

theorem maintained (h : s.Running env) {ok : Bool} (hm : Maintained env.xxh3 s s' ok) :
    s'.Running env := by
  refine ⟨hm.sound, fun hintact => ?_⟩
  obtain ⟨config, hconfig, hpos⟩ := h.positioned (hm.intact.symm.trans hintact)
  refine ⟨config, hm.loaded.trans hconfig, ?_⟩
  rw [hm.maps]
  exact hpos.of_chFrame (.of_publishAll _ _)

theorem next (h : s.Running env) (a : Action cpus) :
    ((operation cpus env).next a s).Running env := by
  cases a with
  | reload config =>
    rcases Operation.reload_cases h.sound config with hf | ⟨hr, -⟩
    · refine ⟨hf.keeps.1.symm ▸ h.sound, fun hintact => ?_⟩
      exact absurd (hf.intact.symm.trans hintact) Bool.false_ne_true
    · exact reloaded hr
  | maintain => exact h.maintained (Operation.maintain_spec h.sound)
  | packet c =>
    refine ⟨h.sound, fun hintact => ?_⟩
    obtain ⟨config, hconfig, hpos⟩ := h.positioned hintact
    exact ⟨config, hconfig, hpos.next c⟩

variable [NeZero cpus]

theorem sparesDisabled_iff (h : s.Running env) (hintact : s.intact)
    (hconfig : s.loaded = some config) :
    s.SparesDisabled env ↔ ChSparesDisabled env config s.maps := by
  obtain ⟨config', hconfig', hpos⟩ := h.positioned hintact
  obtain rfl := Option.some.inj (hconfig'.symm.trans hconfig)
  rw [← hpos.sparesDisabled_iff]
  refine ⟨fun hs => hs hintact _ hconfig, fun hs _ config hc => ?_⟩
  obtain rfl := Option.some.inj (hconfig.symm.trans hc)
  exact hs

/-- A reload whose writes succeed. -/
theorem reload_iff (hr : Reloaded env config s s') (hone : config.OneCh) (hintact : s'.intact) :
    s'.SparesDisabled env ↔ s.NoneLeft env (.reload config) := by
  rw [(reloaded hr).sparesDisabled_iff hintact hr.loaded]
  rcases hr.tables with ⟨hnone, hsame, -⟩ | ⟨service, p, hlast, -, ht, hp, hw⟩
  · -- nothing was published: the service has no enabled real, and the maps are the old ones
    rw [ChSparesDisabled.congr hsame.chPick]
    refine forall₂_congr fun service hch => ⟨fun h _ => h, fun h => h ?_⟩
    obtain ⟨htype, key, hs, -⟩ := hch
    by_contra hne
    exact BaseConfig.lastCh_eq_none.1 hnone service (BaseConfig.serviceAt_mem hs) ⟨htype, hne⟩
  · -- the one service of consistent hash was published, so that it has an enabled real
    refine iff_of_true (chSparesDisabled_of_own hr.dataplane.load hone hlast ht hp (hw hintact)) ?_
    rintro service' ⟨htype, key, hs, -⟩ hnil
    obtain ⟨hmem, hlive⟩ := BaseConfig.lastCh_spec hlast
    obtain rfl := hone.eq hmem (BaseConfig.serviceAt_mem hs) hlive.1 htype
    exact absurd hnil hlive.2

/-- A maintenance, whether its writes succeed or not. -/
theorem maintain_iff (h : s.Running env) {ok : Bool} (hm : Maintained env.xxh3 s s' ok)
    (hspares : s.SparesDisabled env) (hintact : s'.intact) :
    s'.SparesDisabled env ↔ s.NoneLeft env .maintain := by
  have hs : s.intact := hm.intact.symm.trans hintact
  obtain ⟨config, hconfig, -⟩ := h.positioned hs
  rw [(h.maintained hm).sparesDisabled_iff hintact (hm.loaded.trans hconfig)]
  rcases h.sound.getLast?_periodicMaintenance with ⟨hnone, hnil⟩ | ⟨key, inst, p, hdue, hlast, -, hp⟩
  · rw [hm.maps, hnil]
    refine iff_of_true ((h.sparesDisabled_iff hs hconfig).1 hspares) fun e he => ?_
    cases hnone.symm.trans he
  · have hpicks := fun service : BalancerService =>
      forall_chPick_publishAll_iff h.sound.isTable_of_mem hlast s.maps
        (P := fun b => ¬service.OnlyDisabled env b)
    simp only [ChSparesDisabled, hm.maps, hpicks, hp,
      ConsistentHashManager.map_length_periodicMaintenance]
    constructor
    · intro hall e he config' hconfig'
      obtain rfl := Option.some.inj (hdue.symm.trans he)
      obtain rfl := Option.some.inj (hconfig.symm.trans hconfig')
      exact hall
    · exact fun hall => hall _ hdue config hconfig

/-- What a step makes of disabled reals. -/
theorem next_sparesDisabled_iff (h : s.Running env) (hone : a.OneCh)
    (hspares : s.SparesDisabled env) : ((operation cpus env).next a s).SparesDisabled env ↔
      (s.Succeeds env a → s.NoneLeft env a) := by
  by_cases hok : s.Succeeds env a
  swap
  · exact iff_of_true (fun hintact => absurd hintact hok) fun hintact => absurd hintact hok
  rw [forall_prop_of_true hok]
  cases a with
  | reload config =>
    rcases Operation.reload_cases h.sound config with hf | ⟨hr, -⟩
    · exact absurd (hf.intact.symm.trans hok) Bool.false_ne_true
    · exact reload_iff hr hone hok
  | maintain => exact h.maintain_iff (Operation.maintain_spec h.sound) hspares hok
  | packet c =>
    refine iff_of_true ?_ trivial
    have hintact : s.intact := hok
    obtain ⟨config, hconfig, -⟩ := h.positioned hintact
    have hpick := fun keyHash => Maps.chPick_congr (tables_finder c s.maps) keyHash
    refine ((h.next (.packet c)).sparesDisabled_iff hok hconfig).2 ?_
    exact (ChSparesDisabled.congr hpick).2 ((h.sparesDisabled_iff hintact hconfig).1 hspares)

end Operation.Running

/-- A disabled real gets no new flow. In a run of reloads, each with at most one service of
    consistent hash, of maintenances, whose writes may fail, and of packets: after a reload whose
    writes succeed, no packet that opens a flow ever goes to an address that its service lists as
    disabled only, exactly if no such reload leaves and no maintenance after one brings such an
    address to the service of consistent hash. -/
theorem spares_disabled_iff [NeZero cpus] (hs : s.Running env) (hspares : s.SparesDisabled env)
    (has : (operation cpus env).Each (fun _ a => a.OneCh) s as) :
    (operation cpus env).Always (Operation.SparesDisabled env) s as ↔
      (operation cpus env).Each (fun s a => s.Succeeds env a → s.NoneLeft env a) s as :=
  Machine.always_iff_each (fun _ a h _ => h.next a)
    (fun _ _ h hone hspares => h.next_sparesDisabled_iff hone hspares) hs hspares has

/-- A service, and a maintenance in which nothing is due. -/
theorem spares_disabled_demo : (operation 1 demoEnv).Always (Operation.SparesDisabled demoEnv)
    (.fresh 1) [.reload (demoCh "10.0.0.1"), .maintain] := by
  obtain ⟨-, inst, hr⟩ := @demoCh_reload (.fresh 1) "10.0.0.1" (.empty _) (by decide +kernel)
  have hwait := hr.waiting rfl
  have has : (operation 1 demoEnv).Each (fun _ a => a.OneCh) (.fresh 1)
      [.reload (demoCh "10.0.0.1"), .maintain] := ⟨demoCh_oneCh _, trivial, trivial⟩
  refine (spares_disabled_iff (.fresh _ 1) (fun h => ?_) has).2
    ⟨fun _ => ?_, fun _ => ?_, trivial⟩
  · cases h
  · intro service hch hnil
    obtain ⟨-, key, hs, -⟩ := hch
    obtain rfl := List.mem_singleton.1 (BaseConfig.serviceAt_mem hs)
    exact absurd hnil (demoCh_live _).2
  · intro e he
    rw [hwait.dueInstances, hwait.not_due (by decide)] at he
    cases he

/-! ## The last enabled real -/

/-- The service of `demoCh` with its real disabled. -/
def demoOff (vip : String) : BalancerService :=
  { demoService vip .ch [] with reals := [{ ip := "10.0.1.1", enabled := false, port := 80 }] }

def demoChOff (vip : String) : BaseConfig where
  services := [demoOff vip]

theorem demoCh_setRealState (vip : String) :
    (demoCh vip).setRealState ⟨vip, "10.0.1.1", false⟩ = .ok (demoChOff vip) := by
  simp [BaseConfig.setRealState, modifyFirst, demoCh, demoChOff, demoOff, demoService]
  rfl

/-- If a reload has published the service, the reload after the request leaves its real in the
    maps. -/
theorem disabled_real_of_reloaded {s₀ s : Operation 1} {inst : ConsistentHashInstance}
    (hr : ReloadedSingle demoEnv (demoCh "10.0.0.1") (demoService "10.0.0.1" .ch ["10.0.1.1"]) s₀ s
      inst) (hrun : s.Running demoEnv) (hspares : s.SparesDisabled demoEnv)
    (hok : Except.isOk
      (s.dataplane.publish demoEnv (demoChOff "10.0.0.1") >>= Dataplane.resetCursors)) :
    ¬((operation 1 demoEnv).next (.reload (demoChOff "10.0.0.1")) s).SparesDisabled demoEnv := by
  intro hnext
  have hone : (Action.reload (demoChOff "10.0.0.1") : Action 1).OneCh :=
    (demoCh_oneCh "10.0.0.1").setRealState (demoCh_setRealState _)
  have hsucceeds : s.Succeeds demoEnv (.reload (demoChOff "10.0.0.1")) :=
    Operation.reload_intact hrun.sound (by decide) hok
  have hleft := (hrun.next_sparesDisabled_iff hone hspares).1 hnext hsucceeds
  -- some hash leads to the real
  have hreal : ⟨"10.0.1.1", true, 1, 4, 80⟩ ∈
      (demoService "10.0.0.1" .ch ["10.0.1.1"]).enabledReals := by decide +kernel
  obtain ⟨keyHash, b, idx, hpick, he⟩ :=
    hr.exists_chPick (by decide +kernel) hreal (by decide +kernel)
  have hch : (demoChOff "10.0.0.1").TcpCh demoEnv (demoOff "10.0.0.1") :=
    ⟨rfl, ⟨.ofIpv4 0x0100000a, 80, IPPROTO_TCP, 4⟩, by decide +kernel, rfl⟩
  refine hleft _ hch rfl keyHash b idx hpick ⟨⟨_, List.mem_cons_self, he⟩, fun real hreal _ => ?_⟩
  obtain rfl := List.mem_singleton.1 hreal
  decide

/-- The last enabled real of a service of consistent hash is disabled: packets still go to it. -/
theorem disabled_real_gets_flow :
    (demoCh "10.0.0.1").setRealState ⟨"10.0.0.1", "10.0.1.1", false⟩ =
      .ok (demoChOff "10.0.0.1") ∧
    (operation 1 demoEnv).Each (fun _ a => a.OneCh) (.fresh 1)
      [.reload (demoCh "10.0.0.1"), .reload (demoChOff "10.0.0.1")] ∧
    ¬(operation 1 demoEnv).Always (Operation.SparesDisabled demoEnv) (.fresh 1)
      [.reload (demoCh "10.0.0.1"), .reload (demoChOff "10.0.0.1")] := by
  have hone := (demoCh_oneCh "10.0.0.1").setRealState (demoCh_setRealState _)
  refine ⟨demoCh_setRealState _, ⟨demoCh_oneCh _, hone, trivial⟩, fun halways => ?_⟩
  obtain ⟨-, inst, hr⟩ := @demoCh_reload (.fresh 1) "10.0.0.1" (.empty _) (by decide +kernel)
  rw [Machine.Always, Machine.Always, Machine.Always] at halways
  exact disabled_real_of_reloaded hr ((Operation.Running.fresh demoEnv 1).next _) halways.2.1
    (hr.place.prepare (by decide +kernel)) halways.2.2

end L4Balancer
