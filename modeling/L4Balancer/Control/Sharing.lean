import L4Balancer.Control.Addressed
import L4Balancer.Control.Operation

/-!
# Sharing the maps of consistent hash

The manager keeps an instance for each service of consistent hash, but the services have one
set of maps: after the first reload it holds the backends of the last service that has an
enabled real, and packets to any of them are forwarded to these. The services keep to their
own reals exactly if each of them has what the last one has (`serves_own_iff`).
-/

namespace L4Balancer

open Bpf

variable {cpus : ℕ} {env : Env} {config : BaseConfig} {m m' : Maps cpus} {s : Operation cpus}

/-- The pure SYNs to services of consistent hash go to enabled reals of these. -/
def ServesOwn (env : Env) (config : BaseConfig) (m : Maps cpus) : Prop :=
  ∀ c : TcpCall cpus, c.OfFrame → c.tcp.pureSyn →
    ∀ service, config.serviceAt env c.key = some service → service.type = .ch →
      ∀ b, (finder cpus).out (.tcp c) m = some b →
        ∃ real ∈ service.enabledReals, real.endpoint env = some b.endpoint

/-- The services of consistent hash have the reals of the last one: every enabled real of it has
    the address of an enabled real of each of them, or the first real of all with this address is
    disabled. -/
def BaseConfig.SharesReals (env : Env) (config : BaseConfig) : Prop :=
  ∀ last, config.lastCh = some last → ∀ service, config.TcpCh env service →
    ∀ real ∈ last.enabledReals, ∀ first, config.firstAt env real = some first → first.enabled →
      ∃ own ∈ service.enabledReals, own.endpoint env = real.endpoint env

theorem Positioned.servesOwn_iff [NeZero cpus] (h : Positioned env config m) :
    ServesOwn env config m ↔ ∀ service, config.TcpCh env service →
      ∀ keyHash b idx, m.chPick keyHash = some (b, idx) →
        ∃ real ∈ service.enabledReals, real.endpoint env = some b.endpoint := by
  constructor
  · intro hown service hch
    refine (h.forall_syn_iff hch _).1 fun c hframe hsyn hs => ?_
    exact hown c hframe hsyn service hs hch.1
  · intro hown c hframe hsyn service hs htype
    have hch : config.TcpCh env service := ⟨htype, c.key, hs, hframe.protocol⟩
    exact (h.forall_syn_iff hch _).2 (hown service hch) c hframe hsyn hs

/-! ## The maps -/

/-- Before the first reload the maps have nothing. -/
theorem chPick_fresh (keyHash : UInt32) : (Maps.fresh cpus).chPick keyHash = none := rfl

/-- The backends of the enabled reals of a service, as far as they are active. -/
theorem forall_chBackends_iff {xdp : XdpConfig} {last : BalancerService}
    (hload : config.load env = (xdp, none)) (hmem : last ∈ config.services)
    {P : Option (UInt8 × Addr) → Prop} :
    (∀ (k : ℕ) (b : Backend), (last.chBackends env xdp.backends)[k]? = some b → b.active ≠ 0 →
        P (some b.endpoint)) ↔
      ∀ real ∈ last.enabledReals, ∀ first, config.firstAt env real = some first → first.enabled →
        P (real.endpoint env) := by
  have hreals := chBackends_reals hload hmem
  constructor
  · intro h real hreal first hfirst henabled
    obtain ⟨k, hk⟩ := List.mem_iff_getElem?.1 hreal
    obtain ⟨b, hb, hback⟩ := getElem?_of_forall₂ hreals hk
    obtain ⟨first', hfirst', hrep, he⟩ := hback.represents hload
    obtain rfl := Option.some.inj (hfirst.symm.trans hfirst')
    rw [he]
    exact h k b hb (hrep.active.2 henabled)
  · intro h k b hb hactive
    obtain ⟨real, hk, hback⟩ := getElem?_of_forall₂ hreals.flip hb
    obtain ⟨first, hfirst, hrep, he⟩ := FirstBackend.represents hload hback
    rw [← he]
    exact h real (List.mem_of_getElem? hk) first hfirst (hrep.active.1 hactive)

/-- After a reload before which the maps had nothing, whatever packets came since. -/
theorem Operation.Reloaded.servesOwn_iff [NeZero cpus] {s' : Operation cpus}
    (h : Reloaded env config s s') (hok : s'.intact)
    (hnothing : ∀ keyHash, s.maps.chPick keyHash = none) (cs : List (Call cpus)) :
    ServesOwn env config ((finder cpus).exec s'.maps cs) ↔ config.SharesReals env := by
  rw [((Positioned.of_loaded h.dataplane).exec cs).servesOwn_iff]
  simp only [chPick_exec]
  rcases h.tables with ⟨hnone, hsame, -⟩ | ⟨last, p, hlast, -, ht, hp, hw⟩
  · -- no service has an enabled real: the maps still have nothing
    refine iff_of_true (fun service _ keyHash b idx hpick => ?_) fun last hlast => ?_
    · rw [hsame.chPick, hnothing] at hpick
      cases hpick
    · cases hnone.symm.trans hlast
  · obtain ⟨hmem, -⟩ := BaseConfig.lastCh_spec hlast
    -- what every service gets is what the last one has published
    have hservice : ∀ service : BalancerService, _ ↔ _ := fun service =>
      ((hw hok).forall_chPick_iff ht (P := fun b _ =>
        ∃ real ∈ service.enabledReals, real.endpoint env = some b.endpoint)).trans
        (hp ▸ forall_chBackends_iff h.dataplane.load hmem (P := fun e =>
          ∃ own ∈ service.enabledReals, own.endpoint env = e))
    constructor
    · intro hown last' hlast' service hch
      obtain rfl := Option.some.inj (hlast.symm.trans hlast')
      exact (hservice service).1 (hown service hch)
    · exact fun hshares service hch => (hservice service).2 (hshares last hlast service hch)

/-- Isolation of the services of consistent hash. After a first reload whose writes succeed, and
    whatever packets came since, the pure SYNs to services of consistent hash go to enabled reals
    of these exactly if the services have the reals of the last one. -/
theorem serves_own_iff [NeZero cpus] (hok : ((Operation.fresh cpus).reload env config).2.intact)
    (cs : List (Call cpus)) :
    ServesOwn env config
        ((finder cpus).exec ((Operation.fresh cpus).reload env config).2.maps cs) ↔
      config.SharesReals env :=
  (Operation.reloaded_of_intact (.empty _) hok).servesOwn_iff hok chPick_fresh cs

/-- Two services with the same real. -/
def demoShared : BaseConfig where
  services := [demoService "10.0.0.1" .ch ["10.0.1.1"], demoService "10.0.0.2" .ch ["10.0.1.1"]]

theorem demoShared_sharesReals : demoShared.SharesReals demoEnv := by
  rintro last hlast service ⟨-, key, hs, -⟩ real hreal - - -
  have hall : ∀ service ∈ demoShared.services, ∀ last ∈ demoShared.services,
      ∀ real ∈ last.enabledReals, real ∈ service.enabledReals := by decide +kernel
  have hmem := BaseConfig.serviceAt_mem hs
  exact ⟨real, hall service hmem last (BaseConfig.lastCh_spec hlast).1 real hreal, rfl⟩

theorem serves_own_demo : ServesOwn demoEnv demoShared
    ((finder 1).exec ((Operation.fresh 1).reload demoEnv demoShared).2.maps
      [.tcp (demoCall 0 1 true)]) :=
  (serves_own_iff (Operation.reload_intact (.empty _) (by decide) (by decide +kernel)) _).2
    demoShared_sharesReals

/-- Two services with a real each. -/
def demoApart : BaseConfig where
  services := [demoService "10.0.0.1" .ch ["10.0.1.1"], demoService "10.0.0.2" .ch ["10.0.1.2"]]

theorem demoApart_not_sharesReals : ¬demoApart.SharesReals demoEnv := by
  intro h
  have hch : demoApart.TcpCh demoEnv (demoService "10.0.0.1" .ch ["10.0.1.1"]) :=
    ⟨rfl, ⟨.ofIpv4 0x0100000a, 80, IPPROTO_TCP, 4⟩, by decide +kernel, rfl⟩
  have hlast : demoApart.lastCh = some (demoService "10.0.0.2" .ch ["10.0.1.2"]) := by
    decide +kernel
  obtain ⟨own, hown, he⟩ := h _ hlast _ hch ⟨"10.0.1.2", true, 1, 4, 80⟩ (by decide +kernel)
    ⟨"10.0.1.2", true, 1, 4, 80⟩ (by decide +kernel) rfl
  have hne : ∀ own ∈ (demoService "10.0.0.1" .ch ["10.0.1.1"]).enabledReals,
      own.endpoint demoEnv ≠ BalancerReal.endpoint demoEnv ⟨"10.0.1.2", true, 1, 4, 80⟩ := by
    decide +kernel
  exact hne own hown he

/-- The packets to the first one go to the real of the second one. -/
theorem other_real_served : ((Operation.fresh 1).reload demoEnv demoApart).2.intact ∧
    ¬ServesOwn demoEnv demoApart ((Operation.fresh 1).reload demoEnv demoApart).2.maps := by
  have hok : ((Operation.fresh 1).reload demoEnv demoApart).2.intact :=
    Operation.reload_intact (.empty _) (by decide) (by decide +kernel)
  have hiff := (Operation.reloaded_of_intact (.empty _) hok).servesOwn_iff hok chPick_fresh []
  rw [Machine.exec] at hiff
  exact ⟨hok, fun hown => demoApart_not_sharesReals (hiff.1 hown)⟩

end L4Balancer
