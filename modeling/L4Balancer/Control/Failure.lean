import L4Balancer.Control.Distinct

/-!
# Failed reloads

What a reload that fails before its flip leaves. The sets that packets read are the old
ones. But `m_currConfig` and the vectors, from which the metrics take the names of backends
and services, are overwritten before the first system call, and `ddos_cfg` by the first one
(`record_reload`). So a failed reload leaves no trace exactly if these are no changes
(`failed_reload_iff`).
-/

namespace L4Balancer

open Bpf

variable {cpus : ℕ} {env : Env} {config : BaseConfig} {d d' d₁ : Dataplane cpus}
  {p : Process cpus} {errno : Option String}

/-! ## What a reload keeps of its configuration -/

/-- The configuration, the vectors and the settings of the SYN filter are the same. -/
structure SameRecord (d d' : Dataplane cpus) : Prop where
  currConfig : d'.currConfig = d.currConfig
  xdp : d'.xdp = d.xdp
  ddosCfg : d'.ddos.ddosCfg = d.ddos.ddosCfg

namespace SameRecord

theorem refl (d : Dataplane cpus) : SameRecord d d := ⟨rfl, rfl, rfl⟩

theorem trans (h : SameRecord d d₁) (h' : SameRecord d₁ d') : SameRecord d d' where
  currConfig := h'.currConfig.trans h.currConfig
  xdp := h'.xdp.trans h.xdp
  ddosCfg := h'.ddosCfg.trans h.ddosCfg

end SameRecord

/-- A task other than the update of `ddos_cfg`. -/
def Task.Plain : Task → Prop
  | ddosCfg _ => False
  | _ => True

/-- Such a task keeps the record, and adds only such tasks. -/
theorem Task.Plain.step {t : Task} {r : Except String (List Task)} (ht : t.Plain)
    (h : t.step errno d = (d', r)) :
    SameRecord d d' ∧ ∀ new, r = .ok new → ∀ t ∈ new, t.Plain := by
  have hstep := TaskStep.of_step errno d t
  rw [h] at hstep
  cases hstep with
  | idle hnew =>
    refine ⟨.refl _, fun new hr t ht => ?_⟩
    rw [hnew new hr] at ht
    cases ht
  | ddosCfg => cases ht
  | write | delete | remove => exact ⟨⟨rfl, rfl, rfl⟩, by simp⟩
  | loadIndex =>
    refine ⟨⟨rfl, rfl, rfl⟩, fun new hnew t ht => ?_⟩
    obtain rfl := Except.ok.inj hnew
    simp only [Dataplane.reloadTasks, List.mem_append, List.mem_cons, List.mem_map] at ht
    rcases ht with (⟨w, -, rfl⟩ | ⟨w, -, rfl⟩) | rfl |
      ((⟨w, -, rfl⟩ | rfl | ⟨s, -, rfl⟩) | rfl | ⟨i, -, rfl⟩) | ⟨key, -, rfl⟩ <;> trivial
  | drainWrrState | drainSessions | service | skip | publish =>
    refine ⟨⟨rfl, rfl, rfl⟩, fun new hnew t ht => ?_⟩
    obtain rfl := Except.ok.inj hnew
    simp only [List.mem_cons, List.not_mem_nil, or_false] at ht
    rcases ht with rfl | rfl <;> trivial

/-- An event keeps the record, if the tasks that are left do. -/
theorem Process.plain_next (hp : ∀ t ∈ p.tasks, t.Plain) {e : Event cpus}
    (he : e.isReload = false) :
    SameRecord p.dataplane ((reloader cpus).next e p).dataplane ∧
      ∀ t ∈ ((reloader cpus).next e p).tasks, t.Plain := by
  cases e with
  | packet c => exact ⟨⟨rfl, rfl, rfl⟩, hp⟩
  | reload => cases he
  | task errno =>
    have hnext : (reloader cpus).next (.task errno) p = (p.step errno).2 := rfl
    rw [hnext, Process.step]
    cases htasks : p.tasks with
    | nil => exact ⟨.refl _, by simp [htasks]⟩
    | cons t tasks =>
      rw [htasks, List.forall_mem_cons] at hp
      dsimp only
      rcases hstep : t.step errno p.dataplane with ⟨d, e | new⟩
      · exact ⟨(hp.1.step hstep).1, by simp⟩
      · obtain ⟨hsame, hnew⟩ := hp.1.step hstep
        exact ⟨hsame, List.forall_mem_append.2 ⟨hnew new rfl, hp.2⟩⟩

theorem Process.plain_exec (hp : ∀ t ∈ p.tasks, t.Plain) {es : List (Event cpus)}
    (hes : ∀ e ∈ es, e.isReload = false) :
    SameRecord p.dataplane ((reloader cpus).exec p es).dataplane := by
  induction es generalizing p with
  | nil => exact .refl _
  | cons e es ih =>
    rw [List.forall_mem_cons] at hes
    obtain ⟨hsame, hplain⟩ := Process.plain_next hp hes.1
    exact hsame.trans (ih hplain hes.2)

/-! ## The whole reload -/

/-- How a system call of the reload has ended. -/
def Event.errno? : Event cpus → Option (Option String)
  | .task errno => some errno
  | _ => none

/-- The first system call of the run succeeds. -/
def FirstCallSucceeds (es : List (Event cpus)) : Prop := (es.filterMap Event.errno?).head? = some none

/-- The update of `ddos_cfg` is the first of the tasks: it is made if the first call succeeds. -/
theorem Process.ddosCfg_exec {conf : DDoSConfig} (hp : p.tasks = [.ddosCfg conf, .loadIndex env])
    {es : List (Event cpus)} (hes : ∀ e ∈ es, e.isReload = false) :
    (FirstCallSucceeds es → SameRecord (p.dataplane.updateDdosCfg (some conf))
      ((reloader cpus).exec p es).dataplane) ∧
    (¬FirstCallSucceeds es → SameRecord p.dataplane ((reloader cpus).exec p es).dataplane) := by
  induction es generalizing p with
  | nil =>
    refine ⟨fun h => ?_, fun _ => .refl _⟩
    cases h
  | cons e es ih =>
    rw [List.forall_mem_cons] at hes
    cases e with
    | packet c =>
      obtain ⟨hupdated, hsame⟩ := @ih ((reloader cpus).next (.packet c) p) hp hes.2
      refine ⟨fun h => .trans ?_ (hupdated h), fun h => .trans ?_ (hsame h)⟩ <;>
        exact ⟨rfl, rfl, rfl⟩
    | reload => cases hes.1
    | task errno =>
      -- this is the call; the rest of the reload does not touch the settings
      have hnext : (reloader cpus).next (.task errno) p = (p.step errno).2 := rfl
      rw [Machine.exec, hnext, Process.step, hp]
      cases errno with
      | none =>
        refine ⟨fun _ => ?_, fun h => absurd rfl h⟩
        exact Process.plain_exec (p := ⟨p.dataplane.updateDdosCfg (some conf), [.loadIndex env]⟩)
          (by simp [Task.Plain]) hes.2
      | some e =>
        refine ⟨fun h => ?_, fun _ => ?_⟩
        · cases h
        · exact Process.plain_exec (p := ⟨p.dataplane, []⟩) (by simp) hes.2

/-- What a reload keeps of its configuration, however it ends. -/
theorem record_reload (hidle : p.tasks = []) {es : List (Event cpus)}
    (hes : ∀ e ∈ es, e.isReload = false) :
    let d' := ((reloader cpus).exec p (.reload env config :: es)).dataplane
    d'.currConfig = config ∧ d'.xdp = (config.load env).1 ∧
      (config.Resolves env ∧ FirstCallSucceeds es → ∀ conf, config.ddosConf = some conf →
        d'.ddos.ddosCfg = p.dataplane.ddos.ddosCfg.put 0 conf.entry) ∧
      (¬(config.Resolves env ∧ FirstCallSucceeds es) ∨ config.ddosConf = none →
        d'.ddos.ddosCfg = p.dataplane.ddos.ddosCfg) := by
  have hnext : (reloader cpus).next (.reload env config) p = (p.reload env config).2 := by
    rw [Machine.next, Process.step_reload hidle]
  rw [Machine.exec, hnext, Process.reload, ← BaseConfig.load_eq_none]
  rcases config.load env with ⟨xdp, _ | e⟩
  · -- the settings of the filter are the first call of the reload
    dsimp only
    cases hconf : config.ddosConf with
    | none =>
      have h := @Process.plain_exec cpus
        ⟨{ p.dataplane with currConfig := config, xdp := xdp }, [.loadIndex env]⟩
        (by simp [Task.Plain]) es hes
      exact ⟨h.currConfig, h.xdp, by simp, fun _ => h.ddosCfg⟩
    | some conf =>
      obtain ⟨hupdated, hsame⟩ := @Process.ddosCfg_exec cpus env
        ⟨{ p.dataplane with currConfig := config, xdp := xdp }, [.ddosCfg conf, .loadIndex env]⟩
        conf rfl es hes
      by_cases hfirst : FirstCallSucceeds es
      · have h := hupdated hfirst
        refine ⟨h.currConfig, h.xdp, fun _ conf' hc => ?_, fun hn => ?_⟩
        · obtain rfl := Option.some.inj hc
          exact h.ddosCfg
        · simp [hfirst] at hn
      · have h := hsame hfirst
        exact ⟨h.currConfig, h.xdp, by simp [hfirst], fun _ => h.ddosCfg⟩
  · -- the reload has ended before its first call
    have h := @Process.plain_exec cpus
      ⟨{ p.dataplane with currConfig := config, xdp := xdp }, []⟩ (by simp) es hes
    exact ⟨h.currConfig, h.xdp, by simp, fun _ => h.ddosCfg⟩

/-! ## The vectors -/

/-- The backends are those of the reals, with `k` backends before them: their translations, over IPv4
    with what the memory held in the rest of the address. -/
inductive PreparesReals (env : Env) (service : BalancerService) :
    (k : ℕ) → List BalancerReal → List Backend → Prop
  | nil {k : ℕ} : PreparesReals env service k [] []
  | cons {k : ℕ} {real : BalancerReal} {reals : List BalancerReal} {b : Backend}
      {backends : List Backend} : Translation env service real b →
      (real.ipVersion = 4 → b.ip = (env.uninit k).withIpv4 b.ip.ipv4) →
      PreparesReals env service (k + 1) reals backends →
      PreparesReals env service k (real :: reals) (b :: backends)

/-- The vectors are those of the services and the reals before the first one that cannot be
    prepared: a VIP that does not convert, or a real that does not or that has no MAC. There are
    `start` backends and `serviceIdx` services before them. -/
inductive Prepares (env : Env) : (start serviceIdx : ℕ) → List BalancerService → XdpConfig → Prop
  | all {start serviceIdx : ℕ} : Prepares env start serviceIdx [] ⟨[], [], []⟩
  | vip {start serviceIdx : ℕ} {service : BalancerService} {services : List BalancerService} :
      env.address service.ipVersion service.vip = none →
      Prepares env start serviceIdx (service :: services) ⟨[], [], []⟩
  | real {start serviceIdx : ℕ} {service : BalancerService} {services : List BalancerService}
      {key : ServiceKey} {reals rest : List BalancerReal} {real : BalancerReal}
      {backends : List Backend} : service.prepareKey env = .ok key →
      service.reals = reals ++ real :: rest →
      PreparesReals env service start reals backends → (∀ b, ¬Translation env service real b) →
      Prepares env start serviceIdx (service :: services) ⟨backends, [key], []⟩
  | service {start serviceIdx : ℕ} {service : BalancerService} {services : List BalancerService}
      {key : ServiceKey} {backends : List Backend} {xdp : XdpConfig} :
      service.prepareKey env = .ok key →
      PreparesReals env service start service.reals backends →
      Prepares env (start + backends.length) (serviceIdx + 1) services xdp →
      Prepares env start serviceIdx (service :: services) ⟨backends ++ xdp.backends,
        key :: xdp.keys, ⟨.ofNat backends.length, .ofNat start, service.type.toUInt8,
          .ofNat serviceIdx⟩ :: xdp.services⟩

theorem PreparesReals.translation {service : BalancerService} {k : ℕ} {reals : List BalancerReal}
    {backends : List Backend} (h : PreparesReals env service k reals backends) :
    List.Forall₂ (Translation env service) reals backends := by
  induction h with
  | nil => exact .nil
  | cons hb _ _ ih => exact .cons hb ih

/-- A real that cannot be prepared has no translation. -/
theorem exists_translation_iff {service : BalancerService} {real : BalancerReal} {k : ℕ} :
    (∃ b, Translation env service real b) ↔ ∃ b, service.prepareReal env k real = .ok b := by
  constructor
  · rintro ⟨b, ⟨addr, haddr, -⟩, hmac, -⟩
    rw [BalancerService.prepareReal, haddr, hmac]
    exact ⟨_, rfl⟩
  · rintro ⟨b, hb⟩
    exact ⟨b, BalancerService.translation_of_prepareReal hb⟩

namespace BalancerService

variable {service : BalancerService} {reals : List BalancerReal} {backends : List Backend} {k : ℕ}

/-- The loop over the reals goes on behind those that can be prepared. -/
theorem loadReals_append (h : PreparesReals env service k reals backends)
    (rest : List BalancerReal) : service.loadReals env k (reals ++ rest) =
      (backends ++ (service.loadReals env (k + backends.length) rest).1,
        (service.loadReals env (k + backends.length) rest).2) := by
  induction h with
  | nil => rfl
  | cons hb huninit _ ih =>
    rw [List.cons_append, loadReals, prepareReal_eq_ok.2 ⟨hb, huninit⟩, ih, List.length_cons,
      Nat.add_right_comm, Nat.add_assoc]
    rfl

theorem loadReals_of_prepares (h : PreparesReals env service k reals backends) :
    service.loadReals env k reals = (backends, none) := by
  have happend := loadReals_append h []
  rwa [List.append_nil, loadReals, List.append_nil] at happend

/-- A real that cannot be prepared ends the loop. -/
theorem loadReals_cons_error {real : BalancerReal} (h : ∀ b, ¬Translation env service real b)
    (k : ℕ) (rest : List BalancerReal) :
    ∃ e, service.loadReals env k (real :: rest) = ([], some e) := by
  rw [loadReals]
  cases hreal : service.prepareReal env k real with
  | error e => exact ⟨e, rfl⟩
  | ok b => exact absurd (translation_of_prepareReal hreal) (h b)

/-- The loop ends at the first real that cannot be prepared, if at all. -/
theorem loadReals_cases (env : Env) (service : BalancerService) (k : ℕ) (reals : List BalancerReal) :
    PreparesReals env service k reals (service.loadReals env k reals).1 ∨
    ∃ done real rest, reals = done ++ real :: rest ∧
      PreparesReals env service k done (service.loadReals env k reals).1 ∧
      ∀ b, ¬Translation env service real b := by
  induction reals generalizing k with
  | nil => exact .inl .nil
  | cons real reals ih =>
    rw [loadReals]
    cases hreal : service.prepareReal env k real with
    | error e =>
      refine .inr ⟨[], real, reals, rfl, .nil, fun b hb => ?_⟩
      obtain ⟨b', hb'⟩ := (exists_translation_iff (k := k)).1 ⟨b, hb⟩
      rw [hb'] at hreal
      cases hreal
    | ok b =>
      obtain ⟨hb, huninit⟩ := prepareReal_eq_ok.1 hreal
      rcases ih (k + 1) with h | ⟨done, real', rest, rfl, h, hnone⟩
      · exact .inl (.cons hb huninit h)
      · exact .inr ⟨real :: done, real', rest, rfl, .cons hb huninit h, hnone⟩

end BalancerService

theorem prepares_loadServices (env : Env) (start serviceIdx : ℕ) (services : List BalancerService) :
    Prepares env start serviceIdx services (loadServices env start serviceIdx services).1 := by
  induction services generalizing start serviceIdx with
  | nil => exact .all
  | cons service services ih =>
    rw [loadServices]
    cases hkey : service.prepareKey env with
    | error e =>
      refine .vip ?_
      cases haddr : env.address service.ipVersion service.vip with
      | none => rfl
      | some vip => rw [BalancerService.prepareKey, haddr] at hkey; cases hkey
    | ok key =>
      rcases service.loadReals_cases env start service.reals with
        h | ⟨done, real, rest, hreals, h, hnone⟩
      · rw [BalancerService.loadReals_of_prepares h]
        exact .service hkey h (ih _ _)
      · have happend := BalancerService.loadReals_append h (real :: rest)
        obtain ⟨e, he⟩ := BalancerService.loadReals_cons_error hnone _ rest
        rw [← hreals, he, List.append_nil] at happend
        rw [happend]
        exact .real hkey hreals h hnone

/-- There is one way to prepare. -/
theorem Prepares.eq {start serviceIdx : ℕ} {services : List BalancerService} {xdp : XdpConfig}
    (h : Prepares env start serviceIdx services xdp) :
    xdp = (loadServices env start serviceIdx services).1 := by
  induction h with
  | all => rfl
  | vip hvip => rw [loadServices, BalancerService.prepareKey, hvip]
  | @real _ _ service _ key reals rest real _ hkey hreals h hnone =>
    obtain ⟨e, he⟩ := BalancerService.loadReals_cons_error hnone _ rest
    rw [loadServices, hkey, hreals, BalancerService.loadReals_append h, he]
    simp
  | service hkey h _ ih =>
    rw [loadServices, hkey, BalancerService.loadReals_of_prepares h]
    dsimp only
    rw [ih]

/-- The vectors that the loops build. -/
theorem prepares_iff {xdp : XdpConfig} :
    Prepares env 0 0 config.services xdp ↔ (config.load env).1 = xdp :=
  ⟨fun h => h.eq.symm, fun h => h ▸ prepares_loadServices env 0 0 config.services⟩

/-! ## Failures before the flip -/

/-- The reload returns an error, and has not changed the active buffer. -/
def FailsBeforeFlip (env : Env) (config : BaseConfig) (p : Process cpus) (es : List (Event cpus)) :
    Prop :=
  (∃ e, .returned (some e) ∈ (reloader cpus).outs p (.reload env config :: es)) ∧
    ((reloader cpus).exec p (.reload env config :: es)).maps.activeBuffer = p.maps.activeBuffer

/-- The reload changes nothing that it writes before its flip: its configuration is the current one,
    the vectors already hold what can be prepared of it, and, if the update of `ddos_cfg` is made,
    this entry is already there. -/
structure Repeats (env : Env) (config : BaseConfig) (es : List (Event cpus)) (d : Dataplane cpus) :
    Prop where
  currConfig : d.currConfig = config
  vectors : Prepares env 0 0 config.services d.xdp
  ddosCfg : config.Resolves env → FirstCallSucceeds es → ∀ conf, config.ddosConf = some conf →
    d.ddos.ddosCfg.get 0 = conf.entry

/-- Failed reloads leave no trace. From every state that packets and reloads lead to, and for every
    reload that fails before its flip, with packets at any time: packets still read the old sets, and
    the configuration, the vectors and `ddos_cfg` are as before exactly if the reload repeats what
    they already hold. -/
theorem failed_reload_iff {es₀ : List (Event cpus)} (hp : (reloader cpus).exec (.fresh cpus) es₀ = p)
    (hidle : p.tasks = []) {es : List (Event cpus)} (hes : ∀ e ∈ es, e.isReload = false)
    (hfails : FailsBeforeFlip env config p es) :
    let q := (reloader cpus).exec p (.reload env config :: es)
    (q.maps.activeServices = p.maps.activeServices ∧ q.maps.activeBackends = p.maps.activeBackends) ∧
    (SameRecord p.dataplane q.dataplane ↔ Repeats env config es p.dataplane) := by
  have hsound : p.Sound := hp ▸ Process.Sound.exec cpus es₀
  constructor
  · have hphase := (Phase.begin env config hidle hsound.activeBuffer_of_isFirstRun).run hes
    rcases hphase.spares_or_published with hspares | ⟨xdp, -, hpub⟩
    · exact ⟨hspares.activeServices p.maps.activeBuffer_ne_target,
        hspares.activeBackends p.maps.activeBuffer_ne_target⟩
    · -- it has flipped after all
      exact absurd (hfails.2.symm.trans hpub.active) p.maps.activeBuffer_ne_target
  · obtain ⟨hconfig, hxdp, hupdated, hsame⟩ := record_reload hidle hes
    constructor
    · intro h
      refine ⟨h.currConfig.symm.trans hconfig, prepares_iff.2 (hxdp.symm.trans h.xdp),
        fun hr hf conf hconf => (ArrayMap.put_eq_self_iff zero_lt_one).1 ?_⟩
      rw [← hupdated ⟨hr, hf⟩ conf hconf]
      exact h.ddosCfg
    · intro h
      refine ⟨hconfig.trans h.currConfig.symm, hxdp.trans (prepares_iff.1 h.vectors), ?_⟩
      by_cases hw : config.Resolves env ∧ FirstCallSucceeds es
      · cases hconf : config.ddosConf with
        | none => exact hsame (.inr hconf)
        | some conf =>
          have hentry := h.ddosCfg hw.1 hw.2 conf hconf
          exact (hupdated hw conf hconf).trans ((ArrayMap.put_eq_self_iff zero_lt_one).2 hentry)
      · exact hsame (.inl hw)

/-- Loading a configuration again, which fails at its first call. -/
theorem failed_reload_demo : SameRecord (demoProcess [demoConfig]).dataplane
    ((reloader 1).exec (demoProcess [demoConfig])
      [.reload demoEnv demoConfig, .task (some "EIO")]).dataplane := by
  have hes : ∀ e ∈ List.replicate 24 (.task none : Event 1), e.isReload = false := by
    simp [Event.isReload]
  obtain ⟨hconfig, hxdp, -⟩ := @record_reload 1 demoEnv demoConfig (.fresh 1) rfl _ hes
  have hfails : FailsBeforeFlip demoEnv demoConfig (demoProcess [demoConfig]) [.task (some "EIO")] :=
    ⟨⟨"failed to load current index for reload config", by decide +kernel⟩, by decide +kernel⟩
  exact (@failed_reload_iff 1 demoEnv demoConfig (demoProcess [demoConfig])
    (.reload demoEnv demoConfig :: List.replicate 24 (.task none)) rfl (by decide +kernel) _
    (by simp [Event.isReload]) hfails).2.2
    ⟨hconfig, prepares_iff.2 hxdp.symm, fun _ hfirst => by cases hfirst⟩

/-- A reload that fails at a real without a MAC. -/
theorem failed_reload_traces : (demoProcess [demoConfig]).tasks = [] ∧
    FailsBeforeFlip demoEnv demoUnreachable (demoProcess [demoConfig]) [] ∧
    ¬SameRecord (demoProcess [demoConfig]).dataplane
      ((reloader 1).exec (demoProcess [demoConfig]) [.reload demoEnv demoUnreachable]).dataplane := by
  refine ⟨by decide +kernel, ⟨⟨_, List.mem_cons_self⟩, by decide +kernel⟩, fun h => ?_⟩
  exact absurd h.currConfig (by decide +kernel)

end L4Balancer
