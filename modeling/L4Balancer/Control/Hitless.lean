import Mathlib.Tactic.IntervalCases
import L4Balancer.Control.Containment
import L4Balancer.Control.Publication

/-!
# Packets during a reload

Whether the packets that come during a reload go to backends that the old or the new
configuration lists for their service. The flip changes both sets at once, but the
sessions, the cursors and the tables of consistent hash follow later: until then they
hold positions of the old backends. A packet is safe if what it meets fits the
configuration of the active buffer (`Fits`); then it goes to a backend of one of the
two configurations (`hitless_of_fits`).

For consistent hash, this takes an invariant over the whole reload (`ChServing`): the
tables name backends that one of the configurations lists for the service, as they
did before the reload, as long as it publishes no other service.
-/

namespace L4Balancer

open Bpf

variable {cpus : ℕ} {env : Env} {config : BaseConfig} {L : Backend → Prop} {m m' : Maps cpus}
  {d d' : Dataplane cpus} {p q : Process cpus} {key : ServiceKey}

/-- The configuration lists the address of the backend for a service with the key. -/
def BaseConfig.Lists (env : Env) (config : BaseConfig) (key : ServiceKey) (b : Backend) : Prop :=
  ∃ service ∈ config.services, service.prepareKey env = .ok key ∧
    ∃ real ∈ service.reals, real.HasAddress env b

instance (b : Backend) : Decidable (config.Lists env key b) :=
  inferInstanceAs (Decidable (∃ service ∈ _, _ ∧ ∃ real ∈ _, _))

theorem OwnReal.lists {info : ServiceInfo} {b : Backend} {idx : UInt32}
    (h : OwnReal env config key info b idx) : config.Lists env key b := by
  obtain ⟨service, hmem, hkey, real, hreal, htrans⟩ := h.real
  exact ⟨service, hmem, hkey, real, List.mem_of_getElem? hreal, htrans.hasAddress⟩

/-! ## The tables of consistent hash during a reload -/

/-- The task, if it comes to the tables of consistent hash, keeps them such that they name backends
    with `L`. -/
def Task.Serves (env : Env) (config : BaseConfig) (L : Backend → Prop) (m : Maps cpus) :
    Task → Prop
  | write w _ | delete w => w.isCh = false
  | loadIndex env' => env' = env
  | service env' svc => env' = env ∧ svc ∈ config.services
  | publication ws => ∃ D, ChGood L D m ∧ SafeWrites L D ws
  | ddosCfg _ | drainWrrState | drainSessions => True

theorem Task.Serves.mono {t : Task} (ht : t.Serves env config L m)
    (h : ∀ D, ChGood L D m → ChGood L D m') : t.Serves env config L m' := by
  cases t with
  | publication ws =>
    obtain ⟨D, hgood, hsafe⟩ := ht
    exact ⟨D, h D hgood, hsafe⟩
  | _ => exact ht

/-- The tasks of a reload serve. -/
theorem Dataplane.reloadTasks_serve (hconfig : d.currConfig = config) (b : Fin 2) :
    ∀ t ∈ d.reloadTasks env b, t.Serves env config L m := by
  intro t ht
  simp only [reloadTasks, List.mem_append, List.mem_cons, List.mem_map, XdpConfig.rrWrites,
    XdpConfig.backendWrites, XdpConfig.serviceWrites] at ht
  rcases ht with (⟨w, hw, rfl⟩ | ⟨w, ⟨e, -, rfl⟩, rfl⟩) | rfl |
    ((⟨w, ⟨k, -, rfl⟩, rfl⟩ | rfl | ⟨s, hs, rfl⟩) | rfl | ⟨i, -, rfl⟩) | ⟨k, -, rfl⟩
  · obtain ⟨j, a, rfl⟩ := mem_writesFrom hw
    rfl
  · rfl
  · rfl
  · rfl
  · trivial
  · exact ⟨rfl, hconfig ▸ hs⟩
  · trivial
  · rfl
  · rfl

/-- What is kept of the tables: `m'` names backends with `L`, and has those that `m` has. -/
structure ChKept (L : Backend → Prop) (m m' : Maps cpus) : Prop where
  serves : ChServes L m'
  good : ∀ D, ChGood L D m → ChGood L D m'

theorem ChKept.of_eq (h : ChServes L m) (hlookup : m'.chCurrLookup = m.chCurrLookup)
    (hbackends : m'.chBackends = m.chBackends) : ChKept L m m' :=
  ⟨h.congr hlookup hbackends, fun D hgood => by rwa [ChGood, hbackends]⟩

theorem ChKept.refl (h : ChServes L m) : ChKept L m m := .of_eq h rfl rfl

theorem ChKept.of_call {errno : Option String} {w : Write} (h : ChServes L m) (hw : w.isCh = false)
    (hcall : w.call errno m = .ok m') : ChKept L m m' := by
  obtain ⟨hlookup, hbackends⟩ := Write.tables_of_run hw (Write.run_of_call hcall)
  exact .of_eq h hlookup hbackends

theorem ChGood.adds {D : Set ℕ} {w : Write} (hw : w.SafeIn L D) (h : w.run m = some m') {D' : Set ℕ}
    (hgood : ChGood L D' m) : ChGood L D' m' := by
  cases w with
  | chBackend i b =>
    obtain ⟨a, ha, rfl⟩ := Option.map_eq_some_iff.1 h
    intro j hj
    dsimp only
    rw [ArrayMap.lookup_of_update ha]
    split_ifs
    · exact ⟨b, rfl, hw⟩
    · exact hgood j hj
  | chConfig | chCurrLookup | chPrevLookup =>
    obtain ⟨a, -, rfl⟩ := Option.map_eq_some_iff.1 h
    exact hgood
  | _ => cases hw

/-- The next task publishes a service of consistent hash that does not have the key. -/
def Process.publishesOther (key : ServiceKey) (p : Process cpus) : Event cpus → Bool
  | .task _ =>
    match p.tasks with
    | .service env svc :: _ =>
      svc.type = .ch ∧ svc.chBackends env p.dataplane.xdp.backends ≠ [] ∧
        svc.prepareKey env ≠ .ok key
    | _ => false
  | _ => false

/-- A task keeps the tables; a service of consistent hash is to be listed with `L`. -/
theorem Task.Serves.step {t : Task} {errno : Option String} {r : Except String (List Task)}
    (ht : t.Serves env config L d.maps) (hconfig : d.currConfig = config)
    (hs : ChServes L d.maps)
    (hsvc : ∀ env' svc, t = .service env' svc → svc.type = .ch →
      ∀ b ∈ svc.chBackends env' d.xdp.backends, L b)
    (h : t.step errno d = (d', r)) : d'.currConfig = d.currConfig ∧ ChKept L d.maps d'.maps ∧
      ∀ new, r = .ok new → ∀ t ∈ new, t.Serves env config L d'.maps := by
  have hstep := TaskStep.of_step errno d t
  rw [h] at hstep
  cases hstep with
  | idle hnew =>
    refine ⟨rfl, .refl hs, fun new hr t ht => ?_⟩
    rw [hnew new hr] at ht
    cases ht
  | ddosCfg | remove => exact ⟨rfl, .refl hs, by simp⟩
  | write hw => exact ⟨rfl, .of_call hs ht hw, by simp⟩
  | delete hw => exact ⟨rfl, .of_call hs ht hw, by simp⟩
  | @loadIndex env' b =>
    obtain rfl : env' = env := ht
    refine ⟨rfl, .refl hs, fun new hnew => ?_⟩
    obtain rfl := Except.ok.inj hnew
    exact Dataplane.reloadTasks_serve hconfig b
  | drainWrrState | drainSessions =>
    refine ⟨rfl, .refl hs, fun new hnew => ?_⟩
    obtain rfl := Except.ok.inj hnew
    simp [Serves, Write.isCh]
  | @service env' svc _ p hch hne hp =>
    refine ⟨rfl, .refl hs, fun new hnew t ht => ?_⟩
    obtain rfl := Except.ok.inj hnew
    obtain rfl := List.mem_singleton.1 ht
    exact ⟨∅, fun i hi => absurd hi (Set.notMem_empty i),
      ConsistentHashManager.safeWrites hne (hsvc env' svc rfl hch) hp⟩
  | @skip w ws hu =>
    obtain ⟨D, hgood, hsafe⟩ := ht
    refine ⟨rfl, .refl hs, fun new hnew t ht => ?_⟩
    obtain rfl := Except.ok.inj hnew
    obtain rfl := List.mem_singleton.1 ht
    -- only the number of backends may be skipped
    have hadds : w.adds D = D := by
      cases w <;> first | rfl | cases hu
    exact ⟨D, hgood, hadds ▸ hsafe.2⟩
  | publish hw =>
    obtain ⟨D, hgood, hsafe⟩ := ht
    have hrun := Write.run_of_call hw
    obtain ⟨hgood', hs'⟩ := hsafe.1.run hgood hs hrun
    refine ⟨rfl, ⟨hs', fun D' => ChGood.adds hsafe.1 hrun⟩, fun new hnew t ht => ?_⟩
    obtain rfl := Except.ok.inj hnew
    obtain rfl := List.mem_singleton.1 ht
    exact ⟨_, hgood', hsafe.2⟩

/-- The tables name backends with `L`, and the tasks of the reload with `config` will keep it so. -/
structure ChServing (env : Env) (config : BaseConfig) (L : Backend → Prop) (p : Process cpus) :
    Prop where
  currConfig : p.dataplane.currConfig = config
  serves : ChServes L p.maps
  tasks : ∀ t ∈ p.tasks, t.Serves env config L p.maps

namespace ChServing

theorem begin (h : ChServes L p.maps) (hidle : p.tasks = []) :
    ChServing env config L ((reloader cpus).next (.reload env config) p) := by
  rw [Machine.next, Process.step_reload hidle, Process.reload]
  rcases config.load env with ⟨xdp, _ | e⟩
  · refine ⟨rfl, h, fun t ht => ?_⟩
    rcases List.mem_append.1 ht with ht | ht
    · obtain ⟨conf, -, rfl⟩ := List.mem_map.1 ht
      trivial
    · rw [List.mem_singleton.1 ht]
      rfl
  · exact ⟨rfl, h, by simp⟩

theorem step (h : ChServing env config L q)
    (hL : ∀ b, config.Lists env key b → L b) {e : Event cpus} (he : e.isReload = false)
    (hother : q.publishesOther key e = false) :
    ChServing env config L ((reloader cpus).next e q) := by
  cases e with
  | packet c =>
    have ht := tables_finder c q.maps
    have hkept : ChKept L q.maps ((finder cpus).next c q.maps) :=
      .of_eq h.serves (Maps.chCurrLookup_congr ht) (Maps.chBackends_congr ht)
    exact ⟨h.currConfig, hkept.serves, fun t ht => (h.tasks t ht).mono hkept.good⟩
  | reload => cases he
  | task errno =>
    change ChServing env config L (q.step errno).2
    cases htasks : q.tasks with
    | nil =>
      rw [Process.step, htasks]
      exact h
    | cons t tasks =>
      rw [Process.step, htasks]
      dsimp only
      have ht := h.tasks t (htasks ▸ List.mem_cons_self)
      have hsvc : ∀ env' svc, t = .service env' svc → svc.type = .ch →
          ∀ b ∈ svc.chBackends env' q.dataplane.xdp.backends, L b := by
        rintro env' svc rfl hch b hb
        obtain ⟨rfl, hmem⟩ := ht
        rw [Process.publishesOther, htasks] at hother
        have hkey : svc.prepareKey env' = .ok key := by
          by_contra hkey
          have hne := List.ne_nil_of_mem hb
          simp [hch, hne, hkey] at hother
        obtain ⟨real, hreal, -, haddr⟩ := BalancerService.mem_chBackends hb
        exact hL b ⟨svc, hmem, hkey, real, hreal, haddr⟩
      rcases hstep : t.step errno q.dataplane with ⟨d, e | new⟩
      · obtain ⟨hconfig, hkept, -⟩ := ht.step h.currConfig h.serves hsvc hstep
        exact ⟨hconfig.trans h.currConfig, hkept.serves, by simp⟩
      · obtain ⟨hconfig, hkept, hnew⟩ := ht.step h.currConfig h.serves hsvc hstep
        refine ⟨hconfig.trans h.currConfig, hkept.serves, fun t' ht' => ?_⟩
        rcases List.mem_append.1 ht' with ht' | ht'
        · exact hnew new rfl t' ht'
        · exact (h.tasks t' (htasks ▸ List.mem_cons_of_mem _ ht')).mono hkept.good

theorem run (h : ChServing env config L q) (hL : ∀ b, config.Lists env key b → L b)
    {es : List (Event cpus)} (hes : ∀ e ∈ es, e.isReload = false)
    (hother : (reloader cpus).Each (fun q e => q.publishesOther key e = false) q es) :
    ChServing env config L ((reloader cpus).exec q es) := by
  induction es generalizing q with
  | nil => exact h
  | cons e es ih =>
    exact ih (h.step hL (hes e List.mem_cons_self) hother.1)
      (fun e he => hes e (List.mem_cons_of_mem _ he)) hother.2

end ChServing

/-! ## Packets that fit -/

/-- The configuration of the active buffer during a reload that found the maps `m₀`. -/
def current (m₀ m : Maps cpus) (old new : Env × BaseConfig) : Env × BaseConfig :=
  if m.activeBuffer = m₀.activeBuffer then old else new

/-- One of the two configurations lists the backend for a service with the key. -/
def ListedBy (old new : Env × BaseConfig) (key : ServiceKey) (b : Backend) : Prop :=
  old.2.Lists old.1 key b ∨ new.2.Lists new.1 key b

instance (old new : Env × BaseConfig) (b : Backend) : Decidable (ListedBy old new key b) :=
  inferInstanceAs (Decidable (_ ∨ _))

/-- The maps after the events `pre` of a reload. -/
def mapsAfter (p : Process cpus) (new : Env × BaseConfig) (pre : List (Event cpus)) : Maps cpus :=
  ((reloader cpus).exec p (.reload new.1 new.2 :: pre)).maps

/-- What a packet meets after the events `pre` of a reload from `old` to `new` fits the
    configuration of the active buffer. -/
structure Fits (old new : Env × BaseConfig) (p : Process cpus) (pre : List (Event cpus))
    (c : Call cpus) : Prop where
  /-- The service that is matched is one of the configuration. -/
  key : c.key ∈ (mapsAfter p new pre).activeServices.keys →
    c.key ∈ (current p.maps (mapsAfter p new pre) old new).2.keys
      (current p.maps (mapsAfter p new pre) old new).1
  /-- The session that is found has an index of the block of the service. -/
  session : ∀ tc state, c = .tcp tc → tc.HitsBy (mapsAfter p new pre) state →
    ∃ info, (mapsAfter p new pre).activeServices.lookup c.key = some info ∧
      info.Holds state.backendIdx
  /-- Round robin has reals to choose from. -/
  rr : ∀ r ∈ c.reaches (mapsAfter p new pre), r.1.algorithm = BALANCER_RR →
    r.1.backendCount ≠ 0 ∨ 1024 ≤ r.1.backendStartIdx.toNat
  /-- The cursor of weighted round robin is one of the block of the service. -/
  wrr : ∀ r ∈ c.reaches (mapsAfter p new pre), r.1.algorithm = BALANCER_WRR →
    ∀ st ∈ (mapsAfter p new pre).wrrStateMap.lookup c.key, st.Within r.1
  /-- The tables of consistent hash were those of the service before the reload, and the reload has
      not published another one. -/
  ch : ∀ r ∈ c.reaches (mapsAfter p new pre), r.1.algorithm = BALANCER_CH →
    ∀ tc, c = .tcp tc → ChServes (ListedBy old new c.key) p.maps ∧
      (reloader cpus).Each (fun q e => q.publishesOther c.key e = false) p
        (.reload new.1 new.2 :: pre)

variable {hist : List (Env × BaseConfig)} {old new : Env × BaseConfig} {es : List (Event cpus)}

/-- The entries of the configuration that is active during the reload. -/
theorem History.entry_current (h : History cpus (hist ++ [old]) p) (hidle : p.tasks = [])
    (hes : ∀ e ∈ es, e.isReload = false)
    (hk : key ∈ (current p.maps (mapsAfter p new es) old new).2.keys
      (current p.maps (mapsAfter p new es) old new).1) :
    ∃ env config i service info,
      (∀ b, config.Lists env key b → ListedBy old new key b) ∧
      config.services[i]? = some service ∧ service.prepareKey env = .ok key ∧
      (mapsAfter p new es).activeServices.lookup key = some info ∧
      Entry env config (mapsAfter p new es) i service info ∧ info.Fits := by
  have hphase := (Phase.begin new.1 new.2 hidle h.activeBuffer_of_isFirstRun).run hes
  have hcases : Spares p.maps.target p.maps (mapsAfter p new es) ∨ ∃ xdp,
      new.2.load new.1 = (xdp, none) ∧ Published xdp p.maps.target p.maps (mapsAfter p new es) :=
    hphase.spares_or_published
  rcases hcases with hs | ⟨xdp, hload, hpub⟩
  · -- before the flip: the entries of the old configuration, where it was published
    rw [current, if_pos hs.active] at hk
    obtain ⟨xdp, buffer, m₀, hload, hpub⟩ := h.published
    obtain ⟨i, service, info, hi, hprep, hlookup, hentry⟩ :=
      hpub.entry hload ((BaseConfig.mem_load_keys hload).2 hk)
    refine ⟨old.1, old.2, i, service, info, fun b => .inl, hi, hprep, ?_, ?_,
      hentry.fits hload hpub hi⟩
    · rw [hs.activeServices p.maps.activeBuffer_ne_target, hlookup]
    · refine { hentry with reals := fun k real hreal => ?_ }
      rw [hs.activeBackends p.maps.activeBuffer_ne_target]
      exact hentry.reals k real hreal
  · have hne : (mapsAfter p new es).activeBuffer ≠ p.maps.activeBuffer := fun he =>
      p.maps.activeBuffer_ne_target (he.symm.trans hpub.active)
    rw [current, if_neg hne] at hk
    obtain ⟨i, service, info, hi, hprep, hlookup, hentry⟩ :=
      hpub.entry hload ((BaseConfig.mem_load_keys hload).2 hk)
    exact ⟨new.1, new.2, i, service, info, fun b => .inr, hi, hprep, hlookup, hentry,
      hentry.fits hload hpub hi⟩

/-- The block of the service that a packet that fits is matched with. -/
theorem Fits.block {c : Call cpus} (hf : Fits old new p es c)
    (h : History cpus (hist ++ [old]) p) (hidle : p.tasks = [])
    (hes : ∀ e ∈ es, e.isReload = false) {info : ServiceInfo}
    (hl : (mapsAfter p new es).activeServices.lookup c.key = some info) : info.Fits ∧
      ∀ idx b, info.Holds idx → (mapsAfter p new es).activeBackends.lookup idx.toNat = some b →
        ListedBy old new c.key b := by
  have hk := hf.key (HashMap.mem_keys.2 (Option.isSome_of_eq_some hl))
  obtain ⟨env, config, i, service, info', hlists, hi, hprep, hl', he, hfits⟩ :=
    h.entry_current hidle hes hk
  obtain rfl := Option.some.inj (hl.symm.trans hl')
  exact ⟨hfits, fun idx b hholds hb => hlists b (he.ownReal hi hprep hholds hb).lists⟩

/-- A packet that fits goes to a backend of one of the configurations. -/
theorem Fits.listed {c : Call cpus} (hf : Fits old new p es c)
    (h : History cpus (hist ++ [old]) p) (hidle : p.tasks = [])
    (hes : ∀ e ∈ es, e.isReload = false) {b : Backend}
    (hout : (finder cpus).out c (mapsAfter p new es) = some b) : ListedBy old new c.key b := by
  rcases Call.out_cases hout with ⟨tc, state, rfl, hhit, hb⟩ |
    ⟨info, last, m₁, hreach, ⟨idx, hmem⟩ | ⟨tc, idx, rfl, hch, hpick⟩⟩
  · obtain ⟨info, hlookup, hholds⟩ := hf.session tc state rfl hhit
    exact (hf.block h hidle hes hlookup).2 _ b hholds hb
  · obtain ⟨hlookup, hm₁⟩ := Call.reaches_spec hreach
    obtain ⟨hfits, hown⟩ := hf.block h hidle hes hlookup
    rw [Call.handlerCalls, hreach] at hmem
    obtain ⟨r, hr, he⟩ := List.mem_map.1 hmem
    obtain rfl : r = (some b, idx) := (Prod.mk.inj he).2
    have hnames := handlerCalls_names hr rfl
    by_cases hwrr : info.algorithm = BALANCER_WRR
    · have hstate : m₁.wrrStateMap = (mapsAfter p new es).wrrStateMap := by
        rcases hm₁ with rfl | ⟨tc, state, hl⟩
        · rfl
        · cases hl <;> rfl
      have hcur : Cursors [] (HashMap.empty.put c.key info) m₁ :=
        .single (by rw [hstate]; exact hf.wrr _ hreach hwrr)
      have hput : (HashMap.empty.put c.key info : HashMap ServiceKey ServiceInfo 256).lookup c.key =
          some info := by
        rw [HashMap.lookup_put (.inr (by decide)), if_pos rfl]
      rcases hcur.handlerCalls hput hfits _ hr _ rfl with hholds | ⟨hrr, -, -⟩
      · exact hown _ b hholds hnames
      · exact absurd (hwrr.symm.trans hrr) (by decide)
    · by_cases hrr : info.algorithm = BALANCER_RR
      · rw [handlerCalls, if_pos hrr] at hr
        have hcalls := (loop_induct (P := fun _ => True) (Q := fun _ idx => info.Holds idx ∨
          info.backendCount = 0 ∧ idx = info.backendStartIdx) (fun last m b idx m' _ hh =>
            ⟨trivial, fun b' hb => rrBalancerHandle_holds hfits (hb ▸ hh)⟩) trivial).2 _ hr _ rfl
        rcases hcalls with hholds | ⟨hc, hidx⟩
        · exact hown _ b hholds hnames
        · have hlt := ArrayMap.lt_of_lookup hnames
          rw [hidx] at hlt
          exact absurd (hf.rr _ hreach hrr) (by simp [hc, hlt])
      · rw [handlerCalls, if_neg hrr, if_neg hwrr] at hr
        cases hr
  · obtain ⟨hserves, hother⟩ := hf.ch _ hreach hch tc rfl
    have hbegin : ChServing new.1 new.2 _ _ := .begin hserves hidle
    have hrun := hbegin.run (fun b => .inr) hes hother.2
    exact hrun.serves.pick hpick

/-- Hitless reload. Along a reload from a loaded configuration to a new one, if what every packet that
    gets a backend meets fits the configuration of the active buffer, then every packet that is
    forwarded goes to a backend that one of the two configurations lists for its service. -/
theorem hitless_of_fits (h : History cpus (hist ++ [old]) p) (hidle : p.tasks = [])
    (hes : ∀ e ∈ es, e.isReload = false)
    (hfits : ∀ n c, es[n]? = some (.packet c) →
      ((finder cpus).out c (mapsAfter p new (es.take n))).isSome → Fits old new p (es.take n) c) :
    ∀ n c b, es[n]? = some (.packet c) →
      (finder cpus).out c (mapsAfter p new (es.take n)) = some b → ListedBy old new c.key b :=
  fun n c _ hn hout => (hfits n c hn (Option.isSome_of_eq_some hout)).listed h hidle
    (fun e he => hes e (List.mem_of_mem_take he)) hout

def demoTwo : BaseConfig where
  services := [demoService "10.0.0.1" .rr ["10.0.1.1"], demoService "10.0.0.2" .rr ["10.0.1.2"]]

def demoTwoSwapped : BaseConfig where
  services := [demoService "10.0.0.2" .rr ["10.0.1.2"], demoService "10.0.0.1" .rr ["10.0.1.1"]]

/-- The process that has loaded `demoTwo`. -/
theorem History.demoTwo : History 1 ([] ++ [(demoEnv, demoTwo)]) (demoProcess [L4Balancer.demoTwo]) :=
  .demo [] _ .fresh rfl (by decide +kernel)

/-- Two new connections while the services change places, before the flip and after it. -/
theorem hitless_of_fits_demo :
    let es : List (Event 1) := .packet (.tcp (demoCall 0 1 true)) :: List.replicate 6 (.task none) ++
      [.packet (.tcp (demoCall 0 2 true))]
    ∀ n c b, es[n]? = some (.packet c) →
      (finder 1).out c (mapsAfter (demoProcess [demoTwo]) (demoEnv, demoTwoSwapped) (es.take n)) =
        some b → ListedBy (demoEnv, demoTwo) (demoEnv, demoTwoSwapped) c.key b := by
  intro es
  refine hitless_of_fits .demoTwo (by decide +kernel) (by decide) fun n c hn _ => ?_
  have hcases : n = 0 ∧ .tcp (demoCall 0 1 true) = c ∨ n = 7 ∧ .tcp (demoCall 0 2 true) = c := by
    have hlt : n < 8 := (List.getElem?_eq_some_iff.1 hn).1
    interval_cases n <;> simp_all [es]
  rcases hcases with ⟨rfl, rfl⟩ | ⟨rfl, rfl⟩
  all_goals
    refine ⟨fun _ => by decide +kernel, fun tc state htc hhit => ?_, by decide +kernel,
      by decide +kernel, fun r hr hch => ?_⟩
    · obtain rfl := Call.tcp.inj htc
      cases hhit.1
    · refine absurd hch ?_
      clear hch
      revert r
      decide +kernel

/-- A connection to the first service, and a reload that puts the services in another order: between
    the flip and the end of the sessions, the connection goes to the real of the other service. -/
theorem session_crosses_flip : ∃ (p : Process 1) (pre post : List (Event 1)) (c : Call 1) (b : Backend),
    History 1 [(demoEnv, demoTwo)] p ∧ p.tasks = [] ∧
    (finder 1).out c (mapsAfter p (demoEnv, demoTwoSwapped) pre) = some b ∧
    ¬ListedBy (demoEnv, demoTwo) (demoEnv, demoTwoSwapped) c.key b ∧
    -- the reload goes on to its statistics: all the calls before them succeed
    ((reloader 1).exec p (.reload demoEnv demoTwoSwapped :: (pre ++ .packet c :: post))).tasks.length =
      4 := by
  refine ⟨(reloader 1).next (.packet (.tcp (demoCall 0 1 true))) (demoProcess [demoTwo]),
    List.replicate 6 (.task none), List.replicate 8 (.task none), .tcp (demoCall 1 1 false),
    ⟨.ofIpv4 0x0201000a, 80, 2, 1, 4, 1⟩, .packet _ .demoTwo, by decide +kernel, by decide +kernel,
    by decide +kernel, by decide +kernel⟩

end L4Balancer
