import L4Balancer.Control.MergeTiming

/-!
# Runs with one service

What a run does whose configurations have one service each, of consistent hash, without
evaluating its tables. Whether a reload gets to the update of consistent hash depends on the
buffers and the cursors of round robin only (`SamePositions`), which maintenances leave
alone; the update gives the manager a new instance for the service (`reload_single`), and
as long as it is the only one, ticks only count up its timer (`maintain_many`).
-/

namespace L4Balancer

open Bpf

variable {cpus : ℕ} {env : Env} {config : BaseConfig} {m m' m₁ m₂ : Maps cpus}
  {d d' d₁ d₂ : Dataplane cpus} {service : BalancerService} {s : Operation cpus}

/-! ## Getting to the update of consistent hash -/

/-- `m'` has the buffers of `m` and the cursors of round robin. -/
structure SamePositions (m m' : Maps cpus) : Prop where
  buffers : SameBuffers m m'
  rrIndex : m'.rrIndex = m.rrIndex

namespace SamePositions

theorem trans (h : SamePositions m m₁) (h' : SamePositions m₁ m₂) : SamePositions m m₂ :=
  ⟨h.buffers.trans h'.buffers, h'.rrIndex.trans h.rrIndex⟩

theorem of_frame (h : ChFrame m m') : SamePositions m m' := ⟨h.buffers, h.rrIndex⟩

theorem rrIndex_of_run {w : Write} (hw : w.publishes) (h : w.run m = some m') :
    m'.rrIndex = m.rrIndex := by
  have hws : ∀ w' ∈ [w], w'.publishes := fun w' hw' => List.mem_singleton.1 hw' ▸ hw
  obtain ⟨t, a, rfl⟩ := runWrites_publishes hws (runWrites_cons.2 ⟨m', h, rfl⟩)
  rfl

/-- The writes up to the update of consistent hash do the same. -/
theorem run {w : Write} (hs : SamePositions m₁ m₂) (hw : w.publishes ∨ ∃ key, w = .rrIndex key)
    (h : w.run m₁ = some m) : ∃ m', w.run m₂ = some m' ∧ SamePositions m m' := by
  rcases hw with hw | ⟨key, rfl⟩
  · obtain ⟨m', h', hb⟩ := hs.buffers.run hw h
    exact ⟨m', h', hb, by rw [rrIndex_of_run hw h', rrIndex_of_run hw h, hs.rrIndex]⟩
  · rw [Write.run] at h
    obtain ⟨a, ha, rfl⟩ := Option.map_eq_some_iff.1 h
    refine ⟨{ m₂ with rrIndex := a }, ?_, ⟨hs.buffers.services, hs.buffers.backends,
      hs.buffers.atomicIndex⟩, rfl⟩
    rw [Write.run, hs.rrIndex, ha, Option.map_some]

theorem runWrites {ws : List Write} (hs : SamePositions m₁ m₂)
    (hws : ∀ w ∈ ws, w.publishes ∨ ∃ key, w = .rrIndex key)
    (h : L4Balancer.runWrites m₁ ws = (m, true)) :
    ∃ m', L4Balancer.runWrites m₂ ws = (m', true) ∧ SamePositions m m' := by
  induction ws generalizing m₁ m₂ with
  | nil =>
    obtain ⟨rfl, -⟩ := Prod.mk.inj h
    exact ⟨m₂, rfl, hs⟩
  | cons w ws ih =>
    rw [List.forall_mem_cons] at hws
    obtain ⟨m₃, h₁, h₂⟩ := runWrites_cons.1 h
    obtain ⟨m₄, h₃, hs'⟩ := hs.run hws.1 h₁
    obtain ⟨m', h₄, hs''⟩ := ih hs' hws.2 h₂
    exact ⟨m', runWrites_cons.2 ⟨m₄, h₃, h₄⟩, hs''⟩

theorem write {ws : List Write} {error : String → String} (d₂ : Dataplane cpus)
    (hs : SamePositions d₁.maps d₂.maps) (hws : ∀ w ∈ ws, w.publishes ∨ ∃ key, w = .rrIndex key)
    (h : d₁.write ws error = .ok d) :
    ∃ m, d₂.write ws error = .ok { d₂ with maps := m } ∧ SamePositions d.maps m := by
  obtain ⟨m₁, hm₁, rfl⟩ := Dataplane.write_eq_ok.1 h
  obtain ⟨m₂, hm₂, hs'⟩ := hs.runWrites hws hm₁
  refine ⟨m₂, ?_, hs'⟩
  rw [Dataplane.write, hm₂]

end SamePositions

/-- `d'` is in the positions of `d`: reloads of both get equally far. -/
def SamePlace (d d' : Dataplane cpus) : Prop :=
  SamePositions d.maps d'.maps ∧ d'.isFirstRun = d.isFirstRun

theorem SamePlace.trans (h : SamePlace d d₁) (h' : SamePlace d₁ d₂) : SamePlace d d₂ :=
  ⟨h.1.trans h'.1, h'.2.trans h.2⟩

/-- A reload from the same positions gets to the update of consistent hash, too. -/
theorem SamePlace.prepare (hplace : SamePlace d₁ d₂)
    (h : Except.isOk (d₁.publish env config >>= Dataplane.resetCursors)) :
    Except.isOk (d₂.publish env config >>= Dataplane.resetCursors) := by
  obtain ⟨hs, hfirst⟩ := hplace
  obtain ⟨d₄, h⟩ : ∃ d₄, (d₁.publish env config >>= Dataplane.resetCursors) = .ok d₄ :=
    ⟨_, Outcome.eq_ok h⟩
  obtain ⟨d₃, hpub, hreset⟩ := Dataplane.bind_eq_ok h
  obtain ⟨hload, -⟩ := Dataplane.publish_eq_ok hpub
  -- both write the same batches to the same buffer
  have hindex : d₂.currentIndex = d₁.currentIndex := by
    rw [Dataplane.currentIndex, hfirst, hs.buffers.activeBuffer, Dataplane.currentIndex]
  obtain ⟨e₁, hm₁, hx₁, -, -, he₁⟩ := Dataplane.publish_eq hload d₁
  obtain ⟨e₂, hm₂, hx₂, -, -, he₂⟩ := Dataplane.publish_eq hload d₂
  rw [hindex] at he₂
  rw [he₁] at hpub
  generalize (1 - d₁.currentIndex : Fin 2) = b at hpub he₂
  have hws : ∀ w ∈ d₃.xdp.publishWrites b, w.publishes ∨ ∃ key, w = .rrIndex key :=
    fun w hw => .inl (XdpConfig.publishes_of_mem hw)
  rw [XdpConfig.publishWrites, List.forall_mem_append, List.forall_mem_append] at hws
  obtain ⟨f₁, hw₁, hpub⟩ := Dataplane.bind_eq_ok hpub
  obtain ⟨f₂, hw₂, hw₃⟩ := Dataplane.bind_eq_ok hpub
  have hs₀ : SamePositions e₁.maps e₂.maps := by rwa [hm₁, hm₂]
  obtain ⟨n₁, hn₁, hs₁⟩ := SamePositions.write e₂ hs₀ hws.1.1 hw₁
  obtain ⟨n₂, hn₂, hs₂⟩ := SamePositions.write { e₂ with maps := n₁ } hs₁ hws.1.2 hw₂
  obtain ⟨n₃, hn₃, hs₃⟩ := SamePositions.write { e₂ with maps := n₂ } hs₂ hws.2 hw₃
  have hpub₂ : d₂.publish env config = .ok { e₂ with maps := n₃ } := by
    rw [he₂, hn₁]
    change (({ e₂ with maps := n₁ } : Dataplane cpus).write _ _ >>= _) = _
    rw [hn₂]
    exact hn₃
  have hrr : ∀ w ∈ d₃.xdp.rrWrites, w.publishes ∨ ∃ key, w = .rrIndex key := fun w hw => by
    obtain ⟨key, -, rfl⟩ := List.mem_map.1 hw
    exact .inr ⟨key, rfl⟩
  rw [Dataplane.resetCursors] at hreset
  obtain ⟨f₃, hw₄, -⟩ := Dataplane.bind_eq_ok hreset
  obtain ⟨n₄, hn₄, -⟩ := SamePositions.write { e₂ with maps := n₃ } hs₃ hrr hw₄
  have hreset₂ : Dataplane.resetCursors { e₂ with maps := n₃ } =
      .ok (Dataplane.clearWrrState { e₂ with maps := n₄ }) := by
    rw [← hx₂] at hn₄
    rw [Dataplane.resetCursors]
    dsimp only
    rw [hn₄]
    rfl
  rw [hpub₂]
  change Except.isOk (Dataplane.resetCursors { e₂ with maps := n₃ })
  rw [hreset₂]
  rfl

/-! ## Reloads -/

theorem Dataplane.updateCh_place (d : Dataplane cpus) (env : Env) (service : BalancerService) :
    SamePlace d (d.updateCh env service) := by
  refine ⟨.of_frame (d.updateCh_frame env service).1, ?_⟩
  rw [updateCh]
  split_ifs
  · rfl
  · cases d.chPublication env service <;> rfl
  · rfl

theorem OnlyStats.place (h : OnlyStats d d') : SamePlace d d' := by
  obtain ⟨a, b, rfl⟩ := h
  exact ⟨⟨⟨fun _ => rfl, fun _ => rfl, rfl⟩, rfl⟩, rfl⟩

/-- The dataplane that a reload has prepared for the update of consistent hash. -/
def Dataplane.prepared (d : Dataplane cpus) (env : Env) (config : BaseConfig) : Dataplane cpus :=
  Outcome.dataplane (d.publish env config >>= resetCursors)

/-- An instance that has just got its backends, which fit the maps. -/
structure ConsistentHashInstance.Updated (xxh3 : Xxh3) (inst : ConsistentHashInstance) : Prop where
  tables : DualTables xxh3 {} inst
  nonempty : inst.backends ≠ []
  length : inst.backends.length ≤ 257
  needsMerge : inst.needsMerge = true
  mergeTimer : inst.mergeTimer = 0

/-- The update of the consistent hash of one service. -/
theorem Dataplane.updateCh_single (hsound : d.chManager.Sound env.xxh3) (hhas : d.HasCh env service)
    (hfits : (service.chBackends env d.xdp.backends).length ≤ 257) :
    ∃ inst : ConsistentHashInstance, inst.Updated env.xxh3 ∧
      (d.updateCh env service).chManager =
        ⟨d.chManager.services.insert (service.chKey env) inst⟩ := by
  obtain ⟨inst, hu, ht, hb, -, hmerge, htimer⟩ :=
    hsound.updateServiceBackends (service.chKey env) hhas.2
  refine ⟨inst, ⟨ht, hb ▸ hhas.2, hb ▸ hfits, hmerge, htimer⟩, ?_⟩
  rw [updateCh, if_pos hhas.1, if_neg hhas.2, chPublication, hu]

/-- What a reload with one service of consistent hash does: the manager gets a new instance. -/
structure ReloadedSingle (env : Env) (config : BaseConfig) (service : BalancerService)
    (s s' : Operation cpus) (inst : ConsistentHashInstance) : Prop where
  manager : s'.dataplane.chManager =
    ⟨s.dataplane.chManager.services.insert (service.chKey env) inst⟩
  inst : inst.Updated env.xxh3
  place : SamePlace (s.dataplane.prepared env config) s'.dataplane
  reloaded : Operation.Reloaded env config s s'
  intact : s'.intact = true

theorem reload_single (hsound : s.dataplane.chManager.Sound env.xxh3)
    (hservices : config.services = [service]) (hlive : service.LiveCh)
    (hfits : service.reals.length ≤ 257)
    (hok : Except.isOk (s.dataplane.publish env config >>= Dataplane.resetCursors)) :
    (s.reload env config).1 = true ∧
      ∃ inst, ReloadedSingle env config service s (s.reload env config).2 inst := by
  have hmem : service ∈ config.services := by simp [hservices]
  have hintact : (s.reload env config).2.intact = true := by
    refine Operation.reload_intact hsound (fun service' hs _ => ?_) hok
    rw [hservices, List.mem_singleton] at hs
    exact hs ▸ hfits
  have hr := Operation.reloaded_of_intact hsound hintact
  have hprepared := Outcome.eq_ok hok
  rw [← Dataplane.prepared] at hprepared
  obtain ⟨hload, hconfig, hmanager⟩ := Dataplane.prepare_eq_ok hprepared
  rw [Operation.reload, hprepared] at hr hintact ⊢
  generalize hdef : s.dataplane.prepared env config = d at hload hconfig hmanager hr hintact ⊢
  -- the update of the one service is the whole update
  have hall : d.updateAllCh env = d.updateCh env service := by
    rw [Dataplane.updateAllCh, hconfig, hservices]
    rfl
  have hhas : d.HasCh env service := ⟨hlive.1, mt (chBackends_eq_nil hload hmem).1 hlive.2⟩
  have hlen : (service.chBackends env d.xdp.backends).length ≤ 257 := by
    rw [← (chBackends_reals hload hmem).length_eq]
    exact service.length_enabledReals_le.trans hfits
  obtain ⟨inst, hinst, hmgr⟩ := Dataplane.updateCh_single (hmanager.symm ▸ hsound) hhas hlen
  have hstats := OnlyStats.resetStats (d.updateAllCh env).clearSessions
  refine ⟨hintact, inst, ⟨?_, hinst, ?_, hr, hintact⟩⟩
  · rw [hstats.keepsCh.1, ← hmanager, ← hmgr, ← hall]
    rfl
  · rw [hdef]
    refine .trans ?_ hstats.place
    rw [hall]
    have hclear : SamePlace (d.updateCh env service) (d.updateCh env service).clearSessions :=
      ⟨⟨⟨fun _ => rfl, fun _ => rfl, rfl⟩, rfl⟩, rfl⟩
    exact (d.updateCh_place env service).trans hclear

/-- After the reload, some hash leads to an enabled real that is the first one with its address. -/
theorem ReloadedSingle.exists_chPick {s' : Operation cpus} {inst : ConsistentHashInstance}
    (hr : ReloadedSingle env config service s s' inst) (hservice : config.lastCh = some service)
    {real : BalancerReal} (hreal : real ∈ service.enabledReals)
    (hfirst : config.firstAt env real = some real) :
    ∃ keyHash b idx, s'.maps.chPick keyHash = some (b, idx) ∧
      real.endpoint env = some b.endpoint := by
  rcases hr.reloaded.tables with ⟨hnone, -⟩ | ⟨service', p, hlast, -, ht, hp, hw⟩
  · cases hservice.symm.trans hnone
  obtain rfl := Option.some.inj (hservice.symm.trans hlast)
  obtain ⟨hmem, -⟩ := BaseConfig.lastCh_spec hservice
  have hload := hr.reloaded.dataplane.load
  obtain ⟨i, hi⟩ := List.mem_iff_getElem?.1 hreal
  obtain ⟨b, hb, hback⟩ := getElem?_of_forall₂ (chBackends_reals hload hmem) hi
  obtain ⟨first, hf, hrep, he⟩ := FirstBackend.represents hload hback
  obtain rfl := Option.some.inj (hfirst.symm.trans hf)
  obtain ⟨keyHash, hpick⟩ := (hw hr.intact).exists_chPick ht (hp ▸ hb)
    (hrep.active.2 (BalancerService.mem_enabledReals.1 hreal).2)
  exact ⟨keyHash, b, _, hpick, he⟩

/-! ## Maintenances -/

/-- The only instance of the manager waits for its merge. -/
structure Operation.Waiting (xxh3 : Xxh3) (key : ServiceKey) (ticks : ℕ) (s : Operation cpus)
    (inst : ConsistentHashInstance) : Prop where
  entries : s.dataplane.chManager.services.entries = [⟨key, inst⟩]
  tables : DualTables xxh3 {} inst
  nonempty : inst.backends ≠ []
  length : inst.backends.length ≤ 257
  needsMerge : inst.needsMerge = true
  mergeTimer : inst.mergeTimer.toNat = ticks

namespace Operation.Waiting

variable {xxh3 : Xxh3} {key : ServiceKey} {ticks : ℕ} {inst : ConsistentHashInstance}

theorem aged (h : s.Waiting xxh3 key ticks inst) (hticks : ticks < 180) : Aged {} ticks inst where
  config_eq := h.tables.config_eq
  needsMerge := iff_of_true h.needsMerge hticks
  mergeTimer _ := h.mergeTimer

/-- The merge is due at the tick 180. -/
theorem due_iff (h : s.Waiting xxh3 key ticks inst) (hticks : ticks < 180) :
    inst.due = true ↔ ticks = 179 := by
  rw [(h.aged hticks).due_iff]
  exact Nat.succ_inj

theorem not_due (h : s.Waiting xxh3 key ticks inst) (hticks : ticks < 179) : inst.due = false :=
  Bool.eq_false_iff.2 fun hdue => hticks.ne ((h.due_iff (by omega)).1 hdue)

theorem sound (h : s.Waiting xxh3 key ticks inst) : s.dataplane.chManager.Sound xxh3 := by
  intro e he
  rw [h.entries, List.mem_singleton] at he
  rw [he]
  exact ⟨h.tables, h.nonempty⟩

theorem dueInstances (h : s.Waiting xxh3 key ticks inst) :
    s.dataplane.chManager.dueInstances = if inst.due then [⟨key, inst⟩] else [] := by
  rw [ConsistentHashManager.dueInstances, h.entries, List.mergeSort_singleton, List.filter_singleton]
  cases inst.due <;> rfl

/-- Before that a maintenance counts the timer up. -/
theorem maintain (h : s.Waiting xxh3 key ticks inst) (env : Env) (hticks : ticks < 179) :
    (operation cpus env).out .maintain s = true ∧
      SamePlace s.dataplane ((operation cpus env).next .maintain s).dataplane ∧
      ∃ inst', ((operation cpus env).next .maintain s).Waiting xxh3 key (ticks + 1) inst' := by
  have hdue := h.not_due hticks
  have haged := (h.aged (by omega)).tickMergeTimer
  have hmerge : inst.tickMergeTimer.2.needsMerge = true :=
    haged.needsMerge.2 (by change ticks + 1 < 180; omega)
  obtain ⟨hentries, hps⟩ := ConsistentHashManager.periodicMaintenance_single h.entries
  rw [inst.tickMergeTimer_fst, hdue, if_neg Bool.false_ne_true] at hps
  have hstep : (operation cpus env).step .maintain s = (true, ⟨{ s.dataplane with
      chManager := s.dataplane.chManager.periodicMaintenance.1 }, s.loaded, s.intact,
      s.published⟩) := by
    change s.maintain = _
    rw [Operation.maintain]
    dsimp only
    rw [hps]
    rfl
  rw [Machine.out, Machine.next, hstep]
  refine ⟨rfl, ⟨⟨.refl _, rfl⟩, rfl⟩, inst.tickMergeTimer.2, hentries, h.tables.tickMergeTimer,
    ?_, ?_, hmerge, haged.mergeTimer hmerge⟩
  · exact (ConsistentHashManager.Sound.tick (h.sound ⟨key, inst⟩ (by simp [h.entries]))).2
  · rw [backends_tickMergeTimer]
    exact h.length

/-- So do several. -/
theorem maintain_many (h : s.Waiting xxh3 key ticks inst) (env : Env) {n : ℕ} (hn : ticks + n ≤ 179) :
    (operation cpus env).Each (fun s a => a.OneCh ∧ (operation cpus env).out a s = true) s
        (.replicate n .maintain) ∧
      SamePlace s.dataplane ((operation cpus env).exec s (.replicate n .maintain)).dataplane ∧
      ∃ inst', ((operation cpus env).exec s (.replicate n .maintain)).Waiting xxh3 key
        (ticks + n) inst' := by
  induction n generalizing s ticks inst with
  | zero => exact ⟨trivial, ⟨⟨.refl _, rfl⟩, rfl⟩, inst, h⟩
  | succ n ih =>
    obtain ⟨hok, hplace, inst', h'⟩ := h.maintain env (by omega)
    obtain ⟨hoks, hplaces, inst'', h''⟩ := ih h' (by omega)
    rw [List.replicate_succ, Machine.exec]
    refine ⟨⟨⟨trivial, hok⟩, hoks⟩, hplace.trans hplaces, inst'', ?_⟩
    rwa [Nat.add_comm n, ← Nat.add_assoc]

end Operation.Waiting

/-- The first service that a manager gets waits for its merge. -/
theorem ReloadedSingle.waiting {s' : Operation cpus} {inst : ConsistentHashInstance}
    (h : ReloadedSingle env config service s s' inst)
    (hempty : s.dataplane.chManager.services.entries = []) :
    s'.Waiting env.xxh3 (service.chKey env) 0 inst := by
  obtain ⟨ht, hne, hlen, hmerge, htimer⟩ := h.inst
  refine ⟨?_, ht, hne, hlen, hmerge, by rw [htimer]; rfl⟩
  rw [h.manager]
  exact entries_insert (.inl hempty) inst

/-! ## A service of consistent hash -/

/-- One service with one real. -/
def demoCh (vip : String) : BaseConfig where
  services := [demoService vip .ch ["10.0.1.1"]]

theorem demoCh_live (vip : String) : (demoService vip .ch ["10.0.1.1"]).LiveCh :=
  ⟨rfl, by simp [BalancerService.enabledReals, demoService]⟩

theorem demoCh_oneCh (vip : String) : (demoCh vip).OneCh := by
  simp [BaseConfig.OneCh, demoCh, demoService]

/-- Loading it into a manager that is sound. -/
theorem demoCh_reload {s : Operation 1} {vip : String}
    (hsound : s.dataplane.chManager.Sound demoEnv.xxh3)
    (hok : Except.isOk (s.dataplane.publish demoEnv (demoCh vip) >>= Dataplane.resetCursors)) :
    (operation 1 demoEnv).out (.reload (demoCh vip)) s = true ∧
      ∃ inst, ReloadedSingle demoEnv (demoCh vip) (demoService vip .ch ["10.0.1.1"]) s
        ((operation 1 demoEnv).next (.reload (demoCh vip)) s) inst :=
  reload_single hsound rfl (demoCh_live vip) (by simp [demoService]) hok

end L4Balancer
