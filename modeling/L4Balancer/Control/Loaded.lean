import L4Balancer.Control.Invisible

/-!
# After a reload

What a `ReloadConfig` leaves whose calls up to the statistics succeed, and which no
packet interrupts (`Loaded`): the configuration is published, every service of it has
a cursor of round robin, and there are neither cursors of weighted round robin nor
sessions. The writes of consistent hash in between touch their own maps only
(`ChFrame`).
-/

namespace L4Balancer

open Bpf

variable {cpus : ℕ} {env : Env} {config : BaseConfig} {m m' m₁ m₂ : Maps cpus}
  {d d' d₁ d₂ : Dataplane cpus}

/-! ## The maps of consistent hash -/

/-- `m'` differs from `m` at most in the maps of consistent hash, as far as the choice of a backend
    is concerned. -/
structure ChFrame (m m' : Maps cpus) : Prop where
  buffers : SameBuffers m m'
  rrIndex : m'.rrIndex = m.rrIndex
  wrrStateMap : m'.wrrStateMap = m.wrrStateMap
  tcpSessionState : m'.tcpSessionState = m.tcpSessionState

namespace ChFrame

theorem refl (m : Maps cpus) : ChFrame m m := ⟨.refl m, rfl, rfl, rfl⟩

theorem trans (h : ChFrame m m₁) (h' : ChFrame m₁ m₂) : ChFrame m m₂ where
  buffers := h.buffers.trans h'.buffers
  rrIndex := h'.rrIndex.trans h.rrIndex
  wrrStateMap := h'.wrrStateMap.trans h.wrrStateMap
  tcpSessionState := h'.tcpSessionState.trans h.tcpSessionState

theorem of_run {w : Write} (h : w.run m = some m') (hw : w.isCh) : ChFrame m m' := by
  have hbuffers := SameBuffers.of_run h (Write.publishes_of_isCh hw)
  cases w with
  | chConfig | chBackend | chCurrLookup | chPrevLookup =>
    obtain ⟨a, -, rfl⟩ := Option.map_eq_some_iff.1 h
    exact ⟨hbuffers, rfl, rfl, rfl⟩
  | _ => cases hw

theorem of_updateChBpfMaps {ws : List Write} (hws : ∀ w ∈ ws, w.isCh) :
    ChFrame m (updateChBpfMaps m ws).1 := by
  induction ws generalizing m with
  | nil => exact .refl m
  | cons w ws ih =>
    have ih := fun m => ih (m := m) fun w hw => hws w (List.mem_cons_of_mem _ hw)
    rw [updateChBpfMaps]
    cases hw : w.run m with
    | none =>
      dsimp only
      split_ifs
      · exact ih m
      · exact .refl m
    | some m₁ => exact (of_run hw (hws w List.mem_cons_self)).trans (ih m₁)

end ChFrame

namespace Dataplane

theorem updateCh_frame (d : Dataplane cpus) (env : Env) (service : BalancerService) :
    ChFrame d.maps (d.updateCh env service).maps ∧
      (d.updateCh env service).xdp = d.xdp ∧
      (d.updateCh env service).currConfig = d.currConfig := by
  rw [updateCh]
  split_ifs
  · exact ⟨.refl _, rfl, rfl⟩
  · split
    · exact ⟨.refl _, rfl, rfl⟩
    · rename_i p _
      exact ⟨.of_updateChBpfMaps p.isCh_of_mem, rfl, rfl⟩
  · exact ⟨.refl _, rfl, rfl⟩

theorem foldl_updateCh_frame (d : Dataplane cpus) (env : Env) (services : List BalancerService) :
    ChFrame d.maps (services.foldl (·.updateCh env ·) d).maps ∧
      (services.foldl (·.updateCh env ·) d).xdp = d.xdp ∧
      (services.foldl (·.updateCh env ·) d).currConfig = d.currConfig := by
  induction services generalizing d with
  | nil => exact ⟨.refl _, rfl, rfl⟩
  | cons service services ih =>
    obtain ⟨hm, hx, hc⟩ := d.updateCh_frame env service
    obtain ⟨hm', hx', hc'⟩ := ih (d.updateCh env service)
    exact ⟨hm.trans hm', hx'.trans hx, hc'.trans hc⟩

end Dataplane

/-! ## The batches -/

theorem XdpConfig.publishes_of_mem {xdp : XdpConfig} {buffer : Fin 2} {w : Write}
    (h : w ∈ xdp.publishWrites buffer) : w.publishes := by
  rcases List.mem_append.1 h with h | h
  · exact (fills_of_mem h).publishes
  · rw [List.mem_singleton.1 h]
    rfl

/-- The writes up to the flip change the sets and `atomic_index` only. -/
theorem runWrites_publishes {ws : List Write} (hws : ∀ w ∈ ws, w.publishes)
    (h : runWrites m ws = (m', true)) : ∃ t a, m' = { m.withSets t with atomicIndex := a } := by
  induction ws generalizing m with
  | nil =>
    obtain ⟨rfl, -⟩ := Prod.mk.inj h
    exact ⟨⟨_, _, _, _⟩, _, rfl⟩
  | cons w ws ih =>
    obtain ⟨m₁, h₁, h₂⟩ := runWrites_cons.1 h
    obtain ⟨t, a, rfl⟩ := ih (fun w hw => hws w (List.mem_cons_of_mem _ hw)) h₂
    have hw := hws w List.mem_cons_self
    cases w with
    | backend b i back =>
      have hf : (Write.backend b i back).Fills b := rfl
      obtain ⟨t₁, rfl⟩ := hf.withSets h₁
      exact ⟨t, a, rfl⟩
    | service b key info =>
      have hf : (Write.service b key info).Fills b := rfl
      obtain ⟨t₁, rfl⟩ := hf.withSets h₁
      exact ⟨t, a, rfl⟩
    | atomicIndex b =>
      rw [Write.run] at h₁
      obtain ⟨a₁, -, rfl⟩ := Option.map_eq_some_iff.1 h₁
      exact ⟨t, a, rfl⟩
    | _ => cases hw

/-- The batch of the round robin cursors. -/
theorem runWrites_rrIndex {keys : List ServiceKey} : runWrites m (keys.map .rrIndex) = (m', true) ↔
    ∃ rr, m.rrIndex.updateAll (keys.map fun key => (key, 0)) = some rr ∧
      m' = { m with rrIndex := rr } := by
  induction keys generalizing m with
  | nil => simp [runWrites, HashMap.updateAll, eq_comm]
  | cons key keys ih =>
    rw [List.map_cons, runWrites_cons, List.map_cons, HashMap.updateAll, Write.run]
    cases m.rrIndex.update key 0 with
    | none => simp
    | some rr₁ => simp [ih]

/-- After it, the cursors are zero. -/
theorem lookup_zeros {rr rr' : HashMap ServiceKey UInt32 256} {keys : List ServiceKey}
    (h : rr.updateAll (keys.map fun key => (key, 0)) = some rr') {key : ServiceKey}
    (hk : key ∈ keys) : rr'.lookup key = some 0 := by
  obtain ⟨v, hv, hlookup⟩ := HashMap.exists_of_updateAll h (k := key)
    (by rwa [List.map_map, Function.comp_def, List.map_id'])
  obtain ⟨key', -, he⟩ := List.mem_map.1 hv
  rwa [← (Prod.mk.inj he).2] at hlookup

/-! ## The parts of a reload -/

namespace Dataplane

theorem ok_bind {α β ε : Type} (a : α) (f : α → Except ε β) : (Except.ok a >>= f) = f a := rfl

theorem bind_eq_ok {α β ε : Type} {x : Except ε α} {f : α → Except ε β} {b : β}
    (h : x >>= f = .ok b) : ∃ a, x = .ok a ∧ f a = .ok b := by
  cases x with
  | error e => cases h
  | ok a => exact ⟨a, rfl, h⟩

theorem write_eq_ok {ws : List Write} {error : String → String} : d.write ws error = .ok d' ↔
    ∃ m, runWrites d.maps ws = (m, true) ∧ d' = { d with maps := m } := by
  rw [write]
  rcases runWrites d.maps ws with ⟨m, _ | _⟩ <;> simp [eq_comm]

/-- The writes of `publish`, and the dataplane they begin with. -/
theorem publish_eq {xdp : XdpConfig} (hload : config.load env = (xdp, none)) (d : Dataplane cpus) :
    ∃ d₀ : Dataplane cpus, d₀.maps = d.maps ∧ d₀.xdp = xdp ∧ d₀.currConfig = config ∧
      d₀.chManager = d.chManager ∧
      d.publish env config = (do
        let d₁ ← d₀.write (xdp.backendWrites (1 - d.currentIndex)) backendsError
        let d₁ ← d₁.write (xdp.serviceWrites (1 - d.currentIndex)) servicesError
        d₁.write [.atomicIndex (1 - d.currentIndex)] indexError) := by
  rw [publish, hload]
  dsimp only
  generalize hd₀ : Dataplane.updateDdosCfg { d with currConfig := config, xdp := xdp }
    config.ddosConf = d₀
  have hsame : d₀.maps = d.maps ∧ d₀.xdp = xdp ∧ d₀.isFirstRun = d.isFirstRun ∧
      d₀.currConfig = config ∧ d₀.chManager = d.chManager := by
    subst hd₀
    cases config.ddosConf <;> exact ⟨rfl, rfl, rfl, rfl, rfl⟩
  obtain ⟨hm, hx, hf, hc, hch⟩ := hsame
  refine ⟨{ d₀ with isFirstRun := false }, hm, hx, hc, hch, ?_⟩
  rw [currentIndex, hf, hm, ← currentIndex]

/-- If it gets to its flip, all its writes have succeeded. -/
theorem runWrites_publish (h : d.publish env config = .ok d') :
    config.load env = (d'.xdp, none) ∧ d'.currConfig = config ∧ d'.chManager = d.chManager ∧
      runWrites d.maps (d'.xdp.publishWrites (1 - d.currentIndex)) = (d'.maps, true) := by
  rcases hload : config.load env with ⟨xdp, _ | e⟩
  swap
  · rw [publish, hload] at h
    cases h
  obtain ⟨d₀, hm, rfl, rfl, hch, hpub⟩ := publish_eq hload d
  rw [hpub] at h
  obtain ⟨d₁, h₁, h⟩ := bind_eq_ok h
  obtain ⟨d₂, h₂, h₃⟩ := bind_eq_ok h
  obtain ⟨m₁, hm₁, rfl⟩ := write_eq_ok.1 h₁
  obtain ⟨m₂, hm₂, rfl⟩ := write_eq_ok.1 h₂
  obtain ⟨m₃, hm₃, rfl⟩ := write_eq_ok.1 h₃
  rw [← hm]
  exact ⟨rfl, rfl, hch, runWrites_append.2 ⟨m₂, runWrites_append.2 ⟨m₁, hm₁, hm₂⟩, hm₃⟩⟩

/-- `ReloadConfig` up to its flip, if it gets there: it publishes the configuration, and changes no
    other map of the balancer. -/
theorem publish_eq_ok (h : d.publish env config = .ok d') :
    config.load env = (d'.xdp, none) ∧ d'.currConfig = config ∧ d'.chManager = d.chManager ∧
      (∃ buffer, Published d'.xdp buffer d.maps d'.maps) ∧
      ∃ t a, d'.maps = { d.maps.withSets t with atomicIndex := a } := by
  obtain ⟨hload, hconfig, hch, hall⟩ := runWrites_publish h
  refine ⟨hload, hconfig, hch, ⟨_, .of_runWrites hall⟩, ?_⟩
  exact runWrites_publishes (fun w hw => XdpConfig.publishes_of_mem hw) hall

/-- The reset of the cursors, if it succeeds. -/
theorem resetCursors_eq_ok (h : d.resetCursors = .ok d') :
    (∀ key ∈ d.xdp.keys, (d'.maps.rrIndex.lookup key).isSome) ∧
      ∃ rr, d' = { d with maps := { d.maps with rrIndex := rr, wrrStateMap := .empty } } := by
  rw [resetCursors] at h
  obtain ⟨d₁, h₁, h⟩ := bind_eq_ok h
  obtain ⟨m, hm, rfl⟩ := write_eq_ok.1 h₁
  obtain rfl := Except.ok.inj h
  obtain ⟨rr, hrr, rfl⟩ := runWrites_rrIndex.1 hm
  exact ⟨fun key hk => Option.isSome_of_eq_some (lookup_zeros hrr hk), rr, rfl⟩

/-- `ReloadConfig` from its flip to the statistics, if it gets there. -/
theorem switch_eq_ok (h : d.switch env = .ok d') :
    ∃ d₁, d.resetCursors = .ok d₁ ∧ d' = (d₁.updateAllCh env).clearSessions := by
  rw [switch] at h
  obtain ⟨d₁, h₁, h⟩ := bind_eq_ok h
  exact ⟨d₁, h₁, (Except.ok.inj h).symm⟩

theorem switch_of_resetCursors (h : d.resetCursors = .ok d') :
    d.switch env = .ok (d'.updateAllCh env).clearSessions := by
  rw [switch, h]
  rfl

/-- The cursors and the sessions after it. -/
theorem switch_spec (h : d.switch env = .ok d') :
    SameBuffers d.maps d'.maps ∧ d'.xdp = d.xdp ∧
      (∀ key ∈ d.xdp.keys, (d'.maps.rrIndex.lookup key).isSome) ∧
      d'.maps.wrrStateMap = .empty ∧ d'.maps.tcpSessionState = .empty := by
  obtain ⟨d₁, h₁, rfl⟩ := switch_eq_ok h
  obtain ⟨hrr, rr, hd₁⟩ := resetCursors_eq_ok h₁
  obtain ⟨hch, hxdp, -⟩ := foldl_updateCh_frame d₁ env d₁.currConfig.services
  rw [← updateAllCh] at hch hxdp
  have hreset : SameBuffers d.maps d₁.maps := by
    rw [hd₁]
    exact ⟨fun _ => rfl, fun _ => rfl, rfl⟩
  refine ⟨(hreset.trans hch.buffers).trans ⟨fun _ => rfl, fun _ => rfl, rfl⟩, ?_,
    fun key hk => ?_, ?_, rfl⟩
  · exact hxdp.trans (by rw [hd₁])
  · have hsome := hrr key hk
    rwa [← hch.rrIndex] at hsome
  · exact hch.wrrStateMap.trans (by rw [hd₁])

end Dataplane

/-- The dataplane after a reload with the configuration, whose calls up to the statistics
    succeeded. -/
structure Loaded (env : Env) (config : BaseConfig) (d : Dataplane cpus) : Prop where
  load : config.load env = (d.xdp, none)
  published : ∃ buffer m₀, Published d.xdp buffer m₀ d.maps
  rr : ∀ key ∈ config.keys env, (d.maps.rrIndex.lookup key).isSome
  wrr : d.maps.wrrStateMap = .empty
  sessions : d.maps.tcpSessionState = .empty

theorem Loaded.of_reload (hpub : d.publish env config = .ok d₁) (hswitch : d₁.switch env = .ok d₂) :
    Loaded env config d₂ := by
  obtain ⟨hload, -, -, ⟨buffer, hpublished⟩, -⟩ := Dataplane.publish_eq_ok hpub
  obtain ⟨hbuffers, hxdp, hrr, hwrr, hsessions⟩ := Dataplane.switch_spec hswitch
  refine ⟨hxdp ▸ hload, ⟨buffer, d.maps, hxdp ▸ hpublished.congr hbuffers⟩, fun key hk => ?_, hwrr,
    hsessions⟩
  exact hrr key ((BaseConfig.mem_load_keys hload).2 hk)

/-! ## A small dataplane

A dataplane that has loaded a configuration, without packets. -/

/-- The dataplane a part of a reload leaves. -/
def Outcome.dataplane : Outcome cpus → Dataplane cpus
  | .ok d => d
  | .error (_, d) => d

def demoPublished (config : BaseConfig) : Dataplane 1 :=
  ((Dataplane.fresh 1).publish demoEnv config).dataplane

def demoDataplane (config : BaseConfig) : Dataplane 1 :=
  ((demoPublished config).switch demoEnv).dataplane

theorem Outcome.eq_ok {x : Outcome cpus} (h : Except.isOk x) : x = .ok x.dataplane := by
  cases x with
  | ok d => rfl
  | error e => cases h

theorem demoDataplane_published
    (h : ((Dataplane.fresh 1).publish demoEnv config).isOk) :
    (Dataplane.fresh 1).publish demoEnv config = .ok (demoPublished config) :=
  Outcome.eq_ok h

theorem demoDataplane_switched (h : ((demoPublished config).switch demoEnv).isOk) :
    (demoPublished config).switch demoEnv = .ok (demoDataplane config) :=
  Outcome.eq_ok h

end L4Balancer
