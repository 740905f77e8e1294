import L4Balancer.Xdp.Frame

/-!
# Packets and the inactive buffer

A packet reads the two services maps and the two backends maps (the *sets*) only
through `atomic_index`. Replacing the sets by others that agree in the active buffer
does not change what the program answers and does (`finder_withSets`).
-/

namespace L4Balancer

open Bpf

variable {cpus : ℕ}

/-- The services maps and the backends maps of both buffers. -/
structure Sets where
  servicesFirst : HashMap ServiceKey ServiceInfo 256
  servicesSecond : HashMap ServiceKey ServiceInfo 256
  backendsFirst : ArrayMap Backend 1024
  backendsSecond : ArrayMap Backend 1024

namespace Maps

/-- The maps with other sets. -/
def withSets (m : Maps cpus) (t : Sets) : Maps cpus :=
  { m with
    servicesFirst := t.servicesFirst
    servicesSecond := t.servicesSecond
    backendsFirst := t.backendsFirst
    backendsSecond := t.backendsSecond }

variable (m : Maps cpus) (t : Sets)

@[simp] theorem withSets_atomicIndex : (m.withSets t).atomicIndex = m.atomicIndex := rfl
@[simp] theorem withSets_rrIndex : (m.withSets t).rrIndex = m.rrIndex := rfl
@[simp] theorem withSets_wrrStateMap : (m.withSets t).wrrStateMap = m.wrrStateMap := rfl
@[simp] theorem withSets_chCurrLookup : (m.withSets t).chCurrLookup = m.chCurrLookup := rfl
@[simp] theorem withSets_chPrevLookup : (m.withSets t).chPrevLookup = m.chPrevLookup := rfl
@[simp] theorem withSets_chBackends : (m.withSets t).chBackends = m.chBackends := rfl
@[simp] theorem withSets_chConfig : (m.withSets t).chConfig = m.chConfig := rfl
@[simp] theorem withSets_chStatsMap : (m.withSets t).chStatsMap = m.chStatsMap := rfl
@[simp] theorem withSets_tcpSessionState :
    (m.withSets t).tcpSessionState = m.tcpSessionState := rfl

@[simp] theorem chLookup_withSets (usePrev : Bool) :
    (m.withSets t).chLookup usePrev = m.chLookup usePrev := rfl

@[simp] theorem countLookup_withSets (index : ℕ) (backendIdx : ℤ) (usePrev : Bool) :
    (m.withSets t).countLookup index backendIdx usePrev =
      (m.countLookup index backendIdx usePrev).withSets t := by
  simp only [countLookup, withSets_chStatsMap, withSets_chPrevLookup]
  cases m.chStatsMap.lookup 0 <;> rfl

@[simp] theorem initWrrState_withSets (key : ServiceKey) :
    (m.withSets t).initWrrState key = (m.initWrrState key).withSets t := by
  simp only [initWrrState, withSets_wrrStateMap]
  cases m.wrrStateMap.lookup key <;> rfl

end Maps

/-- The answer of a function with the maps it leaves, these with other sets. -/
def withSets {α : Type*} (t : Sets) (r : α × Maps cpus) : α × Maps cpus := (r.1, r.2.withSets t)

variable (t : Sets) (m : Maps cpus)

theorem consistentHashLookup_withSets (keyHash : UInt32) (usePrev : Bool) :
    consistentHashLookup keyHash usePrev (m.withSets t) =
      withSets t (consistentHashLookup keyHash usePrev m) := by
  simp only [consistentHashLookup, Maps.countLookup_withSets, Maps.withSets_chConfig,
    Maps.chLookup_withSets]
  cases m.chConfig.lookup 0 with
  | none => rfl
  | some size =>
    dsimp only
    split_ifs
    · rfl
    · cases (m.chLookup usePrev).lookup (keyHash % size).toNat with
      | none => rfl
      | some v =>
        dsimp only
        split_ifs <;> rfl

/-- The answer of a handler, in the same way. -/
def withSets' (t : Sets) (r : Option Backend × UInt32 × Maps cpus) :
    Option Backend × UInt32 × Maps cpus := (r.1, r.2.1, r.2.2.withSets t)

theorem chBalancerHandle_withSets (ctx : Ctx cpus) (key : ServiceKey)
    (keyHash packetLen lastIndex : UInt32) :
    chBalancerHandle ctx key keyHash packetLen lastIndex (m.withSets t) =
      withSets' t (chBalancerHandle ctx key keyHash packetLen lastIndex m) := by
  simp only [chBalancerHandle, consistentHashLookup_withSets]
  rcases consistentHashLookup keyHash false m with ⟨v, m₁⟩
  simp only [withSets, Maps.withSets_chBackends]
  by_cases hv : v < 0
  · simp only [hv, if_true]
    rfl
  · simp only [hv, if_false]
    cases m₁.chBackends.lookup (UInt32.ofNat v.toNat).toNat with
    | none => rfl
    | some b =>
      by_cases hact : b.active = 0
      · simp only [hact, if_true]
        rfl
      · simp only [hact, if_false]
        rfl

theorem rrBalancerHandle_withSets (backends : ArrayMap Backend 1024) (info : ServiceInfo)
    (key : ServiceKey) (lastIndex : UInt32) :
    rrBalancerHandle backends info key lastIndex (m.withSets t) =
      withSets' t (rrBalancerHandle backends info key lastIndex m) := by
  simp only [rrBalancerHandle, Maps.withSets_rrIndex]
  cases m.rrIndex.lookup key <;> rfl

theorem wrrBalancerHandle_withSets (backends : ArrayMap Backend 1024) (info : ServiceInfo)
    (key : ServiceKey) (lastIndex : UInt32) :
    wrrBalancerHandle backends info key lastIndex (m.withSets t) =
      withSets' t (wrrBalancerHandle backends info key lastIndex m) := by
  simp only [wrrBalancerHandle, Maps.initWrrState_withSets, Maps.withSets_wrrStateMap]
  cases (m.initWrrState key).wrrStateMap.lookup key with
  | none => rfl
  | some st =>
    dsimp only
    rcases wrrSearch backends info 32 st with ⟨_ | ⟨b, idx⟩, st'⟩ <;> rfl

theorem selectLoop_withSets {handle : UInt32 → Maps cpus → Option Backend × UInt32 × Maps cpus}
    (h : ∀ last m, handle last (m.withSets t) = withSets' t (handle last m)) (left : ℕ)
    (lastIndex : UInt32) :
    selectLoop handle left lastIndex (m.withSets t) =
      withSets' t (selectLoop handle left lastIndex m) := by
  induction left generalizing lastIndex m with
  | zero => rfl
  | succ left ih =>
    simp only [selectLoop, h]
    rcases handle lastIndex m with ⟨b, last, m₁⟩
    dsimp only [withSets']
    split_ifs
    · rfl
    · cases b with
      | none => rfl
      | some b =>
        dsimp only
        split_ifs
        · exact ih m₁ last
        · rfl

theorem selectTcp_withSets (ctx : Ctx cpus) (backends : ArrayMap Backend 1024) (info : ServiceInfo)
    (stateKey : SessionStateKey) (key : ServiceKey) (packetLen lastIndex : UInt32) :
    selectTcp ctx backends info stateKey key packetLen lastIndex (m.withSets t) =
      withSets' t (selectTcp ctx backends info stateKey key packetLen lastIndex m) := by
  simp only [selectTcp]
  split_ifs
  · exact selectLoop_withSets t m (fun _ m => rrBalancerHandle_withSets t m backends info key _) 5 _
  · exact selectLoop_withSets t m (fun _ m => wrrBalancerHandle_withSets t m backends info key _) 5 _
  · exact chBalancerHandle_withSets t m ctx key _ packetLen lastIndex
  · rfl

theorem selectUdp_withSets (backends : ArrayMap Backend 1024) (info : ServiceInfo)
    (key : ServiceKey) :
    selectUdp backends info key (m.withSets t) = withSets' t (selectUdp backends info key m) := by
  simp only [selectUdp]
  split_ifs
  · exact selectLoop_withSets t m (fun _ m => rrBalancerHandle_withSets t m backends info key _) 5 _
  · exact selectLoop_withSets t m (fun _ m => wrrBalancerHandle_withSets t m backends info key _) 5 _
  · rfl

theorem sessionLookup_withSets (ctx : Ctx cpus) (stateKey : SessionStateKey) (tcp : TcpHdr) :
    sessionLookup ctx stateKey tcp (m.withSets t) =
      withSets t (sessionLookup ctx stateKey tcp m) := by
  simp only [sessionLookup, Maps.withSets_tcpSessionState]
  split_ifs
  · rfl
  · cases m.tcpSessionState.lookup stateKey with
    | none => rfl
    | some state =>
      dsimp only
      split_ifs <;> rfl

/-- The sets `t` have what `m` has in the active buffer. -/
structure Maps.Agrees (m : Maps cpus) (t : Sets) : Prop where
  services : (m.withSets t).servicesAt m.activeBuffer = m.activeServices
  backends : (m.withSets t).backendsAt m.activeBuffer = m.activeBackends

variable {t m}

theorem tcpFinder_withSets (h : m.Agrees t) (c : TcpCall cpus) :
    (tcpFinder cpus).step c (m.withSets t) = withSets t ((tcpFinder cpus).step c m) := by
  have hstep : ∀ m, (tcpFinder cpus).step c m =
    findTcpBackend c.ctx c.stateKey c.key c.tcp c.packetLen m := fun _ => rfl
  rw [hstep, hstep, findTcpBackend, findTcpBackend, Maps.withSets_atomicIndex,
    m.lookup_atomicIndex]
  dsimp only
  rw [h.services, h.backends, sessionLookup_withSets]
  rcases sessionLookup c.ctx c.stateKey c.tcp m with ⟨state, m₁⟩
  dsimp only [withSets, Maps.activeBackends, Maps.activeServices]
  rcases state.bind fun s => (Option.map (s, ·) ((m.backendsAt m.activeBuffer).lookup
    s.backendIdx.toNat)) with _ | ⟨s, b⟩
  · dsimp only
    cases (m.servicesAt m.activeBuffer).lookup c.key with
    | none => rfl
    | some info =>
      dsimp only
      rw [selectTcp_withSets]
      rcases selectTcp c.ctx (m.backendsAt m.activeBuffer) info c.stateKey c.key c.packetLen
        (state.elim 0 SessionStateVal.backendIdx) m₁ with ⟨_ | b, idx, m₂⟩ <;> rfl
  · rfl

theorem udpFinder_withSets (h : m.Agrees t) (c : UdpCall cpus) :
    (udpFinder cpus).step c (m.withSets t) = withSets t ((udpFinder cpus).step c m) := by
  have hstep : ∀ m, (udpFinder cpus).step c m = findUdpBackend c.ctx c.key c.packetLen m :=
    fun _ => rfl
  rw [hstep, hstep, findUdpBackend, findUdpBackend, Maps.withSets_atomicIndex,
    m.lookup_atomicIndex]
  dsimp only
  rw [h.services, h.backends, Maps.activeServices, Maps.activeBackends]
  cases (m.servicesAt m.activeBuffer).lookup c.key with
  | none => rfl
  | some info =>
    dsimp only
    rw [selectUdp_withSets]
    rcases selectUdp (m.backendsAt m.activeBuffer) info c.key m with ⟨_ | b, idx, m₁⟩ <;> rfl

/-- Packets do not see the inactive buffer. -/
theorem finder_withSets (h : m.Agrees t) (c : Call cpus) :
    (finder cpus).step c (m.withSets t) = withSets t ((finder cpus).step c m) := by
  cases c with
  | tcp c => exact tcpFinder_withSets h c
  | udp c => exact udpFinder_withSets h c

end L4Balancer
