import L4Balancer.Xdp.Handler

/-!
# One CPU for all

The packet program keeps the counters of packets in per-CPU arrays: a packet changes the
copy of its CPU, and whoever reads a counter adds up the copies. The program on many
CPUs refines the one on a single CPU. There, the maps are *merged* (`Maps.merge`): the
only copy of a counter is the sum of the copies, taken field by field and with
wrap-around.

A packet adds to a counter what does not depend on its value (`Shift`), so that it
changes the sum by as much whichever copy it changes, and it decides nothing by a
counter. So the program on the merged maps answers every frame as the program does and
leaves the merged maps of what the program leaves (`step_merge`).
-/

namespace L4Balancer

open Bpf

variable {cpus : ℕ}

/-! ## Sums -/

attribute [ext] PacketsData PerCpuArray

instance : Zero PacketsData := ⟨.zero⟩

/-- The sum of two counters, field by field. -/
instance : Add PacketsData where
  add v w :=
    ⟨v.totalPackets + w.totalPackets, v.tcpSynPackets + w.tcpSynPackets,
      v.preparedPackets + w.preparedPackets, v.connections + w.connections,
      v.totalBytes + w.totalBytes⟩

instance : Neg PacketsData where
  neg v := ⟨-v.totalPackets, -v.tcpSynPackets, -v.preparedPackets, -v.connections, -v.totalBytes⟩

instance : AddCommGroup PacketsData where
  nsmul := nsmulRec
  zsmul := zsmulRec
  add_assoc u v w := by ext1 <;> exact add_assoc _ _ _
  zero_add v := by ext1 <;> exact zero_add _
  add_zero v := by ext1 <;> exact add_zero _
  add_comm v w := by ext1 <;> exact add_comm _ _
  neg_add_cancel v := by ext1 <;> exact neg_add_cancel _

/-- Changing a counter by what does not depend on its value. -/
def Shift (f : PacketsData → PacketsData) : Prop := ∃ d, ∀ v, f v = v + d

theorem shift_prepared (packetLen : UInt32) : Shift (.prepared packetLen) :=
  ⟨⟨1, 0, 1, 0, packetLen.toUInt64⟩, fun v => by
    ext1
    · rfl
    · exact (add_zero v.tcpSynPackets).symm
    · rfl
    · exact (add_zero v.connections).symm
    · rfl⟩

theorem shift_connect (delta : BitVec 32) : Shift (.connect delta) :=
  ⟨⟨0, 0, 0, delta, 0⟩, fun v => by
    ext1
    · exact (add_zero v.totalPackets).symm
    · exact (add_zero v.tcpSynPackets).symm
    · exact (add_zero v.preparedPackets).symm
    · rfl
    · exact (add_zero v.totalBytes).symm⟩

theorem shift_forwardTcp (tcp : TcpHdr) (delta : BitVec 32) : Shift (.forwardTcp tcp delta) :=
  ⟨⟨1, if tcp.syn then 1 else 0, 1, delta, 0⟩, fun v => by
    ext1
    · rfl
    · change (if tcp.syn then v.tcpSynPackets + 1 else v.tcpSynPackets) =
        v.tcpSynPackets + if tcp.syn then 1 else 0
      split_ifs
      · rfl
      · exact (add_zero _).symm
    · rfl
    · rfl
    · exact (add_zero v.totalBytes).symm⟩

theorem shift_forwardTcp_bytes (tcp : TcpHdr) (delta : BitVec 32) (len : UInt64) :
    Shift fun d =>
      let d := d.forwardTcp tcp delta
      { d with totalBytes := d.totalBytes + len } := by
  obtain ⟨d, hd⟩ := shift_forwardTcp tcp delta
  refine ⟨{ d with totalBytes := d.totalBytes + len }, fun v => ?_⟩
  dsimp only
  rw [hd v]
  ext1
  · rfl
  · rfl
  · rfl
  · rfl
  · exact add_assoc v.totalBytes d.totalBytes len

/-! ## Merged maps -/

/-- The array with the sums of the copies, on one CPU. -/
def mergeCpus {n : ℕ} (a : PerCpuArray PacketsData cpus n) : PerCpuArray PacketsData 1 n :=
  ⟨fun _ i => a.total id i⟩

/-- Changing any copy changes the sum. -/
theorem mergeCpus_modify {n : ℕ} (a : PerCpuArray PacketsData cpus n) (cpu : Fin cpus) (i : ℕ)
    {f : PacketsData → PacketsData} (hf : Shift f) :
    mergeCpus (a.modify cpu i f) = (mergeCpus a).modify 0 i f := by
  obtain ⟨d, hd⟩ := hf
  have htotal := a.total_modify cpu i f id hd
  refine PerCpuArray.ext (funext₂ fun c j => ?_)
  change (a.modify cpu i f).total id j = _
  rw [PerCpuArray.get_modify, htotal]
  split_ifs with hi hcj hcj
  · exact (hd _).symm
  · exact absurd ⟨Subsingleton.elim _ _, hi⟩ hcj
  · exact absurd hcj.2 hi
  · exact add_zero _

/-- The maps of the program on one CPU. -/
@[simps]
def Maps.merge (m : Maps cpus) : Maps 1 where
  servicesFirst := m.servicesFirst
  servicesSecond := m.servicesSecond
  backendsFirst := m.backendsFirst
  backendsSecond := m.backendsSecond
  atomicIndex := m.atomicIndex
  rrIndex := m.rrIndex
  wrrStateMap := m.wrrStateMap
  chCurrLookup := m.chCurrLookup
  chPrevLookup := m.chPrevLookup
  chBackends := m.chBackends
  chConfig := m.chConfig
  chStatsMap := m.chStatsMap
  tcpSessionState := m.tcpSessionState
  backendsPacketsStats := mergeCpus m.backendsPacketsStats
  servicesPacketsStats := mergeCpus m.servicesPacketsStats

/-- What a packet finds, on one CPU. -/
def Ctx.merge (ctx : Ctx cpus) : Ctx 1 := ⟨ctx.now, 0⟩

/-- A change of a counter of a backend and of one of a service. -/
theorem Maps.merge_modify (m : Maps cpus) (ctx : Ctx cpus) (i j : ℕ)
    {f g : PacketsData → PacketsData} (hf : Shift f) (hg : Shift g) :
    { m with
      backendsPacketsStats := m.backendsPacketsStats.modify ctx.cpu i f
      servicesPacketsStats := m.servicesPacketsStats.modify ctx.cpu j g }.merge =
    { m.merge with
      backendsPacketsStats := m.merge.backendsPacketsStats.modify ctx.merge.cpu i f
      servicesPacketsStats := m.merge.servicesPacketsStats.modify ctx.merge.cpu j g } := by
  rw [merge, mergeCpus_modify _ _ _ hf, mergeCpus_modify _ _ _ hg]
  rfl

/-- The choice of a backend, with the merged maps. -/
def mergeChoice (r : Option Backend × UInt32 × Maps cpus) : Option Backend × UInt32 × Maps 1 :=
  (r.1, r.2.1, r.2.2.merge)

/-! ## The program on merged maps -/

section Choice

variable (backends : ArrayMap Backend 1024) (info : ServiceInfo) (key : ServiceKey)
  (last : UInt32) (m : Maps cpus)

theorem rrBalancerHandle_merge :
    rrBalancerHandle backends info key last m.merge =
      mergeChoice (rrBalancerHandle backends info key last m) := by
  rw [rrBalancerHandle, rrBalancerHandle, Maps.merge_rrIndex]
  cases m.rrIndex.lookup key <;> rfl

theorem initWrrState_merge : m.merge.initWrrState key = (m.initWrrState key).merge := by
  rw [Maps.initWrrState, Maps.initWrrState, Maps.merge_wrrStateMap]
  cases m.wrrStateMap.lookup key <;> rfl

theorem wrrBalancerHandle_merge :
    wrrBalancerHandle backends info key last m.merge =
      mergeChoice (wrrBalancerHandle backends info key last m) := by
  rw [wrrBalancerHandle, wrrBalancerHandle, initWrrState_merge]
  generalize m.initWrrState key = m₁
  rw [Maps.merge_wrrStateMap]
  cases m₁.wrrStateMap.lookup key with
  | none => rfl
  | some state =>
    dsimp only
    rcases wrrSearch backends info 32 state with ⟨_ | ⟨back, idx⟩, state'⟩ <;> rfl

theorem selectLoop_merge {handle : UInt32 → Maps cpus → Option Backend × UInt32 × Maps cpus}
    {handle' : UInt32 → Maps 1 → Option Backend × UInt32 × Maps 1}
    (h : ∀ last m, handle' last m.merge = mergeChoice (handle last m)) (left : ℕ) :
    selectLoop handle' left last m.merge = mergeChoice (selectLoop handle left last m) := by
  induction left generalizing last m with
  | zero => rfl
  | succ left ih =>
    rw [selectLoop, selectLoop, h]
    obtain ⟨b, last₁, m₁⟩ := handle last m
    dsimp only [mergeChoice]
    split_ifs
    · rfl
    · cases b with
      | none => rfl
      | some b =>
        dsimp only
        split_ifs
        · exact ih last₁ m₁
        · rfl

theorem countLookup_merge (index : ℕ) (backendIdx : ℤ) (usePrev : Bool) :
    m.merge.countLookup index backendIdx usePrev =
      (m.countLookup index backendIdx usePrev).merge := by
  rw [Maps.countLookup, Maps.countLookup, Maps.merge_chStatsMap]
  cases m.chStatsMap.lookup 0 <;> rfl

theorem consistentHashLookup_merge (keyHash : UInt32) (usePrev : Bool) :
    consistentHashLookup keyHash usePrev m.merge =
      Prod.map id Maps.merge (consistentHashLookup keyHash usePrev m) := by
  have hlookup : m.merge.chLookup usePrev = m.chLookup usePrev := rfl
  rw [consistentHashLookup, consistentHashLookup, Maps.merge_chConfig, hlookup]
  cases m.chConfig.lookup 0 with
  | none => rfl
  | some hashringSize =>
    dsimp only
    split_ifs
    · rfl
    · cases (m.chLookup usePrev).lookup (keyHash % hashringSize).toNat with
      | none => rfl
      | some backendIdx =>
        dsimp only
        split_ifs
        · rfl
        · exact congrArg (backendIdx, ·) (countLookup_merge m _ backendIdx usePrev)

theorem chBalancerHandle_merge (ctx : Ctx cpus) (keyHash packetLen : UInt32) :
    chBalancerHandle ctx.merge key keyHash packetLen last m.merge =
      mergeChoice (chBalancerHandle ctx key keyHash packetLen last m) := by
  rw [chBalancerHandle, chBalancerHandle, consistentHashLookup_merge]
  obtain ⟨backendIdx, m₁⟩ := consistentHashLookup keyHash false m
  dsimp only [Prod.map_apply, id_eq]
  split_ifs
  · rfl
  · rw [Maps.merge_chBackends]
    cases m₁.chBackends.lookup (UInt32.ofNat backendIdx.toNat).toNat with
    | none => rfl
    | some backend =>
      dsimp only
      split_ifs
      · rfl
      · have hshift := shift_prepared packetLen
        exact congrArg (some backend, UInt32.ofNat backendIdx.toNat, ·)
          (m₁.merge_modify ctx _ _ hshift hshift).symm

theorem selectTcp_merge (ctx : Ctx cpus) (stateKey : SessionStateKey) (packetLen : UInt32) :
    selectTcp ctx.merge backends info stateKey key packetLen last m.merge =
      mergeChoice (selectTcp ctx backends info stateKey key packetLen last m) := by
  rw [selectTcp, selectTcp]
  split_ifs
  · exact selectLoop_merge last m (rrBalancerHandle_merge backends info key) 5
  · exact selectLoop_merge last m (wrrBalancerHandle_merge backends info key) 5
  · exact chBalancerHandle_merge key last m ctx stateKey.chHash packetLen
  · rfl

theorem selectUdp_merge :
    selectUdp backends info key m.merge = mergeChoice (selectUdp backends info key m) := by
  rw [selectUdp, selectUdp]
  split_ifs
  · exact selectLoop_merge 0 m (rrBalancerHandle_merge backends info key) 5
  · exact selectLoop_merge 0 m (wrrBalancerHandle_merge backends info key) 5
  · rfl

end Choice

section Find

variable (ctx : Ctx cpus) (k : SessionStateKey) (key : ServiceKey) (tcp : TcpHdr) (len : UInt32)
  (m : Maps cpus)

theorem sessionLookup_merge :
    sessionLookup ctx.merge k tcp m.merge = Prod.map id Maps.merge (sessionLookup ctx k tcp m) := by
  rw [sessionLookup, sessionLookup, Maps.merge_tcpSessionState]
  split_ifs
  · rfl
  · cases m.tcpSessionState.lookup k with
    | none => rfl
    | some state =>
      have hshift := shift_connect (-1)
      have hexpire : (m.expireSession ctx k state).merge = m.merge.expireSession ctx.merge k state :=
        { m with tcpSessionState := m.tcpSessionState.delete k }.merge_modify ctx _ _ hshift hshift
      have hnow : ctx.merge.now = ctx.now := rfl
      dsimp only
      rw [hnow]
      split_ifs
      · exact congrArg (none, ·) hexpire.symm
      · rfl

theorem finishTcp_merge (state : Option SessionStateVal) (last serviceIdx : UInt32)
    (delta : BitVec 32) :
    finishTcp ctx.merge k tcp len state last serviceIdx delta m.merge =
      (finishTcp ctx k tcp len state last serviceIdx delta m).merge :=
  let closes := state.isSome && tcp.closing
  let sessions := if closes then m.tcpSessionState.delete k else m.tcpSessionState
  ({ m with tcpSessionState := sessions }.merge_modify ctx _ _
    (shift_forwardTcp_bytes tcp (if closes then -1 else delta) len.toUInt64)
    (shift_forwardTcp tcp (if closes then -1 else delta))).symm

theorem findTcpBackend_merge :
    findTcpBackend ctx.merge k key tcp len m.merge =
      Prod.map id Maps.merge (findTcpBackend ctx k key tcp len m) := by
  have hservices : ∀ b, m.merge.servicesAt b = m.servicesAt b := fun _ => rfl
  have hbackends : ∀ b, m.merge.backendsAt b = m.backendsAt b := fun _ => rfl
  rw [findTcpBackend, findTcpBackend, sessionLookup_merge, Maps.merge_atomicIndex]
  cases m.atomicIndex.lookup 0 with
  | none => rfl
  | some b =>
    obtain ⟨state, m₁⟩ := sessionLookup ctx k tcp m
    dsimp only [Prod.map_apply, id_eq]
    rw [hservices, hbackends]
    cases state.bind fun s => ((m.backendsAt b).lookup s.backendIdx.toNat).map (s, ·) with
    | some hit => exact congrArg (some hit.2, ·) (finishTcp_merge ..)
    | none =>
      cases (m.servicesAt b).lookup key with
      | none => rfl
      | some info =>
        dsimp only
        rw [selectTcp_merge]
        rcases selectTcp ctx (m.backendsAt b) info k key len (state.elim 0 SessionStateVal.backendIdx)
          m₁ with ⟨_ | back, idx, m₂⟩
        · rfl
        · exact congrArg (some back, ·)
            (finishTcp_merge ctx k tcp len (m₂.storeSession k _) state idx info.serviceIdx 1)

theorem findUdpBackend_merge :
    findUdpBackend ctx.merge key len m.merge =
      Prod.map id Maps.merge (findUdpBackend ctx key len m) := by
  have hservices : ∀ b, m.merge.servicesAt b = m.servicesAt b := fun _ => rfl
  have hbackends : ∀ b, m.merge.backendsAt b = m.backendsAt b := fun _ => rfl
  rw [findUdpBackend, findUdpBackend, Maps.merge_atomicIndex]
  cases m.atomicIndex.lookup 0 with
  | none => rfl
  | some b =>
    dsimp only
    rw [hservices, hbackends]
    cases (m.servicesAt b).lookup key with
    | none => rfl
    | some info =>
      dsimp only
      rw [selectUdp_merge]
      rcases selectUdp (m.backendsAt b) info key m with ⟨_ | back, idx, m₁⟩
      · rfl
      · have hshift := shift_prepared len
        exact congrArg (some back, ·) (m₁.merge_modify ctx _ _ hshift hshift).symm

end Find

/-! ## Frames -/

/-- The state of the program on one CPU. -/
def XdpState.merge (s : XdpState cpus) : XdpState 1 := ⟨s.maps.merge, s.ddos⟩

/-- The arrival of a frame on the only CPU. -/
def Arrival.merge (a : Arrival cpus) : Arrival 1 := ⟨a.ctx.merge, a.bytes, a.evicted⟩

/-- The end of a handler whose call found the same on the merged maps. -/
theorem finish_merge (s : XdpState cpus) (p : Packet) (rewrite : Backend → Packet)
    {r : Option Backend × Maps cpus} {r' : Option Backend × Maps 1}
    (hr : r' = Prod.map id Maps.merge r) :
    s.merge.finish (p.answer rewrite r') =
      Prod.map id XdpState.merge (s.finish (p.answer rewrite r)) := by
  subst hr
  obtain ⟨_ | b, m⟩ := r <;> rfl

theorem balancerHandler_merge (ctx : Ctx cpus) (p : Packet) (s : XdpState cpus) :
    balancerHandler ctx.merge p s.merge =
      Prod.map id XdpState.merge (balancerHandler ctx p s) := by
  have htcp : ∀ (s : XdpState cpus) off, s.merge.finish
      (p.tcpBalancerHandleV4 off ctx.merge s.merge.maps) =
        Prod.map id XdpState.merge (s.finish (p.tcpBalancerHandleV4 off ctx s.maps)) := fun s off =>
    finish_merge s p p.redirect (findTcpBackend_merge ctx _ _ _ _ s.maps)
  rw [balancerHandler, balancerHandler]
  cases p.headers with
  | none => rfl
  | some h =>
    cases h with
    | tcpV4 off =>
      -- the filter knows no CPU
      have hddos : ddosCheckV4 s.merge.ddos ctx.merge.now p.saddrV4 (p.tcpHdr off) =
        ddosCheckV4 s.ddos ctx.now p.saddrV4 (p.tcpHdr off) := rfl
      dsimp only
      rw [hddos]
      split_ifs
      · exact htcp s off
      · rfl
      · exact htcp ⟨s.maps, (ddosCheckV4 s.ddos ctx.now p.saddrV4 (p.tcpHdr off)).2⟩ off
    | udpV4 off => exact finish_merge s p p.redirect (findUdpBackend_merge ctx _ _ s.maps)
    | tcpV6 => exact finish_merge s p _ (findTcpBackend_merge ctx _ _ _ _ s.maps)
    | udpV6 => exact finish_merge s p _ (findUdpBackend_merge ctx _ _ s.maps)

/-- The program on the merged maps answers as the program does, and leaves the merged maps. -/
theorem step_merge (a : Arrival cpus) (s : XdpState cpus) :
    (xdp 1).step a.merge s.merge = Prod.map id XdpState.merge ((xdp cpus).step a s) :=
  balancerHandler_merge a.ctx a.bytes { s with ddos := s.ddos.evict a.evicted }

/-- The same frame at the same time, with the same evictions, on whatever CPU. -/
structure Arrival.SameFrame (a a' : Arrival cpus) : Prop where
  now : a'.ctx.now = a.ctx.now
  bytes : a'.bytes = a.bytes
  evicted : a'.evicted = a.evicted

theorem Arrival.SameFrame.merge_eq {a a' : Arrival cpus} (h : a.SameFrame a') :
    a'.merge = a.merge := by
  rw [merge, merge, Ctx.merge, Ctx.merge, h.now, h.bytes, h.evicted]

/-- The CPUs that handle the frames matter neither for the answers nor for the merged maps. -/
theorem run_of_sameFrame {as as' : List (Arrival cpus)}
    (h : List.Forall₂ Arrival.SameFrame as as') (s : XdpState cpus) :
    (xdp cpus).outs s as' = (xdp cpus).outs s as ∧
      ((xdp cpus).exec s as').merge = ((xdp cpus).exec s as).merge := by
  have hmap : as'.map Arrival.merge = as.map Arrival.merge := by
    induction h with
    | nil => rfl
    | cons ha _ ih => rw [List.map_cons, List.map_cons, ha.merge_eq, ih]
  obtain ⟨houts, hexec⟩ := Machine.run_map step_merge s as
  obtain ⟨houts', hexec'⟩ := Machine.run_map step_merge s as'
  rw [hmap] at houts' hexec'
  exact ⟨houts'.symm.trans houts, hexec'.symm.trans hexec⟩

end L4Balancer
