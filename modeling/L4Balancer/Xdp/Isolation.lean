import L4Balancer.Xdp.Cursors
import L4Balancer.Xdp.Handler

/-!
# Services do not interfere

What a packet of a service over IPv4 reads besides the tables is of its own service: the
session of its flow, whose key has the address and the port of the service in it
(`SessionStateKey.service`), and the cursors under the key of the service. Two states
are *alike* for a service (`Alike`) if they agree in the tables and in these.

* A packet of another service leaves the state alike to what it was (`Alike.skip`).
* A packet of the service gets the same backend in alike states and leaves them alike,
  if the maps have room for what it stores (`Alike.tcp`, `Alike.udp`).

So the packets of a service get the same backends in a run as in the run of these
packets alone (`services_do_not_interfere`).
-/

namespace L4Balancer

open Bpf

variable {cpus : ℕ} {m m' : Maps cpus} {key : ServiceKey}

/-- The service of a flow over IPv4. -/
def SessionStateKey.service (k : SessionStateKey) : ServiceKey :=
  ⟨k.dst, swap16 k.dstPort, IPPROTO_TCP, 4⟩

/-- A call that a handler for IPv4 makes. -/
def Call.OfV4 : Call cpus → Prop
  | tcp c => ∃ (p : Packet) (off : ℕ) (ctx : Ctx cpus), c = p.tcpCallV4 off ctx
  | udp c => ∃ (p : Packet) (off : ℕ) (ctx : Ctx cpus), c = p.udpCallV4 off ctx

/-- The states agree in what the packets of a service read. -/
structure Alike (key : ServiceKey) (m m' : Maps cpus) : Prop where
  tables : m'.tables = m.tables
  sessions : ∀ k : SessionStateKey, k.service = key →
    m'.tcpSessionState.lookup k = m.tcpSessionState.lookup k
  rr : m'.rrIndex.lookup key = m.rrIndex.lookup key
  wrr : m'.wrrStateMap.lookup key = m.wrrStateMap.lookup key

theorem Alike.refl (key : ServiceKey) (m : Maps cpus) : Alike key m m :=
  ⟨rfl, fun _ _ => rfl, rfl, rfl⟩

theorem Alike.trans {m₁ m₂ : Maps cpus} (h : Alike key m m₁) (h' : Alike key m₁ m₂) :
    Alike key m m₂ :=
  ⟨h'.tables.trans h.tables, fun k hk => (h'.sessions k hk).trans (h.sessions k hk),
    h'.rr.trans h.rr, h'.wrr.trans h.wrr⟩

theorem Alike.symm (h : Alike key m m') : Alike key m' m :=
  ⟨h.tables.symm, fun k hk => (h.sessions k hk).symm, h.rr.symm, h.wrr.symm⟩

/-! ## Packets of other services -/

/-- The cursors of the other services are the same. -/
structure OtherCursors (key : ServiceKey) (m m' : Maps cpus) : Prop where
  rr : ∀ k, k ≠ key → m'.rrIndex.lookup k = m.rrIndex.lookup k
  wrr : ∀ k, k ≠ key → m'.wrrStateMap.lookup k = m.wrrStateMap.lookup k

namespace OtherCursors

variable {backends : ArrayMap Backend 1024} {info : ServiceInfo}
  {last idx : UInt32} {b : Option Backend}

theorem of_eq (hrr : m'.rrIndex = m.rrIndex) (hwrr : m'.wrrStateMap = m.wrrStateMap) :
    OtherCursors key m m' :=
  ⟨fun _ _ => by rw [hrr], fun _ _ => by rw [hwrr]⟩

theorem trans {m₁ m₂ : Maps cpus} (h : OtherCursors key m m₁) (h' : OtherCursors key m₁ m₂) :
    OtherCursors key m m₂ :=
  ⟨fun k hk => (h'.rr k hk).trans (h.rr k hk), fun k hk => (h'.wrr k hk).trans (h.wrr k hk)⟩

theorem putWrr (m : Maps cpus) (key : ServiceKey) (st : WrrState) :
    OtherCursors key m { m with wrrStateMap := m.wrrStateMap.put key st } :=
  ⟨fun _ _ => rfl, fun _ hk => HashMap.lookup_put_ne _ hk⟩

theorem rrBalancerHandle (hh : L4Balancer.rrBalancerHandle backends info key last m = (b, idx, m')) :
    OtherCursors key m m' := by
  rw [L4Balancer.rrBalancerHandle] at hh
  split at hh
  · obtain ⟨-, -, rfl⟩ := by simpa only [Prod.mk.injEq] using hh
    exact of_eq rfl rfl
  · obtain ⟨-, -, rfl⟩ := by simpa only [Prod.mk.injEq] using hh
    exact ⟨fun _ hk => HashMap.lookup_put_ne _ hk, fun _ _ => rfl⟩

theorem initWrrState (m : Maps cpus) (key : ServiceKey) :
    OtherCursors key m (m.initWrrState key) := by
  rw [Maps.initWrrState]
  split
  · exact putWrr m key _
  · exact of_eq rfl rfl

theorem wrrBalancerHandle
    (hh : L4Balancer.wrrBalancerHandle backends info key last m = (b, idx, m')) :
    OtherCursors key m m' := by
  refine (initWrrState m key).trans ?_
  rw [L4Balancer.wrrBalancerHandle] at hh
  generalize m.initWrrState key = m₁ at hh
  split at hh
  · obtain ⟨-, -, rfl⟩ := by simpa only [Prod.mk.injEq] using hh
    exact of_eq rfl rfl
  · split at hh
    all_goals
      obtain ⟨-, -, rfl⟩ := by simpa only [Prod.mk.injEq] using hh
      exact putWrr m₁ key _

theorem selectLoop {handle : UInt32 → Maps cpus → Option Backend × UInt32 × Maps cpus}
    (h : ∀ last m b idx m', handle last m = (b, idx, m') → OtherCursors key m m') (left : ℕ)
    (last : UInt32) (m : Maps cpus) :
    OtherCursors key m (L4Balancer.selectLoop handle left last m).2.2 :=
  selectLoop_keeps (fun _ _ hm => hm.trans (h _ _ _ _ _ rfl)) left last m (of_eq rfl rfl)

theorem selectTcp {ctx : Ctx cpus} {stateKey : SessionStateKey} {packetLen : UInt32}
    (hsel : L4Balancer.selectTcp ctx backends info stateKey key packetLen last m = (b, idx, m')) :
    OtherCursors key m m' := by
  have hm' : m' = (L4Balancer.selectTcp ctx backends info stateKey key packetLen last m).2.2 := by
    rw [hsel]
  rw [hm', L4Balancer.selectTcp]
  split_ifs
  · exact selectLoop (fun _ _ _ _ _ hh => rrBalancerHandle hh) 5 last m
  · exact selectLoop (fun _ _ _ _ _ hh => wrrBalancerHandle hh) 5 last m
  · obtain ⟨hrr, hwrr⟩ := chBalancerHandle_cursors ctx key stateKey.chHash packetLen last m
    exact of_eq hrr hwrr
  · exact of_eq rfl rfl

theorem selectUdp (hsel : L4Balancer.selectUdp backends info key m = (b, idx, m')) :
    OtherCursors key m m' := by
  have hm' : m' = (L4Balancer.selectUdp backends info key m).2.2 := by rw [hsel]
  rw [hm', L4Balancer.selectUdp]
  split_ifs
  · exact selectLoop (fun _ _ _ _ _ hh => rrBalancerHandle hh) 5 0 m
  · exact selectLoop (fun _ _ _ _ _ hh => wrrBalancerHandle hh) 5 0 m
  · exact of_eq rfl rfl

end OtherCursors

theorem Call.key_of_ofV4 {c : TcpCall cpus} (h : (Call.tcp c).OfV4) : c.key = c.stateKey.service := by
  obtain ⟨p, off, ctx, rfl⟩ := h
  rfl

/-- A packet leaves the cursors of the other services, and there are none of a key without entry
    that it could change. -/
theorem cursors_next (c : Call cpus) {k : ServiceKey}
    (hk : k = c.key → m.activeServices.lookup k = none) :
    ((finder cpus).next c m).rrIndex.lookup k = m.rrIndex.lookup k ∧
      ((finder cpus).next c m).wrrStateMap.lookup k = m.wrrStateMap.lookup k := by
  have hne : ∀ {info}, m.activeServices.lookup c.key = some info → k ≠ c.key := fun hinfo he => by
    have hnone := hk he
    rw [he, hinfo] at hnone
    cases hnone
  cases c with
  | tcp c =>
    have hs := TcpStep.of_next c m
    change ((tcpFinder cpus).next c m).rrIndex.lookup k = _ ∧
      ((tcpFinder cpus).next c m).wrrStateMap.lookup k = _
    generalize (tcpFinder cpus).out c m = out at hs
    generalize (tcpFinder cpus).next c m = m' at hs ⊢
    cases hs with
    | hit => exact ⟨rfl, rfl⟩
    | create hl _ hinfo hsel =>
      obtain ⟨hrr, hwrr⟩ := hl.cursors
      have hother := OtherCursors.selectTcp hsel
      rw [← hrr, ← hwrr]
      exact ⟨hother.rr k (hne hinfo), hother.wrr k (hne hinfo)⟩
    | drop hl _ hsel =>
      obtain ⟨hrr, hwrr⟩ := hl.cursors
      rw [← hrr, ← hwrr]
      rcases hsel with ⟨-, rfl⟩ | ⟨info, idx, hinfo, hsel⟩
      · exact ⟨rfl, rfl⟩
      · have hother := OtherCursors.selectTcp hsel
        exact ⟨hother.rr k (hne hinfo), hother.wrr k (hne hinfo)⟩
  | udp c =>
    have hs := UdpStep.of_next c m
    change ((udpFinder cpus).next c m).rrIndex.lookup k = _ ∧
      ((udpFinder cpus).next c m).wrrStateMap.lookup k = _
    generalize (udpFinder cpus).out c m = out at hs
    generalize (udpFinder cpus).next c m = m' at hs ⊢
    cases hs with
    | unmatched => exact ⟨rfl, rfl⟩
    | drop hinfo hsel | forward hinfo hsel =>
      have hother := OtherCursors.selectUdp hsel
      exact ⟨hother.rr k (hne hinfo), hother.wrr k (hne hinfo)⟩

/-- A packet of another service. -/
theorem Alike.skip (m : Maps cpus) {c : Call cpus} (hc : c.OfV4) (hne : c.key ≠ key) :
    Alike key m ((finder cpus).next c m) := by
  obtain ⟨hrr, hwrr⟩ := cursors_next (m := m) c fun he => absurd he.symm hne
  refine ⟨tables_finder c m, fun k hk => ?_, hrr, hwrr⟩
  cases c with
  | tcp c =>
    -- the flow is one of the service that its packets are addressed to
    have hkey := Call.key_of_ofV4 hc
    exact (TcpStep.of_next c m).lookup_ne fun he => hne (hkey.trans (he ▸ hk))
  | udp c =>
    have hsessions : ((finder cpus).next (.udp c) m).tcpSessionState = m.tcpSessionState :=
      sessions_udpFinder c m
    rw [hsessions]

/-! ## Packets of the service -/

/-- The states are alike, and have room for a cursor of weighted round robin. -/
structure Paired (key : ServiceKey) (m m' : Maps cpus) : Prop extends Alike key m m' where
  room : m.wrrStateMap.HasRoom key
  room' : m'.wrrStateMap.HasRoom key

/-- The same choice, in states that stay paired. -/
structure SameChoice (key : ServiceKey) (r r' : Option Backend × UInt32 × Maps cpus) : Prop where
  backend : r'.1 = r.1
  index : r'.2.1 = r.2.1
  maps : Paired key r.2.2 r'.2.2

namespace Paired

variable {backends : ArrayMap Backend 1024} {info : ServiceInfo}

theorem hasRoom_put {m : HashMap ServiceKey WrrState 256} (h : m.HasRoom key) (st : WrrState) :
    (m.put key st).HasRoom key :=
  .inl (by rw [HashMap.lookup_put h, if_pos rfl]; rfl)

theorem putWrr (h : Paired key m m') (st : WrrState) :
    Paired key { m with wrrStateMap := m.wrrStateMap.put key st }
      { m' with wrrStateMap := m'.wrrStateMap.put key st } where
  tables := h.tables
  sessions := h.sessions
  rr := h.rr
  wrr := by rw [HashMap.lookup_put h.room, HashMap.lookup_put h.room', if_pos rfl, if_pos rfl]
  room := hasRoom_put h.room st
  room' := hasRoom_put h.room' st

theorem storeSession (h : Paired key m m') {k : SessionStateKey}
    (hroom : m.tcpSessionState.HasRoom k) (hroom' : m'.tcpSessionState.HasRoom k)
    (state : SessionStateVal) : Paired key (m.storeSession k state) (m'.storeSession k state) := by
  refine ⟨⟨h.tables, fun k' hk' => ?_, h.rr, h.wrr⟩, h.room, h.room'⟩
  rw [Maps.sessions_storeSession, Maps.sessions_storeSession, HashMap.lookup_put hroom,
    HashMap.lookup_put hroom', h.sessions k' hk']

theorem finishTcp (h : Paired key m m') (ctx : Ctx cpus) (k : SessionStateKey) (tcp : TcpHdr)
    (packetLen : UInt32) (state : Option SessionStateVal) (last serviceIdx : UInt32)
    (delta : BitVec 32) :
    Paired key (L4Balancer.finishTcp ctx k tcp packetLen state last serviceIdx delta m)
      (L4Balancer.finishTcp ctx k tcp packetLen state last serviceIdx delta m') := by
  refine ⟨⟨h.tables, fun k' hk' => ?_, h.rr, h.wrr⟩, h.room, h.room'⟩
  rw [sessions_finishTcp, sessions_finishTcp]
  split_ifs
  · rw [HashMap.lookup_delete, HashMap.lookup_delete, h.sessions k' hk']
  · exact h.sessions k' hk'

theorem initWrrState (h : Paired key m m') :
    Paired key (m.initWrrState key) (m'.initWrrState key) := by
  rw [Maps.initWrrState, Maps.initWrrState, h.wrr]
  split
  · exact h.putWrr _
  · exact h

theorem rrBalancerHandle (h : Paired key m m') (last : UInt32) :
    SameChoice key (L4Balancer.rrBalancerHandle backends info key last m)
      (L4Balancer.rrBalancerHandle backends info key last m') := by
  rw [L4Balancer.rrBalancerHandle, L4Balancer.rrBalancerHandle, h.rr]
  split
  · exact ⟨rfl, rfl, h⟩
  · rename_i cur hcur
    have hroom : m.rrIndex.HasRoom key := .inl (by rw [hcur]; rfl)
    have hroom' : m'.rrIndex.HasRoom key := .inl (by rw [h.rr, hcur]; rfl)
    refine ⟨rfl, rfl, ⟨h.tables, h.sessions, ?_, h.wrr⟩, h.room, h.room'⟩
    dsimp only
    rw [HashMap.lookup_put hroom, HashMap.lookup_put hroom', if_pos rfl, if_pos rfl]

theorem wrrBalancerHandle (h : Paired key m m') (last : UInt32) :
    SameChoice key (L4Balancer.wrrBalancerHandle backends info key last m)
      (L4Balancer.wrrBalancerHandle backends info key last m') := by
  rw [L4Balancer.wrrBalancerHandle, L4Balancer.wrrBalancerHandle]
  have hinit := h.initWrrState
  generalize m.initWrrState key = m₁ at hinit
  generalize m'.initWrrState key = m₁' at hinit
  rw [hinit.wrr]
  split
  · exact ⟨rfl, rfl, hinit⟩
  · split
    · exact ⟨rfl, rfl, hinit.putWrr _⟩
    · exact ⟨rfl, rfl, hinit.putWrr _⟩

theorem selectLoop {handle : UInt32 → Maps cpus → Option Backend × UInt32 × Maps cpus}
    (hh : ∀ last m m', Paired key m m' → SameChoice key (handle last m) (handle last m'))
    (h : Paired key m m') (left : ℕ) (last : UInt32) :
    SameChoice key (L4Balancer.selectLoop handle left last m)
      (L4Balancer.selectLoop handle left last m') := by
  induction left generalizing last m m' with
  | zero => exact ⟨rfl, rfl, h⟩
  | succ left ih =>
    rw [L4Balancer.selectLoop, L4Balancer.selectLoop]
    have hone := hh last m m' h
    generalize handle last m = r at hone
    generalize handle last m' = r' at hone
    obtain ⟨b, last₁, m₁⟩ := r
    obtain ⟨b', last₁', m₁'⟩ := r'
    obtain ⟨rfl, rfl, hmaps⟩ := hone
    dsimp only
    split_ifs
    · exact ⟨rfl, rfl, hmaps⟩
    · split
      · exact ⟨rfl, rfl, hmaps⟩
      · split_ifs
        · exact ih hmaps last₁'
        · exact ⟨rfl, rfl, hmaps⟩

theorem chBalancerHandle (h : Paired key m m') (ctx : Ctx cpus) (keyHash packetLen last : UInt32) :
    SameChoice key (L4Balancer.chBalancerHandle ctx key keyHash packetLen last m)
      (L4Balancer.chBalancerHandle ctx key keyHash packetLen last m') := by
  obtain ⟨m₁, he⟩ := chBalancerHandle_eq ctx key keyHash packetLen last m
  obtain ⟨m₁', he'⟩ := chBalancerHandle_eq ctx key keyHash packetLen last m'
  have hq := chBalancerHandle_quiet ctx key keyHash packetLen last m
  have hq' := chBalancerHandle_quiet ctx key keyHash packetLen last m'
  obtain ⟨hrr, hwrr⟩ := chBalancerHandle_cursors ctx key keyHash packetLen last m
  obtain ⟨hrr', hwrr'⟩ := chBalancerHandle_cursors ctx key keyHash packetLen last m'
  have hpick := Maps.chPick_congr h.tables keyHash
  refine ⟨by rw [he, he', hpick], by rw [he, he', hpick], ⟨?_, fun k hk => ?_, ?_, ?_⟩, ?_, ?_⟩
  · rw [hq.tables, hq'.tables, h.tables]
  · rw [hq.sessions, hq'.sessions, h.sessions k hk]
  · rw [hrr, hrr', h.rr]
  · rw [hwrr, hwrr', h.wrr]
  · rw [hwrr]
    exact h.room
  · rw [hwrr']
    exact h.room'

theorem selectTcp (h : Paired key m m') (backends : ArrayMap Backend 1024) (info : ServiceInfo)
    (ctx : Ctx cpus) (stateKey : SessionStateKey) (packetLen last : UInt32) :
    SameChoice key (L4Balancer.selectTcp ctx backends info stateKey key packetLen last m)
      (L4Balancer.selectTcp ctx backends info stateKey key packetLen last m') := by
  rw [L4Balancer.selectTcp, L4Balancer.selectTcp]
  split_ifs
  · exact selectLoop (fun last _ _ hm => hm.rrBalancerHandle last) h 5 last
  · exact selectLoop (fun last _ _ hm => hm.wrrBalancerHandle last) h 5 last
  · exact h.chBalancerHandle ctx stateKey.chHash packetLen last
  · exact ⟨rfl, rfl, h⟩

theorem selectUdp (h : Paired key m m') (backends : ArrayMap Backend 1024) (info : ServiceInfo) :
    SameChoice key (L4Balancer.selectUdp backends info key m)
      (L4Balancer.selectUdp backends info key m') := by
  rw [L4Balancer.selectUdp, L4Balancer.selectUdp]
  split_ifs
  · exact selectLoop (fun last _ _ hm => hm.rrBalancerHandle last) h 5 0
  · exact selectLoop (fun last _ _ hm => hm.wrrBalancerHandle last) h 5 0
  · exact ⟨rfl, rfl, h⟩

/-- Looking for the session of a flow of the service. -/
theorem sessionLookup (h : Paired key m m') (ctx : Ctx cpus) (tcp : TcpHdr) {k : SessionStateKey}
    (hk : k.service = key) :
    (L4Balancer.sessionLookup ctx k tcp m').1 = (L4Balancer.sessionLookup ctx k tcp m).1 ∧
      Paired key (L4Balancer.sessionLookup ctx k tcp m).2
        (L4Balancer.sessionLookup ctx k tcp m').2 := by
  rw [L4Balancer.sessionLookup, L4Balancer.sessionLookup, h.sessions k hk]
  split_ifs
  · exact ⟨rfl, h⟩
  · split
    · exact ⟨rfl, h⟩
    · rename_i state hstate
      split_ifs
      · refine ⟨rfl, ⟨h.tables, fun k' hk' => ?_, h.rr, h.wrr⟩, h.room, h.room'⟩
        rw [Maps.sessions_expireSession, Maps.sessions_expireSession, HashMap.lookup_delete,
          HashMap.lookup_delete, h.sessions k' hk']
      · have hroom : m.tcpSessionState.HasRoom k := .inl (by rw [hstate]; rfl)
        have hroom' : m'.tcpSessionState.HasRoom k := .inl (by rw [h.sessions k hk, hstate]; rfl)
        exact ⟨rfl, h.storeSession hroom hroom' _⟩

/-- A TCP packet of the service. -/
theorem tcp (h : Paired key m m') {c : TcpCall cpus} (hc : c.key = c.stateKey.service)
    (hk : c.key = key) (hroom : m.tcpSessionState.size < 65536)
    (hroom' : m'.tcpSessionState.size < 65536) :
    (tcpFinder cpus).out c m' = (tcpFinder cpus).out c m ∧
      Paired key ((tcpFinder cpus).next c m) ((tcpFinder cpus).next c m') := by
  have hstep : ∀ m, (tcpFinder cpus).step c m =
    findTcpBackend c.ctx c.stateKey c.key c.tcp c.packetLen m := fun _ => rfl
  rw [Machine.out, Machine.out, Machine.next, Machine.next, hstep, hstep, findTcpBackend,
    findTcpBackend, m.lookup_atomicIndex, m'.lookup_atomicIndex, hk]
  dsimp only
  rw [Maps.activeBuffer_congr h.tables, Maps.servicesAt_congr h.tables,
    Maps.backendsAt_congr h.tables]
  obtain ⟨hstate, hmaps⟩ := h.sessionLookup c.ctx c.tcp (hc.symm.trans hk)
  have hr := (Lookup.of_sessionLookup c m).hasRoom hroom
  have hr' := (Lookup.of_sessionLookup c m').hasRoom hroom'
  generalize L4Balancer.sessionLookup c.ctx c.stateKey c.tcp m = r at hstate hmaps hr ⊢
  generalize L4Balancer.sessionLookup c.ctx c.stateKey c.tcp m' = r' at hstate hmaps hr' ⊢
  obtain ⟨state, m₁⟩ := r
  obtain ⟨state', m₁'⟩ := r'
  obtain rfl : state' = state := hstate
  dsimp only at hmaps hr hr' ⊢
  split
  · exact ⟨rfl, hmaps.finishTcp ..⟩
  · split
    · exact ⟨rfl, hmaps⟩
    · rename_i info _
      have hsel := hmaps.selectTcp (m.backendsAt m.activeBuffer) info c.ctx c.stateKey c.packetLen
        (state'.elim 0 SessionStateVal.backendIdx)
      have hq := selectTcp_quiet c.ctx (m.backendsAt m.activeBuffer) info c.stateKey key c.packetLen
        (state'.elim 0 SessionStateVal.backendIdx)
      have hq₁ := hq m₁
      have hq₁' := hq m₁'
      generalize L4Balancer.selectTcp c.ctx (m.backendsAt m.activeBuffer) info c.stateKey key
        c.packetLen (state'.elim 0 SessionStateVal.backendIdx) m₁ = r at hsel hq₁ ⊢
      generalize L4Balancer.selectTcp c.ctx (m.backendsAt m.activeBuffer) info c.stateKey key
        c.packetLen (state'.elim 0 SessionStateVal.backendIdx) m₁' = r' at hsel hq₁' ⊢
      obtain ⟨b, idx, m₂⟩ := r
      obtain ⟨b', idx', m₂'⟩ := r'
      obtain ⟨rfl, rfl, hmaps⟩ := hsel
      cases b' with
      | none => exact ⟨rfl, hmaps⟩
      | some b =>
        rw [← hq₁.sessions] at hr
        rw [← hq₁'.sessions] at hr'
        exact ⟨rfl, (hmaps.storeSession hr hr' _).finishTcp ..⟩

/-- A UDP packet of the service. -/
theorem udp (h : Paired key m m') {c : UdpCall cpus} (hk : c.key = key) :
    (udpFinder cpus).out c m' = (udpFinder cpus).out c m ∧
      Paired key ((udpFinder cpus).next c m) ((udpFinder cpus).next c m') := by
  have hstep : ∀ m, (udpFinder cpus).step c m = findUdpBackend c.ctx c.key c.packetLen m :=
    fun _ => rfl
  rw [Machine.out, Machine.out, Machine.next, Machine.next, hstep, hstep, findUdpBackend,
    findUdpBackend, m.lookup_atomicIndex, m'.lookup_atomicIndex, hk]
  dsimp only
  rw [Maps.activeBuffer_congr h.tables, Maps.servicesAt_congr h.tables,
    Maps.backendsAt_congr h.tables]
  split
  · exact ⟨rfl, h⟩
  · rename_i info _
    have hsel := h.selectUdp (m.backendsAt m.activeBuffer) info
    generalize L4Balancer.selectUdp (m.backendsAt m.activeBuffer) info key m = r at hsel ⊢
    generalize L4Balancer.selectUdp (m.backendsAt m.activeBuffer) info key m' = r' at hsel ⊢
    obtain ⟨b, idx, m₁⟩ := r
    obtain ⟨b', idx', m₁'⟩ := r'
    obtain ⟨rfl, rfl, hmaps⟩ := hsel
    cases b' with
    | none => exact ⟨rfl, hmaps⟩
    | some b =>
      exact ⟨rfl, ⟨hmaps.tables, hmaps.sessions, hmaps.rr, hmaps.wrr⟩, hmaps.room, hmaps.room'⟩

end Paired

/-! ## Runs -/

/-- The run never finds the sessions or the states of weighted round robin full. -/
def Roomy (m : Maps cpus) (cs : List (Call cpus)) : Prop :=
  (finder cpus).Each (fun m _ => m.tcpSessionState.size < 65536 ∧ m.wrrStateMap.size < 256) m cs

instance (m : Maps cpus) (cs : List (Call cpus)) : Decidable (Roomy m cs) :=
  inferInstanceAs (Decidable ((finder cpus).Each _ m cs))

/-- The answers to the packets of a service, in a run of the packets of all. -/
def answersTo (key : ServiceKey) (m : Maps cpus) (cs : List (Call cpus)) : List (Option Backend) :=
  ((cs.zip ((finder cpus).outs m cs)).filter (·.1.key = key)).map Prod.snd

/-- The maps have sessions and states of weighted round robin of the service only. -/
structure Owned (key : ServiceKey) (m : Maps cpus) : Prop where
  sessions : ∀ k : SessionStateKey, (m.tcpSessionState.lookup k).isSome → k.service = key
  wrr : ∀ k, (m.wrrStateMap.lookup k).isSome → k = key

namespace Owned

theorem next (h : Owned key m) {c : Call cpus} (hc : c.OfV4) (hk : c.key = key) :
    Owned key ((finder cpus).next c m) := by
  -- a packet of the service leaves what the other services have
  have hskip : ∀ k, k ≠ key → Alike k m ((finder cpus).next c m) :=
    fun k hne => .skip m hc (hk.trans_ne hne.symm)
  constructor
  · intro k hs
    by_contra hne
    rw [(hskip _ hne).sessions k rfl] at hs
    exact hne (h.sessions k hs)
  · intro k hs
    by_contra hne
    rw [(hskip _ hne).wrr] at hs
    exact hne (h.wrr k hs)

/-- What is owned and alike is not larger. -/
theorem size_le (h : Owned key m') (halike : Alike key m m') :
    m'.tcpSessionState.size ≤ m.tcpSessionState.size ∧ m'.wrrStateMap.size ≤ m.wrrStateMap.size := by
  refine ⟨HashMap.size_le_of_lookup fun k hk => ?_, HashMap.size_le_of_lookup fun k hk => ?_⟩
  · rwa [← halike.sessions k (h.sessions k hk)]
  · obtain rfl := h.wrr k hk
    rwa [← halike.wrr]

end Owned

/-- A packet of the service, in states with room. -/
theorem Alike.next (h : Alike key m m') {c : Call cpus} (hc : c.OfV4) (hk : c.key = key)
    (hroom : m.tcpSessionState.size < 65536 ∧ m.wrrStateMap.size < 256)
    (hroom' : m'.tcpSessionState.size < 65536 ∧ m'.wrrStateMap.size < 256) :
    (finder cpus).out c m' = (finder cpus).out c m ∧
      Alike key ((finder cpus).next c m) ((finder cpus).next c m') := by
  have hpaired : Paired key m m' := ⟨h, .inr hroom.2, .inr hroom'.2⟩
  cases c with
  | tcp c =>
    obtain ⟨hout, hnext⟩ := hpaired.tcp (Call.key_of_ofV4 hc) hk hroom.1 hroom'.1
    exact ⟨hout, hnext.toAlike⟩
  | udp c =>
    obtain ⟨hout, hnext⟩ := hpaired.udp hk
    exact ⟨hout, hnext.toAlike⟩

theorem Alike.answersTo {cs : List (Call cpus)} (h : Alike key m m') (hcs : ∀ c ∈ cs, c.OfV4)
    (hroom : Roomy m cs) (hroom' : Owned key m' ∨ Roomy m' (cs.filter (·.key = key))) :
    L4Balancer.answersTo key m cs = (finder cpus).outs m' (cs.filter (·.key = key)) := by
  induction cs generalizing m m' with
  | nil => rfl
  | cons c cs ih =>
    rw [List.forall_mem_cons] at hcs
    obtain ⟨hc, hcs⟩ := hcs
    obtain ⟨hroom, hrooms⟩ := hroom
    rw [L4Balancer.answersTo, Machine.outs, List.zip_cons_cons]
    by_cases hk : c.key = key
    · rw [List.filter_cons_of_pos (by simpa using hk)] at hroom' ⊢
      rw [List.filter_cons_of_pos (by simpa using hk), List.map_cons, Machine.outs]
      have hone : m'.tcpSessionState.size < 65536 ∧ m'.wrrStateMap.size < 256 := by
        rcases hroom' with howned | hroom'
        · obtain ⟨hs, hw⟩ := howned.size_le h
          exact ⟨hs.trans_lt hroom.1, hw.trans_lt hroom.2⟩
        · exact hroom'.1
      obtain ⟨hout, hnext⟩ := h.next hc hk hroom hone
      rw [hout]
      exact congrArg _ (ih hnext hcs hrooms (hroom'.imp (·.next hc hk) And.right))
    · rw [List.filter_cons_of_neg (by simpa using hk)] at hroom' ⊢
      rw [List.filter_cons_of_neg (by simpa using hk)]
      exact ih ((Alike.skip m hc hk).symm.trans h) hcs hrooms hroom'

/-- Services do not interfere. In a run of packets over IPv4 that never finds the maps full, the
    packets of a service get the backends that they get in the run without the packets of the other
    services: if the run begins without entries of other services, or if the second run never finds
    the maps full either. -/
theorem services_do_not_interfere (key : ServiceKey) {cs : List (Call cpus)}
    (hcs : ∀ c ∈ cs, c.OfV4) (hroom : Roomy m cs)
    (hroom' : Owned key m ∨ Roomy m (cs.filter (·.key = key))) :
    answersTo key m cs = (finder cpus).outs m (cs.filter (·.key = key)) :=
  (Alike.refl key m).answersTo hcs hroom hroom'

/-- A SYN over IPv4 to the port 80 of 10.0.0.`host`. -/
def demoFrame (host : UInt8) : Packet :=
  List.replicate 30 0 ++ [10, 0, 0, host, 0, 1, 0, 80] ++ List.replicate 9 0 ++ 2 :: List.replicate 6 0

/-- A packet to another service in between. -/
theorem services_do_not_interfere_demo :
    let cs : List (Call 1) := [.tcp ((demoFrame 1).tcpCallV4 34 ⟨0, 0⟩),
      .tcp ((demoFrame 2).tcpCallV4 34 ⟨1, 0⟩), .tcp ((demoFrame 1).tcpCallV4 34 ⟨2, 0⟩)]
    answersTo demoKey (demoMaps BALANCER_WRR) cs =
      (finder 1).outs (demoMaps BALANCER_WRR) (cs.filter (·.key = demoKey)) :=
  services_do_not_interfere demoKey
    (by
      simp only [List.forall_mem_cons]
      exact ⟨⟨_, _, _, rfl⟩, ⟨_, _, _, rfl⟩, ⟨_, _, _, rfl⟩, by simp⟩)
    (by decide +kernel) (.inr (by decide +kernel))

end L4Balancer
