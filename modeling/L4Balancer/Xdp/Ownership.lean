import L4Balancer.Xdp.Calls
import L4Balancer.Xdp.Isolation

/-!
# Sessions of their own

A session is *own* if its index is that of an active backend of the block of its service
(`ServiceInfo.Owns`). If all sessions are, and all cursors of weighted round robin are in
their blocks, then packets keep it so (`Settled.next`) and go to an active backend of the block
of their service (`Settled.out`). That no two services share a flow is a matter of the packets
(`Call.InFlow`): the keys of sessions have no version of IP.
-/

namespace L4Balancer

open Bpf

variable {cpus : ℕ} {m m' : Maps cpus} {info : ServiceInfo} {key : ServiceKey}
  {service : SessionStateKey → ServiceKey} {b : Backend} {idx last : UInt32}

/-- The packet is addressed to the service that its flow has. -/
def Call.InFlow (service : SessionStateKey → ServiceKey) : Call cpus → Prop
  | tcp c => c.key = service c.stateKey
  | udp _ => True

theorem Call.inFlow_of_ofV4 {c : Call cpus} (h : c.OfV4) : c.InFlow SessionStateKey.service := by
  cases c with
  | tcp c => exact key_of_ofV4 h
  | udp c => trivial

/-- The index is that of an active backend of the block, where it should be. -/
def ServiceInfo.Owns (info : ServiceInfo) (backends : ArrayMap Backend 1024) (idx : UInt32) : Prop :=
  info.algorithm ≠ BALANCER_CH → info.backendCount ≠ 0 →
    info.Holds idx ∧ ∃ b, backends.lookup idx.toNat = some b ∧ b.active ≠ 0

/-! ## The choice of a backend -/

theorem algorithm_of_mem_handlerCalls {backends : ArrayMap Backend 1024}
    {r : Option Backend × UInt32} (h : r ∈ handlerCalls backends info key last m) :
    info.algorithm = BALANCER_RR ∨ info.algorithm = BALANCER_WRR := by
  rw [handlerCalls] at h
  split_ifs at h with hrr hwrr
  · exact .inl hrr
  · exact .inr hwrr
  · cases h

section Choice

variable {keys : List ServiceKey} {services : HashMap ServiceKey ServiceInfo 256}
  {backends : ArrayMap Backend 1024}

/-- The index of a call is one of the block, where the block is not empty. -/
theorem Cursors.holds_of_mem (h : Cursors keys services m) (hinfo : services.lookup key = some info)
    (hfits : info.Fits) (hcount : info.backendCount ≠ 0)
    (hmem : (some b, idx) ∈ L4Balancer.handlerCalls backends info key last m) : info.Holds idx := by
  rcases h.handlerCalls hinfo hfits _ hmem b rfl with hholds | ⟨-, hzero, -⟩
  · exact hholds
  · exact absurd hzero hcount

/-- What `find_tcp_backend` stores in a new session. -/
theorem Cursors.tcp_owns (h : Cursors keys services m) {c : TcpCall cpus}
    (hinfo : services.lookup c.key = some info) (hfits : info.Fits)
    (hsel : L4Balancer.selectTcp c.ctx backends info c.stateKey c.key c.packetLen last m =
      (some b, idx, m')) (hch : info.algorithm ≠ BALANCER_CH) (hcount : info.backendCount ≠ 0) :
    info.Holds idx ∧ backends.lookup idx.toNat = some b ∧ b.active ≠ 0 := by
  rcases mem_handlerCalls_or_chPick hsel with hmem | ⟨hch', -⟩
  · exact ⟨h.holds_of_mem hinfo hfits hcount hmem,
      selectTcp_spec (algorithm_of_mem_handlerCalls hmem) hsel⟩
  · exact absurd hch' hch

theorem Cursors.udp_owns (h : Cursors keys services m) (hinfo : services.lookup key = some info)
    (hfits : info.Fits) (hsel : L4Balancer.selectUdp backends info key m = (some b, idx, m'))
    (hcount : info.backendCount ≠ 0) :
    info.Holds idx ∧ backends.lookup idx.toNat = some b ∧ b.active ≠ 0 := by
  have hmem : (some b, idx) ∈ L4Balancer.handlerCalls backends info key 0 m := by
    have hs := hsel
    rw [L4Balancer.selectUdp] at hs
    rw [L4Balancer.handlerCalls]
    split_ifs at hs ⊢
    · exact mem_loopCalls hs
    · exact mem_loopCalls hs
    · simp at hs
  exact ⟨h.holds_of_mem hinfo hfits hcount hmem, selectUdp_spec hsel⟩

end Choice

/-! ## The sessions -/

/-- The sessions are own, in the tables of the maps. -/
def OwnSessions (service : SessionStateKey → ServiceKey) (m : Maps cpus)
    (sessions : HashMap SessionStateKey SessionStateVal 65536) : Prop :=
  ∀ k v, sessions.lookup k = some v → ∀ info, m.activeServices.lookup (service k) = some info →
    info.Fits → info.Owns m.activeBackends v.backendIdx

namespace OwnSessions

variable {sessions : HashMap SessionStateKey SessionStateVal 65536} {k : SessionStateKey}
  {v : SessionStateVal}

theorem congr (h : OwnSessions service m sessions) (ht : m'.tables = m.tables) :
    OwnSessions service m' sessions := by
  intro k v hk info hinfo
  rw [Maps.activeServices_congr ht] at hinfo
  rw [Maps.activeBackends_congr ht]
  exact h k v hk info hinfo

theorem delete (h : OwnSessions service m sessions) (k : SessionStateKey) :
    OwnSessions service m (sessions.delete k) := by
  intro k' v hk
  rw [HashMap.lookup_delete] at hk
  split_ifs at hk
  exact h k' v hk

theorem put (h : OwnSessions service m sessions)
    (hv : ∀ info, m.activeServices.lookup (service k) = some info → info.Fits →
      info.Owns m.activeBackends v.backendIdx) : OwnSessions service m (sessions.put k v) := by
  intro k' v' hk
  -- an old session, or the new one if the map had room for it
  rcases sessions.lookup_put_or k k' v with hl | ⟨rfl, hl⟩
  · exact h k' v' (hl.symm.trans hk)
  · obtain rfl := Option.some.inj (hl.symm.trans hk)
    exact hv

/-- A refreshed session has its index. -/
theorem refresh (h : OwnSessions service m sessions) (hk : sessions.lookup k = some v)
    (now : UInt64) : OwnSessions service m (sessions.put k (v.refresh now)) :=
  h.put (h k v hk)

theorem finishTcp {m₁ : Maps cpus} (h : OwnSessions service m m₁.tcpSessionState) {ctx : Ctx cpus}
    {tcp : TcpHdr} {packetLen serviceIdx : UInt32} {state : Option SessionStateVal}
    {delta : BitVec 32} : OwnSessions service m (L4Balancer.finishTcp ctx k tcp packetLen state last
      serviceIdx delta m₁).tcpSessionState := by
  rw [sessions_finishTcp]
  split_ifs
  · exact h.delete k
  · exact h

theorem lookup (h : OwnSessions service m m.tcpSessionState) {c : TcpCall cpus}
    {state : Option SessionStateVal} {m₁ : Maps cpus} (hl : Lookup c m state m₁) :
    OwnSessions service m m₁.tcpSessionState := by
  cases hl with
  | absent => exact h
  | expired => exact h.delete c.stateKey
  | live _ hsome _ => exact h.refresh hsome c.ctx.now

end OwnSessions

/-! ## The invariant -/

/-- All sessions are own, and all cursors of weighted round robin are in their blocks. -/
structure Settled (service : SessionStateKey → ServiceKey) (m : Maps cpus) : Prop where
  cursors : Cursors [] m.activeServices m
  sessions : OwnSessions service m m.tcpSessionState

namespace Settled

theorem tcp (h : Settled service m) {c : TcpCall cpus} (hc : c.key = service c.stateKey) :
    OwnSessions service m ((tcpFinder cpus).next c m).tcpSessionState := by
  have hs := TcpStep.of_next c m
  generalize (tcpFinder cpus).out c m = out at hs
  generalize (tcpFinder cpus).next c m = m' at hs ⊢
  cases hs with
  | hit _ hsome _ _ => exact (h.sessions.refresh hsome c.ctx.now).finishTcp
  | create hl _ hinfo hsel =>
    -- the new session has the index that was chosen
    refine OwnSessions.finishTcp ?_
    rw [Maps.sessions_storeSession, (quiet_of_selectTcp hsel).sessions]
    refine (h.sessions.lookup hl).put fun info' hinfo' hfits hch hcount => ?_
    rw [← hc, hinfo] at hinfo'
    obtain rfl := Option.some.inj hinfo'
    obtain ⟨hholds, hb, hactive⟩ := (h.cursors.lookup hl).tcp_owns hinfo hfits hsel hch hcount
    exact ⟨hholds, _, hb, hactive⟩
  | drop hl _ hsel =>
    rcases hsel with ⟨-, rfl⟩ | ⟨info, idx, -, hsel⟩
    · exact h.sessions.lookup hl
    · rw [(quiet_of_selectTcp hsel).sessions]
      exact h.sessions.lookup hl

theorem next (h : Settled service m) {c : Call cpus} (hc : c.InFlow service) :
    Settled service ((finder cpus).next c m) := by
  refine ⟨h.cursors.next c, OwnSessions.congr ?_ (tables_finder c m)⟩
  cases c with
  | tcp c => exact h.tcp hc
  | udp c =>
    change OwnSessions service m ((udpFinder cpus).next c m).tcpSessionState
    rw [sessions_udpFinder]
    exact h.sessions

/-- A packet that is forwarded goes to an active backend of the block of its service. -/
theorem out (h : Settled service m) {c : Call cpus} (hc : c.InFlow service)
    (hinfo : m.activeServices.lookup c.key = some info) (hfits : info.Fits)
    (hch : info.algorithm ≠ BALANCER_CH) (hcount : info.backendCount ≠ 0)
    (hout : (finder cpus).out c m = some b) :
    ∃ idx, info.Holds idx ∧ m.activeBackends.lookup idx.toNat = some b ∧ b.active ≠ 0 := by
  cases c with
  | tcp c =>
    have hout : (tcpFinder cpus).out c m = some b := hout
    have hs := TcpStep.of_next c m
    rw [hout] at hs
    generalize (tcpFinder cpus).next c m = m' at hs
    cases hs with
    | hit _ hsome _ hb =>
      -- the session is one of this service, since no two share a flow
      have hc : c.key = service c.stateKey := hc
      obtain ⟨hholds, b', hb', hactive⟩ :=
        h.sessions _ _ hsome info (hc ▸ hinfo) hfits hch hcount
      obtain rfl := Option.some.inj (hb.symm.trans hb')
      exact ⟨_, hholds, hb, hactive⟩
    | create hl _ hinfo' hsel =>
      obtain rfl := Option.some.inj (hinfo.symm.trans hinfo')
      exact ⟨_, (h.cursors.lookup hl).tcp_owns hinfo hfits hsel hch hcount⟩
  | udp c =>
    have hout : (udpFinder cpus).out c m = some b := hout
    have hs := UdpStep.of_next c m
    rw [hout] at hs
    generalize (udpFinder cpus).next c m = m' at hs
    cases hs with
    | forward hinfo' hsel =>
      obtain rfl := Option.some.inj (hinfo.symm.trans hinfo')
      exact ⟨_, h.cursors.udp_owns hinfo hfits hsel hcount⟩

end Settled

end L4Balancer
