import Mathlib.Tactic.LinearCombination
import Mathlib.Tactic.Ring
import L4Balancer.Xdp.Session

/-!
# Connection accounting

The counters of open connections are meant to count the sessions
(`Maps.Accounting`). They do until a pure SYN replaces a session: a pure SYN does
not look for the session of its flow, so that a retransmitted one stores a new
session over the old one and counts it, without taking the old one off
(`TcpCall.ReplacesSession`).

`accounting_iff` says that this is the only way: along a run, the counters agree
with the session table exactly as long as no pure SYN replaces a session. The
steps are compared by what they add to a counter and what they add to its
sessions (`TcpStep.balance`).
-/

namespace L4Balancer

open Bpf

variable {cpus : ℕ} {m : Maps cpus} {c : TcpCall cpus}

/-- The sessions that a counter counts. -/
def Maps.sessions (m : Maps cpus) (x : Counter) : ℕ := m.tcpSessionState.count x.counts

/-- Every counter of open connections is the number of its sessions. -/
def Maps.Accounting (m : Maps cpus) : Prop := ∀ x : Counter, (m.conns x).toInt = m.sessions x

/-- A pure SYN of a flow with a session, for which the service chooses a backend. -/
def TcpCall.ReplacesSession (m : Maps cpus) (c : TcpCall cpus) : Prop :=
  c.tcp.pureSyn ∧ (m.tcpSessionState.lookup c.stateKey).isSome ∧
    ∃ info ∈ m.activeServices.lookup c.key,
      (selectTcp c.ctx m.activeBackends info c.stateKey c.key c.packetLen 0 m).1.isSome

instance : Decidable (TcpCall.ReplacesSession m c) :=
  inferInstanceAs (Decidable (_ ∧ _ ∧ ∃ _, _ ∧ _))

theorem Maps.sessions_lt (m : Maps cpus) (x : Counter) : m.sessions x < 2 ^ 31 :=
  (HashMap.count_le_size _ _).trans_lt (m.tcpSessionState.size_le.trans_lt (by decide))

/-! ## Drift -/

/-- By how much a counter is ahead of its sessions. -/
def Maps.drift (m : Maps cpus) (x : Counter) : BitVec 32 := m.conns x - (m.sessions x : BitVec 32)

theorem Maps.accounting_iff_drift : m.Accounting ↔ ∀ x, m.drift x = 0 := by
  refine forall_congr' fun x => ?_
  have hlt := m.sessions_lt x
  have hcast : (m.sessions x : BitVec 32).toInt = m.sessions x := by
    change (BitVec.ofNat 32 (m.sessions x)).toInt = m.sessions x
    rw [BitVec.toInt_ofNat', Int.bmod_eq_of_le] <;> omega
  rw [drift, sub_eq_zero, ← hcast, BitVec.toInt_inj]

/-- What the session of a flow adds to a counter: `1` or `0`. -/
def Maps.share (m : Maps cpus) (k : SessionStateKey) (x : Counter) : BitVec 32 :=
  ((m.tcpSessionState.lookup k).elim 0 fun v => (x.counts v).toNat : ℕ)

theorem ite_eq_mul (p : Bool) (d : BitVec 32) : (if p then d else 0) = d * (p.toNat : BitVec 32) := by
  cases p <;> simp

section Parts

variable (x : Counter) (k : SessionStateKey)

theorem drift_quiet {m m' : Maps cpus} (h : Quiet m m') : m'.drift x = m.drift x := by
  rw [Maps.drift, Maps.drift, Maps.sessions, Maps.sessions, h.conns, h.sessions]

theorem drift_expireSession (ctx : Ctx cpus) {state : SessionStateVal}
    (hs : m.tcpSessionState.lookup k = some state) :
    (m.expireSession ctx k state).drift x = m.drift x := by
  have h := congrArg (Nat.cast : ℕ → BitVec 32) (m.tcpSessionState.count_delete x.counts k)
  rw [hs, Option.elim_some] at h
  push_cast at h
  simp only [Maps.drift, Maps.sessions, Maps.conns_expireSession,
    Maps.sessions_expireSession, ite_eq_mul]
  linear_combination -h

/-- Storing a session: it is counted later, but the one it replaces goes. -/
theorem drift_storeSession (state : SessionStateVal) (hk : m.tcpSessionState.HasRoom k) :
    (m.storeSession k state).drift x =
      m.drift x - ((x.counts state).toNat : BitVec 32) + m.share k x := by
  have h := congrArg (Nat.cast : ℕ → BitVec 32) (HashMap.count_put x.counts state hk)
  push_cast at h
  simp only [Maps.drift, Maps.sessions, Maps.share, Maps.conns_storeSession,
    Maps.sessions_storeSession]
  linear_combination -h

theorem drift_refresh {state : SessionStateVal} (hs : m.tcpSessionState.lookup k = some state)
    (now : UInt64) : (m.storeSession k (state.refresh now)).drift x = m.drift x := by
  rw [drift_storeSession x k _ (.inl (by rw [hs]; rfl)), Maps.share, hs, Counter.counts_refresh]
  exact sub_add_cancel _ _

/-- The end of a packet that leaves the session of its flow, `state`, in the table. -/
theorem drift_finishTcp {ctx : Ctx cpus} {tcp : TcpHdr} {packetLen : UInt32}
    {state : Option SessionStateVal} (hopen : (state.isSome && tcp.closing) = false)
    (new : SessionStateVal) (delta : BitVec 32) :
    (finishTcp ctx k tcp packetLen state new.backendIdx new.serviceIdx delta m).drift x =
      m.drift x + delta * ((x.counts new).toNat : BitVec 32) := by
  simp only [Maps.drift, Maps.sessions, conns_finishTcp, sessions_finishTcp, hopen, ite_eq_mul,
    Bool.false_eq_true, if_false]
  ring

/-- The end of a packet that closes the session of its flow. -/
theorem drift_finishTcp_closing {ctx : Ctx cpus} {tcp : TcpHdr} {packetLen : UInt32}
    {state : Option SessionStateVal} (hclose : (state.isSome && tcp.closing) = true)
    (new : SessionStateVal) (delta : BitVec 32) :
    (finishTcp ctx k tcp packetLen state new.backendIdx new.serviceIdx delta m).drift x =
      m.drift x - ((x.counts new).toNat : BitVec 32) + m.share k x := by
  have h := congrArg (Nat.cast : ℕ → BitVec 32) (m.tcpSessionState.count_delete x.counts k)
  push_cast at h
  simp only [Maps.drift, Maps.sessions, Maps.share, conns_finishTcp, sessions_finishTcp, hclose,
    ite_eq_mul, if_true]
  linear_combination -h

/-- A packet that is found by no session and stores one: the counter gets ahead by the session that
    was there. -/
theorem drift_create (c : TcpCall cpus) (new : SessionStateVal)
    (hk : m.tcpSessionState.HasRoom c.stateKey) :
    (finishTcp c.ctx c.stateKey c.tcp c.packetLen none new.backendIdx new.serviceIdx 1
      (m.storeSession c.stateKey new)).drift x = m.drift x + m.share c.stateKey x := by
  rw [drift_finishTcp x c.stateKey rfl, drift_storeSession x c.stateKey new hk]
  ring

end Parts

/-- A lookup moves no counter away from its sessions. -/
theorem Lookup.drift {state : Option SessionStateVal} {m₁ : Maps cpus} (h : Lookup c m state m₁)
    (x : Counter) : m₁.drift x = m.drift x := by
  cases h with
  | absent => rfl
  | expired _ hs _ => exact drift_expireSession x _ c.ctx hs
  | live _ hs _ => exact drift_refresh x _ hs _

theorem share_of_lookup_none {k : SessionStateKey} (h : m.tcpSessionState.lookup k = none)
    (x : Counter) : m.share k x = 0 := by
  rw [Maps.share, h]
  rfl

/-- Only a pure SYN finds no session where there is one. -/
theorem Lookup.share {m₁ : Maps cpus} (h : Lookup c m none m₁) (x : Counter) :
    m₁.share c.stateKey x = if c.tcp.pureSyn then m.share c.stateKey x else 0 := by
  cases h with
  | absent h =>
    split_ifs with hsyn
    · rfl
    · exact share_of_lookup_none (h.resolve_left hsyn) x
  | expired hsyn =>
    rw [if_neg (by simp [hsyn])]
    exact share_of_lookup_none
      (by rw [Maps.sessions_expireSession, HashMap.lookup_delete, if_pos rfl]) x

theorem share_storeSession {k : SessionStateKey} {state : SessionStateVal}
    (hk : m.tcpSessionState.HasRoom k) (x : Counter) :
    (m.storeSession k state).share k x = ((x.counts state).toNat : BitVec 32) := by
  rw [Maps.share, Maps.sessions_storeSession, HashMap.lookup_put hk, if_pos rfl]
  rfl

/-- What a packet does to a counter and to its sessions: the counter gets ahead by the session that
    the packet replaces. -/
theorem TcpStep.drift {out : Option Backend} {m' : Maps cpus} (hs : TcpStep c m out m')
    (hrange : m.SessionsInRange) (hroom : m.tcpSessionState.size < 65536) (x : Counter) :
    m'.drift x = m.drift x + if c.ReplacesSession m then m.share c.stateKey x else 0 := by
  cases hs with
  | @hit state b hsyn hsome hlate hb =>
    have hnr : ¬c.ReplacesSession m := fun h => absurd (hsyn.symm.trans h.1) (by simp)
    have hk : m.tcpSessionState.HasRoom c.stateKey := .inl (by rw [hsome]; rfl)
    have hnew := drift_refresh x c.stateKey hsome c.ctx.now
    rw [if_neg hnr, add_zero, ← hnew]
    cases hclose : c.tcp.closing with
    | false =>
      have hopen : ((some (state.refresh c.ctx.now)).isSome && c.tcp.closing) = false := hclose
      exact (drift_finishTcp x _ hopen (state.refresh c.ctx.now) 0).trans (by ring)
    | true =>
      have hclose : ((some (state.refresh c.ctx.now)).isSome && c.tcp.closing) = true := hclose
      refine (drift_finishTcp_closing x _ hclose (state.refresh c.ctx.now) 0).trans ?_
      rw [share_storeSession hk]
      ring
  | @create state m₁ m₂ info b idx hl hno hinfo hsel =>
    obtain rfl := hrange.eq_none hl hno
    have hq := quiet_of_selectTcp hsel
    have hk : m₂.tcpSessionState.HasRoom c.stateKey := by
      rw [hq.sessions]
      exact hl.hasRoom hroom
    have hshare : m₂.share c.stateKey x = m₁.share c.stateKey x := by
      rw [Maps.share, hq.sessions, Maps.share]
    have hdrift := drift_create x c ⟨idx, info.serviceIdx, c.ctx.now, TCP_STATE_TIMEOUT⟩ hk
    rw [drift_quiet x hq, hl.drift x, hshare, hl.share x] at hdrift
    refine hdrift.trans (congrArg _ ?_)
    by_cases hsyn : c.tcp.pureSyn
    · rw [if_pos hsyn]
      cases hsome : m.tcpSessionState.lookup c.stateKey with
      | none => rw [share_of_lookup_none hsome, ite_self]
      | some s =>
        have hm₁ : m₁ = m := by
          cases hl with
          | absent => rfl
          | expired hsyn' => exact absurd (hsyn'.symm.trans hsyn) (by simp)
        subst hm₁
        rw [Option.elim_none] at hsel
        exact (if_pos ⟨hsyn, by rw [hsome]; rfl, info, hinfo, by rw [hsel]; rfl⟩).symm
    · rw [if_neg hsyn, if_neg fun h : c.ReplacesSession m => hsyn h.1]
  | @drop state m₁ _ hl hno hsel =>
    have hq : Quiet m₁ m' := by
      rcases hsel with ⟨-, rfl⟩ | ⟨info, idx, -, hsel⟩
      · exact .refl _
      · exact quiet_of_selectTcp hsel
    have hnr : ¬c.ReplacesSession m := by
      rintro ⟨hsyn, -, info, hinfo, hb⟩
      rcases hsel with ⟨h, -⟩ | ⟨info', idx, hinfo', hsel⟩
      · exact absurd (hinfo.symm.trans h) (by simp)
      · obtain rfl := Option.some.inj (hinfo'.symm.trans hinfo)
        cases hl with
        | absent =>
          rw [Option.elim_none] at hsel
          exact absurd (hsel ▸ hb) (by simp)
        | expired hsyn' | live hsyn' => exact absurd (hsyn'.symm.trans hsyn) (by simp)
    rw [if_neg hnr, add_zero, drift_quiet x hq, hl.drift x]

/-! ## Runs -/

/-- The counter of the backend of a session is one that its replacement leaves ahead. -/
theorem share_backend (hrange : m.SessionsInRange) {k : SessionStateKey}
    (hs : (m.tcpSessionState.lookup k).isSome) : ∃ x, m.share k x = 1 := by
  obtain ⟨state, hstate⟩ := Option.isSome_iff_exists.1 hs
  refine ⟨.backend ⟨state.backendIdx.toNat, hrange k state hstate⟩, ?_⟩
  rw [Maps.share, hstate]
  simp [Counter.counts]

theorem accounting_step (hrange : m.SessionsInRange) (hroom : m.tcpSessionState.size < 65536)
    (h : m.Accounting) : ((tcpFinder cpus).next c m).Accounting ↔ ¬c.ReplacesSession m := by
  have hdrift := (TcpStep.of_next c m).drift hrange hroom
  rw [Maps.accounting_iff_drift] at h ⊢
  constructor
  · intro h' hr
    obtain ⟨x, hx⟩ := share_backend hrange hr.2.1
    have := hdrift x
    rw [h', h, if_pos hr, hx] at this
    exact absurd this (by decide)
  · intro hr x
    rw [hdrift x, h x, if_neg hr, add_zero]

/-- Connection accounting. From an empty session table and zero counters, along a run in which the
    session table has room, the counters of open connections count the sessions after every packet
    exactly if no pure SYN replaces a session. -/
theorem accounting_iff {cs : List (TcpCall cpus)} (hempty : m.tcpSessionState = .empty)
    (hzero : ∀ x, m.conns x = 0)
    (hroom : (tcpFinder cpus).Each (fun m _ => m.tcpSessionState.size < 65536) m cs) :
    (tcpFinder cpus).Always Maps.Accounting m cs ↔
      (tcpFinder cpus).Each (fun m c => ¬c.ReplacesSession m) m cs := by
  have hrange : m.SessionsInRange := by
    intro k state hs
    rw [hempty] at hs
    cases hs
  have hacc : m.Accounting := by
    intro x
    rw [hzero, Maps.sessions, hempty]
    rfl
  exact Machine.always_iff_each (I := Maps.SessionsInRange)
    (fun m c hrange _ => hrange.step (TcpStep.of_next c m))
    (fun m c hrange hroom h => accounting_step hrange hroom h) hrange hacc hroom

theorem demoMaps_conns (algorithm : UInt8) (x : Counter) : (demoMaps algorithm).conns x = 0 := by
  cases x <;> exact (PerCpuArray.total_const _ _ _).trans (one_smul ℕ _)

/-- A SYN and an ACK of a flow are accounted for. -/
theorem accounting_iff_demo : (tcpFinder 1).Always Maps.Accounting (demoMaps BALANCER_RR)
    [demoCall 0 1 true, demoCall 1 1 false] :=
  (accounting_iff rfl (demoMaps_conns _) (by decide)).2 (by decide)

/-- A SYN that is sent twice is counted twice, but has one session. -/
theorem accounting_syn_twice : (demoMaps BALANCER_RR).tcpSessionState = .empty ∧
    (∀ x, (demoMaps BALANCER_RR).conns x = 0) ∧
    (tcpFinder 1).Each (fun m _ => m.tcpSessionState.size < 65536) (demoMaps BALANCER_RR)
      [demoCall 0 1 true, demoCall 1 1 true] ∧
    ¬(tcpFinder 1).Always Maps.Accounting (demoMaps BALANCER_RR)
      [demoCall 0 1 true, demoCall 1 1 true] := by
  refine ⟨rfl, demoMaps_conns _, by decide, fun h => ?_⟩
  have hservice := h.exec (.service 0)
  exact absurd hservice (by decide)

end L4Balancer
