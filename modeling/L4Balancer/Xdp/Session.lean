import L4Balancer.Xdp.Frame

/-!
# The steps of the session table

What a call of `find_tcp_backend` can do (`TcpStep`):

* *hit*: the packet is found by the session of its flow, which is refreshed, and
  goes to the backend at the index of the session;
* *create*: no session leads to a backend, but the algorithm of the service
  chooses one, and a session with its index is stored;
* *drop*: no session leads to a backend and none is chosen.

A session of the flow that has timed out is deleted in the last two cases.
`TcpStep.of_next` is the handle for proofs: invariants of runs are proved by cases
on it, without going back to the function.
-/

namespace L4Balancer

open Bpf

variable {cpus : ℕ}

/-- A counter of open connections: that of a backend or that of a service. -/
inductive Counter
  | backend (b : Fin 1024)
  | service (s : Fin 256)

/-- The sessions a counter counts. -/
def Counter.counts : Counter → SessionStateVal → Bool
  | backend b, v => v.backendIdx.toNat = b
  | service s, v => v.serviceIdx.toNat = s

/-- The value of a counter, all CPUs together. -/
def Maps.conns (m : Maps cpus) : Counter → BitVec 32
  | .backend b => m.backendConns b
  | .service s => m.serviceConns s

theorem Quiet.conns {m m' : Maps cpus} (h : Quiet m m') (x : Counter) : m'.conns x = m.conns x := by
  cases x with
  | backend b => exact h.backendConns b
  | service s => exact h.serviceConns s

/-- A refreshed session is counted where it was. -/
@[simp] theorem Counter.counts_refresh (x : Counter) (state : SessionStateVal) (now : UInt64) :
    x.counts (state.refresh now) = x.counts state := by
  cases x <;> rfl

/-! ## The parts -/

namespace Maps

variable (m : Maps cpus) (ctx : Ctx cpus) (stateKey : SessionStateKey) (state : SessionStateVal)

@[simp] theorem tables_expireSession : (m.expireSession ctx stateKey state).tables = m.tables :=
  rfl

@[simp] theorem tables_storeSession : (m.storeSession stateKey state).tables = m.tables := rfl

@[simp] theorem sessions_expireSession :
    (m.expireSession ctx stateKey state).tcpSessionState = m.tcpSessionState.delete stateKey :=
  rfl

@[simp] theorem sessions_storeSession :
    (m.storeSession stateKey state).tcpSessionState = m.tcpSessionState.put stateKey state := rfl

theorem conns_expireSession (x : Counter) :
    (m.expireSession ctx stateKey state).conns x =
      m.conns x + if x.counts state then -1 else 0 := by
  cases x with
  | backend b =>
    simp only [Counter.counts, decide_eq_true_eq]
    exact m.backendsPacketsStats.total_modify ctx.cpu _ _ _ (fun _ => rfl) b
  | service s =>
    simp only [Counter.counts, decide_eq_true_eq]
    exact m.servicesPacketsStats.total_modify ctx.cpu _ _ _ (fun _ => rfl) s

@[simp] theorem conns_storeSession (x : Counter) :
    (m.storeSession stateKey state).conns x = m.conns x := by
  cases x <;> rfl

end Maps

section Finish

variable (ctx : Ctx cpus) (stateKey : SessionStateKey) (tcp : TcpHdr) (packetLen : UInt32)
  (state : Option SessionStateVal) (lastIndex serviceIdx : UInt32) (delta : BitVec 32)
  (m : Maps cpus)

@[simp] theorem tables_finishTcp :
    (finishTcp ctx stateKey tcp packetLen state lastIndex serviceIdx delta m).tables = m.tables :=
  rfl

@[simp] theorem sessions_finishTcp :
    (finishTcp ctx stateKey tcp packetLen state lastIndex serviceIdx delta m).tcpSessionState =
      if state.isSome && tcp.closing then m.tcpSessionState.delete stateKey
      else m.tcpSessionState := rfl

/-- The counters move at the indices of the session `new`. -/
theorem conns_finishTcp (x : Counter) (new : SessionStateVal) :
    (finishTcp ctx stateKey tcp packetLen state new.backendIdx new.serviceIdx delta m).conns x =
      m.conns x + if x.counts new then
        (if state.isSome && tcp.closing then -1 else delta) else 0 := by
  cases x with
  | backend b =>
    simp only [Counter.counts, decide_eq_true_eq]
    exact m.backendsPacketsStats.total_modify ctx.cpu _ _ _ (fun _ => rfl) b
  | service s =>
    simp only [Counter.counts, decide_eq_true_eq]
    exact m.servicesPacketsStats.total_modify ctx.cpu _ _ _ (fun _ => rfl) s

end Finish

/-! ## The steps -/

variable {c : TcpCall cpus} {m : Maps cpus}

/-- The session of the flow of the packet has timed out when the packet arrives. -/
def TcpCall.Late (c : TcpCall cpus) (state : SessionStateVal) : Prop :=
  c.ctx.now - state.created > state.timeout

/-- What `sessionLookup` finds and does. -/
inductive Lookup (c : TcpCall cpus) (m : Maps cpus) : Option SessionStateVal → Maps cpus → Prop
  | absent : (c.tcp.pureSyn ∨ m.tcpSessionState.lookup c.stateKey = none) → Lookup c m none m
  | expired {state : SessionStateVal} : c.tcp.pureSyn = false →
      m.tcpSessionState.lookup c.stateKey = some state → c.Late state →
      Lookup c m none (m.expireSession c.ctx c.stateKey state)
  | live {state : SessionStateVal} : c.tcp.pureSyn = false →
      m.tcpSessionState.lookup c.stateKey = some state → ¬c.Late state →
      Lookup c m (some (state.refresh c.ctx.now))
        (m.storeSession c.stateKey (state.refresh c.ctx.now))

theorem Lookup.of_sessionLookup (c : TcpCall cpus) (m : Maps cpus) :
    Lookup c m (sessionLookup c.ctx c.stateKey c.tcp m).1
      (sessionLookup c.ctx c.stateKey c.tcp m).2 := by
  rw [sessionLookup]
  split_ifs with hsyn
  · exact .absent (.inl hsyn)
  · rw [Bool.not_eq_true] at hsyn
    split
    · rename_i hnone
      exact .absent (.inr hnone)
    · rename_i state hsome
      split_ifs with hlate
      · exact .expired hsyn hsome hlate
      · exact .live hsyn hsome hlate

theorem Lookup.eq {state : Option SessionStateVal} {m₁ : Maps cpus} (h : Lookup c m state m₁) :
    sessionLookup c.ctx c.stateKey c.tcp m = (state, m₁) := by
  rw [sessionLookup]
  cases h with
  | absent h =>
    split_ifs with hsyn
    · rfl
    · rw [h.resolve_left hsyn]
  | expired hsyn hsome hlate =>
    rw [if_neg (by simp [hsyn]), hsome]
    exact if_pos hlate
  | live hsyn hsome hlate =>
    rw [if_neg (by simp [hsyn]), hsome]
    exact if_neg hlate

theorem Lookup.tables {state : Option SessionStateVal} {m₁ : Maps cpus} (h : Lookup c m state m₁) :
    m₁.tables = m.tables := by
  cases h <;> rfl

/-- The session table has no cursors. -/
theorem Lookup.cursors {state : Option SessionStateVal} {m₁ : Maps cpus} (h : Lookup c m state m₁) :
    m₁.rrIndex = m.rrIndex ∧ m₁.wrrStateMap = m.wrrStateMap := by
  cases h <;> exact ⟨rfl, rfl⟩

/-- What a call of `find_tcp_backend` does, with its answer and the maps after it. -/
inductive TcpStep (c : TcpCall cpus) (m : Maps cpus) : Option Backend → Maps cpus → Prop
  | hit {state : SessionStateVal} {b : Backend} : c.tcp.pureSyn = false →
      m.tcpSessionState.lookup c.stateKey = some state → ¬c.Late state →
      m.activeBackends.lookup state.backendIdx.toNat = some b →
      TcpStep c m (some b) (finishTcp c.ctx c.stateKey c.tcp c.packetLen
        (some (state.refresh c.ctx.now)) state.backendIdx state.serviceIdx 0
        (m.storeSession c.stateKey (state.refresh c.ctx.now)))
  | create {state : Option SessionStateVal} {m₁ m₂ : Maps cpus} {info : ServiceInfo} {b : Backend}
      {idx : UInt32} : Lookup c m state m₁ →
      (∀ s, state = some s → m.activeBackends.lookup s.backendIdx.toNat = none) →
      m.activeServices.lookup c.key = some info →
      selectTcp c.ctx m.activeBackends info c.stateKey c.key c.packetLen
        (state.elim 0 SessionStateVal.backendIdx) m₁ = (some b, idx, m₂) →
      TcpStep c m (some b) (finishTcp c.ctx c.stateKey c.tcp c.packetLen state idx info.serviceIdx 1
        (m₂.storeSession c.stateKey ⟨idx, info.serviceIdx, c.ctx.now, TCP_STATE_TIMEOUT⟩))
  | drop {state : Option SessionStateVal} {m₁ m₂ : Maps cpus} : Lookup c m state m₁ →
      (∀ s, state = some s → m.activeBackends.lookup s.backendIdx.toNat = none) →
      (m.activeServices.lookup c.key = none ∧ m₂ = m₁ ∨
        ∃ info idx, m.activeServices.lookup c.key = some info ∧
          selectTcp c.ctx m.activeBackends info c.stateKey c.key c.packetLen
            (state.elim 0 SessionStateVal.backendIdx) m₁ = (none, idx, m₂)) →
      TcpStep c m none m₂

theorem TcpStep.of_next (c : TcpCall cpus) (m : Maps cpus) :
    TcpStep c m ((tcpFinder cpus).out c m) ((tcpFinder cpus).next c m) := by
  have hl := Lookup.of_sessionLookup c m
  have hstep : (tcpFinder cpus).step c m =
    findTcpBackend c.ctx c.stateKey c.key c.tcp c.packetLen m := rfl
  rw [Machine.out, Machine.next, hstep, findTcpBackend, m.lookup_atomicIndex]
  dsimp only
  generalize sessionLookup c.ctx c.stateKey c.tcp m = r at hl
  obtain ⟨state, m₁⟩ := r
  dsimp only at hl ⊢
  split
  · rename_i s b hs
    -- a session leads to a backend: only a live one does
    obtain ⟨s', hs', hb⟩ := Option.bind_eq_some_iff.1 hs
    obtain ⟨b', hb', he⟩ := Option.map_eq_some_iff.1 hb
    obtain ⟨rfl, rfl⟩ := Prod.mk.inj he
    cases hl with
    | absent | expired => exact absurd hs' (by simp)
    | live hsyn hsome hlate =>
      rw [← Option.some.inj hs'] at hb' ⊢
      exact .hit hsyn hsome hlate hb'
  · rename_i hs
    have hno : ∀ s, state = some s → m.activeBackends.lookup s.backendIdx.toNat = none := by
      rintro s rfl
      have hn : (m.backendsAt m.activeBuffer).lookup s.backendIdx.toNat = none := by
        simpa using hs
      exact hn
    split
    · rename_i hnone
      exact .drop hl hno (.inl ⟨hnone, rfl⟩)
    · rename_i info hsome
      rcases hsel : selectTcp c.ctx (m.backendsAt m.activeBuffer) info c.stateKey c.key
        c.packetLen (state.elim 0 SessionStateVal.backendIdx) m₁ with ⟨_ | b, idx, m₂⟩
      · exact .drop hl hno (.inr ⟨info, idx, hsome, hsel⟩)
      · exact .create hl hno hsome hsel

theorem TcpStep.tables {b : Option Backend} {m' : Maps cpus} (h : TcpStep c m b m') :
    m'.tables = m.tables := by
  cases h with
  | hit => rfl
  | create hl _ _ hsel =>
    rw [tables_finishTcp, Maps.tables_storeSession, (quiet_of_selectTcp hsel).tables, hl.tables]
  | drop hl _ hsel =>
    rcases hsel with ⟨-, rfl⟩ | ⟨info, idx, -, hsel⟩
    · exact hl.tables
    · exact (quiet_of_selectTcp hsel).tables.trans hl.tables

/-- What a call of `find_udp_backend` does, with its answer and the maps after it. -/
inductive UdpStep (c : UdpCall cpus) (m : Maps cpus) : Option Backend → Maps cpus → Prop
  | unmatched : m.activeServices.lookup c.key = none → UdpStep c m none m
  | drop {info : ServiceInfo} {idx : UInt32} {m₁ : Maps cpus} :
      m.activeServices.lookup c.key = some info →
      selectUdp m.activeBackends info c.key m = (none, idx, m₁) → UdpStep c m none m₁
  | forward {info : ServiceInfo} {b : Backend} {idx : UInt32} {m₁ : Maps cpus} :
      m.activeServices.lookup c.key = some info →
      selectUdp m.activeBackends info c.key m = (some b, idx, m₁) →
      UdpStep c m (some b) { m₁ with
        backendsPacketsStats :=
          m₁.backendsPacketsStats.modify c.ctx.cpu idx.toNat (.prepared c.packetLen)
        servicesPacketsStats :=
          m₁.servicesPacketsStats.modify c.ctx.cpu info.serviceIdx.toNat (.prepared c.packetLen) }

theorem UdpStep.of_next (c : UdpCall cpus) (m : Maps cpus) :
    UdpStep c m ((udpFinder cpus).out c m) ((udpFinder cpus).next c m) := by
  have hstep : (udpFinder cpus).step c m = findUdpBackend c.ctx c.key c.packetLen m := rfl
  rw [Machine.out, Machine.next, hstep, findUdpBackend, m.lookup_atomicIndex]
  dsimp only
  cases hinfo : (m.servicesAt m.activeBuffer).lookup c.key with
  | none => exact .unmatched hinfo
  | some info =>
    dsimp only
    rcases hsel : selectUdp (m.backendsAt m.activeBuffer) info c.key m with ⟨_ | b, idx, m₁⟩
    · exact .drop hinfo hsel
    · exact .forward hinfo hsel

theorem quiet_of_selectUdp {backends : ArrayMap Backend 1024} {info : ServiceInfo}
    {key : ServiceKey} {idx : UInt32} {m m' : Maps cpus} {b : Option Backend}
    (h : selectUdp backends info key m = (b, idx, m')) : Quiet m m' := by
  have hq := selectUdp_quiet backends info key m
  rwa [h] at hq

theorem UdpStep.tables {c : UdpCall cpus} {b : Option Backend} {m' : Maps cpus}
    (h : UdpStep c m b m') : m'.tables = m.tables := by
  cases h with
  | unmatched => rfl
  | drop _ hsel => exact (quiet_of_selectUdp hsel).tables
  | forward _ hsel => exact (quiet_of_selectUdp hsel).tables

/-- Packets leave the tables alone. -/
theorem tables_tcpFinder (c : TcpCall cpus) (m : Maps cpus) :
    ((tcpFinder cpus).next c m).tables = m.tables :=
  (TcpStep.of_next c m).tables

theorem tables_udpFinder (c : UdpCall cpus) (m : Maps cpus) :
    ((udpFinder cpus).next c m).tables = m.tables :=
  (UdpStep.of_next c m).tables

theorem tables_finder (c : Call cpus) (m : Maps cpus) :
    ((finder cpus).next c m).tables = m.tables := by
  cases c with
  | tcp c => exact tables_tcpFinder c m
  | udp c => exact tables_udpFinder c m

theorem tables_exec (cs : List (Call cpus)) (m : Maps cpus) :
    ((finder cpus).exec m cs).tables = m.tables :=
  Machine.exec_of_step (P := fun m' : Maps cpus => m'.tables = m.tables)
    (fun m c h => (tables_finder c m).trans h) cs rfl

/-! ## The session table -/

/-- Packets of UDP have no sessions. -/
theorem sessions_udpFinder (c : UdpCall cpus) (m : Maps cpus) :
    ((udpFinder cpus).next c m).tcpSessionState = m.tcpSessionState := by
  have hs := UdpStep.of_next c m
  generalize (udpFinder cpus).out c m = out at hs
  generalize (udpFinder cpus).next c m = m' at hs ⊢
  cases hs with
  | unmatched => rfl
  | drop _ hsel | forward _ hsel => exact (quiet_of_selectUdp hsel).sessions

/-- Where a packet looks for the session of its flow, it may also store one, unless the table is
    full. -/
theorem Lookup.hasRoom {state : Option SessionStateVal} {m₁ : Maps cpus} (h : Lookup c m state m₁)
    (hm : m.tcpSessionState.size < 65536) : m₁.tcpSessionState.HasRoom c.stateKey := by
  cases h with
  | absent => exact .inr hm
  | expired =>
    exact .inr ((m.tcpSessionState.size_delete_le c.stateKey).trans_lt hm)
  | live _ hsome _ =>
    have hk : m.tcpSessionState.HasRoom c.stateKey := .inl (by rw [hsome]; rfl)
    exact .inl (by rw [Maps.sessions_storeSession, HashMap.lookup_put hk, if_pos rfl]; rfl)

theorem Lookup.lookup_ne {state : Option SessionStateVal} {m₁ : Maps cpus} (h : Lookup c m state m₁)
    {k : SessionStateKey} (hk : k ≠ c.stateKey) :
    m₁.tcpSessionState.lookup k = m.tcpSessionState.lookup k := by
  cases h with
  | absent => rfl
  | expired => rw [Maps.sessions_expireSession, HashMap.lookup_delete, if_neg hk]
  | live => rw [Maps.sessions_storeSession, HashMap.lookup_put_ne _ hk]

theorem lookup_finishTcp_ne {ctx : Ctx cpus} {stateKey k : SessionStateKey} (hk : k ≠ stateKey)
    (tcp : TcpHdr) (packetLen : UInt32) (state : Option SessionStateVal)
    (lastIndex serviceIdx : UInt32) (delta : BitVec 32) (m : Maps cpus) :
    (finishTcp ctx stateKey tcp packetLen state lastIndex serviceIdx delta m).tcpSessionState.lookup
      k = m.tcpSessionState.lookup k := by
  rw [sessions_finishTcp]
  split_ifs
  · rw [HashMap.lookup_delete, if_neg hk]
  · rfl

/-- The sessions of the other flows stay as they are. -/
theorem TcpStep.lookup_ne {b : Option Backend} {m' : Maps cpus} (h : TcpStep c m b m')
    {k : SessionStateKey} (hk : k ≠ c.stateKey) :
    m'.tcpSessionState.lookup k = m.tcpSessionState.lookup k := by
  cases h with
  | hit => rw [lookup_finishTcp_ne hk, Maps.sessions_storeSession, HashMap.lookup_put_ne _ hk]
  | create hl _ _ hsel =>
    rw [lookup_finishTcp_ne hk, Maps.sessions_storeSession, HashMap.lookup_put_ne _ hk,
      (quiet_of_selectTcp hsel).sessions, hl.lookup_ne hk]
  | drop hl _ hsel =>
    rcases hsel with ⟨-, rfl⟩ | ⟨info, idx, -, hsel⟩
    · exact hl.lookup_ne hk
    · rw [(quiet_of_selectTcp hsel).sessions, hl.lookup_ne hk]

/-- Every session names an entry of the backends map. -/
def Maps.SessionsInRange (m : Maps cpus) : Prop :=
  ∀ k state, m.tcpSessionState.lookup k = some state → state.backendIdx.toNat < 1024

namespace Maps.SessionsInRange

theorem fresh (cpus : ℕ) : (Maps.fresh cpus).SessionsInRange := fun _ _ h => by
  cases h

/-- A session in the range leads to a backend. -/
theorem exists_backend (h : m.SessionsInRange) {k : SessionStateKey} {state : SessionStateVal}
    (hs : m.tcpSessionState.lookup k = some state) :
    ∃ b, m.activeBackends.lookup state.backendIdx.toNat = some b :=
  Option.isSome_iff_exists.1 (ArrayMap.lookup_isSome.2 (h k state hs))

/-- Where no session leads to a backend, none was found. -/
theorem eq_none (h : m.SessionsInRange) {state : Option SessionStateVal} {m₁ : Maps cpus}
    (hl : Lookup c m state m₁)
    (hno : ∀ s, state = some s → m.activeBackends.lookup s.backendIdx.toNat = none) :
    state = none := by
  cases hl with
  | absent | expired => rfl
  | live _ hsome _ =>
    obtain ⟨b, hb⟩ := h.exists_backend hsome
    exact absurd ((hno _ rfl).symm.trans hb) (by simp)

theorem of_delete (h : m.SessionsInRange) {m' : Maps cpus} {k : SessionStateKey}
    (hm : m'.tcpSessionState = m.tcpSessionState.delete k) : m'.SessionsInRange := by
  intro k' state hs
  rw [hm, HashMap.lookup_delete] at hs
  split_ifs at hs
  exact h k' state hs

theorem storeSession (h : m.SessionsInRange) (k : SessionStateKey) {new : SessionStateVal}
    (hnew : new.backendIdx.toNat < 1024) : (m.storeSession k new).SessionsInRange := by
  intro k' state hs
  rw [sessions_storeSession] at hs
  rcases HashMap.put_eq_or (m := m.tcpSessionState) (k := k) new with hp | hp
  · rw [hp] at hs
    exact h k' state hs
  · rw [HashMap.lookup_of_update hp] at hs
    split_ifs at hs with hk
    · rwa [← Option.some.inj hs]
    · exact h k' state hs

/-- Refreshing a session. -/
theorem refresh (h : m.SessionsInRange) {k : SessionStateKey} {state : SessionStateVal}
    (hs : m.tcpSessionState.lookup k = some state) (now : UInt64) :
    (m.storeSession k (state.refresh now)).SessionsInRange :=
  h.storeSession k (h k state hs)

theorem of_eq (h : m.SessionsInRange) {m' : Maps cpus}
    (hm : m'.tcpSessionState = m.tcpSessionState) : m'.SessionsInRange := by
  rwa [SessionsInRange, hm]

theorem finishTcp (h : m.SessionsInRange) {ctx : Ctx cpus} {stateKey : SessionStateKey}
    {tcp : TcpHdr} {packetLen : UInt32} {state : Option SessionStateVal}
    {lastIndex serviceIdx : UInt32} {delta : BitVec 32} :
    (L4Balancer.finishTcp ctx stateKey tcp packetLen state lastIndex serviceIdx delta
      m).SessionsInRange := by
  by_cases hc : (state.isSome && tcp.closing) = true
  · exact h.of_delete (by rw [sessions_finishTcp, if_pos hc])
  · exact h.of_eq (by rw [sessions_finishTcp, if_neg hc])

theorem lookup (h : m.SessionsInRange) {state : Option SessionStateVal} {m₁ : Maps cpus}
    (hl : Lookup c m state m₁) : m₁.SessionsInRange := by
  cases hl with
  | absent => exact h
  | expired => exact h.of_delete rfl
  | live _ hsome _ => exact h.refresh hsome _

/-- A packet keeps the sessions in the range. -/
theorem step (h : m.SessionsInRange) {b : Option Backend} {m' : Maps cpus}
    (hs : TcpStep c m b m') : m'.SessionsInRange := by
  cases hs with
  | hit _ hsome _ _ => exact (h.refresh hsome _).finishTcp
  | create hl _ _ hsel =>
    have h₂ := (h.lookup hl).of_eq (quiet_of_selectTcp hsel).sessions
    refine finishTcp (h₂.storeSession c.stateKey ?_)
    exact selectTcp_lt hsel
  | drop hl _ hsel =>
    rcases hsel with ⟨-, rfl⟩ | ⟨info, idx, -, hsel⟩
    · exact h.lookup hl
    · exact (h.lookup hl).of_eq (quiet_of_selectTcp hsel).sessions

end Maps.SessionsInRange

end L4Balancer
