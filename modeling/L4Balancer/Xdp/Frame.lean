import L4Balancer.Xdp.Find

/-!
# What packets leave alone

Packets only read the services, the backends, the index of the active buffer and
the tables of consistent hash: together, the *tables* (`Maps.tables`), which only
the control plane writes. Choosing a backend, moreover, touches neither the
session table nor the counters of connections: it is *quiet* (`Quiet`).

What a choice returns is an active backend at the index it names
(`selectTcp_spec`, `selectUdp_spec`): of the backends of the active buffer, or,
for consistent hash, of `ch_backends`.
-/

namespace L4Balancer

open Bpf

variable {cpus : ℕ}

/-- The maps that packets only read. -/
structure Tables where
  servicesFirst : HashMap ServiceKey ServiceInfo 256
  servicesSecond : HashMap ServiceKey ServiceInfo 256
  backendsFirst : ArrayMap Backend 1024
  backendsSecond : ArrayMap Backend 1024
  atomicIndex : ArrayMap (Fin 2) 1
  chCurrLookup : ArrayMap ℤ 65537
  chPrevLookup : ArrayMap ℤ 65537
  chBackends : ArrayMap Backend 257
  chConfig : ArrayMap UInt32 4

namespace Maps

def tables (m : Maps cpus) : Tables :=
  ⟨m.servicesFirst, m.servicesSecond, m.backendsFirst, m.backendsSecond, m.atomicIndex,
    m.chCurrLookup, m.chPrevLookup, m.chBackends, m.chConfig⟩

variable {m m' : Maps cpus}

theorem servicesAt_congr (h : m'.tables = m.tables) (b : Fin 2) :
    m'.servicesAt b = m.servicesAt b := by
  rw [servicesAt, servicesAt, show m'.servicesFirst = m.servicesFirst from congrArg (·.1) h,
    show m'.servicesSecond = m.servicesSecond from congrArg (·.2) h]

theorem backendsAt_congr (h : m'.tables = m.tables) (b : Fin 2) :
    m'.backendsAt b = m.backendsAt b := by
  rw [backendsAt, backendsAt, show m'.backendsFirst = m.backendsFirst from congrArg (·.3) h,
    show m'.backendsSecond = m.backendsSecond from congrArg (·.4) h]

theorem atomicIndex_congr (h : m'.tables = m.tables) : m'.atomicIndex = m.atomicIndex :=
  congrArg (·.5) h

theorem activeBuffer_congr (h : m'.tables = m.tables) : m'.activeBuffer = m.activeBuffer := by
  rw [activeBuffer, activeBuffer, atomicIndex_congr h]

theorem activeServices_congr (h : m'.tables = m.tables) :
    m'.activeServices = m.activeServices := by
  rw [activeServices, activeBuffer_congr h, servicesAt_congr h, activeServices]

theorem activeBackends_congr (h : m'.tables = m.tables) :
    m'.activeBackends = m.activeBackends := by
  rw [activeBackends, activeBuffer_congr h, backendsAt_congr h, activeBackends]

theorem chCurrLookup_congr (h : m'.tables = m.tables) : m'.chCurrLookup = m.chCurrLookup :=
  congrArg (·.6) h

theorem chBackends_congr (h : m'.tables = m.tables) : m'.chBackends = m.chBackends :=
  congrArg (·.8) h

theorem chConfig_congr (h : m'.tables = m.tables) : m'.chConfig = m.chConfig :=
  congrArg (·.9) h

/-- The open connections of a backend, as the counters of all CPUs together have them. -/
def backendConns (m : Maps cpus) (b : Fin 1024) : BitVec 32 :=
  m.backendsPacketsStats.total PacketsData.connections b

/-- The open connections of a service. -/
def serviceConns (m : Maps cpus) (s : Fin 256) : BitVec 32 :=
  m.servicesPacketsStats.total PacketsData.connections s

end Maps

/-- `m'` differs from `m` neither in the tables nor in the sessions nor in the connections. -/
structure Quiet (m m' : Maps cpus) : Prop where
  tables : m'.tables = m.tables
  sessions : m'.tcpSessionState = m.tcpSessionState
  backendConns : ∀ b, m'.backendConns b = m.backendConns b
  serviceConns : ∀ s, m'.serviceConns s = m.serviceConns s

namespace Quiet

variable {m m₁ m₂ : Maps cpus}

theorem refl (m : Maps cpus) : Quiet m m := ⟨rfl, rfl, fun _ => rfl, fun _ => rfl⟩

theorem trans (h₁ : Quiet m m₁) (h₂ : Quiet m₁ m₂) : Quiet m m₂ where
  tables := h₂.tables.trans h₁.tables
  sessions := h₂.sessions.trans h₁.sessions
  backendConns b := (h₂.backendConns b).trans (h₁.backendConns b)
  serviceConns s := (h₂.serviceConns s).trans (h₁.serviceConns s)

end Quiet

/-! ## The handlers -/

theorem total_connections_prepared {n : ℕ} (a : PerCpuArray PacketsData cpus n) (cpu : Fin cpus)
    (i : ℕ) (len : UInt32) (j : Fin n) :
    (a.modify cpu i (.prepared len)).total PacketsData.connections j =
      a.total PacketsData.connections j := by
  have h := a.total_modify cpu i (.prepared len) PacketsData.connections
    (fun v => (add_zero v.connections).symm) j
  rw [h, ite_self, add_zero]

theorem Maps.countLookup_quiet (m : Maps cpus) (index : ℕ) (backendIdx : ℤ) (usePrev : Bool) :
    Quiet m (m.countLookup index backendIdx usePrev) := by
  rw [countLookup]
  split <;> exact ⟨rfl, rfl, fun _ => rfl, fun _ => rfl⟩

theorem consistentHashLookup_quiet (keyHash : UInt32) (usePrev : Bool) (m : Maps cpus) :
    Quiet m (consistentHashLookup keyHash usePrev m).2 := by
  rw [consistentHashLookup]
  split
  · exact .refl m
  · split_ifs
    · exact .refl m
    · dsimp only
      split
      · exact .refl m
      · split_ifs
        · exact .refl m
        · exact m.countLookup_quiet _ _ _

theorem chBalancerHandle_quiet (ctx : Ctx cpus) (key : ServiceKey)
    (keyHash packetLen lastIndex : UInt32) (m : Maps cpus) :
    Quiet m (chBalancerHandle ctx key keyHash packetLen lastIndex m).2.2 := by
  have hl := consistentHashLookup_quiet keyHash false m
  rw [chBalancerHandle]
  generalize consistentHashLookup keyHash false m = r at hl
  obtain ⟨backendIdx, m₁⟩ := r
  dsimp only at hl ⊢
  split_ifs
  · exact hl
  · split
    · exact hl
    · split_ifs
      · exact hl
      · exact hl.trans ⟨rfl, rfl, fun b => total_connections_prepared _ _ _ _ b,
          fun s => total_connections_prepared _ _ _ _ s⟩

theorem rrBalancerHandle_quiet (backends : ArrayMap Backend 1024) (info : ServiceInfo)
    (key : ServiceKey) (lastIndex : UInt32) (m : Maps cpus) :
    Quiet m (rrBalancerHandle backends info key lastIndex m).2.2 := by
  rw [rrBalancerHandle]
  split <;> exact ⟨rfl, rfl, fun _ => rfl, fun _ => rfl⟩

theorem Maps.initWrrState_quiet (m : Maps cpus) (key : ServiceKey) :
    Quiet m (m.initWrrState key) := by
  rw [initWrrState]
  split <;> exact ⟨rfl, rfl, fun _ => rfl, fun _ => rfl⟩

theorem wrrBalancerHandle_quiet (backends : ArrayMap Backend 1024) (info : ServiceInfo)
    (key : ServiceKey) (lastIndex : UInt32) (m : Maps cpus) :
    Quiet m (wrrBalancerHandle backends info key lastIndex m).2.2 := by
  refine (m.initWrrState_quiet key).trans ?_
  rw [wrrBalancerHandle]
  generalize m.initWrrState key = m₁
  split
  · exact .refl m₁
  · split <;> exact ⟨rfl, rfl, fun _ => rfl, fun _ => rfl⟩

/-- What the handler keeps, the loop keeps. -/
theorem selectLoop_keeps {P : Maps cpus → Prop}
    {handle : UInt32 → Maps cpus → Option Backend × UInt32 × Maps cpus}
    (h : ∀ last m, P m → P (handle last m).2.2) (left : ℕ) (lastIndex : UInt32) (m : Maps cpus)
    (hm : P m) : P (selectLoop handle left lastIndex m).2.2 := by
  induction left generalizing lastIndex m with
  | zero => exact hm
  | succ left ih =>
    have h₁ := h lastIndex m hm
    rw [selectLoop]
    generalize handle lastIndex m = r at h₁
    obtain ⟨back, last, m₁⟩ := r
    dsimp only at h₁ ⊢
    split_ifs
    · exact h₁
    · split
      · exact h₁
      · split_ifs
        · exact ih last m₁ h₁
        · exact h₁

theorem selectLoop_quiet {handle : UInt32 → Maps cpus → Option Backend × UInt32 × Maps cpus}
    (h : ∀ last m, Quiet m (handle last m).2.2) (left : ℕ) (lastIndex : UInt32) (m : Maps cpus) :
    Quiet m (selectLoop handle left lastIndex m).2.2 :=
  selectLoop_keeps (fun last m₁ hm => hm.trans (h last m₁)) left lastIndex m (.refl m)

theorem selectTcp_quiet (ctx : Ctx cpus) (backends : ArrayMap Backend 1024) (info : ServiceInfo)
    (stateKey : SessionStateKey) (key : ServiceKey) (packetLen lastIndex : UInt32)
    (m : Maps cpus) :
    Quiet m (selectTcp ctx backends info stateKey key packetLen lastIndex m).2.2 := by
  rw [selectTcp]
  split_ifs
  · exact selectLoop_quiet (rrBalancerHandle_quiet backends info key) 5 lastIndex m
  · exact selectLoop_quiet (wrrBalancerHandle_quiet backends info key) 5 lastIndex m
  · exact chBalancerHandle_quiet ctx key stateKey.chHash packetLen lastIndex m
  · exact .refl m

theorem quiet_of_selectTcp {ctx : Ctx cpus} {backends : ArrayMap Backend 1024}
    {info : ServiceInfo} {stateKey : SessionStateKey} {key : ServiceKey}
    {packetLen lastIndex idx : UInt32} {m m' : Maps cpus} {b : Option Backend}
    (h : selectTcp ctx backends info stateKey key packetLen lastIndex m = (b, idx, m')) :
    Quiet m m' := by
  have hq := selectTcp_quiet ctx backends info stateKey key packetLen lastIndex m
  rwa [h] at hq

theorem selectUdp_quiet (backends : ArrayMap Backend 1024) (info : ServiceInfo)
    (key : ServiceKey) (m : Maps cpus) : Quiet m (selectUdp backends info key m).2.2 := by
  rw [selectUdp]
  split_ifs
  · exact selectLoop_quiet (rrBalancerHandle_quiet backends info key) 5 0 m
  · exact selectLoop_quiet (wrrBalancerHandle_quiet backends info key) 5 0 m
  · exact .refl m

/-! ## The chosen backend -/

/-- The backend a handler returns is the entry at the index it names. -/
def Names (backends : ArrayMap Backend 1024)
    (handle : UInt32 → Maps cpus → Option Backend × UInt32 × Maps cpus) : Prop :=
  ∀ last m b idx m', handle last m = (some b, idx, m') → backends.lookup idx.toNat = some b

theorem rrBalancerHandle_names (backends : ArrayMap Backend 1024) (info : ServiceInfo)
    (key : ServiceKey) : @Names cpus backends (rrBalancerHandle backends info key) := by
  intro last m b idx m' h
  rw [rrBalancerHandle] at h
  split at h
  · exact absurd (congrArg Prod.fst h) (by simp)
  · obtain ⟨hb, hi, -⟩ := by simpa only [Prod.mk.injEq] using h
    rw [← hi, hb]

theorem wrrSearch_names {backends : ArrayMap Backend 1024} {info : ServiceInfo} {left : ℕ}
    {st st' : WrrState} {b : Backend} {idx : UInt32}
    (h : wrrSearch backends info left st = (some (b, idx), st')) :
    backends.lookup idx.toNat = some b ∧ b.eligible := by
  induction left generalizing st with
  | zero => simp [wrrSearch] at h
  | succ left ih =>
    rw [wrrSearch] at h
    dsimp only at h
    split_ifs at h
    · simp at h
    · split at h
      · exact ih h
      · rename_i back hback
        split_ifs at h with he hc
        · obtain ⟨⟨rfl, rfl⟩, -⟩ := by simpa only [Prod.mk.injEq, Option.some.injEq] using h
          exact ⟨hback, he⟩
        · obtain ⟨⟨rfl, rfl⟩, -⟩ := by simpa only [Prod.mk.injEq, Option.some.injEq] using h
          exact ⟨hback, he⟩
        · exact ih h

theorem wrrBalancerHandle_names (backends : ArrayMap Backend 1024) (info : ServiceInfo)
    (key : ServiceKey) : @Names cpus backends (wrrBalancerHandle backends info key) := by
  intro last m b idx m' h
  rw [wrrBalancerHandle] at h
  split at h
  · simp at h
  · split at h
    · simp at h
    · rename_i hs
      obtain ⟨rfl, rfl, -⟩ := by simpa only [Prod.mk.injEq, Option.some.injEq] using h
      exact (wrrSearch_names hs).1

theorem selectLoop_spec {backends : ArrayMap Backend 1024}
    {handle : UInt32 → Maps cpus → Option Backend × UInt32 × Maps cpus}
    (hn : Names backends handle) {left : ℕ} {last idx : UInt32} {m m' : Maps cpus} {b : Backend}
    (h : selectLoop handle left last m = (some b, idx, m')) :
    backends.lookup idx.toNat = some b ∧ b.active ≠ 0 := by
  induction left generalizing last m with
  | zero => simp [selectLoop] at h
  | succ left ih =>
    rw [selectLoop] at h
    rcases hh : handle last m with ⟨back, last₁, m₁⟩
    rw [hh] at h
    dsimp only at h
    split_ifs at h
    · simp at h
    · split at h
      · simp at h
      · rename_i b₁
        split_ifs at h with hact
        · exact ih h
        · obtain ⟨rfl, rfl, -⟩ := by simpa only [Prod.mk.injEq, Option.some.injEq] using h
          exact ⟨hn _ _ _ _ _ hh, hact⟩

/-- The backend the current table of consistent hash gives to a hash, with its index. -/
def Maps.chPick (m : Maps cpus) (keyHash : UInt32) : Option (Backend × UInt32) :=
  (m.chConfig.lookup 0).bind fun size =>
    if size = 0 then none
    else (m.chCurrLookup.lookup (keyHash % size).toNat).bind fun v =>
      if v < 0 then none
      else (m.chBackends.lookup (UInt32.ofNat v.toNat).toNat).bind fun b =>
        if b.active = 0 then none else some (b, UInt32.ofNat v.toNat)

theorem Maps.chPick_congr {m m' : Maps cpus} (h : m'.tables = m.tables) (keyHash : UInt32) :
    m'.chPick keyHash = m.chPick keyHash := by
  simp only [chPick, chConfig_congr h, chCurrLookup_congr h, chBackends_congr h]

theorem chBalancerHandle_eq (ctx : Ctx cpus) (key : ServiceKey)
    (keyHash packetLen lastIndex : UInt32) (m : Maps cpus) :
    ∃ m', chBalancerHandle ctx key keyHash packetLen lastIndex m =
      ((m.chPick keyHash).map Prod.fst, ((m.chPick keyHash).map Prod.snd).getD lastIndex, m') := by
  have hb : ∀ i b p, (m.countLookup i b p).chBackends = m.chBackends := fun i b p =>
    Maps.chBackends_congr (m.countLookup_quiet i b p).tables
  rw [chBalancerHandle, consistentHashLookup, Maps.chPick]
  cases m.chConfig.lookup 0 with
  | none => exact ⟨m, rfl⟩
  | some size =>
    simp only [Option.bind_some, Maps.chLookup, Bool.false_eq_true, if_false]
    by_cases hsize : size = 0
    · simp only [hsize, if_true]
      exact ⟨m, rfl⟩
    · simp only [hsize, if_false]
      cases m.chCurrLookup.lookup (keyHash % size).toNat with
      | none => exact ⟨m, rfl⟩
      | some v =>
        by_cases hv : v < 0
        · simp only [Option.bind_some, hv, if_true]
          exact ⟨m, rfl⟩
        · simp only [Option.bind_some, hv, if_false, hb]
          cases m.chBackends.lookup (UInt32.ofNat v.toNat).toNat with
          | none => exact ⟨_, rfl⟩
          | some b =>
            by_cases hact : b.active = 0
            · simp only [Option.bind_some, hact, if_true]
              exact ⟨_, rfl⟩
            · simp only [Option.bind_some, hact, if_false]
              exact ⟨_, rfl⟩

theorem Maps.chPick_spec {m : Maps cpus} {keyHash idx : UInt32} {b : Backend}
    (h : m.chPick keyHash = some (b, idx)) :
    m.chBackends.lookup idx.toNat = some b ∧ b.active ≠ 0 := by
  obtain ⟨size, -, h⟩ := Option.bind_eq_some_iff.1 h
  split_ifs at h
  obtain ⟨v, -, h⟩ := Option.bind_eq_some_iff.1 h
  split_ifs at h
  obtain ⟨b', hb', h⟩ := Option.bind_eq_some_iff.1 h
  split_ifs at h with hact
  obtain ⟨rfl, rfl⟩ := Prod.mk.inj (Option.some.inj h)
  exact ⟨hb', hact⟩

/-- A service without consistent hash gets an active backend of the array it chooses from. -/
theorem selectTcp_spec {ctx : Ctx cpus} {backends : ArrayMap Backend 1024}
    {info : ServiceInfo} {stateKey : SessionStateKey} {key : ServiceKey}
    {packetLen last idx : UInt32} {m m' : Maps cpus} {b : Backend}
    (halg : info.algorithm = BALANCER_RR ∨ info.algorithm = BALANCER_WRR)
    (h : selectTcp ctx backends info stateKey key packetLen last m = (some b, idx, m')) :
    backends.lookup idx.toNat = some b ∧ b.active ≠ 0 := by
  rw [selectTcp] at h
  split_ifs at h with h₁ h₂ h₃
  · exact selectLoop_spec (rrBalancerHandle_names backends info key) h
  · exact selectLoop_spec (wrrBalancerHandle_names backends info key) h
  · exact absurd halg (not_or.2 ⟨h₁, h₂⟩)
  · simp at h

/-- A service with consistent hash gets the backend of the current table. -/
theorem selectTcp_ch {ctx : Ctx cpus} {backends : ArrayMap Backend 1024} {info : ServiceInfo}
    (halg : info.algorithm = BALANCER_CH) (stateKey : SessionStateKey) (key : ServiceKey)
    (packetLen last : UInt32) (m : Maps cpus) :
    ∃ m', selectTcp ctx backends info stateKey key packetLen last m =
      ((m.chPick stateKey.chHash).map Prod.fst,
        ((m.chPick stateKey.chHash).map Prod.snd).getD last, m') := by
  have h₁ : info.algorithm ≠ BALANCER_RR := by rw [halg]; decide
  have h₂ : info.algorithm ≠ BALANCER_WRR := by rw [halg]; decide
  rw [selectTcp, if_neg h₁, if_neg h₂, if_pos halg]
  exact chBalancerHandle_eq ctx key stateKey.chHash packetLen last m

section

variable {ctx : Ctx cpus} {backends : ArrayMap Backend 1024} {info : ServiceInfo}
  {stateKey : SessionStateKey} {key : ServiceKey} {packetLen last idx : UInt32} {m m' : Maps cpus}

theorem fst_of_selectTcp (hch : info.algorithm = BALANCER_CH) {out : Option Backend}
    (h : selectTcp ctx backends info stateKey key packetLen last m = (out, idx, m')) :
    out = (m.chPick stateKey.chHash).map Prod.fst := by
  obtain ⟨m₁, he⟩ := selectTcp_ch hch stateKey key packetLen last m
  exact congrArg Prod.fst (h.symm.trans he)

theorem chPick_of_selectTcp (hch : info.algorithm = BALANCER_CH) {b : Backend}
    (h : selectTcp ctx backends info stateKey key packetLen last m = (some b, idx, m')) :
    m.chPick stateKey.chHash = some (b, idx) := by
  obtain ⟨m₁, he⟩ := selectTcp_ch hch stateKey key packetLen last m
  rw [he] at h
  obtain ⟨hb, hidx, -⟩ := by simpa only [Prod.mk.injEq] using h
  obtain ⟨⟨b', idx'⟩, hpick, rfl⟩ := Option.map_eq_some_iff.1 hb
  rw [hpick] at hidx
  obtain rfl : idx' = idx := hidx
  exact hpick

end

/-- The index of a chosen backend is one of the backend counters. -/
theorem selectTcp_lt {ctx : Ctx cpus} {backends : ArrayMap Backend 1024}
    {info : ServiceInfo} {stateKey : SessionStateKey} {key : ServiceKey}
    {packetLen last idx : UInt32} {m m' : Maps cpus} {b : Backend}
    (h : selectTcp ctx backends info stateKey key packetLen last m = (some b, idx, m')) :
    idx.toNat < 1024 := by
  by_cases halg : info.algorithm = BALANCER_RR ∨ info.algorithm = BALANCER_WRR
  · exact ArrayMap.lt_of_lookup (selectTcp_spec halg h).1
  · by_cases hch : info.algorithm = BALANCER_CH
    · have hlt := ArrayMap.lt_of_lookup (Maps.chPick_spec (chPick_of_selectTcp hch h)).1
      exact hlt.trans (by decide)
    · rw [selectTcp, if_neg (not_or.1 halg).1, if_neg (not_or.1 halg).2, if_neg hch] at h
      simp at h

theorem selectUdp_spec {backends : ArrayMap Backend 1024} {info : ServiceInfo} {key : ServiceKey}
    {idx : UInt32} {m m' : Maps cpus} {b : Backend}
    (h : selectUdp backends info key m = (some b, idx, m')) :
    backends.lookup idx.toNat = some b ∧ b.active ≠ 0 := by
  rw [selectUdp] at h
  split_ifs at h
  · exact selectLoop_spec (rrBalancerHandle_names backends info key) h
  · exact selectLoop_spec (wrrBalancerHandle_names backends info key) h
  · simp at h

end L4Balancer
