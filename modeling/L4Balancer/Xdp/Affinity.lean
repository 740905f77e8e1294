import L4Balancer.Xdp.Session

/-!
# Session affinity

A session *leads* to a backend (`Maps.Leads`) as long as its index names it in the
active backends. For a service with round robin or weighted round robin, a packet
that creates a session creates one that leads to its own backend
(`Leads.of_creates`). The session then leads there until a packet of the flow
replaces it or closes it, or until it times out: other flows leave it alone
(`Leads.step_ne`), packets of the flow that are forwarded refresh it
(`Leads.step`).

For consistent hash this fails: the index of its sessions names an entry of
`ch_backends`.
-/

namespace L4Balancer

open Bpf

variable {cpus : ℕ} {m : Maps cpus} {c : TcpCall cpus}

namespace TcpCall

/-- The packet is forwarded: it gets a backend. -/
def Forwarded (c : TcpCall cpus) (m : Maps cpus) : Prop := ((tcpFinder cpus).out c m).isSome

/-- The packet is found by the session of its flow. -/
def Hits (c : TcpCall cpus) (m : Maps cpus) : Prop :=
  c.tcp.pureSyn = false ∧ ∃ state ∈ m.tcpSessionState.lookup c.stateKey,
    ¬c.Late state ∧ (m.activeBackends.lookup state.backendIdx.toNat).isSome

/-- The packet creates the session of its flow, or replaces it. -/
def Creates (c : TcpCall cpus) (m : Maps cpus) : Prop := c.Forwarded m ∧ ¬c.Hits m

/-- The packet is forwarded and closes the session of its flow. -/
def Closes (c : TcpCall cpus) (m : Maps cpus) : Prop := c.Forwarded m ∧ c.tcp.closing

instance : Decidable (c.Forwarded m) := inferInstanceAs (Decidable (_ = true))
instance (state : SessionStateVal) : Decidable (c.Late state) :=
  inferInstanceAs (Decidable (_ < _))
instance : Decidable (c.Hits m) := inferInstanceAs (Decidable (_ ∧ ∃ _, _ ∧ _))
instance : Decidable (c.Creates m) := inferInstanceAs (Decidable (_ ∧ _))
instance : Decidable (c.Closes m) := inferInstanceAs (Decidable (_ ∧ _))

end TcpCall

/-- The flow `k` has a session, last used at `t`, that leads to `b`. -/
def Maps.Leads (m : Maps cpus) (k : SessionStateKey) (b : Backend) (t : UInt64) : Prop :=
  ∃ state, m.tcpSessionState.lookup k = some state ∧
    m.activeBackends.lookup state.backendIdx.toNat = some b ∧
    state.created = t ∧ state.timeout = TCP_STATE_TIMEOUT

namespace Maps.Leads

variable {k : SessionStateKey} {b : Backend} {t : UInt64}

/-- A packet that creates a session goes to the backend that the algorithm chooses; the session leads
    to the backend at the index that the algorithm gives. -/
theorem of_selects (hrange : m.SessionsInRange) (hroom : m.tcpSessionState.size < 65536)
    (hc : c.Creates m) : ∃ info b idx m₁ m₂, m.activeServices.lookup c.key = some info ∧
      Lookup c m none m₁ ∧ selectTcp c.ctx m.activeBackends info c.stateKey c.key c.packetLen 0 m₁ =
        (some b, idx, m₂) ∧ (tcpFinder cpus).out c m = some b ∧
      ∀ b', m.activeBackends.lookup idx.toNat = some b' →
        ((tcpFinder cpus).next c m).Leads c.stateKey b' c.ctx.now := by
  obtain ⟨hf, hh⟩ := hc
  have hs := TcpStep.of_next c m
  rw [TcpCall.Forwarded] at hf
  generalize (tcpFinder cpus).out c m = out at hs hf
  generalize (tcpFinder cpus).next c m = m' at hs
  cases hs with
  | drop => cases hf
  | hit hsyn hsome hlate hb =>
    exact absurd ⟨hsyn, _, hsome, hlate, Option.isSome_of_eq_some hb⟩ hh
  | @create state m₁ m₂ info b idx hl hno hinfo hsel =>
    obtain rfl := hrange.eq_none hl hno
    have hq := quiet_of_selectTcp hsel
    have hr : m₂.tcpSessionState.HasRoom c.stateKey := by
      rw [hq.sessions]
      exact hl.hasRoom hroom
    refine ⟨info, b, idx, m₁, m₂, hinfo, hl, hsel, rfl, fun b' hb' =>
      ⟨⟨idx, info.serviceIdx, c.ctx.now, TCP_STATE_TIMEOUT⟩, ?_, ?_, rfl, rfl⟩⟩
    · rw [sessions_finishTcp, if_neg (by simp), sessions_storeSession,
        HashMap.lookup_put hr, if_pos rfl]
    · rwa [activeBackends_congr (m := m)]
      rw [tables_finishTcp, tables_storeSession, hq.tables, hl.tables]

/-- A packet that creates a session of a service without consistent hash. -/
theorem of_creates (hrange : m.SessionsInRange) (hroom : m.tcpSessionState.size < 65536)
    (halg : ∀ info, m.activeServices.lookup c.key = some info →
      info.algorithm = BALANCER_RR ∨ info.algorithm = BALANCER_WRR)
    (hc : c.Creates m) : ∃ b, (tcpFinder cpus).out c m = some b ∧
      ((tcpFinder cpus).next c m).Leads c.stateKey b c.ctx.now := by
  obtain ⟨info, b, idx, m₁, m₂, hinfo, -, hsel, hout, hleads⟩ := of_selects hrange hroom hc
  exact ⟨b, hout, hleads b (selectTcp_spec (halg info hinfo) hsel).1⟩

/-- For a service of consistent hash, the backend that the packet goes to and the one that the
    session leads to need not be the same. -/
theorem of_creates_ch (hrange : m.SessionsInRange) (hroom : m.tcpSessionState.size < 65536)
    {info : ServiceInfo} (hinfo : m.activeServices.lookup c.key = some info)
    (hch : info.algorithm = BALANCER_CH) (hc : c.Creates m) :
    ∃ b idx b', m.chPick c.stateKey.chHash = some (b, idx) ∧
      m.activeBackends.lookup idx.toNat = some b' ∧ (tcpFinder cpus).out c m = some b ∧
      ((tcpFinder cpus).next c m).Leads c.stateKey b' c.ctx.now := by
  obtain ⟨info', b, idx, m₁, m₂, hinfo', hl, hsel, hout, hleads⟩ := of_selects hrange hroom hc
  obtain rfl := Option.some.inj (hinfo.symm.trans hinfo')
  have hpick := chPick_of_selectTcp hch hsel
  rw [chPick_congr hl.tables] at hpick
  have hlt : idx.toNat < 1024 := selectTcp_lt hsel
  exact ⟨b, idx, _, hpick, ArrayMap.lookup_of_lt _ hlt, hout,
    hleads _ (ArrayMap.lookup_of_lt _ hlt)⟩

/-- Packets of other flows leave the session alone. -/
theorem step_ne (h : m.Leads k b t) (hk : k ≠ c.stateKey) :
    ((tcpFinder cpus).next c m).Leads k b t := by
  obtain ⟨state, hs, hb, ht, hto⟩ := h
  refine ⟨state, ?_, ?_, ht, hto⟩
  · rw [(TcpStep.of_next c m).lookup_ne hk, hs]
  · rw [activeBackends_congr (tables_tcpFinder c m), hb]

/-- Where a session leads to a backend, no session is found only by a pure SYN and by a packet that
    comes too late. -/
theorem of_lookup (h : m.Leads c.stateKey b t) {state : Option SessionStateVal} {m₁ : Maps cpus}
    (hl : Lookup c m state m₁)
    (hno : ∀ s, state = some s → m.activeBackends.lookup s.backendIdx.toNat = none) :
    c.tcp.pureSyn ∧ m₁ = m ∨ c.tcp.pureSyn = false ∧ TCP_STATE_TIMEOUT < c.ctx.now - t ∧
      m₁.tcpSessionState = m.tcpSessionState.delete c.stateKey := by
  obtain ⟨s, hs, hb, rfl, hto⟩ := h
  cases hl with
  | absent h =>
    rcases h with h | h
    · exact .inl ⟨h, rfl⟩
    · exact absurd (hs.symm.trans h) (by simp)
  | expired hsyn hs' hlate =>
    obtain rfl := Option.some.inj (hs'.symm.trans hs)
    rw [TcpCall.Late, hto] at hlate
    exact .inr ⟨hsyn, hlate, rfl⟩
  | live _ hs' _ =>
    obtain rfl := Option.some.inj (hs'.symm.trans hs)
    exact absurd ((hno _ rfl).symm.trans hb) (by simp)

/-- In time, a packet that is not a pure SYN follows the session. -/
theorem out_eq (h : m.Leads c.stateKey b t) (hsyn : c.tcp.pureSyn = false)
    (hgap : c.ctx.now - t ≤ TCP_STATE_TIMEOUT) : (tcpFinder cpus).out c m = some b := by
  have hfound : ∀ state m₁, Lookup c m state m₁ →
      ¬∀ s, state = some s → m.activeBackends.lookup s.backendIdx.toNat = none := by
    intro state m₁ hl hno
    rcases h.of_lookup hl hno with ⟨h, -⟩ | ⟨-, h, -⟩
    · exact absurd (hsyn.symm.trans h) (by simp)
    · exact absurd h (UInt64.not_lt.2 hgap)
  have hs := TcpStep.of_next c m
  generalize (tcpFinder cpus).out c m = out at hs
  generalize (tcpFinder cpus).next c m = m' at hs
  cases hs with
  | hit _ hs' _ hb' =>
    obtain ⟨s, hs, hb, -, -⟩ := h
    rw [Option.some.inj (hs'.symm.trans hs), hb] at hb'
    exact hb'.symm
  | create hl hno _ _ => exact absurd hno (hfound _ _ hl)
  | drop hl hno _ => exact absurd hno (hfound _ _ hl)

/-- A packet of the flow that neither creates nor closes a session: forwarded, it refreshes the
    session; dropped, it leaves it or finds that it has timed out. -/
theorem step (h : m.Leads c.stateKey b t) (hnew : ¬c.Creates m) (hclose : ¬c.Closes m) :
    c.Forwarded m ∧ ((tcpFinder cpus).next c m).Leads c.stateKey b c.ctx.now ∨
    ¬c.Forwarded m ∧ (((tcpFinder cpus).next c m).Leads c.stateKey b t ∨
      ((tcpFinder cpus).next c m).tcpSessionState.lookup c.stateKey = none ∧
        TCP_STATE_TIMEOUT < c.ctx.now - t) := by
  have htab := tables_tcpFinder c m
  have hs := TcpStep.of_next c m
  rw [TcpCall.Creates] at hnew
  rw [TcpCall.Closes] at hclose
  rw [TcpCall.Forwarded] at *
  generalize (tcpFinder cpus).out c m = out at *
  generalize (tcpFinder cpus).next c m = m' at *
  cases hs with
  | @hit state _ _ hsome _ _ =>
    obtain ⟨s, hs, hb, -, hto⟩ := h
    obtain rfl := Option.some.inj (hsome.symm.trans hs)
    have hnc : c.tcp.closing = false := by simpa using hclose
    have hk : m.tcpSessionState.HasRoom c.stateKey := .inl (by rw [hsome]; rfl)
    refine .inl ⟨rfl, state.refresh c.ctx.now, ?_, ?_, rfl, hto⟩
    · rw [sessions_finishTcp, hnc, Bool.and_false, if_neg Bool.false_ne_true,
        sessions_storeSession, HashMap.lookup_put hk, if_pos rfl]
    · rw [activeBackends_congr htab]
      exact hb
  | create hl hno _ _ =>
    refine absurd ⟨rfl, ?_⟩ hnew
    rintro ⟨hsyn, s, hs, hlate, -⟩
    obtain ⟨s', hs', -, rfl, hto⟩ := id h
    rcases h.of_lookup hl hno with ⟨h, -⟩ | ⟨-, h, -⟩
    · exact absurd (hsyn.symm.trans h) (by simp)
    · rw [Option.some.inj (hs.symm.trans hs'), TcpCall.Late, hto] at hlate
      exact hlate h
  | @drop state m₁ _ hl hno hsel =>
    have hsess : m'.tcpSessionState = m₁.tcpSessionState := by
      rcases hsel with ⟨-, rfl⟩ | ⟨info, idx, -, hsel⟩
      · rfl
      · exact (quiet_of_selectTcp hsel).sessions
    refine .inr ⟨by simp, ?_⟩
    rcases h.of_lookup hl hno with ⟨-, rfl⟩ | ⟨-, hgap, hm₁⟩
    · obtain ⟨s, hs, hb, ht, hto⟩ := h
      exact .inl ⟨s, by rw [hsess, hs], by rw [activeBackends_congr htab, hb], ht, hto⟩
    · exact .inr ⟨by rw [hsess, hm₁, HashMap.lookup_delete, if_pos rfl], hgap⟩

end Maps.Leads

/-! ## Runs -/

/-- Without a session, a packet of the flow is forwarded only if it creates one. -/
theorem TcpCall.creates_of_lookup_none (h : m.tcpSessionState.lookup c.stateKey = none)
    (hf : c.Forwarded m) : c.Creates m := by
  refine ⟨hf, ?_⟩
  rintro ⟨-, s, hs, -⟩
  exact absurd (hs.symm.trans h) (by simp)

/-- A packet that creates no session leaves none where there is none. -/
theorem lookup_none_of_not_creates {k : SessionStateKey}
    (h : m.tcpSessionState.lookup k = none) (hnew : c.stateKey = k → ¬c.Creates m) :
    ((tcpFinder cpus).next c m).tcpSessionState.lookup k = none := by
  by_cases hk : k = c.stateKey
  · subst hk
    have hnf : ¬c.Forwarded m := fun hf => hnew rfl (TcpCall.creates_of_lookup_none h hf)
    have hs := TcpStep.of_next c m
    rw [TcpCall.Forwarded] at hnf
    generalize (tcpFinder cpus).out c m = out at hs hnf
    generalize (tcpFinder cpus).next c m = m' at hs
    cases hs with
    | hit | create => exact absurd rfl hnf
    | @drop state m₁ _ hl _ hsel =>
      have hm₁ : m₁.tcpSessionState.lookup c.stateKey = none := by
        cases hl with
        | absent => exact h
        | expired _ hs _ | live _ hs _ => exact absurd (hs.symm.trans h) (by simp)
      rcases hsel with ⟨-, rfl⟩ | ⟨info, idx, -, hsel⟩
      · exact hm₁
      · rw [(quiet_of_selectTcp hsel).sessions, hm₁]
  · rw [(TcpStep.of_next c m).lookup_ne hk, h]

/-- The time of the last packet of the flow `k` that a run forwards; `t` if it forwards none. -/
def lastForwarded (k : SessionStateKey) (t : UInt64) (m : Maps cpus) : List (TcpCall cpus) → UInt64
  | [] => t
  | c :: cs =>
    lastForwarded k (if c.stateKey = k ∧ ((tcpFinder cpus).out c m).isSome then c.ctx.now else t)
      ((tcpFinder cpus).next c m) cs

/-- The session of the flow `k` still leads to `b`, or it is gone because it has timed out, as it
    will have at the time `stop`. -/
def Maps.Keeps (m : Maps cpus) (k : SessionStateKey) (b : Backend) (t stop : UInt64) : Prop :=
  m.Leads k b t ∨ m.tcpSessionState.lookup k = none ∧ TCP_STATE_TIMEOUT < stop - t

theorem lt_sub_of_le {x t s s' : UInt64} (h : x < s - t) (ht : t ≤ s) (hs : s ≤ s') :
    x < s' - t := by
  rw [UInt64.lt_iff_toNat_lt, UInt64.toNat_sub_of_le _ _ ht] at h
  rw [UInt64.lt_iff_toNat_lt, UInt64.toNat_sub_of_le _ _ (UInt64.le_trans ht hs)]
  have := UInt64.le_iff_toNat_le.1 hs
  omega

/-- A packet keeps the session if it does not create or close it. -/
theorem Maps.Keeps.step {k : SessionStateKey} {b : Backend} {t stop : UInt64}
    (h : m.Keeps k b t stop) (ht : t ≤ c.ctx.now) (hstop : c.ctx.now ≤ stop)
    (hc : c.stateKey = k → ¬c.Creates m ∧ ¬c.Closes m) :
    ((tcpFinder cpus).next c m).Keeps k b
      (if c.stateKey = k ∧ ((tcpFinder cpus).out c m).isSome then c.ctx.now else t) stop := by
  by_cases hk : c.stateKey = k
  · subst hk
    obtain ⟨hnew, hclose⟩ := hc rfl
    -- the session is still there, or it is gone and no packet of the flow is forwarded any more
    rcases h with h | ⟨hnone, hgap⟩
    · rcases h.step hnew hclose with ⟨hf, h'⟩ | ⟨hf, h'⟩
      · rw [if_pos ⟨rfl, hf⟩]
        exact .inl h'
      · rw [if_neg fun h => hf h.2]
        exact h'.imp id fun ⟨hnone, hgap⟩ => ⟨hnone, lt_sub_of_le hgap ht hstop⟩
    · have hf : ¬c.Forwarded m := fun hf => hnew (TcpCall.creates_of_lookup_none hnone hf)
      rw [if_neg fun h => hf h.2]
      exact .inr ⟨lookup_none_of_not_creates hnone fun _ => hnew, hgap⟩
  · rw [if_neg fun h => hk h.1]
    exact h.imp (·.step_ne (Ne.symm hk)) fun ⟨hnone, hgap⟩ =>
      ⟨lookup_none_of_not_creates hnone fun h => absurd h hk, hgap⟩

theorem Maps.Keeps.run {k : SessionStateKey} {b : Backend} {t stop : UInt64}
    {cs : List (TcpCall cpus)} (h : m.Keeps k b t stop)
    (htime : cs.Pairwise fun c c' => c.ctx.now ≤ c'.ctx.now)
    (hbounds : ∀ c ∈ cs, t ≤ c.ctx.now ∧ c.ctx.now ≤ stop)
    (hcs : (tcpFinder cpus).Each (fun m c => c.stateKey = k → ¬c.Creates m ∧ ¬c.Closes m) m cs) :
    ((tcpFinder cpus).exec m cs).Keeps k b (lastForwarded k t m cs) stop := by
  induction cs generalizing m t with
  | nil => exact h
  | cons c cs ih =>
    obtain ⟨hle, htime⟩ := List.pairwise_cons.1 htime
    obtain ⟨⟨ht, hstop⟩, hbounds⟩ := List.forall_mem_cons.1 hbounds
    rw [lastForwarded, Machine.exec]
    refine ih (h.step ht hstop hcs.1) htime (fun c' hc' => ⟨?_, (hbounds c' hc').2⟩) hcs.2
    split_ifs
    · exact hle c' hc'
    · exact (hbounds c' hc').1

/-- Session affinity of a service without consistent hash. In a run with nondecreasing times that
    begins with a packet that creates the session of its flow, let no later packet create or close
    it. Then a packet of the flow that is not a pure SYN and comes in time after the last forwarded
    one goes to the backend of the first, whatever the packets of other flows did. -/
theorem session_affinity {first last : TcpCall cpus} {mid : List (TcpCall cpus)}
    (hrange : m.SessionsInRange)
    (hroom : (tcpFinder cpus).Each (fun m _ => m.tcpSessionState.size < 65536) m
      (first :: (mid ++ [last])))
    (htime : (first :: (mid ++ [last])).Pairwise fun c c' => c.ctx.now ≤ c'.ctx.now)
    (halg : ∀ info, m.activeServices.lookup first.key = some info →
      info.algorithm = BALANCER_RR ∨ info.algorithm = BALANCER_WRR)
    (hfirst : first.Creates m)
    (hmid : (tcpFinder cpus).Each
      (fun m c => c.stateKey = first.stateKey → ¬c.Creates m ∧ ¬c.Closes m)
      ((tcpFinder cpus).next first m) mid)
    (hflow : last.stateKey = first.stateKey) (hsyn : last.tcp.pureSyn = false)
    (hgap : last.ctx.now - lastForwarded first.stateKey first.ctx.now
      ((tcpFinder cpus).next first m) mid ≤ TCP_STATE_TIMEOUT) :
    ∃ b, (tcpFinder cpus).out first m = some b ∧
      (tcpFinder cpus).out last
        ((tcpFinder cpus).exec ((tcpFinder cpus).next first m) mid) = some b := by
  obtain ⟨b, hb, hleads⟩ := Maps.Leads.of_creates hrange hroom.1 halg hfirst
  obtain ⟨hle, htime⟩ := List.pairwise_cons.1 htime
  obtain ⟨htime, -, hlast⟩ := List.pairwise_append.1 htime
  have hbounds : ∀ c ∈ mid, first.ctx.now ≤ c.ctx.now ∧ c.ctx.now ≤ last.ctx.now := fun c hc =>
    ⟨hle c (List.mem_append_left _ hc), hlast c hc last (List.mem_singleton_self _)⟩
  refine ⟨b, hb, ?_⟩
  rcases Maps.Keeps.run (.inl hleads) htime hbounds hmid with h | ⟨-, hlate⟩
  · rw [← hflow] at h hgap
    exact h.out_eq hsyn hgap
  · exact absurd hlate (UInt64.not_lt.2 hgap)

/-- Two flows of one service, the first one twice. -/
theorem session_affinity_demo : ∃ b,
    (tcpFinder 1).out (demoCall 0 1 true) (demoMaps BALANCER_RR) = some b ∧
      (tcpFinder 1).out (demoCall 9 1 false)
        ((tcpFinder 1).exec ((tcpFinder 1).next (demoCall 0 1 true) (demoMaps BALANCER_RR))
          [demoCall 5 2 true]) = some b :=
  session_affinity (fun _ _ h => by cases h) (by decide) (by decide)
    (fun info h => .inl (by rw [← Option.some.inj h])) (by decide) (by decide) rfl rfl (by decide)

end L4Balancer
