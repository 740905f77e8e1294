import L4Balancer.Xdp.Cursors

/-!
# The ways of a packet

A packet is forwarded by the session of its flow, by a call of one of the handlers of
round robin and weighted round robin, or by the current table of consistent hash
(`Call.out_cases`). `Call.handlerCalls` are all the calls of the handlers that a packet
makes.
-/

namespace L4Balancer

open Bpf

variable {cpus : ℕ} {m : Maps cpus} {info : ServiceInfo}

/-- Where a packet reaches the `switch` over the algorithm: the entry of its service, the index it
    brings along, and the maps there. Packets found by their session do not reach it. -/
def Call.reaches (m : Maps cpus) : Call cpus → Option (ServiceInfo × UInt32 × Maps cpus)
  | .tcp c =>
    match sessionLookup c.ctx c.stateKey c.tcp m with
    | (state, m₁) =>
      if (state.bind fun s => m.activeBackends.lookup s.backendIdx.toNat).isSome then none
      else (m.activeServices.lookup c.key).map fun info =>
        (info, state.elim 0 SessionStateVal.backendIdx, m₁)
  | .udp c => (m.activeServices.lookup c.key).map fun info => (info, 0, m)

/-- The backend of a choice, with its index. -/
def chosen (r : Option Backend × UInt32 × Maps cpus) : Option (Backend × UInt32) :=
  r.1.map (·, r.2.1)

theorem map_fst_chosen (r : Option Backend × UInt32 × Maps cpus) :
    (chosen r).map Prod.fst = r.1 := by
  rw [chosen, Option.map_map]
  exact Option.map_id'

/-- What the `switch` over the algorithm returns to a packet that reaches it. -/
def Call.select (m : Maps cpus) (c : Call cpus) : Option (Backend × UInt32) :=
  (c.reaches m).bind fun (info, lastIndex, m₁) =>
    match c with
    | .tcp c => chosen
        (selectTcp c.ctx m.activeBackends info c.stateKey c.key c.packetLen lastIndex m₁)
    | .udp c => chosen (selectUdp m.activeBackends info c.key m₁)

/-- The calls of `rr_balancer_handle` and `wrr_balancer_handle` that a packet makes, each with the
    entry of the service and with what it returns. -/
def Call.handlerCalls (m : Maps cpus) (c : Call cpus) :
    List (ServiceInfo × Option Backend × UInt32) :=
  match c.reaches m with
  | none => []
  | some (info, lastIndex, m₁) =>
    (L4Balancer.handlerCalls m.activeBackends info c.key lastIndex m₁).map (info, ·)

theorem Call.reaches_spec {c : Call cpus} {last : UInt32} {m₁ : Maps cpus}
    (h : c.reaches m = some (info, last, m₁)) : m.activeServices.lookup c.key = some info ∧
      (m₁ = m ∨ ∃ (c : TcpCall cpus) (state : Option SessionStateVal), Lookup c m state m₁) := by
  cases c with
  | tcp c =>
    have hl := Lookup.of_sessionLookup c m
    rw [reaches] at h
    generalize sessionLookup c.ctx c.stateKey c.tcp m = r at h hl
    obtain ⟨state, m'⟩ := r
    dsimp only at h
    split_ifs at h
    obtain ⟨info', hinfo, he⟩ := Option.map_eq_some_iff.1 h
    obtain ⟨rfl, -, rfl⟩ := by simpa only [Prod.mk.injEq] using he
    exact ⟨hinfo, .inr ⟨c, state, hl⟩⟩
  | udp c =>
    obtain ⟨info', hinfo, he⟩ := Option.map_eq_some_iff.1 h
    obtain ⟨rfl, -, rfl⟩ := by simpa only [Prod.mk.injEq] using he
    exact ⟨hinfo, .inl rfl⟩

theorem Call.reaches_cursors {c : Call cpus} {last : UInt32} {m₁ : Maps cpus}
    (h : c.reaches m = some (info, last, m₁)) :
    m₁.rrIndex = m.rrIndex ∧ m₁.wrrStateMap = m.wrrStateMap := by
  rcases (reaches_spec h).2 with rfl | ⟨c, state, hl⟩
  · exact ⟨rfl, rfl⟩
  · exact hl.cursors

/-- Only packets with a session bring an index along. -/
theorem Call.reaches_udp {c : UdpCall cpus} {last : UInt32} {m₁ : Maps cpus}
    (h : (Call.udp c).reaches m = some (info, last, m₁)) : last = 0 := by
  obtain ⟨info', -, he⟩ := Option.map_eq_some_iff.1 h
  obtain ⟨-, rfl, -⟩ := by simpa only [Prod.mk.injEq] using he
  rfl

theorem Call.reaches_tcp {c : TcpCall cpus} {state : Option SessionStateVal} {m₁ : Maps cpus}
    (hl : Lookup c m state m₁)
    (hno : ∀ s, state = some s → m.activeBackends.lookup s.backendIdx.toNat = none) :
    (Call.tcp c).reaches m = (m.activeServices.lookup c.key).map fun info =>
      (info, state.elim 0 SessionStateVal.backendIdx, m₁) := by
  have hnone : (state.bind fun s => m.activeBackends.lookup s.backendIdx.toNat) = none := by
    cases state with
    | none => rfl
    | some s => exact hno s rfl
  rw [reaches, hl.eq]
  dsimp only
  rw [hnone, if_neg (by simp)]

/-- A packet with a live session does not reach the `switch`. -/
theorem Call.reaches_hit {c : TcpCall cpus} {state : SessionStateVal} {b : Backend}
    (hsyn : c.tcp.pureSyn = false) (hs : m.tcpSessionState.lookup c.stateKey = some state)
    (hlate : ¬c.Late state) (hb : m.activeBackends.lookup state.backendIdx.toNat = some b) :
    (Call.tcp c).reaches m = none := by
  rw [reaches, (Lookup.live hsyn hs hlate).eq]
  dsimp only
  rw [Option.bind_some, if_pos]
  exact Option.isSome_of_eq_some hb

/-- A packet that reaches a loop of the algorithm gets its choice, and leaves its cursors. -/
theorem Call.next_of_reaches {c : Call cpus} {last : UInt32} {m₁ : Maps cpus}
    (h : c.reaches m = some (info, last, m₁))
    (handle : UInt32 → Maps cpus → Option Backend × UInt32 × Maps cpus)
    (htcp : ∀ tc, c = .tcp tc → selectTcp tc.ctx m.activeBackends info tc.stateKey tc.key
      tc.packetLen last m₁ = selectLoop handle 5 last m₁)
    (hudp : ∀ uc, c = .udp uc → selectUdp m.activeBackends info uc.key m₁ =
      selectLoop handle 5 0 m₁) :
    c.select m = chosen (selectLoop handle 5 last m₁) ∧
      (finder cpus).out c m = (c.select m).map Prod.fst ∧
      ((finder cpus).next c m).rrIndex = (selectLoop handle 5 last m₁).2.2.rrIndex ∧
      ((finder cpus).next c m).wrrStateMap = (selectLoop handle 5 last m₁).2.2.wrrStateMap := by
  have hselect : c.select m = chosen (selectLoop handle 5 last m₁) := by
    rw [select, h, Option.bind_some]
    cases c with
    | tcp c => exact congrArg chosen (htcp c rfl)
    | udp c =>
      rw [reaches_udp h]
      exact congrArg chosen (hudp c rfl)
  refine ⟨hselect, ?_⟩
  rw [hselect]
  cases c with
  | tcp c =>
    have htcp := htcp c rfl
    have hs := TcpStep.of_next c m
    change (tcpFinder cpus).out c m = _ ∧ ((tcpFinder cpus).next c m).rrIndex = _ ∧
      ((tcpFinder cpus).next c m).wrrStateMap = _
    generalize (tcpFinder cpus).out c m = out at hs ⊢
    generalize (tcpFinder cpus).next c m = m' at hs ⊢
    cases hs with
    | hit hsyn hs hlate hb =>
      rw [reaches_hit hsyn hs hlate hb] at h
      cases h
    | create hl hno hinfo hsel =>
      rw [reaches_tcp hl hno, hinfo, Option.map_some] at h
      obtain ⟨rfl, rfl, rfl⟩ := by simpa only [Option.some.injEq, Prod.mk.injEq] using h
      rw [htcp] at hsel
      rw [hsel]
      exact ⟨rfl, rfl, rfl⟩
    | drop hl hno hsel =>
      rw [reaches_tcp hl hno] at h
      rcases hsel with ⟨hnone, -⟩ | ⟨info', idx, hinfo, hsel⟩
      · rw [hnone] at h
        cases h
      · rw [hinfo, Option.map_some] at h
        obtain ⟨rfl, rfl, rfl⟩ := by simpa only [Option.some.injEq, Prod.mk.injEq] using h
        rw [htcp] at hsel
        rw [hsel]
        exact ⟨rfl, rfl, rfl⟩
  | udp c =>
    have hudp := hudp c rfl
    rw [← reaches_udp h] at hudp
    have hs := UdpStep.of_next c m
    change (udpFinder cpus).out c m = _ ∧ ((udpFinder cpus).next c m).rrIndex = _ ∧
      ((udpFinder cpus).next c m).wrrStateMap = _
    generalize (udpFinder cpus).out c m = out at hs ⊢
    generalize (udpFinder cpus).next c m = m' at hs ⊢
    rw [reaches] at h
    cases hs with
    | unmatched hnone =>
      rw [hnone] at h
      cases h
    | drop hinfo hsel | forward hinfo hsel =>
      rw [hinfo, Option.map_some] at h
      obtain ⟨rfl, rfl, rfl⟩ := by simpa only [Option.some.injEq, Prod.mk.injEq] using h
      rw [hudp] at hsel
      rw [hsel]
      exact ⟨rfl, rfl, rfl⟩

/-- A packet that does not reach the `switch` leaves all cursors. -/
theorem Call.cursors_of_reaches_none {c : Call cpus} (h : c.reaches m = none) :
    ((finder cpus).next c m).rrIndex = m.rrIndex ∧
      ((finder cpus).next c m).wrrStateMap = m.wrrStateMap := by
  cases c with
  | tcp c =>
    have hs := TcpStep.of_next c m
    change ((tcpFinder cpus).next c m).rrIndex = _ ∧ ((tcpFinder cpus).next c m).wrrStateMap = _
    generalize (tcpFinder cpus).out c m = out at hs
    generalize (tcpFinder cpus).next c m = m' at hs ⊢
    cases hs with
    | hit => exact ⟨rfl, rfl⟩
    | create hl hno hinfo =>
      rw [reaches_tcp hl hno, hinfo] at h
      cases h
    | drop hl hno hsel =>
      rw [reaches_tcp hl hno] at h
      rcases hsel with ⟨-, rfl⟩ | ⟨info', idx, hinfo, -⟩
      · exact hl.cursors
      · rw [hinfo] at h
        cases h
  | udp c =>
    have hs := UdpStep.of_next c m
    change ((udpFinder cpus).next c m).rrIndex = _ ∧ ((udpFinder cpus).next c m).wrrStateMap = _
    generalize (udpFinder cpus).out c m = out at hs
    generalize (udpFinder cpus).next c m = m' at hs ⊢
    rw [reaches] at h
    cases hs with
    | unmatched => exact ⟨rfl, rfl⟩
    | drop hinfo | forward hinfo =>
      rw [hinfo] at h
      cases h

/-- A packet is forwarded by the live session of its flow. -/
def TcpCall.HitsBy (c : TcpCall cpus) (m : Maps cpus) (state : SessionStateVal) : Prop :=
  c.tcp.pureSyn = false ∧ m.tcpSessionState.lookup c.stateKey = some state ∧ ¬c.Late state ∧
    (m.activeBackends.lookup state.backendIdx.toNat).isSome

/-- What an algorithm returns to a packet. -/
theorem mem_handlerCalls_or_chPick {c : TcpCall cpus} {backends : ArrayMap Backend 1024}
    {last idx : UInt32} {m₂ : Maps cpus} {b : Backend}
    (h : selectTcp c.ctx backends info c.stateKey c.key c.packetLen last m = (some b, idx, m₂)) :
    (some b, idx) ∈ handlerCalls backends info c.key last m ∨
      info.algorithm = BALANCER_CH ∧ m.chPick c.stateKey.chHash = some (b, idx) := by
  by_cases hch : info.algorithm = BALANCER_CH
  · exact .inr ⟨hch, chPick_of_selectTcp hch h⟩
  · left
    rw [selectTcp] at h
    rw [handlerCalls]
    split_ifs at h ⊢
    · exact mem_loopCalls h
    · exact mem_loopCalls h
    · simp at h

/-- How a packet came to its backend. -/
theorem Call.out_cases {c : Call cpus} {b : Backend} (h : (finder cpus).out c m = some b) :
    (∃ tc state, c = .tcp tc ∧ tc.HitsBy m state ∧
      m.activeBackends.lookup state.backendIdx.toNat = some b) ∨
    ∃ info last m₁, c.reaches m = some (info, last, m₁) ∧
      ((∃ idx, (info, some b, idx) ∈ c.handlerCalls m) ∨
        ∃ tc idx, c = .tcp tc ∧ info.algorithm = BALANCER_CH ∧
          m.chPick tc.stateKey.chHash = some (b, idx)) := by
  cases c with
  | tcp c =>
    have hout : (tcpFinder cpus).out c m = some b := h
    have hs := TcpStep.of_next c m
    rw [hout] at hs
    generalize (tcpFinder cpus).next c m = m' at hs
    cases hs with
    | hit hsyn hsome hlate hb =>
      exact .inl ⟨c, _, rfl, ⟨hsyn, hsome, hlate, Option.isSome_of_eq_some hb⟩, hb⟩
    | @create state m₁ m₂ info _ idx hl hno hinfo hsel =>
      have hreach : (Call.tcp c).reaches m =
          some (info, state.elim 0 SessionStateVal.backendIdx, m₁) := by
        rw [reaches_tcp hl hno, hinfo, Option.map_some]
      refine .inr ⟨info, _, m₁, hreach, ?_⟩
      rcases mem_handlerCalls_or_chPick hsel with hmem | ⟨hch, hpick⟩
      · left
        rw [handlerCalls, hreach]
        exact ⟨idx, List.mem_map_of_mem (f := (info, ·)) hmem⟩
      · rw [Maps.chPick_congr hl.tables] at hpick
        exact .inr ⟨c, idx, rfl, hch, hpick⟩
  | udp c =>
    have hout : (udpFinder cpus).out c m = some b := h
    have hs := UdpStep.of_next c m
    rw [hout] at hs
    generalize (udpFinder cpus).next c m = m' at hs
    cases hs with
    | @forward info _ idx m₁ hinfo hsel =>
      have hreach : (Call.udp c).reaches m = some (info, 0, m) := by
        rw [reaches, hinfo, Option.map_some]
      have hmem : (some b, idx) ∈ L4Balancer.handlerCalls m.activeBackends info c.key 0 m := by
        rw [selectUdp] at hsel
        rw [L4Balancer.handlerCalls]
        split_ifs at hsel ⊢
        · exact mem_loopCalls hsel
        · exact mem_loopCalls hsel
        · simp at hsel
      refine .inr ⟨info, 0, m, hreach, .inl ⟨idx, ?_⟩⟩
      rw [handlerCalls, hreach]
      exact List.mem_map_of_mem (f := (info, ·)) hmem

end L4Balancer
