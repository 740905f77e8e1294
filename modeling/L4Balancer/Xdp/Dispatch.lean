import L4Balancer.Dispatcher
import L4Balancer.Xdp.Calls
import L4Balancer.Xdp.Flow
import L4Balancer.Xdp.Isolation
import L4Balancer.Xdp.Scans

/-!
# The program is a dispatcher

What the maps make of `find_tcp_backend` and `find_udp_backend` for services without
consistent hash is a dispatcher (`Maps.dispatcher`): the flows are those of the session
table, pinned to the entries that their sessions name; the cursors are those of round robin
and of weighted round robin. `Maps.view` reads its state off the maps.

As long as the maps have room, both functions follow it (`finder_dispatches`). So all that
they do with indices, counters and tables comes to pins and cursors, and the packets that a
service chooses for get its choices in turn.
-/

namespace L4Balancer

open Bpf

variable {cpus : ℕ} {m m₁ : Maps cpus} {backends : ArrayMap Backend 1024} {info : ServiceInfo}
  {key : ServiceKey}

/-! ## Choices -/

/-- The cursors of a service: that of round robin, if it has one, and its state of weighted round
    robin. -/
def Maps.cursor (m : Maps cpus) (key : ServiceKey) : Option UInt32 × WrrState :=
  (m.rrIndex.lookup key, m.wrrAt key)

/-- The choice of round robin with `left` attempts left, and the cursor it leaves. The last attempt
    moves the cursor, but chooses nothing. -/
def rrChoice (backends : ArrayMap Backend 1024) (info : ServiceInfo) :
    ℕ → UInt32 → Option Backend × UInt32
  | 0, cur => (none, cur)
  | left + 1, cur =>
    match backends.lookup (info.backendStartIdx + info.rrNext cur).toNat with
    | none => (none, info.rrNext cur)
    | some b =>
      if left = 0 then (none, info.rrNext cur)
      else if b.active = 0 then rrChoice backends info left (info.rrNext cur)
      else (some b, info.rrNext cur)

/-- The choice of a service without consistent hash, and the cursors it leaves. -/
def Maps.choice (m : Maps cpus) (key : ServiceKey) (c : Option UInt32 × WrrState) :
    Option Backend × Option UInt32 × WrrState :=
  match m.activeServices.lookup key with
  | none => (none, c)
  | some info =>
    if info.algorithm = BALANCER_RR then
      match c.1 with
      | none => (none, c)
      | some cur =>
        let (b, cur) := rrChoice m.activeBackends info 5 cur
        (b, some cur, c.2)
    else if info.algorithm = BALANCER_WRR then
      let (b, st) := wrrSearch m.activeBackends info 32 c.2
      (b.map Prod.fst, c.1, st)
    else (none, c)

/-- The loop of round robin makes its choice. -/
theorem rr_selectLoop_eq {left : ℕ} {last cur : UInt32} (hcur : m.rrIndex.lookup key = some cur) :
    (selectLoop (rrBalancerHandle backends info key) left last m).1 =
        (rrChoice backends info left cur).1 ∧
      (selectLoop (rrBalancerHandle backends info key) left last m).2.2.rrIndex.lookup key =
        some (rrChoice backends info left cur).2 := by
  induction left generalizing last cur m with
  | zero => exact ⟨rfl, hcur⟩
  | succ left ih =>
    have hput : (m.rrIndex.put key (info.rrNext cur)).lookup key = some (info.rrNext cur) := by
      rw [HashMap.lookup_put (.inl (Option.isSome_of_eq_some hcur)), if_pos rfl]
    rw [selectLoop, rrBalancerHandle_eq hcur, rrChoice]
    dsimp only
    cases backends.lookup (info.backendStartIdx + info.rrNext cur).toNat with
    | none =>
      rw [ite_self]
      exact ⟨rfl, hput⟩
    | some b =>
      -- the last attempt, an inactive backend, or the choice
      dsimp only
      split_ifs with hleft hactive
      · exact ⟨rfl, hput⟩
      · exact ih hput
      · exact ⟨rfl, hput⟩

/-- Round robin leaves the other cursors. -/
theorem wrrStateMap_selectLoop_rr (left : ℕ) (last : UInt32) (m : Maps cpus) :
    (selectLoop (rrBalancerHandle backends info key) left last m).2.2.wrrStateMap =
      m.wrrStateMap := by
  refine selectLoop_keeps (P := fun m' => m'.wrrStateMap = m.wrrStateMap)
    (fun last m₁ h => ?_) left last m rfl
  rw [rrBalancerHandle]
  split <;> exact h

theorem rrIndex_selectLoop_wrr (left : ℕ) (last : UInt32) (m : Maps cpus) :
    (selectLoop (wrrBalancerHandle backends info key) left last m).2.2.rrIndex = m.rrIndex := by
  refine selectLoop_keeps (P := fun m' => m'.rrIndex = m.rrIndex)
    (fun last m₁ h => ?_) left last m rfl
  have hinit : (m₁.initWrrState key).rrIndex = m₁.rrIndex := by
    rw [Maps.initWrrState]
    split <;> rfl
  rw [wrrBalancerHandle]
  split
  · exact hinit.trans h
  · split <;> exact hinit.trans h

/-- The `switch` over the algorithm makes the choice of the service. -/
theorem Maps.choice_eq {r : Option Backend × UInt32 × Maps cpus} (last : UInt32)
    (hinfo : m.activeServices.lookup key = some info)
    (hcursors : m₁.rrIndex = m.rrIndex ∧ m₁.wrrStateMap = m.wrrStateMap)
    (hroom : m.wrrStateMap.HasRoom key)
    (hr : r = if info.algorithm = BALANCER_RR then
        selectLoop (rrBalancerHandle m.activeBackends info key) 5 last m₁
      else if info.algorithm = BALANCER_WRR then
        selectLoop (wrrBalancerHandle m.activeBackends info key) 5 last m₁
      else (none, last, m₁)) :
    m.choice key (m.cursor key) = (r.1, r.2.2.cursor key) := by
  obtain ⟨hrr, hwrr⟩ := hcursors
  have hat : ∀ {m' : Maps cpus}, m'.wrrStateMap = m₁.wrrStateMap → m'.wrrAt key = m.wrrAt key :=
    fun h => by rw [wrrAt, wrrAt, h, hwrr]
  -- round robin, weighted round robin, or neither
  rw [choice, hinfo, hr, cursor, cursor]
  dsimp only
  split_ifs
  · rw [hat (wrrStateMap_selectLoop_rr 5 last m₁)]
    cases hcur : m.rrIndex.lookup key with
    | none =>
      rw [← hrr] at hcur
      simp only [selectLoop, rrBalancerHandle, hcur, if_neg (show ¬4 = 0 by decide)]
    | some cur =>
      obtain ⟨hb, hc⟩ := @rr_selectLoop_eq cpus m₁ m.activeBackends info key 5 last cur
        (by rw [hrr, hcur])
      rw [hb, hc]
  · obtain ⟨hb, hst⟩ := @wrr_selectLoop_eq cpus m.activeBackends info key last m₁ (by rwa [hwrr])
    rw [hat rfl] at hb hst
    have hleft : (selectLoop (wrrBalancerHandle m.activeBackends info key) 5 last m₁).2.2.wrrAt key =
        (wrrSearch m.activeBackends info 32 (m.wrrAt key)).2 := by rw [wrrAt, hst, Option.getD_some]
    rw [rrIndex_selectLoop_wrr, hrr, hleft, ← hb, Option.map_map]
    exact congrArg (·, _) Option.map_id'
  · dsimp only
    rw [hrr, hat rfl]

/-! ## The state of the dispatcher -/

/-- What a flow is pinned to: the entry that its session names. -/
def pins (backends : ArrayMap Backend 1024)
    (sessions : HashMap SessionStateKey SessionStateVal 65536) (k : SessionStateKey) :
    Option (Backend × UInt64) :=
  (sessions.lookup k).bind fun s => (backends.lookup s.backendIdx.toNat).map (·, s.created)

section Pins

variable {sessions : HashMap SessionStateKey SessionStateVal 65536} {k : SessionStateKey}

theorem pins_put {v : SessionStateVal} {b : Backend} (hroom : sessions.HasRoom k)
    (hb : backends.lookup v.backendIdx.toNat = some b) :
    pins backends (sessions.put k v) =
      Function.update (pins backends sessions) k (some (b, v.created)) := by
  funext k'
  rw [pins, HashMap.lookup_put hroom, Function.update_apply]
  split_ifs
  · rw [Option.bind_some, hb, Option.map_some]
  · rfl

theorem pins_delete (sessions : HashMap SessionStateKey SessionStateVal 65536)
    (k : SessionStateKey) :
    pins backends (sessions.delete k) = Function.update (pins backends sessions) k none := by
  funext k'
  rw [pins, HashMap.lookup_delete, Function.update_apply]
  split_ifs <;> rfl

end Pins

/-- The dispatcher that the tables of the maps describe. -/
def Maps.dispatcher (m : Maps cpus) :
    Dispatcher ServiceKey UInt64 (Option UInt32 × WrrState) Backend where
  choose := m.choice
  live t now := now - t ≤ TCP_STATE_TIMEOUT

/-- Its state in the maps. -/
def Maps.view (m : Maps cpus) :
    Dispatcher.State SessionStateKey ServiceKey UInt64 (Option UInt32 × WrrState) Backend where
  pinned := pins m.activeBackends m.tcpSessionState
  cursor := m.cursor

/-- The packet of a call. Only TCP has flows. -/
def Call.packet : Call cpus → Dispatcher.Packet SessionStateKey ServiceKey UInt64
  | .tcp c => ⟨c.key, some c.stateKey, c.tcp.pureSyn, c.tcp.closing, c.ctx.now⟩
  | .udp c => ⟨c.key, none, false, false, c.ctx.now⟩

theorem Maps.dispatcher_congr (h : m₁.tables = m.tables) : m₁.dispatcher = m.dispatcher := by
  have hchoice : m₁.choice = m.choice := by
    funext key c
    rw [choice, choice, activeServices_congr h, activeBackends_congr h]
  rw [dispatcher, dispatcher, hchoice]

/-! ## Steps -/

/-- Sessions have the standard timeout. -/
def Maps.Timeouts (m : Maps cpus) : Prop :=
  ∀ k state, m.tcpSessionState.lookup k = some state → state.timeout = TCP_STATE_TIMEOUT

/-- The packet is of no service of consistent hash, and the maps have room for what it stores. -/
structure Maps.Dispatches (m : Maps cpus) (c : Call cpus) : Prop where
  no_ch : (m.activeServices.lookup c.key).all (·.algorithm ≠ BALANCER_CH)
  sessions : m.tcpSessionState.size < 65536
  states : m.wrrStateMap.HasRoom c.key

instance (m : Maps cpus) (c : Call cpus) : Decidable (m.Dispatches c) :=
  decidable_of_iff ((m.activeServices.lookup c.key).all (·.algorithm ≠ BALANCER_CH) ∧
      m.tcpSessionState.size < 65536 ∧ m.wrrStateMap.HasRoom c.key)
    ⟨fun h => ⟨h.1, h.2.1, h.2.2⟩, fun h => ⟨h.1, h.2, h.3⟩⟩

theorem Maps.Dispatches.ne_ch {c : Call cpus} (h : m.Dispatches c)
    (hinfo : m.activeServices.lookup c.key = some info) : info.algorithm ≠ BALANCER_CH := by
  have hno := h.no_ch
  rw [hinfo, Option.all_some] at hno
  exact of_decide_eq_true hno

section Sessions

variable {c : TcpCall cpus}

/-- A packet without a session that lives is of no pinned flow. -/
theorem found_eq_none (hl : Lookup c m none m₁) (htimeouts : m.Timeouts) :
    m.dispatcher.found m.view (Call.tcp c).packet = none := by
  rw [Dispatcher.found]
  split_ifs with hopens
  · rfl
  · cases hl with
    | absent h =>
      have hnone : m.view.pinned c.stateKey = none :=
        Option.bind_eq_none_iff.2 fun s hs => by rw [h.resolve_left hopens] at hs; cases hs
      exact (congrArg (Option.bind · _) hnone :)
    | @expired state _ hsome hlate =>
      rw [TcpCall.Late, htimeouts _ _ hsome] at hlate
      refine Option.bind_eq_none_iff.2 fun x hx => if_neg ?_
      have hx : pins m.activeBackends m.tcpSessionState c.stateKey = some x := hx
      obtain ⟨s, hs, hb⟩ := Option.bind_eq_some_iff.1 hx
      obtain ⟨b, -, rfl⟩ := Option.map_eq_some_iff.1 hb
      obtain rfl := Option.some.inj (hsome.symm.trans hs)
      exact fun hlive => UInt64.not_le.2 hlate (of_decide_eq_true hlive)

/-- Looking for a session unpins the flow, unless the packet opens one. -/
theorem pins_of_lookup (hl : Lookup c m none m₁) :
    pins m.activeBackends m₁.tcpSessionState =
      if c.tcp.pureSyn then m.view.pinned
      else Function.update m.view.pinned c.stateKey none := by
  cases hl with
  | absent h =>
    split_ifs with hsyn
    · rfl
    · have hnone : m.view.pinned c.stateKey = none :=
        Option.bind_eq_none_iff.2 fun s hs => by rw [h.resolve_left hsyn] at hs; cases hs
      rw [← hnone, Function.update_eq_self]
      rfl
  | expired hsyn =>
    rw [if_neg (by rw [hsyn]; exact Bool.false_ne_true)]
    exact pins_delete _ _

end Sessions

/-- The cursors after a choice. -/
theorem cursor_of_choice {c : Option UInt32 × WrrState} (hc : m₁.cursor key = c)
    (hother : OtherCursors key m m₁) : Function.update m.cursor key c = m₁.cursor := by
  funext k
  rw [Function.update_apply]
  split_ifs with hk
  · rw [hk, hc]
  · rw [Maps.cursor, Maps.cursor, Maps.wrrAt, Maps.wrrAt, hother.rr k hk, hother.wrr k hk]

/-- A packet of TCP takes a step of the dispatcher. -/
theorem step_view_tcp (hrange : m.SessionsInRange) (htimeouts : m.Timeouts) {c : TcpCall cpus}
    (hd : m.Dispatches (.tcp c)) : m.dispatcher.machine.step (Call.tcp c).packet m.view =
      ((tcpFinder cpus).out c m, ((tcpFinder cpus).next c m).view) := by
  have hs := TcpStep.of_next c m
  generalize (tcpFinder cpus).out c m = out at hs
  generalize (tcpFinder cpus).next c m = m' at hs
  rw [Maps.view, Maps.view, Maps.activeBackends_congr hs.tables, ← Maps.view]
  cases hs with
  | @hit state b hsyn hsome hlate hb =>
    have hpin : m.view.pinned c.stateKey = some (b, state.created) := by
      change pins m.activeBackends m.tcpSessionState c.stateKey = _
      rw [pins, hsome, Option.bind_some, hb, Option.map_some]
    have hlive : m.dispatcher.live state.created c.ctx.now = true := by
      rw [TcpCall.Late, htimeouts _ _ hsome] at hlate
      exact decide_eq_true (UInt64.not_lt.1 hlate)
    have hfound : m.dispatcher.found m.view (Call.tcp c).packet = some b := by
      rw [Dispatcher.found, Call.packet, if_neg (by rw [hsyn]; exact Bool.false_ne_true),
        Option.bind_some, hpin, Option.bind_some, if_pos hlive]
    have hput := pins_put (v := state.refresh c.ctx.now)
      (.inl (Option.isSome_of_eq_some hsome)) hb
    rw [Dispatcher.step_of_found hfound]
    refine Prod.ext rfl (Dispatcher.State.ext ?_ rfl)
    -- the session is stored with its new time, and deleted again if the packet closes the flow
    dsimp only
    rw [sessions_finishTcp, Option.isSome_some, Bool.true_and, Maps.sessions_storeSession]
    change Function.update (pins m.activeBackends m.tcpSessionState) c.stateKey
      (if c.tcp.closing then none else some (b, c.ctx.now)) = _
    split_ifs
    · rw [pins_delete, hput, Function.update_idem]
    · exact hput.symm
  | @create state m₁ m₂ info b idx hl hno hinfo hsel =>
    -- a session whose entry is missing is not there, so the service chooses
    obtain rfl := hrange.eq_none hl hno
    have hne := hd.ne_ch hinfo
    have hq := quiet_of_selectTcp hsel
    have hother := (OtherCursors.of_eq hl.cursors.1 hl.cursors.2).trans (.selectTcp hsel)
    have hchoice := Maps.choice_eq 0 hinfo hl.cursors hd.states
      (r := (some b, idx, m₂)) (by rw [← hsel, Option.elim_none, selectTcp, if_neg hne])
    have hput : pins m.activeBackends (m₂.tcpSessionState.put c.stateKey
        ⟨idx, info.serviceIdx, c.ctx.now, TCP_STATE_TIMEOUT⟩) =
        Function.update m.view.pinned c.stateKey (some (b, c.ctx.now)) := by
      have hmem := (mem_handlerCalls_or_chPick hsel).resolve_right fun h => hne h.1
      rw [hq.sessions, pins_put (hl.hasRoom hd.sessions) (handlerCalls_names hmem rfl),
        pins_of_lookup hl]
      split_ifs
      · rfl
      · exact Function.update_idem _ _ _
    have hchoice : m.dispatcher.choose (Call.tcp c).packet.service
        (m.view.cursor (Call.tcp c).packet.service) = (some b, m₂.cursor c.key) := hchoice
    rw [Dispatcher.step_of_not_found (found_eq_none hl htimeouts), hchoice]
    have hcursor : _ = m₂.cursor := cursor_of_choice rfl hother
    exact Prod.ext rfl (Dispatcher.State.ext hput.symm hcursor)
  | @drop state m₁ m₂ hl hno hsel =>
    obtain rfl := hrange.eq_none hl hno
    obtain ⟨hchoice, hother, hsessions⟩ : m.choice c.key (m.cursor c.key) =
        (none, m'.cursor c.key) ∧ OtherCursors c.key m m' ∧
        m'.tcpSessionState = m₁.tcpSessionState := by
      have hother : OtherCursors c.key m m₁ := .of_eq hl.cursors.1 hl.cursors.2
      rcases hsel with ⟨hnone, rfl⟩ | ⟨info, idx, hinfo, hsel⟩
      · refine ⟨?_, hother, rfl⟩
        rw [Maps.choice, hnone, Maps.cursor, Maps.cursor, Maps.wrrAt, Maps.wrrAt, hl.cursors.1,
          hl.cursors.2]
      · exact ⟨Maps.choice_eq 0 hinfo hl.cursors hd.states (r := (none, idx, m'))
          (by rw [← hsel, Option.elim_none, selectTcp, if_neg (hd.ne_ch hinfo)]),
          hother.trans (.selectTcp hsel), (quiet_of_selectTcp hsel).sessions⟩
    have hchoice : m.dispatcher.choose (Call.tcp c).packet.service
        (m.view.cursor (Call.tcp c).packet.service) = (none, m'.cursor c.key) := hchoice
    rw [Dispatcher.step_of_not_found (found_eq_none hl htimeouts), hchoice]
    refine Prod.ext rfl (Dispatcher.State.ext ?_ (cursor_of_choice rfl hother))
    rw [hsessions, pins_of_lookup hl]
    rfl

/-- A packet of UDP takes a step of the dispatcher. -/
theorem step_view_udp {c : UdpCall cpus} (hd : m.Dispatches (.udp c)) :
    m.dispatcher.machine.step (Call.udp c).packet m.view =
      ((udpFinder cpus).out c m, ((udpFinder cpus).next c m).view) := by
  have hs := UdpStep.of_next c m
  have hsessions := sessions_udpFinder c m
  generalize (udpFinder cpus).out c m = out at hs
  generalize (udpFinder cpus).next c m = m' at hs hsessions
  rw [Maps.view, Maps.view, Maps.activeBackends_congr hs.tables, hsessions, ← Maps.view]
  have hstep : m.choice c.key (m.cursor c.key) = (out, m'.cursor c.key) ∧
      OtherCursors c.key m m' := by
    cases hs with
    | unmatched hnone =>
      refine ⟨?_, .of_eq rfl rfl⟩
      rw [Maps.choice, hnone]
    | @drop info idx m₁ hinfo hsel =>
      exact ⟨Maps.choice_eq 0 hinfo ⟨rfl, rfl⟩ hd.states (r := (none, idx, m'))
        (by rw [← hsel, selectUdp]), .selectUdp hsel⟩
    | @forward info b idx m₁ hinfo hsel =>
      exact ⟨Maps.choice_eq 0 hinfo ⟨rfl, rfl⟩ hd.states (r := (some b, idx, m₁))
        (by rw [← hsel, selectUdp]), .trans (.selectUdp hsel) (.of_eq rfl rfl)⟩
  have hchoice : m.dispatcher.choose (Call.udp c).packet.service
      (m.view.cursor (Call.udp c).packet.service) = (out, m'.cursor c.key) := hstep.1
  have hfound : m.dispatcher.found m.view (Call.udp c).packet = none := rfl
  rw [Dispatcher.step_of_not_found hfound, hchoice]
  refine Prod.ext rfl (Dispatcher.State.ext ?_ (cursor_of_choice rfl hstep.2))
  cases out <;> rfl

/-! ## Runs -/

namespace Maps.Timeouts

variable {m' : Maps cpus} {k : SessionStateKey}

theorem of_put (h : m.Timeouts) {v : SessionStateVal} (hv : v.timeout = TCP_STATE_TIMEOUT)
    (hm : m'.tcpSessionState = m.tcpSessionState.put k v) : m'.Timeouts := by
  intro k' state hs
  rw [hm] at hs
  rcases m.tcpSessionState.lookup_put_or k k' v with hl | ⟨-, hl⟩
  · exact h k' state (hl ▸ hs)
  · rwa [← Option.some.inj (hl.symm.trans hs)]

/-- Refreshing a session. -/
theorem refresh (h : m.Timeouts) {state : SessionStateVal}
    (hs : m.tcpSessionState.lookup k = some state) (now : UInt64) :
    (m.storeSession k (state.refresh now)).Timeouts :=
  h.of_put (v := state.refresh now) (h k state hs) rfl

theorem of_delete (h : m.Timeouts) (hm : m'.tcpSessionState = m.tcpSessionState.delete k) :
    m'.Timeouts := by
  intro k' state hs
  rw [hm, HashMap.lookup_delete] at hs
  split_ifs at hs
  exact h k' state hs

theorem of_eq (h : m.Timeouts) (hm : m'.tcpSessionState = m.tcpSessionState) : m'.Timeouts := by
  rwa [Timeouts, hm]

theorem lookup (h : m.Timeouts) {c : TcpCall cpus} {state : Option SessionStateVal}
    (hl : Lookup c m state m') : m'.Timeouts := by
  cases hl with
  | absent => exact h
  | expired => exact h.of_delete rfl
  | live _ hsome => exact h.refresh hsome _

theorem finishTcp (h : m.Timeouts) {ctx : Ctx cpus} {tcp : TcpHdr} {packetLen : UInt32}
    {state : Option SessionStateVal} {lastIndex serviceIdx : UInt32} {delta : BitVec 32} :
    (L4Balancer.finishTcp ctx k tcp packetLen state lastIndex serviceIdx delta m).Timeouts := by
  by_cases hc : (state.isSome && tcp.closing) = true
  · exact h.of_delete (by rw [sessions_finishTcp, if_pos hc])
  · exact h.of_eq (by rw [sessions_finishTcp, if_neg hc])

theorem next (h : m.Timeouts) (c : Call cpus) : ((finder cpus).next c m).Timeouts := by
  cases c with
  | udp c => exact h.of_eq (sessions_udpFinder c m)
  | tcp c =>
    have hs := TcpStep.of_next c m
    change ((tcpFinder cpus).next c m).Timeouts
    generalize (tcpFinder cpus).out c m = out at hs
    generalize (tcpFinder cpus).next c m = m' at hs ⊢
    cases hs with
    | hit _ hsome => exact (h.refresh hsome _).finishTcp
    | create hl _ _ hsel =>
      have h₂ := (h.lookup hl).of_eq (quiet_of_selectTcp hsel).sessions
      exact (h₂.of_put rfl rfl).finishTcp
    | drop hl _ hsel =>
      rcases hsel with ⟨-, rfl⟩ | ⟨info, idx, -, hsel⟩
      · exact h.lookup hl
      · exact (h.lookup hl).of_eq (quiet_of_selectTcp hsel).sessions

end Maps.Timeouts

/-- The program follows the dispatcher of its tables, and so the packets that a service chooses for
    get its choices in turn, whatever other packets come in between. -/
theorem finder_dispatches (hrange : m.SessionsInRange) (htimeouts : m.Timeouts)
    {cs : List (Call cpus)} (hcs : (finder cpus).Each Maps.Dispatches m cs) :
    let D := m.dispatcher
    D.machine.outs m.view (cs.map Call.packet) = (finder cpus).outs m cs ∧
      D.machine.exec m.view (cs.map Call.packet) = ((finder cpus).exec m cs).view ∧
      ∀ key, (((D.machine.trace m.view (cs.map Call.packet)).zip ((finder cpus).outs m cs)).filter
          fun x => D.fresh key x.1).map Prod.snd =
        D.turns key ((D.machine.trace m.view (cs.map Call.packet)).countP (D.fresh key))
          (m.cursor key) := by
  obtain ⟨houts, hexec⟩ := Machine.run_map_of (N := m.dispatcher.machine) (f := Maps.view)
    (g := Call.packet) (P := fun m' => m'.tables = m.tables ∧ m'.SessionsInRange ∧ m'.Timeouts)
    (fun c m' hm' hd => by
      obtain ⟨htables, hrange, htimeouts⟩ := hm'
      -- packets leave the tables alone, so the dispatcher stays the same
      refine ⟨?_, (tables_finder c m').trans htables, hrange.next c, htimeouts.next c⟩
      rw [← Maps.dispatcher_congr htables]
      cases c with
      | tcp c => exact step_view_tcp hrange htimeouts hd
      | udp c => exact step_view_udp hd)
    ⟨rfl, hrange, htimeouts⟩ hcs
  exact ⟨houts, hexec, fun key => houts ▸ m.dispatcher.answers_of_fresh key m.view _⟩

/-- Two flows that open, and one that goes on. -/
theorem finder_dispatches_demo :
    (demoMaps BALANCER_RR).dispatcher.machine.outs (demoMaps BALANCER_RR).view
        ([.tcp (demoCall 1 1 true), .tcp (demoCall 2 2 true), .tcp (demoCall 3 1 false)].map
          Call.packet) =
      [some (demoBackend 1), some (demoBackend 0), some (demoBackend 1)] :=
  (finder_dispatches (fun _ _ h => by cases h) (fun _ _ h => by cases h) (by decide)).1.trans
    (by decide)

end L4Balancer
