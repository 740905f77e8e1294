import L4Balancer.Xdp.Affinity

/-!
# The life cycle of sessions

A session is meant to live from a SYN of its flow to the first FIN or RST. A flow is
*open* after a history of packets (`Opened`) if one of its pure SYNs was forwarded and
none of its packets since then is closing.

Two kinds of packets break the cycle (`Breaks`). A packet that is not a pure SYN and
finds no live session still has a backend chosen for it and a session stored: that
session stays behind if the flow is not open, as after a FIN and a last ACK, or if the
packet is itself closing. And a pure SYN that is also closing leaves the session it
stores or does not look for. `session_life_cycle_iff` says that there is no other way.
-/

namespace L4Balancer

open Bpf

variable {cpus : ℕ} {m : Maps cpus} {c : TcpCall cpus} {k : SessionStateKey}
  {pre cs : List (TcpCall cpus)}

/-- After the history `cs` from the maps `m`, the flow `k` is open: a pure SYN of it was forwarded,
    and neither it nor a later packet of the flow was closing. -/
def Opened (m : Maps cpus) (k : SessionStateKey) (cs : List (TcpCall cpus)) : Prop :=
  ∃ pre c post, cs = pre ++ c :: post ∧ c.stateKey = k ∧ c.tcp.pureSyn ∧
    c.Forwarded ((tcpFinder cpus).exec m pre) ∧
    ∀ c' ∈ c :: post, c'.stateKey = k → c'.tcp.closing = false

/-- Only open flows have a session after the history `cs`. -/
def LifeCycle (m : Maps cpus) (cs : List (TcpCall cpus)) : Prop :=
  ∀ k, (((tcpFinder cpus).exec m cs).tcpSessionState.lookup k).isSome → Opened m k cs

/-- The packet finds no live session, and its service chooses a backend for it. -/
def TcpCall.Selects (m : Maps cpus) (c : TcpCall cpus) : Prop :=
  (sessionLookup c.ctx c.stateKey c.tcp m).1 = none ∧
    ∃ info ∈ m.activeServices.lookup c.key,
      (selectTcp c.ctx m.activeBackends info c.stateKey c.key c.packetLen 0
        (sessionLookup c.ctx c.stateKey c.tcp m).2).1.isSome

instance : Decidable (c.Selects m) := inferInstanceAs (Decidable (_ ∧ ∃ _, _ ∧ _))

/-- The packet `c` after the history `pre` stores a session although it is closing, or although it
    is not a pure SYN and its flow is not open; or it is a closing pure SYN of a flow with a
    session. -/
def Breaks (m : Maps cpus) (pre : List (TcpCall cpus)) (c : TcpCall cpus) : Prop :=
  c.Selects ((tcpFinder cpus).exec m pre) ∧
    (c.tcp.closing ∨ c.tcp.pureSyn = false ∧ ¬Opened m c.stateKey pre) ∨
  c.tcp.pureSyn ∧ c.tcp.closing ∧
    (((tcpFinder cpus).exec m pre).tcpSessionState.lookup c.stateKey).isSome

/-! ## Open flows -/

/-- The splits of a history with one more packet: at this packet, or at an earlier one. -/
theorem append_singleton_eq_append {α : Type*} {as as₁ as₂ : List α} {a b : α}
    (h : as ++ [a] = as₁ ++ b :: as₂) :
    as = as₁ ∧ a = b ∧ as₂ = [] ∨ ∃ as₃, as₂ = as₃ ++ [a] ∧ as = as₁ ++ b :: as₃ := by
  rcases List.eq_nil_or_concat' as₂ with rfl | ⟨as₃, a', rfl⟩
  · obtain ⟨has, hlast⟩ := List.append_inj' h rfl
    exact .inl ⟨has, List.singleton_inj.1 hlast, rfl⟩
  · rw [← List.cons_append, ← List.append_assoc] at h
    obtain ⟨has, hlast⟩ := List.append_inj' h rfl
    exact .inr ⟨as₃, by rw [List.singleton_inj.1 hlast], has⟩

/-- A flow that is open stays so with a packet of another flow or one that is not closing. -/
theorem Opened.append (h : Opened m k pre) (hc : c.stateKey = k → c.tcp.closing = false) :
    Opened m k (pre ++ [c]) := by
  obtain ⟨pre₁, c₁, post, rfl, hk, hsyn, hf, hopen⟩ := h
  refine ⟨pre₁, c₁, post ++ [c], by simp, hk, hsyn, hf, fun c₂ hc₂ => ?_⟩
  rw [← List.cons_append] at hc₂
  rcases List.mem_append.1 hc₂ with hc₂ | hc₂
  · exact hopen c₂ hc₂
  · rwa [List.mem_singleton.1 hc₂]

/-- A flow is open after a packet if it was open before it, or if the packet is a forwarded SYN. -/
theorem Opened.of_append (h : Opened m k (pre ++ [c])) :
    (c.stateKey = k → c.tcp.closing = false) ∧ (Opened m k pre ∨
      c.stateKey = k ∧ c.tcp.pureSyn ∧ c.Forwarded ((tcpFinder cpus).exec m pre)) := by
  obtain ⟨pre₁, c₁, post, he, hk, hsyn, hf, hopen⟩ := h
  rcases append_singleton_eq_append he with ⟨rfl, rfl, rfl⟩ | ⟨post, rfl, rfl⟩
  · exact ⟨hopen c List.mem_cons_self, .inr ⟨hk, hsyn, hf⟩⟩
  · refine ⟨hopen c (by simp), .inl ⟨pre₁, c₁, post, rfl, hk, hsyn, hf, fun c₂ hc₂ => ?_⟩⟩
    refine hopen c₂ ?_
    rw [← List.cons_append]
    exact List.mem_append_left _ hc₂

theorem opened_append_ne (hk : c.stateKey ≠ k) : Opened m k (pre ++ [c]) ↔ Opened m k pre :=
  ⟨fun h => h.of_append.2.resolve_right fun h => hk h.1, fun h => h.append fun he => absurd he hk⟩

theorem opened_append_self : Opened m c.stateKey (pre ++ [c]) ↔ c.tcp.closing = false ∧
    (Opened m c.stateKey pre ∨ c.tcp.pureSyn ∧ c.Forwarded ((tcpFinder cpus).exec m pre)) := by
  constructor
  · exact fun h => ⟨h.of_append.1 rfl, h.of_append.2.imp_right And.right⟩
  · rintro ⟨hclose, h | ⟨hsyn, hf⟩⟩
    · exact h.append fun _ => hclose
    · refine ⟨pre, c, [], rfl, rfl, hsyn, hf, fun c₂ hc₂ _ => ?_⟩
      rwa [List.mem_singleton.1 hc₂]

/-! ## Steps -/

/-- What a packet does to the session of its flow: it stores one; or, a SYN that is dropped, it
    leaves what was there; or it leaves at most a session that was there, if it is not closing. -/
theorem TcpStep.session_cases {out : Option Backend} {m' : Maps cpus} (hs : TcpStep c m out m')
    (hrange : m.SessionsInRange) (hroom : m.tcpSessionState.size < 65536) :
    c.Selects m ∧ out.isSome ∧ (m'.tcpSessionState.lookup c.stateKey).isSome ∨
    ¬c.Selects m ∧ c.tcp.pureSyn ∧ out = none ∧
      m'.tcpSessionState.lookup c.stateKey = m.tcpSessionState.lookup c.stateKey ∨
    ¬c.Selects m ∧ c.tcp.pureSyn = false ∧ ((m'.tcpSessionState.lookup c.stateKey).isSome →
      (m.tcpSessionState.lookup c.stateKey).isSome ∧ c.tcp.closing = false) := by
  rw [TcpCall.Selects]
  cases hs with
  | hit hsyn hsome hlate hb =>
    rw [(Lookup.live hsyn hsome hlate).eq]
    refine .inr (.inr ⟨by simp, hsyn, fun h => ⟨Option.isSome_of_eq_some hsome, ?_⟩⟩)
    by_contra hclose
    rw [Bool.not_eq_false] at hclose
    rw [sessions_finishTcp, if_pos (by simpa using hclose), HashMap.lookup_delete, if_pos rfl] at h
    cases h
  | create hl hno hinfo hsel =>
    obtain rfl := hrange.eq_none hl hno
    rw [Option.elim_none] at hsel
    rw [hl.eq]
    refine .inl ⟨⟨rfl, _, hinfo, by rw [hsel]; rfl⟩, rfl, ?_⟩
    · have hq := quiet_of_selectTcp hsel
      have hr := hl.hasRoom hroom
      rw [← hq.sessions] at hr
      rw [sessions_finishTcp, if_neg (by simp), Maps.sessions_storeSession, HashMap.lookup_put hr,
        if_pos rfl]
      rfl
  | @drop state m₁ _ hl hno hsel =>
    obtain rfl := hrange.eq_none hl hno
    rw [hl.eq]
    have hno : ¬((none : Option SessionStateVal) = none ∧ ∃ info ∈ m.activeServices.lookup c.key,
        (selectTcp c.ctx m.activeBackends info c.stateKey c.key c.packetLen 0 m₁).1.isSome) := by
      rintro ⟨-, info, hinfo, hb⟩
      rcases hsel with ⟨h, -⟩ | ⟨info', idx, hinfo', hsel⟩
      · cases hinfo.symm.trans h
      · obtain rfl := Option.some.inj (hinfo'.symm.trans hinfo)
        rw [Option.elim_none] at hsel
        rw [hsel] at hb
        cases hb
    have hsessions : m'.tcpSessionState = m₁.tcpSessionState := by
      rcases hsel with ⟨-, rfl⟩ | ⟨info, idx, -, hsel⟩
      · rfl
      · exact (quiet_of_selectTcp hsel).sessions
    rw [hsessions]
    cases hl with
    | absent h =>
      cases hsyn : c.tcp.pureSyn with
      | true => exact .inr (.inl ⟨hno, rfl, rfl, rfl⟩)
      | false =>
        rw [h.resolve_left (by simp [hsyn])]
        exact .inr (.inr ⟨hno, rfl, by simp⟩)
    | expired hsyn hsome hlate =>
      rw [Maps.sessions_expireSession, HashMap.lookup_delete, if_pos rfl]
      exact .inr (.inr ⟨hno, hsyn, by simp⟩)

/-- One more packet keeps the life cycle exactly if it does not break it. -/
theorem lifeCycle_append (hrange : ((tcpFinder cpus).exec m pre).SessionsInRange)
    (hroom : ((tcpFinder cpus).exec m pre).tcpSessionState.size < 65536) (h : LifeCycle m pre) :
    LifeCycle m (pre ++ [c]) ↔ ¬Breaks m pre c := by
  have hs := TcpStep.of_next c ((tcpFinder cpus).exec m pre)
  have hself : LifeCycle m (pre ++ [c]) ↔
      ((((tcpFinder cpus).next c ((tcpFinder cpus).exec m pre)).tcpSessionState.lookup
        c.stateKey).isSome → Opened m c.stateKey (pre ++ [c])) := by
    rw [LifeCycle, Machine.exec_append]
    refine ⟨fun h => h c.stateKey, fun h' k hk => ?_⟩
    by_cases hne : c.stateKey = k
    · exact hne ▸ h' (hne ▸ hk)
    · rw [opened_append_ne hne]
      refine h k ?_
      rwa [← hs.lookup_ne (Ne.symm hne)]
  rw [hself, opened_append_self, Breaks, TcpCall.Forwarded]
  have hold := h c.stateKey
  rcases hs.session_cases hrange hroom with ⟨hsel, hout, hnew⟩ | ⟨hsel, hsyn, hout, hnew⟩ |
    ⟨hsel, hsyn, hnew⟩
  · cases hsyn : c.tcp.pureSyn <;> cases hclose : c.tcp.closing <;> simp [hsel, hout, hnew]
  · rw [hnew, hout]
    cases hclose : c.tcp.closing <;> simp_all
  · simp only [hsel, hsyn, false_and, Bool.false_eq_true, or_false, not_false_eq_true, iff_true]
    exact fun hk => ⟨(hnew hk).2, hold (hnew hk).1⟩

/-! ## Runs -/

/-- Session life cycle. From an empty session table, along a run in which the table has room: after
    every packet only open flows have a session, exactly if no packet breaks the cycle. -/
theorem session_life_cycle_iff (hempty : m.tcpSessionState = .empty)
    (hroom : (tcpFinder cpus).Each (fun m _ => m.tcpSessionState.size < 65536) m cs) :
    (∀ pre, pre <+: cs → LifeCycle m pre) ↔
      ∀ pre c post, cs = pre ++ c :: post → ¬Breaks m pre c := by
  induction cs using List.reverseRecOn with
  | nil =>
    refine iff_of_true (fun pre hpre k hk => ?_) (by simp)
    rw [List.prefix_nil.1 hpre, Machine.exec, hempty] at hk
    cases hk
  | append_singleton cs c ih =>
    obtain ⟨hroom, hlast, -⟩ := Machine.each_append.1 hroom
    have hrange : ((tcpFinder cpus).exec m cs).SessionsInRange := by
      refine Machine.exec_of_step (fun m c h => h.step (TcpStep.of_next c m)) cs fun k v hk => ?_
      rw [hempty] at hk
      cases hk
    have ih := ih hroom
    constructor
    · intro h pre c' post he
      have hpre : ∀ pre, pre <+: cs → LifeCycle m pre :=
        fun pre hpre => h pre (hpre.trans (List.prefix_append cs [c]))
      rcases append_singleton_eq_append he with ⟨rfl, rfl, rfl⟩ | ⟨post, rfl, hcs⟩
      · exact (lifeCycle_append hrange hlast (hpre _ List.prefix_rfl)).1 (h _ List.prefix_rfl)
      · exact ih.1 hpre pre c' post hcs
    · intro h
      have hcs : ∀ pre, pre <+: cs → LifeCycle m pre :=
        ih.2 fun pre c' post he => h pre c' (post ++ [c]) (by rw [he]; simp)
      intro pre hpre
      rcases List.prefix_concat_iff.1 hpre with rfl | hpre
      · exact (lifeCycle_append hrange hlast (hcs _ List.prefix_rfl)).2 (h cs c [] rfl)
      · exact hcs pre hpre

/-- A SYN and an ACK of it keep the cycle. -/
theorem session_life_cycle_demo :
    LifeCycle (demoMaps BALANCER_RR) [demoCall 0 1 true, demoCall 1 1 false] := by
  have hcycle : ∀ pre, pre <+: [demoCall 0 1 true, demoCall 1 1 false] →
      LifeCycle (demoMaps BALANCER_RR) pre := by
    refine (session_life_cycle_iff rfl (by decide)).2 fun pre c post he => ?_
    rcases pre with _ | ⟨c₁, _ | ⟨c₂, pre⟩⟩
    · obtain ⟨rfl, -⟩ := List.cons.inj he
      rintro (⟨-, h | ⟨h, -⟩⟩ | ⟨-, h, -⟩) <;> cases h
    · obtain ⟨rfl, he'⟩ := List.cons.inj he
      obtain ⟨rfl, -⟩ := List.cons.inj he'
      rintro (⟨h, -⟩ | ⟨h, -⟩)
      · exact absurd h (by decide)
      · cases h
    · simp at he
  exact hcycle _ List.prefix_rfl

/-- The FIN of the flow of `demoCall`. -/
def demoFin (now : UInt64) (port : UInt16) : TcpCall 1 :=
  { demoCall now port false with tcp := ⟨port, 0x5000, true, false, false, true⟩ }

/-- A normal close: after the FIN, the last ACK stores a session that stays behind. -/
theorem session_after_close : (demoMaps BALANCER_RR).tcpSessionState = .empty ∧
    (tcpFinder 1).Each (fun m _ => m.tcpSessionState.size < 65536) (demoMaps BALANCER_RR)
      [demoCall 0 1 true, demoFin 1 1, demoCall 2 1 false] ∧
    ¬∀ pre, pre <+: [demoCall 0 1 true, demoFin 1 1, demoCall 2 1 false] →
      LifeCycle (demoMaps BALANCER_RR) pre := by
  refine ⟨rfl, by decide, fun h => ?_⟩
  have hopen : Opened (demoMaps BALANCER_RR) (demoCall 0 1 true).stateKey
      ([demoCall 0 1 true] ++ [demoFin 1 1] ++ [demoCall 2 1 false]) :=
    h _ List.prefix_rfl _ (by decide)
  rcases hopen.of_append.2 with hfin | ⟨-, hsyn, -⟩
  · cases hfin.of_append.1 rfl
  · cases hsyn

end L4Balancer
