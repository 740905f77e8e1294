import L4Balancer.Window
import L4Balancer.Xdp.Ban
import L4Balancer.Xdp.SynLimit

/-!
# SYNs in a window

The counters of `ddos_check_v4` are window counters (`SynCounter.window_count`). What a call
does to them is said once (`FilterStep`), and two bounds follow, on the SYNs of one source
in an interval as long as a window:

* `bounded_leak`: at most twice the threshold pass, whatever the blacklist is;
* `no_false_ban`: a source that keeps to both limits is never banned.
-/

namespace L4Balancer

open Bpf WindowCounter

variable {m m' : DdosMaps} {now : UInt64} {srcIp src : BitVec 32} {tcp : TcpHdr} {v : Verdict}
  {cnt : SynCounter}

/-! ## Counters -/

/-- The counter of the SYNs of a source. -/
def SynCounter.window (cnt : SynCounter) : WindowCounter :=
  ⟨cnt.windowStart.toNat, cnt.synCount.toNat⟩

/-- The length of a window. -/
abbrev windowNs : ℕ := DDOS_WINDOW_NS.toNat

/-- A packet restarts the counter and is an event if it is a pure SYN. -/
theorem SynCounter.window_count (hstart : cnt.windowStart ≤ now)
    (hcount : cnt.synCount.toNat + 1 < 2 ^ 64) (tcp : TcpHdr) :
    (cnt.count now tcp).window =
      if tcp.pureSyn then (cnt.window.restart windowNs now.toNat).hit
      else cnt.window.restart windowNs now.toNat := by
  have hover : now - cnt.windowStart > DDOS_WINDOW_NS ↔
      now.toNat - cnt.window.start > windowNs := by
    rw [gt_iff_lt, UInt64.lt_iff_toNat_lt, UInt64.toNat_sub_of_le _ _ hstart]
    rfl
  have hadd : (cnt.synCount + 1).toNat = cnt.synCount.toNat + 1 := by
    rw [UInt64.toNat_add, UInt64.toNat_one, Nat.mod_eq_of_lt hcount]
  rw [SynCounter.count, WindowCounter.restart]
  by_cases h : now - cnt.windowStart > DDOS_WINDOW_NS
  · rw [if_pos h, if_pos (hover.1 h)]
    cases tcp.pureSyn <;> rfl
  · rw [if_neg h, if_neg fun h' => h (hover.2 h')]
    cases tcp.pureSyn
    · rfl
    · simp [window, hit, hadd]

theorem SynCounter.synCount_count_le (cnt : SynCounter) (now : UInt64) (tcp : TcpHdr) :
    (cnt.count now tcp).synCount.toNat ≤ cnt.synCount.toNat + 1 := by
  have hadd : (cnt.synCount + 1).toNat ≤ cnt.synCount.toNat + 1 := by
    rw [UInt64.toNat_add]
    exact Nat.mod_le _ _
  rw [SynCounter.count]
  dsimp only
  by_cases h : now - cnt.windowStart > DDOS_WINDOW_NS
  · rw [if_pos h]
    cases tcp.pureSyn
    · exact Nat.zero_le _
    · exact Nat.le_add_left 1 _
  · rw [if_neg h]
    cases tcp.pureSyn
    · exact Nat.le_succ _
    · exact hadd

theorem SynCounter.windowStart_count_le {t : UInt64} (hstart : cnt.windowStart ≤ t)
    (hnow : now ≤ t) (tcp : TcpHdr) : (cnt.count now tcp).windowStart ≤ t := by
  rw [SynCounter.count]
  dsimp only
  split_ifs
  · exact hnow
  · exact hstart

/-- The counter of a source, a new one if it has none. -/
def DdosMaps.counter (m : DdosMaps) (now : UInt64) (srcIp : BitVec 32) : SynCounter :=
  (m.synTracker.lookup srcIp).getD ⟨0, 0, now, 0⟩

/-! ## Steps -/

/-- What a call of `ddos_check_v4` can do: its source is banned; or its counter does not fit into
    the map; or it is counted, passes only within the limits, and is not banned within them. -/
inductive FilterStep (m : DdosMaps) (now : UInt64) (srcIp : BitVec 32) (tcp : TcpHdr) :
    Verdict → DdosMaps → Prop
  | banned (t : UInt64) : m.blacklist.lookup srcIp = some t → FilterStep m now srcIp tcp .drop m
  | untracked (m' : DdosMaps) :
    (m.checkBan now srcIp (m.ddosCfg.lookup 0)).1 = false → ¬m.synTracker.HasRoom srcIp →
    m'.synTracker = m.synTracker → m'.blacklist.lookup srcIp = none →
    FilterStep m now srcIp tcp .pass m'
  | counted (v : Verdict) (m' : DdosMaps) :
    (∀ src, m'.synTracker.lookup src =
      if src = srcIp then some ((m.counter now srcIp).count now tcp)
      else m.synTracker.lookup src) →
    (v = .pass → (m.ddosCfg.get 0).exceeded ((m.counter now srcIp).count now tcp) = false) →
    ((m.ddosCfg.get 0).exceeded ((m.counter now srcIp).count now tcp) = false →
      m'.blacklist.lookup srcIp = none) →
    FilterStep m now srcIp tcp v m'

/-- The source is banned, or has no entry on the blacklist any more. -/
theorem checkBan_cases (m : DdosMaps) (now : UInt64) (srcIp : BitVec 32)
    (cfg : Option DdosConfig) :
    (m.checkBan now srcIp cfg = (true, m) ∧ ∃ t, m.blacklist.lookup srcIp = some t) ∨
      ∃ m₁, m.checkBan now srcIp cfg = (false, m₁) ∧ m₁.synTracker = m.synTracker ∧
        m₁.blacklist.lookup srcIp = none := by
  rw [DdosMaps.checkBan]
  cases h : m.blacklist.lookup srcIp with
  | none => exact .inr ⟨m, rfl, rfl, h⟩
  | some t =>
    dsimp only
    split_ifs
    · exact .inl ⟨rfl, t, rfl⟩
    · exact .inr ⟨_, rfl, rfl, lookup_unban m srcIp⟩

/-- The counter is there, or it does not fit into the map. -/
theorem lookupCounter_cases (m : DdosMaps) (now : UInt64) (srcIp : BitVec 32) :
    (∃ m₁, m.lookupCounter now srcIp = (some (m.counter now srcIp), m₁) ∧
        m₁.blacklist = m.blacklist ∧ ∀ cnt src, (m₁.synTracker.put srcIp cnt).lookup src =
          if src = srcIp then some cnt else m.synTracker.lookup src) ∨
      m.lookupCounter now srcIp = (none, m) ∧ ¬m.synTracker.HasRoom srcIp := by
  rw [DdosMaps.lookupCounter, DdosMaps.counter]
  cases h : m.synTracker.lookup srcIp with
  | some cnt =>
    exact .inl ⟨m, rfl, rfl, fun cnt' src => HashMap.lookup_put (.inl (by rw [h]; rfl)) src⟩
  | none =>
    dsimp only
    cases hnew : (m.synTracker.put srcIp ⟨0, 0, now, 0⟩).lookup srcIp with
    | none =>
      refine .inr ⟨?_, fun hroom => ?_⟩
      · rcases HashMap.put_eq_or (m := m.synTracker) (k := srcIp) ⟨0, 0, now, 0⟩ with hp | hp
        · rw [hp]
        · rw [HashMap.lookup_of_update hp, if_pos rfl] at hnew
          cases hnew
      · rw [HashMap.lookup_put hroom, if_pos rfl] at hnew
        cases hnew
    | some cnt =>
      rcases m.synTracker.lookup_put_or srcIp srcIp ⟨0, 0, now, 0⟩ with hp | ⟨-, hp⟩
      · rw [hp, h] at hnew
        cases hnew
      · obtain rfl := Option.some.inj (hnew.symm.trans hp)
        refine .inl ⟨_, rfl, rfl, fun cnt' src => ?_⟩
        rw [HashMap.lookup_put (.inl (by rw [hnew]; rfl))]
        split_ifs with hsrc
        · rfl
        · exact HashMap.lookup_put_ne _ hsrc

/-- The global counter changes neither the counters of the sources nor the blacklist. -/
theorem countGlobal_eq (m : DdosMaps) (now : UInt64) (cfg : Option DdosConfig) (tcp : TcpHdr) :
    ∃ gs, (m.countGlobal now cfg tcp).2 = { m with globalSyn := gs } := by
  rw [DdosMaps.countGlobal]
  cases m.globalSyn.lookup 0 with
  | none => split_ifs <;> exact ⟨m.globalSyn, rfl⟩
  | some gs =>
    dsimp only
    split_ifs
    · exact ⟨_, rfl⟩
    · exact ⟨_, rfl⟩
    · exact ⟨m.globalSyn, rfl⟩

theorem FilterStep.of_ddosCheckV4 (m : DdosMaps) (now : UInt64) (srcIp : BitVec 32)
    (tcp : TcpHdr) : FilterStep m now srcIp tcp (ddosCheckV4 m now srcIp tcp).1
      (ddosCheckV4 m now srcIp tcp).2 := by
  rw [ddosCheckV4]
  rcases checkBan_cases m now srcIp (m.ddosCfg.lookup 0) with
    ⟨hban, t, ht⟩ | ⟨m₁, hban, htracker, hfree⟩
  · rw [hban]
    exact .banned t ht
  have hcounter : m₁.counter now srcIp = m.counter now srcIp := by
    rw [DdosMaps.counter, DdosMaps.counter, htracker]
  rw [hban]
  dsimp only
  rcases lookupCounter_cases m₁ now srcIp with ⟨m₂, hcnt, hlist, hput⟩ | ⟨hcnt, hroom⟩
  · rw [hcounter] at hcnt
    rw [htracker] at hput
    rw [hcnt]
    dsimp only
    have hglobal := countGlobal_eq
      { m₂ with synTracker := m₂.synTracker.put srcIp ((m.counter now srcIp).count now tcp) } now
      (m.ddosCfg.lookup 0) tcp
    generalize DdosMaps.countGlobal _ now (m.ddosCfg.lookup 0) tcp = r at hglobal ⊢
    obtain ⟨exceeds, m₃⟩ := r
    obtain ⟨gs, rfl⟩ := hglobal
    rw [← hlist] at hfree
    have hcfg : (m.ddosCfg.lookup 0).any (·.exceeded ((m.counter now srcIp).count now tcp)) =
      (m.ddosCfg.get 0).exceeded ((m.counter now srcIp).count now tcp) := rfl
    cases exceeds with
    | true => exact .counted _ _ (hput _) (fun h => by cases h) fun _ => hfree
    | false =>
      dsimp only
      rw [hcfg]
      cases hexceeded : (m.ddosCfg.get 0).exceeded ((m.counter now srcIp).count now tcp) with
      | true =>
        refine .counted _ _ (hput _) (fun h => by cases h) fun h => ?_
        rw [hexceeded] at h
        cases h
      | false => exact .counted _ _ (hput _) (fun _ => hexceeded) fun _ => hfree
  · rw [hcnt]
    dsimp only
    exact .untracked m₁ (congrArg Prod.fst hban) (htracker ▸ hroom) htracker hfree

/-! ## Limits -/

section Limits

variable {cfg : DdosConfig}

theorem synCount_le_of_exceeded (h : cfg.exceeded cnt = false) (hT : 0 < cfg.synThreshold) :
    cnt.synCount.toNat ≤ cfg.synThreshold.toNat := by
  rw [DdosConfig.exceeded, decide_eq_false_iff_not, not_or, not_and] at h
  have hle := h.1 hT
  rw [gt_iff_lt, UInt64.lt_iff_toNat_lt, not_lt, UInt32.toNat_toUInt64] at hle
  exact hle

theorem exceeded_eq_false (h10 : cnt.synCount.toNat ≤ 10)
    (hT : 0 < cfg.synThreshold → cnt.synCount.toNat ≤ cfg.synThreshold.toNat) :
    cfg.exceeded cnt = false := by
  have h10' : ¬cnt.synCount > 10 := by
    rw [gt_iff_lt, UInt64.lt_iff_toNat_lt, not_lt]
    exact h10
  rw [DdosConfig.exceeded, decide_eq_false_iff_not, not_or, not_and, not_and]
  refine ⟨fun hpos => ?_, fun _ h => h10' h.1⟩
  rw [gt_iff_lt, UInt64.lt_iff_toNat_lt, not_lt, UInt32.toNat_toUInt64]
  exact hT hpos

end Limits

/-! ## The leak -/

/-- A call of `ddos_check_v4`, and the blacklist that it finds, whatever has become of the
    insertions into it. -/
structure LeakCall where
  now : UInt64
  srcIp : BitVec 32
  tcp : TcpHdr
  blacklist : HashMap (BitVec 32) UInt64 16384

/-- The machine of `ddos_check_v4`, with any outcome of the insertions into the blacklist. -/
def leakyFilter : Machine DdosMaps LeakCall Verdict where
  step c m := ddosCheckV4 { m with blacklist := c.blacklist } c.now c.srcIp c.tcp

/-- If the call inserts a counter into `syn_tracker`, there is room for it. -/
def InsertionSucceeds (m : DdosMaps) (c : LeakCall) : Prop :=
  (DdosMaps.checkBan { m with blacklist := c.blacklist } c.now c.srcIp (m.ddosCfg.lookup 0)).1 =
    false → m.synTracker.HasRoom c.srcIp

instance (m : DdosMaps) (c : LeakCall) : Decidable (InsertionSucceeds m c) :=
  inferInstanceAs (Decidable (_ → _))

/-- The call is for a pure SYN of the source in the interval that begins at `t`, and returns
    `XDP_PASS`. -/
def leaks (src : BitVec 32) (t : ℕ) (m : DdosMaps) (c : LeakCall) : Bool :=
  c.tcp.pureSyn && c.srcIp == src && within windowNs t c.now.toNat &&
    leakyFilter.out c m == .pass

/-- How many of the SYNs of the source the calls let through in the interval that begins at `t`. -/
def synsLeaked (m : DdosMaps) (cs : List LeakCall) (src : BitVec 32) (t : ℕ) : ℕ :=
  (leakyFilter.trace m cs).countP fun x => leaks src t x.1 x.2

/-- Before the calls `cs`, after `p` SYNs of the source have passed in the interval. -/
structure Leaked (limit : ℕ) (src : BitVec 32) (t p : ℕ) (m : DdosMaps) (cs : List LeakCall) :
    Prop where
  threshold : (m.ddosCfg.get 0).synThreshold.toNat = limit
  length : cs.length < 2 ^ 64
  counter : ∀ cnt, m.synTracker.lookup src = some cnt →
    cnt.synCount.toNat + cs.length < 2 ^ 64 ∧ (∀ c ∈ cs, cnt.windowStart ≤ c.now) ∧
      p ≤ cnt.window.allowance windowNs limit t
  none : m.synTracker.lookup src = none → p = 0
  early : ∀ c ∈ cs, c.now.toNat < t → p = 0

/-- The bound after a packet, which may be a SYN that passes. -/
theorem allowance_count {limit t p : ℕ} (hstart : cnt.windowStart ≤ now)
    (hcount : cnt.synCount.toNat + 1 < 2 ^ 64) (h : p ≤ cnt.window.allowance windowNs limit t)
    (hearly : now.toNat < t → p = 0) (pass : Bool)
    (hpass : pass → tcp.pureSyn ∧ within windowNs t now.toNat ∧
      (cnt.count now tcp).synCount.toNat ≤ limit) :
    p + pass.toNat ≤ (cnt.count now tcp).window.allowance windowNs limit t := by
  have hrestart := le_allowance_restart h hearly
  have hle : (cnt.count now tcp).window.count = (cnt.count now tcp).synCount.toNat := rfl
  rw [SynCounter.window_count hstart hcount] at hle ⊢
  cases pass with
  | false =>
    split_ifs
    · exact hrestart.trans (allowance_hit _)
    · exact hrestart
  | true =>
    obtain ⟨hsyn, hin, hlimit⟩ := hpass rfl
    rw [if_pos hsyn] at hle ⊢
    exact (Nat.add_le_add_right hrestart 1).trans
      (allowance_pass (within_restart hstart) (hle ▸ hlimit) hin)

namespace Leaked

variable {limit t p : ℕ} {c : LeakCall} {cs : List LeakCall}

theorem le (h : Leaked limit src t p m cs) : p ≤ 2 * limit := by
  cases hcnt : m.synTracker.lookup src with
  | none => exact h.none hcnt ▸ Nat.zero_le _
  | some cnt => exact (h.counter cnt hcnt).2.2.trans (allowance_le _)

/-- The counter that the next call of the source finds or makes. -/
theorem counter_getD (h : Leaked limit src t p m (c :: cs)) (htimes : ∀ c' ∈ cs, c.now ≤ c'.now) :
    (m.counter c.now src).synCount.toNat + 1 + cs.length < 2 ^ 64 ∧
      (∀ c' ∈ c :: cs, (m.counter c.now src).windowStart ≤ c'.now) ∧
      p ≤ (m.counter c.now src).window.allowance windowNs limit t := by
  have hlength := h.length
  rw [List.length_cons] at hlength
  rw [DdosMaps.counter]
  cases hcnt : m.synTracker.lookup src with
  | none =>
    rw [h.none hcnt]
    refine ⟨?_, List.forall_mem_cons.2 ⟨UInt64.le_refl _, htimes⟩, Nat.zero_le _⟩
    rw [Option.getD_none, UInt64.toNat_zero]
    omega
  | some cnt =>
    obtain ⟨hcount, hstart, hle⟩ := h.counter cnt hcnt
    rw [List.length_cons] at hcount
    exact ⟨by rw [Option.getD_some]; omega, hstart, hle⟩

/-- After a call that leaves the counter of the source and lets no SYN of it through. -/
theorem of_unchanged (h : Leaked limit src t p m (c :: cs)) (hcfg : m'.ddosCfg = m.ddosCfg)
    (htracker : m'.synTracker.lookup src = m.synTracker.lookup src) :
    Leaked limit src t p m' cs where
  threshold := hcfg ▸ h.threshold
  length := (Nat.lt_succ_self _).trans h.length
  counter cnt hcnt := by
    obtain ⟨hcount, hstart, hle⟩ := h.counter cnt (htracker ▸ hcnt)
    rw [List.length_cons] at hcount
    exact ⟨by omega, fun c' hc' => hstart c' (List.mem_cons_of_mem _ hc'), hle⟩
  none hcnt := h.none (htracker ▸ hcnt)
  early c' hc' := h.early c' (List.mem_cons_of_mem _ hc')

/-- A call keeps the bound. -/
theorem next (h : Leaked limit src t p m (c :: cs)) (hpos : 0 < limit)
    (htimes : ∀ c' ∈ cs, c.now ≤ c'.now) (hroom : InsertionSucceeds m c) :
    Leaked limit src t (p + (leaks src t m c).toNat) (leakyFilter.next c m) cs := by
  have hcfg : (leakyFilter.next c m).ddosCfg = m.ddosCfg :=
    (Elsewhere.ddosCheckV4 { m with blacklist := c.blacklist } c.now c.srcIp c.tcp).ddosCfg
  have hstep := FilterStep.of_ddosCheckV4 { m with blacklist := c.blacklist } c.now c.srcIp c.tcp
  have hout : leakyFilter.out c m =
    (ddosCheckV4 { m with blacklist := c.blacklist } c.now c.srcIp c.tcp).1 := rfl
  have hnext : leakyFilter.next c m =
    (ddosCheckV4 { m with blacklist := c.blacklist } c.now c.srcIp c.tcp).2 := rfl
  rw [hnext] at hcfg ⊢
  rw [leaks, hout]
  generalize ddosCheckV4 _ c.now c.srcIp c.tcp = r at hstep hcfg ⊢
  obtain ⟨v, m'⟩ := r
  dsimp only at hstep hcfg ⊢
  cases hstep with
  | banned t' _ =>
    have hdrop : (Verdict.drop == Verdict.pass) = false := rfl
    rw [hdrop, Bool.and_false]
    exact h.of_unchanged rfl rfl
  | untracked _ hban hfull htracker _ => exact absurd (hroom hban) hfull
  | counted _ _ htracker hpass _ =>
    -- the counter does not depend on the blacklist
    have htracker : ∀ src, m'.synTracker.lookup src =
      if src = c.srcIp then some ((m.counter c.now c.srcIp).count c.now c.tcp)
      else m.synTracker.lookup src := htracker
    by_cases hsrc : c.srcIp = src
    · subst hsrc
      obtain ⟨hcount, hstart, hle⟩ := h.counter_getD htimes
      obtain ⟨hnow, hstart⟩ := List.forall_mem_cons.1 hstart
      have hlimit : v = .pass →
          ((m.counter c.now c.srcIp).count c.now c.tcp).synCount.toNat ≤ limit := fun hv => by
        have hlt : 0 < (m.ddosCfg.get 0).synThreshold := by
          rw [UInt32.lt_iff_toNat_lt, h.threshold]
          exact hpos
        rw [← h.threshold]
        exact synCount_le_of_exceeded (hpass hv) hlt
      have hleak : (c.tcp.pureSyn && c.srcIp == c.srcIp && within windowNs t c.now.toNat &&
          v == .pass) → c.tcp.pureSyn ∧ within windowNs t c.now.toNat ∧
            ((m.counter c.now c.srcIp).count c.now c.tcp).synCount.toNat ≤ limit := fun hp => by
        simp only [Bool.and_eq_true, beq_iff_eq] at hp
        exact ⟨hp.1.1.1, hp.1.2, hlimit hp.2⟩
      have hbound := allowance_count hnow (by omega) hle (h.early c List.mem_cons_self) _ hleak
      have hself := (htracker c.srcIp).trans (if_pos rfl)
      refine ⟨hcfg ▸ h.threshold, (Nat.lt_succ_self _).trans h.length, fun cnt hcnt => ?_,
        fun hnone => ?_, fun c' hc' hlt => ?_⟩
      · obtain rfl := Option.some.inj (hself.symm.trans hcnt)
        have hsyn := (m.counter c.now c.srcIp).synCount_count_le c.now c.tcp
        exact ⟨by omega, fun c' hc' =>
          SynCounter.windowStart_count_le (hstart c' hc') (htimes c' hc') c.tcp, hbound⟩
      · rw [hself] at hnone
        cases hnone
      · -- the interval has not begun yet
        have hlt' := (UInt64.le_iff_toNat_le.1 (htimes c' hc')).trans_lt hlt
        have hout : within windowNs t c.now.toNat = false := by
          rw [within, decide_eq_false_iff_not]
          omega
        rw [h.early c List.mem_cons_self hlt', hout, Bool.and_false, Bool.false_and]
        rfl
    · have hno : (c.srcIp == src) = false := beq_false_of_ne hsrc
      rw [hno, Bool.and_false, Bool.false_and, Bool.false_and]
      refine h.of_unchanged hcfg ?_
      rw [htracker, if_neg (Ne.symm hsrc)]

/-- A run of calls keeps it. -/
theorem countP_trace_le (h : Leaked limit src t p m cs) (hpos : 0 < limit)
    (htimes : (cs.map (·.now)).Pairwise (· ≤ ·)) (hroom : leakyFilter.Each InsertionSucceeds m cs) :
    p + (leakyFilter.trace m cs).countP (fun x => leaks src t x.1 x.2) ≤ 2 * limit := by
  induction cs generalizing m p with
  | nil => exact h.le
  | cons c cs ih =>
    obtain ⟨hle, htimes⟩ := List.pairwise_cons.1 htimes
    have hle : ∀ c' ∈ cs, c.now ≤ c'.now := fun c' hc' => hle _ (List.mem_map_of_mem hc')
    have hnext := ih (h.next hpos hle hroom.1) htimes hroom.2
    rw [Machine.trace, List.countP_cons]
    cases hl : leaks src t m c <;> rw [hl] at hnext <;> simp at hnext ⊢ <;> omega

end Leaked

/-- The leak is bounded. In every run of fewer than `2 ^ 64` calls in the order of time, with a
    threshold, with room for all counters and with any outcome of the insertions into the blacklist,
    at most twice the threshold of the pure SYNs of a source pass in an interval as long as a
    window. The counters that the run starts with are empty, or not so large that they wrap around
    in it, and not later than its calls. -/
theorem bounded_leak (m : DdosMaps) (cs : List LeakCall)
    (hpos : 0 < (m.ddosCfg.get 0).synThreshold) (hlength : cs.length < 2 ^ 64)
    (htimes : (cs.map (·.now)).Pairwise (· ≤ ·))
    (hinit : ∀ src cnt, m.synTracker.lookup src = some cnt →
      cnt.synCount.toNat + cs.length < 2 ^ 64 ∧ ∀ c ∈ cs, cnt.windowStart ≤ c.now)
    (hroom : leakyFilter.Each InsertionSucceeds m cs) (src : BitVec 32) (t : ℕ) :
    synsLeaked m cs src t ≤ 2 * (m.ddosCfg.get 0).synThreshold.toNat := by
  have h : Leaked (m.ddosCfg.get 0).synThreshold.toNat src t 0 m cs := by
    refine ⟨rfl, hlength, fun cnt hcnt => ?_, fun _ => rfl, fun _ _ _ => rfl⟩
    exact ⟨(hinit src cnt hcnt).1, (hinit src cnt hcnt).2, Nat.zero_le _⟩
  have hle := h.countP_trace_le (UInt32.lt_iff_toNat_lt.1 hpos) htimes hroom
  rwa [Nat.zero_add] at hle

/-- Four SYNs at one time, when the blacklist is empty for every call: one of them may pass, and
    one passes. -/
theorem bounded_leak_four :
    synsLeaked demoFilter (List.replicate 4 ⟨0, 7, ⟨1, 80, false, true, false, false⟩, .empty⟩)
      7 0 ≤ 2 * 1 :=
  bounded_leak demoFilter
    (List.replicate 4 ⟨0, 7, ⟨1, 80, false, true, false, false⟩, .empty⟩) (by decide) (by decide)
    (by decide) (fun _ _ h => by cases h) (by decide +kernel) 7 0

/-! ## Bans -/

/-- The times at which the source presents pure SYNs. -/
def synTimes (src : BitVec 32) (cs : List FilterCall) : List ℕ :=
  (cs.filter fun c => c.tcp.pureSyn && c.srcIp == src).map fun c => c.now.toNat

/-- In every interval as long as a window there are at most ten of the times, and at most as many as
    the threshold, if there is one. -/
def WithinLimits (cfg : DdosConfig) (times : List ℕ) : Prop :=
  ∀ t, times.countP (within windowNs t) ≤ 10 ∧
    (0 < cfg.synThreshold → times.countP (within windowNs t) ≤ cfg.synThreshold.toNat)

theorem synTimes_append (src : BitVec 32) (cs cs' : List FilterCall) :
    synTimes src (cs ++ cs') = synTimes src cs ++ synTimes src cs' := by
  rw [synTimes, synTimes, synTimes, List.filter_append, List.map_append]

theorem lookup_evict (m : DdosMaps) (srcs : List (BitVec 32)) (src : BitVec 32) :
    (m.evict srcs).synTracker.lookup src =
      if src ∈ srcs then none else m.synTracker.lookup src := by
  rw [DdosMaps.evict]
  dsimp only
  generalize m.synTracker = tracker
  induction srcs generalizing tracker with
  | nil => rfl
  | cons s srcs ih =>
    rw [List.foldl_cons, ih, HashMap.lookup_delete]
    by_cases hs : src = s <;> simp [hs]

/-- What a counter within the limits has counted. -/
theorem WithinLimits.synCount_le {cfg : DdosConfig} {past cs : List FilterCall}
    (h : WithinLimits cfg (synTimes src (past ++ cs)))
    (hcounted : Counted windowNs (synTimes src past) cnt.window) :
    cnt.synCount.toNat ≤ 10 ∧
      (0 < cfg.synThreshold → cnt.synCount.toNat ≤ cfg.synThreshold.toNat) := by
  have hle : cnt.synCount.toNat ≤
      (synTimes src (past ++ cs)).countP (within windowNs cnt.window.start) := by
    rw [synTimes_append, List.countP_append]
    exact Nat.le_add_right_of_le hcounted
  obtain ⟨hten, hthreshold⟩ := h cnt.window.start
  exact ⟨hle.trans hten, fun hpos => hle.trans (hthreshold hpos)⟩

/-- The counter after a call of its source. -/
theorem counted_count {past : List FilterCall} {c : FilterCall}
    (h : Counted windowNs (synTimes c.srcIp past) cnt.window) (hstart : cnt.windowStart ≤ c.now)
    (hcount : cnt.synCount.toNat + 1 < 2 ^ 64) :
    Counted windowNs (synTimes c.srcIp (past ++ [c])) (cnt.count c.now c.tcp).window := by
  rw [synTimes_append, SynCounter.window_count hstart hcount]
  split_ifs with hsyn
  · have hone : synTimes c.srcIp [c] = [c.now.toNat] := by simp [synTimes, hsyn]
    rw [hone]
    exact (h.restart c.now.toNat).hit (within_restart hstart)
  · exact (h.restart c.now.toNat).append _

/-- Before the calls `cs` and after the calls `past`, the source is not banned, and its counter has
    counted at most the SYNs in its window. -/
structure Unbanned (src : BitVec 32) (past : List FilterCall) (m : DdosMaps)
    (cs : List FilterCall) : Prop where
  free : m.blacklist.lookup src = none
  counter : ∀ cnt, m.synTracker.lookup src = some cnt →
    Counted windowNs (synTimes src past) cnt.window ∧ ∀ c ∈ cs, cnt.windowStart ≤ c.now

namespace Unbanned

variable {past cs : List FilterCall} {c : FilterCall}

theorem evict (h : Unbanned src past m cs) (srcs : List (BitVec 32)) :
    Unbanned src past (m.evict srcs) cs where
  free := h.free
  counter cnt hcnt := by
    rw [lookup_evict] at hcnt
    split_ifs at hcnt
    exact h.counter cnt hcnt

/-- The counter that the next call of the source finds or makes. -/
theorem counter_getD (h : Unbanned src past m (c :: cs)) (htimes : ∀ c' ∈ cs, c.now ≤ c'.now) :
    Counted windowNs (synTimes src past) (m.counter c.now src).window ∧
      ∀ c' ∈ c :: cs, (m.counter c.now src).windowStart ≤ c'.now := by
  rw [DdosMaps.counter]
  cases hcnt : m.synTracker.lookup src with
  | none => exact ⟨.zero _ _ _, List.forall_mem_cons.2 ⟨UInt64.le_refl _, htimes⟩⟩
  | some cnt => exact h.counter cnt hcnt

/-- After a call that leaves the counter of the source. -/
theorem of_unchanged (h : Unbanned src past m (c :: cs))
    (hlist : m'.blacklist.lookup src = none)
    (htracker : m'.synTracker.lookup src = m.synTracker.lookup src) :
    Unbanned src (past ++ [c]) m' cs where
  free := hlist
  counter cnt hcnt := by
    obtain ⟨hcounted, hstart⟩ := h.counter cnt (htracker ▸ hcnt)
    refine ⟨?_, fun c' hc' => hstart c' (List.mem_cons_of_mem _ hc')⟩
    rw [synTimes_append]
    exact hcounted.append _

/-- A call of a source within the limits does not ban it. -/
theorem next (h : Unbanned src past m (c :: cs)) (htimes : ∀ c' ∈ cs, c.now ≤ c'.now)
    (hlimits : WithinLimits (m.ddosCfg.get 0) (synTimes src (past ++ c :: cs))) :
    Unbanned src (past ++ [c]) (ddosFilter.next c m) cs := by
  have he := h.evict c.evicted
  have hstep := FilterStep.of_ddosCheckV4 (m.evict c.evicted) c.now c.srcIp c.tcp
  have helse := Elsewhere.ddosCheckV4 (m.evict c.evicted) c.now c.srcIp c.tcp
  have hnext : ddosFilter.next c m =
    (ddosCheckV4 (m.evict c.evicted) c.now c.srcIp c.tcp).2 := rfl
  rw [hnext]
  generalize ddosCheckV4 (m.evict c.evicted) c.now c.srcIp c.tcp = r at hstep helse ⊢
  obtain ⟨v, m'⟩ := r
  dsimp only at hstep helse ⊢
  have hfree : m'.blacklist.lookup c.srcIp = none → m'.blacklist.lookup src = none := fun hl => by
    by_cases hsrc : src = c.srcIp
    · rw [hsrc, hl]
    · rw [helse.blacklist src hsrc, he.free]
  cases hstep with
  | banned _ _ => exact he.of_unchanged he.free rfl
  | untracked _ _ _ htracker hlist => exact he.of_unchanged (hfree hlist) (by rw [htracker])
  | counted _ _ htracker _ hlist =>
    by_cases hsrc : src = c.srcIp
    · subst hsrc
      obtain ⟨hcounted, hstart⟩ := he.counter_getD htimes
      obtain ⟨hnow, hstart⟩ := List.forall_mem_cons.1 hstart
      generalize (m.evict c.evicted).counter c.now c.srcIp = cnt
        at hcounted hnow hstart htracker hlist
      have hsmall := (hlimits.synCount_le hcounted).1
      have hcounted' := counted_count hcounted hnow (by omega)
      rw [← List.singleton_append, ← List.append_assoc] at hlimits
      obtain ⟨hten, hthreshold⟩ := hlimits.synCount_le hcounted'
      refine ⟨hlist (exceeded_eq_false hten hthreshold), fun cnt' hcnt' => ?_⟩
      rw [htracker, if_pos rfl] at hcnt'
      obtain rfl := Option.some.inj hcnt'
      exact ⟨hcounted', fun c' hc' =>
        SynCounter.windowStart_count_le (hstart c' hc') (htimes c' hc') c.tcp⟩
    · refine he.of_unchanged ?_ ?_
      · rw [helse.blacklist src hsrc, he.free]
      · rw [htracker, if_neg hsrc]

theorem always (h : Unbanned src past m cs) (htimes : (cs.map (·.now)).Pairwise (· ≤ ·))
    (hlimits : WithinLimits (m.ddosCfg.get 0) (synTimes src (past ++ cs))) :
    ddosFilter.Always (fun m' => m'.blacklist.lookup src = none) m cs := by
  induction cs generalizing m past with
  | nil => exact h.free
  | cons c cs ih =>
    obtain ⟨hle, htimes⟩ := List.pairwise_cons.1 htimes
    have hle : ∀ c' ∈ cs, c.now ≤ c'.now := fun c' hc' => hle _ (List.mem_map_of_mem hc')
    refine ⟨h.free, ih (h.next hle hlimits) htimes ?_⟩
    rw [(next_ddosFilter c m).ddosCfg, List.append_assoc]
    exact hlimits

end Unbanned

/-- No false ban. In every run of calls in the order of time, from empty maps and for every setting
    of the filter: a source that keeps to the limits is never on the blacklist, whatever the others
    send and however few ACKs it sends. -/
theorem no_false_ban (m : DdosMaps) (cs : List FilterCall) (htracker : m.synTracker = .empty)
    (hlist : m.blacklist = .empty) (htimes : (cs.map (·.now)).Pairwise (· ≤ ·)) {src : BitVec 32}
    (hlimits : WithinLimits (m.ddosCfg.get 0) (synTimes src cs)) :
    ddosFilter.Always (fun m' => m'.blacklist.lookup src = none) m cs := by
  have h : Unbanned src [] m cs := by
    refine ⟨by rw [hlist]; rfl, fun cnt hcnt => ?_⟩
    rw [htracker] at hcnt
    cases hcnt
  exact h.always htimes hlimits

/-- One SYN, between those of another source that is banned. -/
theorem no_false_ban_one :
    ddosFilter.Always (fun m' => m'.blacklist.lookup 8 = none) demoFilter
      [⟨0, 7, ⟨1, 80, false, true, false, false⟩, []⟩,
        ⟨1, 8, ⟨1, 80, false, true, false, false⟩, []⟩,
        ⟨2, 7, ⟨1, 80, false, true, false, false⟩, []⟩] := by
  refine no_false_ban demoFilter _ rfl rfl (by decide) fun t => ?_
  have hone : ∀ t, (synTimes 8 [⟨0, 7, ⟨1, 80, false, true, false, false⟩, []⟩,
      ⟨1, 8, ⟨1, 80, false, true, false, false⟩, []⟩,
      ⟨2, 7, ⟨1, 80, false, true, false, false⟩, []⟩]).countP (within windowNs t) ≤ 1 :=
    fun _ => List.countP_le_length
  exact ⟨(hone t).trans (by decide), fun _ => hone t⟩

end L4Balancer
