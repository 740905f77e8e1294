import L4Balancer.Xdp.DropCount
import L4Balancer.Xdp.SynWindow

/-!
# The limit of all SYNs

Besides the limit for each source, `ddos_check_v4` has one for the SYNs of all sources
together. Its counter is a window counter as well, and one that evictions from `syn_tracker`
do not reset. So if no insertion into `syn_tracker` fails, at most twice the limit pass in an
interval as long as a window, however many sources there are (`global_leak`). A failed insertion
lets a SYN through that nothing counts.
-/

namespace L4Balancer

open Bpf WindowCounter

variable {m m' : DdosMaps} {now : UInt64} {srcIp : BitVec 32} {tcp : TcpHdr} {v : Verdict}
  {gs : GlobalSynStats}

/-- The counter of all SYNs. -/
def GlobalSynStats.window (gs : GlobalSynStats) : WindowCounter :=
  ⟨gs.windowStart.toNat, gs.synCount.toNat⟩

/-- The counter in the maps. -/
def DdosMaps.globalWindow (m : DdosMaps) : WindowCounter := (m.globalSyn.get 0).window

theorem GlobalSynStats.window_countSyn (hstart : gs.windowStart ≤ now)
    (hcount : gs.synCount.toNat + 1 < 2 ^ 64) :
    (gs.countSyn now).window = (gs.window.restart windowNs now.toNat).hit := by
  have hover : now - gs.windowStart > DDOS_WINDOW_NS ↔ now.toNat - gs.window.start > windowNs := by
    rw [gt_iff_lt, UInt64.lt_iff_toNat_lt, UInt64.toNat_sub_of_le _ _ hstart]
    rfl
  have hadd : (gs.synCount + 1).toNat = gs.synCount.toNat + 1 := by
    rw [UInt64.toNat_add, UInt64.toNat_one, Nat.mod_eq_of_lt hcount]
  rw [countSyn, WindowCounter.restart]
  by_cases h : now - gs.windowStart > DDOS_WINDOW_NS
  · rw [if_pos h, if_pos (hover.1 h)]
    rfl
  · rw [if_neg h, if_neg fun h' => h (hover.2 h')]
    simp [window, hit, hadd]

/-! ## A call -/

/-- What a call does to the counter of all SYNs: it leaves it and lets no SYN through, or it counts
    a SYN and lets it through only within the limit. -/
inductive GlobalStep (m : DdosMaps) (now : UInt64) (tcp : TcpHdr) : Verdict → DdosMaps → Prop
  | uncounted {v : Verdict} {m' : DdosMaps} : m'.globalWindow = m.globalWindow →
    (tcp.pureSyn → v ≠ .pass) → GlobalStep m now tcp v m'
  | counted {v : Verdict} {m' : DdosMaps} : tcp.pureSyn →
    m'.globalWindow = ((m.globalSyn.get 0).countSyn now).window →
    (v = .pass → 0 < (m.ddosCfg.get 0).globalSynThreshold →
      m'.globalWindow.count ≤ (m.ddosCfg.get 0).globalSynThreshold.toNat) → GlobalStep m now tcp v m'

theorem countGlobal_cases {cfg : DdosConfig} {tooMany : Bool}
    (h : m.countGlobal now (some cfg) tcp = (tooMany, m')) :
    tcp.pureSyn = false ∧ tooMany = false ∧ m' = m ∨ tcp.pureSyn ∧
      m'.globalWindow = ((m.globalSyn.get 0).countSyn now).window ∧
      (tooMany = false → 0 < cfg.globalSynThreshold →
        m'.globalWindow.count ≤ cfg.globalSynThreshold.toNat) := by
  have hgs : m.globalSyn.lookup 0 = some (m.globalSyn.get 0) := rfl
  rw [DdosMaps.countGlobal, hgs] at h
  cases hsyn : tcp.pureSyn with
  | false =>
    rw [hsyn, if_neg Bool.false_ne_true] at h
    obtain ⟨rfl, rfl⟩ := Prod.mk.inj h
    exact .inl ⟨rfl, rfl, rfl⟩
  | true =>
    rw [hsyn, if_pos rfl] at h
    dsimp only at h
    split_ifs at h with hover
    · obtain ⟨rfl, rfl⟩ := Prod.mk.inj h
      exact .inr ⟨rfl, rfl, fun h => by cases h⟩
    · obtain ⟨rfl, rfl⟩ := Prod.mk.inj h
      -- within the limit, as the check has found
      refine .inr ⟨rfl, rfl, fun _ hpos => ?_⟩
      rw [Option.any_some, decide_eq_true_iff, not_and] at hover
      have hle := hover hpos
      rw [gt_iff_lt, UInt64.lt_iff_toNat_lt, not_lt, UInt32.toNat_toUInt64] at hle
      exact hle

/-- A call whose counter fits into `syn_tracker`. -/
theorem GlobalStep.of_ddosCheckV4
    (hroom : (m.checkBan now srcIp (m.ddosCfg.lookup 0)).1 = false → m.synTracker.HasRoom srcIp) :
    GlobalStep m now tcp (ddosCheckV4 m now srcIp tcp).1 (ddosCheckV4 m now srcIp tcp).2 := by
  -- a banned source is dropped before anything is counted
  by_cases hbanned : ∃ t ∈ m.blacklist.lookup srcIp, now - t < m.banDuration
  · obtain ⟨t, ht, hlt⟩ := hbanned
    rw [ddosCheckV4_banned ht hlt]
    exact .uncounted rfl fun _ h => by cases h
  obtain ⟨m₁, hban, hglobal⟩ := checkBan_of_not_banned hbanned
  have hcfg : m.ddosCfg.lookup 0 = some (m.ddosCfg.get 0) := rfl
  have hcounter := globalSyn_lookupCounter m₁ now srcIp
  rw [ddosCheckV4, hban]
  dsimp only
  generalize hr : m₁.lookupCounter now srcIp = r at hcounter
  obtain ⟨cnt, m₂⟩ := r
  have hsame : m₂.globalSyn = m.globalSyn := hcounter.trans hglobal
  cases cnt with
  | none =>
    -- the counter would have fitted
    have htracker : m₁.synTracker = m.synTracker := by
      rcases checkBan_cases m now srcIp (m.ddosCfg.lookup 0) with ⟨h, -⟩ | ⟨m', h, htracker, -⟩
      · cases hban.symm.trans h
      · obtain ⟨-, rfl⟩ := Prod.mk.inj (hban.symm.trans h)
        exact htracker
    rcases lookupCounter_cases m₁ now srcIp with ⟨m', h, -⟩ | ⟨-, hfull⟩
    · cases hr.symm.trans h
    · rw [htracker] at hfull
      exact absurd (hroom (by rw [hban])) hfull
  | some cnt =>
    dsimp only
    rw [hcfg]
    generalize hg : DdosMaps.countGlobal _ now (some (m.ddosCfg.get 0)) tcp = r
    obtain ⟨tooMany, m₃⟩ := r
    rcases countGlobal_cases hg with ⟨hsyn, rfl, rfl⟩ | ⟨hsyn, hwindow, hlimit⟩
    · dsimp only
      split_ifs
      · exact .uncounted (congrArg (fun g => (g.get 0).window) hsame) fun _ h => by cases h
      · exact .uncounted (congrArg (fun g => (g.get 0).window) hsame) fun h => by
          rw [hsyn] at h
          cases h
    · dsimp only at hwindow
      rw [hsame] at hwindow
      cases tooMany with
      | true => exact .counted hsyn hwindow fun h => by cases h
      | false =>
        dsimp only
        split_ifs
        · exact .counted hsyn hwindow fun h => by cases h
        · exact .counted hsyn hwindow fun _ => hlimit rfl

/-! ## Runs -/

/-- The counter that the call looks for is in `syn_tracker`, or there is room for it. -/
def FilterCall.Inserts (m : DdosMaps) (c : FilterCall) : Prop :=
  ((m.evict c.evicted).checkBan c.now c.srcIp (m.ddosCfg.lookup 0)).1 = false →
    (m.evict c.evicted).synTracker.HasRoom c.srcIp

instance (m : DdosMaps) (c : FilterCall) : Decidable (c.Inserts m) :=
  inferInstanceAs (Decidable (_ → _))

/-- The call is for a pure SYN in the interval that begins at `t`, and returns `XDP_PASS`. -/
def admits (t : ℕ) (m : DdosMaps) (c : FilterCall) : Bool :=
  c.tcp.pureSyn && within windowNs t c.now.toNat && ddosFilter.out c m == .pass

/-- How many SYNs the calls let through in the interval that begins at `t`. -/
def synsAdmitted (m : DdosMaps) (cs : List FilterCall) (t : ℕ) : ℕ :=
  (ddosFilter.trace m cs).countP fun x => admits t x.1 x.2

/-- Before the calls `cs`, after `p` SYNs have passed in the interval. -/
structure Admitted (limit t p : ℕ) (m : DdosMaps) (cs : List FilterCall) : Prop where
  threshold : (m.ddosCfg.get 0).globalSynThreshold.toNat = limit
  count : m.globalWindow.count + cs.length < 2 ^ 64
  start : ∀ c ∈ cs, m.globalWindow.start ≤ c.now.toNat
  le : p ≤ m.globalWindow.allowance windowNs limit t
  early : ∀ c ∈ cs, c.now.toNat < t → p = 0

namespace Admitted

variable {limit t p : ℕ} {c : FilterCall} {cs : List FilterCall}

theorem next (h : Admitted limit t p m (c :: cs)) (hpos : 0 < limit)
    (htimes : ∀ c' ∈ cs, c.now ≤ c'.now) (hroom : c.Inserts m) :
    Admitted limit t (p + (admits t m c).toNat) (ddosFilter.next c m) cs := by
  have hstep : GlobalStep (m.evict c.evicted) c.now c.tcp (ddosFilter.out c m)
    (ddosFilter.next c m) := GlobalStep.of_ddosCheckV4 hroom
  have hcfg := (next_ddosFilter c m).ddosCfg
  have hcount := h.count
  rw [List.length_cons] at hcount
  obtain ⟨hnow, hstart⟩ := List.forall_mem_cons.1 h.start
  obtain ⟨hearly, hearly'⟩ := List.forall_mem_cons.1 h.early
  rw [admits]
  generalize ddosFilter.out c m = v at hstep
  generalize ddosFilter.next c m = m' at hstep hcfg
  cases hstep with
  | uncounted hwindow hno =>
    have hwindow : m'.globalWindow = m.globalWindow := hwindow
    have hzero : (c.tcp.pureSyn && within windowNs t c.now.toNat && v == .pass) = false := by
      rw [Bool.and_eq_false_iff, Bool.and_eq_false_iff, beq_eq_false_iff_ne]
      cases hsyn : c.tcp.pureSyn with
      | false => exact .inl (.inl rfl)
      | true => exact .inr (hno hsyn)
    rw [hzero]
    exact ⟨hcfg ▸ h.threshold, by rw [hwindow]; omega, hwindow ▸ hstart, hwindow ▸ h.le, hearly'⟩
  | counted hsyn hwindow hlimit =>
    have hlt : 0 < (m.ddosCfg.get 0).globalSynThreshold := by
      rw [UInt32.lt_iff_toNat_lt, h.threshold]
      exact hpos
    have hwindow : m'.globalWindow = (m.globalWindow.restart windowNs c.now.toNat).hit :=
      hwindow.trans (GlobalSynStats.window_countSyn (UInt64.le_iff_toNat_le.2 hnow)
        (Nat.lt_of_le_of_lt (Nat.add_le_add_left (Nat.le_add_left 1 cs.length) _) hcount))
    -- the window restarts if it is over, then counts the SYN
    have hrestart := le_allowance_restart h.le hearly
    have hle : (m.globalWindow.restart windowNs c.now.toNat).count ≤ m.globalWindow.count :=
      count_restart_le _
    refine ⟨hcfg ▸ h.threshold, ?_, fun c' hc' => ?_, ?_, fun c' hc' hearlier => ?_⟩
    · rw [hwindow, count_hit]
      omega
    · rw [hwindow, start_hit]
      exact start_restart_le (hstart c' hc') (UInt64.le_iff_toNat_le.1 (htimes c' hc'))
    · cases hadmits : c.tcp.pureSyn && within windowNs t c.now.toNat && v == .pass with
      | false =>
        rw [hwindow]
        exact hrestart.trans (allowance_hit _)
      | true =>
        rw [Bool.and_eq_true, Bool.and_eq_true, beq_iff_eq] at hadmits
        have hcountle := hlimit hadmits.2 hlt
        rw [hwindow] at hcountle ⊢
        exact (Nat.add_le_add_right hrestart 1).trans
          (allowance_pass (within_restart hnow) (h.threshold ▸ hcountle) hadmits.1.2)
    · -- the interval has not begun yet
      have hearlier' := (UInt64.le_iff_toNat_le.1 (htimes c' hc')).trans_lt hearlier
      have hout : within windowNs t c.now.toNat = false := by
        rw [within, decide_eq_false_iff_not]
        omega
      rw [hearly hearlier', hout, Bool.and_false, Bool.false_and]
      rfl

/-- A run of calls keeps it. -/
theorem countP_trace_le (h : Admitted limit t p m cs) (hpos : 0 < limit)
    (htimes : (cs.map (·.now)).Pairwise (· ≤ ·))
    (hroom : ddosFilter.Each (fun m c => c.Inserts m) m cs) :
    p + (ddosFilter.trace m cs).countP (fun x => admits t x.1 x.2) ≤ 2 * limit := by
  induction cs generalizing m p with
  | nil => exact h.le.trans (allowance_le _)
  | cons c cs ih =>
    obtain ⟨hle, htimes⟩ := List.pairwise_cons.1 htimes
    have hle : ∀ c' ∈ cs, c.now ≤ c'.now := fun c' hc' => hle _ (List.mem_map_of_mem hc')
    have hnext := ih (h.next hpos hle hroom.1) htimes hroom.2
    rw [Machine.trace, List.countP_cons]
    cases hadmits : admits t m c <;> rw [hadmits] at hnext <;> simp at hnext ⊢ <;> omega

end Admitted

/-- The limit of all SYNs. In every run of calls of `ddos_check_v4` in the order of time, with a limit
    of all SYNs, from an empty global counter or one that is not later and does not wrap around, with
    any evictions from `syn_tracker` but no failed insertion into it: at most twice the limit of the
    pure SYNs pass in an interval as long as a window, whatever their sources are. -/
theorem global_leak (m : DdosMaps) (cs : List FilterCall)
    (hpos : 0 < (m.ddosCfg.get 0).globalSynThreshold)
    (hcount : (m.globalSyn.get 0).synCount.toNat + cs.length < 2 ^ 64)
    (hstart : ∀ c ∈ cs, (m.globalSyn.get 0).windowStart ≤ c.now)
    (htimes : (cs.map (·.now)).Pairwise (· ≤ ·))
    (hroom : ddosFilter.Each (fun m c => c.Inserts m) m cs) (t : ℕ) :
    synsAdmitted m cs t ≤ 2 * (m.ddosCfg.get 0).globalSynThreshold.toNat := by
  have h : Admitted (m.ddosCfg.get 0).globalSynThreshold.toNat t 0 m cs :=
    ⟨rfl, hcount, fun c hc => UInt64.le_iff_toNat_le.1 (hstart c hc), Nat.zero_le _, fun _ _ _ => rfl⟩
  have hle := h.countP_trace_le (UInt32.lt_iff_toNat_lt.1 hpos) htimes hroom
  rwa [Nat.zero_add] at hle

/-- A limit of one SYN in all. -/
def demoGlobal : DdosMaps := { DdosMaps.fresh with ddosCfg := .const ⟨0, 0, 1, 0⟩ }

/-- Three SYNs of three sources at one time, the counter of the first one evicted before the last. -/
theorem global_leak_three :
    synsAdmitted demoGlobal [⟨0, 7, ⟨1, 80, false, true, false, false⟩, []⟩,
      ⟨0, 8, ⟨1, 80, false, true, false, false⟩, []⟩,
      ⟨0, 9, ⟨1, 80, false, true, false, false⟩, [7]⟩] 0 ≤ 2 * 1 :=
  global_leak demoGlobal _ (by decide) (by decide) (by decide) (by decide) (by decide +kernel) 0

end L4Balancer
