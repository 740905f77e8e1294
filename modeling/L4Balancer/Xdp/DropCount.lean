import L4Balancer.Xdp.Ban

/-!
# Counting drops

`dropped_total` is to be the number of packets that the filter has dropped. Three of the
four places where `ddos_check_v4` drops a packet count it; the one for banned sources does
not. So the counter has all drops of a run exactly if no packet of it comes from a banned
source (`drops_counted_iff`).
-/

namespace L4Balancer

open Bpf

variable {m m' : DdosMaps} {now : UInt64} {srcIp : BitVec 32} {tcp : TcpHdr}

/-- `dropped_total`. -/
def DdosMaps.droppedTotal (m : DdosMaps) : UInt64 := (m.globalSyn.get 0).droppedTotal

/-- A call finds its source banned. -/
def FilterCall.Banned (m : DdosMaps) (c : FilterCall) : Prop :=
  ∃ t ∈ m.blacklist.lookup c.srcIp, c.now - t < m.banDuration

instance (c : FilterCall) : Decidable (c.Banned m) := inferInstanceAs (Decidable (∃ _, _ ∧ _))

/-- What the verdict should add to `dropped_total`. -/
def Verdict.drops : Verdict → ℕ
  | drop => 1
  | pass | tx => 0

/-- How much `dropped_total` grows in a run, counted call by call: the counter itself may wrap
    around. -/
def growth (m : DdosMaps) (cs : List FilterCall) : ℕ :=
  ((ddosFilter.trace m cs).map fun x =>
    ((ddosFilter.next x.2 x.1).droppedTotal - x.1.droppedTotal).toNat).sum

/-- The number of calls that drop their packet. -/
def drops (m : DdosMaps) (cs : List FilterCall) : ℕ := ((ddosFilter.outs m cs).map Verdict.drops).sum

/-! ## A call -/

/-- Counting a SYN counts a drop if there are too many. -/
theorem droppedTotal_countGlobal {cfg : Option DdosConfig} {tooMany : Bool}
    (h : m.countGlobal now cfg tcp = (tooMany, m')) :
    m'.droppedTotal = m.droppedTotal + if tooMany then 1 else 0 := by
  have hgs : m.globalSyn.lookup 0 = some (m.globalSyn.get 0) := rfl
  have hcount : ((m.globalSyn.get 0).countSyn now).droppedTotal = m.droppedTotal := by
    rw [GlobalSynStats.countSyn]
    split_ifs <;> rfl
  rw [DdosMaps.countGlobal, hgs] at h
  dsimp only at h
  split_ifs at h <;> obtain ⟨rfl, rfl⟩ := Prod.mk.inj h
  · exact congrArg (· + 1) hcount
  · exact hcount.trans (add_zero _).symm
  · exact (add_zero _).symm

/-- Banning a source counts a drop. -/
theorem droppedTotal_ban (m : DdosMaps) (now : UInt64) (srcIp : BitVec 32) :
    (m.ban now srcIp).droppedTotal = m.droppedTotal + 1 := rfl

/-- A source that is not banned is looked up without a change of the counter. -/
theorem checkBan_of_not_banned (h : ¬∃ t ∈ m.blacklist.lookup srcIp, now - t < m.banDuration) :
    ∃ m₁, m.checkBan now srcIp (m.ddosCfg.lookup 0) = (false, m₁) ∧
      m₁.globalSyn = m.globalSyn := by
  cases ht : m.blacklist.lookup srcIp with
  | none => exact ⟨m, checkBan_of_absent ht _, rfl⟩
  | some t =>
    have hge : ¬now - t < m.banDuration := fun hlt => h ⟨t, ht, hlt⟩
    exact ⟨m.unban srcIp, by rw [checkBan_of_lookup ht, if_neg hge], rfl⟩

theorem globalSyn_lookupCounter (m : DdosMaps) (now : UInt64) (srcIp : BitVec 32) :
    (m.lookupCounter now srcIp).2.globalSyn = m.globalSyn := by
  rw [DdosMaps.lookupCounter]
  cases m.synTracker.lookup srcIp <;> rfl

/-- A call for a source that is not banned counts its drop. -/
theorem droppedTotal_ddosCheckV4 {v : Verdict}
    (hfree : ¬∃ t ∈ m.blacklist.lookup srcIp, now - t < m.banDuration)
    (h : ddosCheckV4 m now srcIp tcp = (v, m')) :
    m'.droppedTotal = m.droppedTotal + .ofNat v.drops := by
  obtain ⟨m₁, hban, hglobal⟩ := checkBan_of_not_banned hfree
  have hcounter := globalSyn_lookupCounter m₁ now srcIp
  generalize hr : m₁.lookupCounter now srcIp = r at hcounter
  obtain ⟨cnt, m₂⟩ := r
  have hsame : m₂.droppedTotal = m.droppedTotal := by
    rw [DdosMaps.droppedTotal, hcounter, hglobal, DdosMaps.droppedTotal]
  rw [ddosCheckV4, hban] at h
  dsimp only at h
  rw [hr] at h
  cases cnt with
  | none =>
    obtain ⟨rfl, rfl⟩ := Prod.mk.inj h
    exact hsame.trans (add_zero _).symm
  | some cnt =>
    dsimp only at h
    generalize hg : DdosMaps.countGlobal _ now (m.ddosCfg.lookup 0) tcp = r at h
    obtain ⟨tooMany, m₃⟩ := r
    have hcount := (droppedTotal_countGlobal hg).trans (congrArg (· + _) hsame)
    cases tooMany with
    | true =>
      obtain ⟨rfl, rfl⟩ := Prod.mk.inj h
      exact hcount
    | false =>
      -- within the global limit: only a ban counts
      dsimp only at h
      split_ifs at h <;> obtain ⟨rfl, rfl⟩ := Prod.mk.inj h
      · rw [droppedTotal_ban, hcount]
        simp [Verdict.drops]
      · exact hcount

/-- What a call adds to the counter, and what it should add. -/
theorem droppedTotal_next (m : DdosMaps) (c : FilterCall) :
    c.Banned m ∧ ((ddosFilter.next c m).droppedTotal - m.droppedTotal).toNat = 0 ∧
        (ddosFilter.out c m).drops = 1 ∨
    ¬c.Banned m ∧ ((ddosFilter.next c m).droppedTotal - m.droppedTotal).toNat =
      (ddosFilter.out c m).drops := by
  by_cases hban : c.Banned m
  · obtain ⟨t, ht, hlt⟩ := hban
    have hstep : ddosFilter.step c m = (.drop, m.evict c.evicted) :=
      ddosCheckV4_banned (m := m.evict c.evicted) ht hlt c.tcp
    refine .inl ⟨⟨t, ht, hlt⟩, ?_, ?_⟩
    · rw [Machine.next, hstep]
      change (m.droppedTotal - m.droppedTotal).toNat = 0
      rw [sub_self, UInt64.toNat_zero]
    · rw [Machine.out, hstep]
      rfl
  · refine .inr ⟨hban, ?_⟩
    have hnext : (ddosFilter.next c m).droppedTotal =
        m.droppedTotal + .ofNat (ddosFilter.out c m).drops :=
      droppedTotal_ddosCheckV4 (m := m.evict c.evicted) hban rfl
    rw [hnext, add_sub_cancel_left]
    cases ddosFilter.out c m <;> rfl

/-! ## Runs -/

/-- The counter grows by no more than the drops, and by all of them if no source is banned. -/
theorem growth_le_drops (m : DdosMaps) (cs : List FilterCall) :
    growth m cs ≤ drops m cs ∧
      (growth m cs = drops m cs ↔ ddosFilter.Each (fun m c => ¬c.Banned m) m cs) := by
  induction cs generalizing m with
  | nil => exact ⟨le_rfl, iff_of_true rfl trivial⟩
  | cons c cs ih =>
    obtain ⟨hle, hiff⟩ := ih (ddosFilter.next c m)
    have hgrowth : growth m (c :: cs) =
        ((ddosFilter.next c m).droppedTotal - m.droppedTotal).toNat +
          growth (ddosFilter.next c m) cs := List.sum_cons
    have hdrops : drops m (c :: cs) = (ddosFilter.out c m).drops + drops (ddosFilter.next c m) cs :=
      List.sum_cons
    rw [hgrowth, hdrops, Machine.Each, ← hiff]
    rcases droppedTotal_next m c with ⟨hban, hzero, hone⟩ | ⟨hban, heq⟩
    · rw [hzero, hone]
      exact ⟨by omega, iff_of_false (by omega) fun h => h.1 hban⟩
    · rw [heq]
      exact ⟨by omega, ⟨fun h => ⟨hban, by omega⟩, fun h => by omega⟩⟩

/-- The growth is that of the counter, as far as it goes. -/
theorem droppedTotal_exec (m : DdosMaps) (cs : List FilterCall) :
    (ddosFilter.exec m cs).droppedTotal = m.droppedTotal + .ofNat (growth m cs) := by
  induction cs generalizing m with
  | nil => exact (add_zero _).symm
  | cons c cs ih =>
    have hgrowth : growth m (c :: cs) =
        ((ddosFilter.next c m).droppedTotal - m.droppedTotal).toNat +
          growth (ddosFilter.next c m) cs := List.sum_cons
    rw [Machine.exec, ih, hgrowth, UInt64.ofNat_add, UInt64.ofNat_toNat, ← add_assoc,
      add_sub_cancel]

/-- Counting drops. From any state of the maps, in any run, `dropped_total` grows by the number of
    calls that drop their packet exactly if no call finds its source banned. -/
theorem drops_counted_iff (m : DdosMaps) (cs : List FilterCall) :
    ((ddosFilter.exec m cs).droppedTotal = m.droppedTotal + .ofNat (growth m cs)) ∧
    (growth m cs = drops m cs ↔ ddosFilter.Each (fun m c => ¬c.Banned m) m cs) :=
  ⟨droppedTotal_exec m cs, (growth_le_drops m cs).2⟩

/-- One SYN is the limit, and a ban lasts a second. -/
def demoBanning : DdosMaps := { DdosMaps.fresh with ddosCfg := .const ⟨1, 0, 0, 1000000000⟩ }

/-- Three SYNs of one source: the second one is over the limit, the third one comes during the ban.
    One of the two drops is counted. -/
theorem ban_drop_not_counted :
    drops demoBanning (.replicate 3 ⟨0, 1, ⟨1, 80, false, true, false, false⟩, []⟩) = 2 ∧
      (ddosFilter.exec demoBanning
        (.replicate 3 ⟨0, 1, ⟨1, 80, false, true, false, false⟩, []⟩)).droppedTotal =
          demoBanning.droppedTotal + 1 := by
  decide +kernel

end L4Balancer
