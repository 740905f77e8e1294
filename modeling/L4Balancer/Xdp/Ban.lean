import L4Balancer.Xdp.Ddos

/-!
# Bans

What a call of `ddos_check_v4` does to the blacklist. While a ban lasts, the calls for its
source change nothing (`ddosCheckV4_banned`); the first one after it goes on as if the source
were not on the list (`ddosCheckV4_expired`); a call for another source leaves the entry
(`Elsewhere`).

The machine `ddosFilter` makes one call after the other; entries of `syn_tracker` may be
evicted before each.
-/

namespace L4Balancer

open Bpf

variable {m m' m₁ m₂ : DdosMaps} {now t : UInt64} {srcIp src : BitVec 32} {tcp : TcpHdr}

/-- A call of `ddos_check_v4`, and the sources that the kernel evicts before it. -/
structure FilterCall where
  now : UInt64
  srcIp : BitVec 32
  tcp : TcpHdr
  evicted : List (BitVec 32) := []

/-- The machine of `ddos_check_v4`. -/
def ddosFilter : Machine DdosMaps FilterCall Verdict where
  step c m := ddosCheckV4 (m.evict c.evicted) c.now c.srcIp c.tcp

/-- How long a ban lasts. -/
def DdosMaps.banDuration (m : DdosMaps) : UInt64 := (m.ddosCfg.get 0).banDurationNs

/-- The maps without the ban of a source. -/
def DdosMaps.unban (m : DdosMaps) (srcIp : BitVec 32) : DdosMaps :=
  { m with blacklist := m.blacklist.delete srcIp }

/-! ## The source -/

theorem checkBan_of_lookup (h : m.blacklist.lookup srcIp = some t) :
    m.checkBan now srcIp (m.ddosCfg.lookup 0) =
      if now - t < m.banDuration then (true, m) else (false, m.unban srcIp) := by
  have hcfg : m.ddosCfg.lookup 0 = some (m.ddosCfg.get 0) := rfl
  rw [DdosMaps.checkBan, h, hcfg]
  rfl

theorem checkBan_of_absent (h : m.blacklist.lookup srcIp = none) (cfg : Option DdosConfig) :
    m.checkBan now srcIp cfg = (false, m) := by
  rw [DdosMaps.checkBan, h]

theorem lookupCounter_of_lookup {cnt : SynCounter} (h : m.synTracker.lookup srcIp = some cnt) :
    m.lookupCounter now srcIp = (some cnt, m) := by
  rw [DdosMaps.lookupCounter, h]

/-- During a ban, packets are dropped and nothing changes. -/
theorem ddosCheckV4_banned (h : m.blacklist.lookup srcIp = some t) (hlt : now - t < m.banDuration)
    (tcp : TcpHdr) : ddosCheckV4 m now srcIp tcp = (.drop, m) := by
  rw [ddosCheckV4, checkBan_of_lookup h, if_pos hlt]

theorem lookup_unban (m : DdosMaps) (srcIp : BitVec 32) :
    (m.unban srcIp).blacklist.lookup srcIp = none := by
  rw [DdosMaps.unban, HashMap.lookup_delete, if_pos rfl]

/-- After a ban, the entry is removed first. -/
theorem ddosCheckV4_expired (h : m.blacklist.lookup srcIp = some t)
    (hge : ¬now - t < m.banDuration) (tcp : TcpHdr) :
    ddosCheckV4 m now srcIp tcp = ddosCheckV4 (m.unban srcIp) now srcIp tcp := by
  have hfree : (m.unban srcIp).checkBan now srcIp ((m.unban srcIp).ddosCfg.lookup 0) =
      (false, m.unban srcIp) := checkBan_of_absent (lookup_unban m srcIp) _
  rw [ddosCheckV4, ddosCheckV4, checkBan_of_lookup h, if_neg hge, hfree]
  rfl

/-- The first packet of a new window passes, unless it is a pure SYN or its source is banned. -/
theorem ddosCheckV4_new_window {cnt : SynCounter} (hfree : m.blacklist.lookup srcIp = none)
    (hcnt : m.synTracker.lookup srcIp = some cnt) (hwindow : now - cnt.windowStart > DDOS_WINDOW_NS)
    (hsyn : tcp.pureSyn = false) : (ddosCheckV4 m now srcIp tcp).1 = .pass := by
  -- the counter has restarted, without a SYN
  have hzero : (cnt.count now tcp).synCount = 0 := by
    rw [SynCounter.count, if_pos hwindow]
    simp [hsyn]
  have hexceeded : (m.ddosCfg.lookup 0).any (·.exceeded (cnt.count now tcp)) = false := by
    have hcfg : m.ddosCfg.lookup 0 = some (m.ddosCfg.get 0) := rfl
    rw [hcfg, Option.any_some, DdosConfig.exceeded, hzero]
    simp
  rw [ddosCheckV4, checkBan_of_absent hfree]
  dsimp only
  rw [lookupCounter_of_lookup hcnt]
  dsimp only
  rw [DdosMaps.countGlobal, hsyn, if_neg Bool.false_ne_true]
  dsimp only
  rw [hexceeded, if_neg Bool.false_ne_true]

/-- Without a limit on all SYNs, the global counter drops nothing. -/
theorem countGlobal_of_unlimited (h : (m.ddosCfg.get 0).globalSynThreshold = 0) (tcp : TcpHdr) :
    ∃ gs, m.countGlobal now (m.ddosCfg.lookup 0) tcp = (false, { m with globalSyn := gs }) := by
  have hcfg : m.ddosCfg.lookup 0 = some (m.ddosCfg.get 0) := rfl
  have hgs : m.globalSyn.lookup 0 = some (m.globalSyn.get 0) := rfl
  rw [DdosMaps.countGlobal, hcfg, hgs]
  split_ifs with hsyn
  · exact ⟨_, if_neg (by simp [h])⟩
  · exact ⟨m.globalSyn, rfl⟩

/-- A packet with which the counter of its source is over a limit bans the source. -/
theorem ddosCheckV4_over {cnt : SynCounter} (hfree : m.blacklist.lookup srcIp = none)
    (hroom : m.blacklist.HasRoom srcIp) (hcnt : m.synTracker.lookup srcIp = some cnt)
    (hglobal : (m.ddosCfg.get 0).globalSynThreshold = 0)
    (hover : (m.ddosCfg.get 0).exceeded (cnt.count now tcp)) :
    let m' := (ddosCheckV4 m now srcIp tcp).2
    m'.blacklist.lookup srcIp = some now ∧ m'.synTracker.lookup srcIp = some (cnt.count now tcp) := by
  obtain ⟨gs, hgs⟩ := @countGlobal_of_unlimited
    { m with synTracker := m.synTracker.put srcIp (cnt.count now tcp) } now hglobal tcp
  have hexceeded : (m.ddosCfg.lookup 0).any (·.exceeded (cnt.count now tcp)) = true := hover
  have hsome : m.synTracker.HasRoom srcIp := .inl (by rw [hcnt]; rfl)
  rw [ddosCheckV4, checkBan_of_absent hfree]
  dsimp only
  rw [lookupCounter_of_lookup hcnt]
  dsimp only
  rw [hgs]
  dsimp only
  rw [hexceeded, if_pos rfl]
  exact ⟨(HashMap.lookup_put hroom srcIp).trans (if_pos rfl),
    (HashMap.lookup_put hsome srcIp).trans (if_pos rfl)⟩

/-! ## Other sources -/

/-- The blacklist differs at most at the source `srcIp`. -/
structure Elsewhere (srcIp : BitVec 32) (m m' : DdosMaps) : Prop where
  ddosCfg : m'.ddosCfg = m.ddosCfg
  blacklist : ∀ src ≠ srcIp, m'.blacklist.lookup src = m.blacklist.lookup src

namespace Elsewhere

theorem of_eq (hcfg : m'.ddosCfg = m.ddosCfg) (hlist : m'.blacklist = m.blacklist) :
    Elsewhere srcIp m m' := ⟨hcfg, fun _ _ => by rw [hlist]⟩

theorem trans (h : Elsewhere srcIp m m₁) (h' : Elsewhere srcIp m₁ m₂) : Elsewhere srcIp m m₂ where
  ddosCfg := h'.ddosCfg.trans h.ddosCfg
  blacklist src hne := (h'.blacklist src hne).trans (h.blacklist src hne)

theorem checkBan (m : DdosMaps) (now : UInt64) (srcIp : BitVec 32) (cfg : Option DdosConfig) :
    Elsewhere srcIp m (m.checkBan now srcIp cfg).2 := by
  rw [DdosMaps.checkBan]
  cases m.blacklist.lookup srcIp with
  | none => exact of_eq rfl rfl
  | some t =>
    dsimp only
    split_ifs
    · exact of_eq rfl rfl
    · refine ⟨rfl, fun src hne => ?_⟩
      rw [HashMap.lookup_delete, if_neg hne]

theorem lookupCounter (m : DdosMaps) (now : UInt64) (srcIp : BitVec 32) :
    Elsewhere srcIp m (m.lookupCounter now srcIp).2 := by
  rw [DdosMaps.lookupCounter]
  cases m.synTracker.lookup srcIp <;> exact of_eq rfl rfl

theorem countGlobal (m : DdosMaps) (now : UInt64) (srcIp : BitVec 32) (cfg : Option DdosConfig)
    (tcp : TcpHdr) : Elsewhere srcIp m (m.countGlobal now cfg tcp).2 := by
  rw [DdosMaps.countGlobal]
  cases m.globalSyn.lookup 0 with
  | none => split_ifs <;> exact of_eq rfl rfl
  | some gs =>
    dsimp only
    split_ifs <;> exact of_eq rfl rfl

theorem ban (m : DdosMaps) (now : UInt64) (srcIp : BitVec 32) :
    Elsewhere srcIp m (m.ban now srcIp) :=
  ⟨rfl, fun _ hne => HashMap.lookup_put_ne now hne⟩

theorem ddosCheckV4 (m : DdosMaps) (now : UInt64) (srcIp : BitVec 32) (tcp : TcpHdr) :
    Elsewhere srcIp m (ddosCheckV4 m now srcIp tcp).2 := by
  rw [L4Balancer.ddosCheckV4]
  have hban := checkBan m now srcIp (m.ddosCfg.lookup 0)
  generalize m.checkBan now srcIp (m.ddosCfg.lookup 0) = r at hban ⊢
  obtain ⟨_ | _, m₁⟩ := r
  · have hcounter := lookupCounter m₁ now srcIp
    generalize hr : m₁.lookupCounter now srcIp = r at hcounter
    dsimp only
    rw [hr]
    obtain ⟨_ | cnt, m₂⟩ := r
    · exact hban.trans hcounter
    · have hwrite : Elsewhere srcIp m₂
        { m₂ with synTracker := m₂.synTracker.put srcIp (cnt.count now tcp) } := of_eq rfl rfl
      have hglobal := ((hban.trans hcounter).trans hwrite).trans
        (countGlobal _ now srcIp (m.ddosCfg.lookup 0) tcp)
      dsimp only
      generalize DdosMaps.countGlobal _ now (m.ddosCfg.lookup 0) tcp = r at hglobal ⊢
      obtain ⟨_ | _, m₃⟩ := r
      · dsimp only
        split_ifs
        · exact hglobal.trans (ban m₃ now srcIp)
        · exact hglobal
      · exact hglobal
  · exact hban

end Elsewhere

/-! ## Runs -/

theorem next_ddosFilter (c : FilterCall) (m : DdosMaps) :
    Elsewhere c.srcIp m (ddosFilter.next c m) :=
  have hevict : Elsewhere c.srcIp m (m.evict c.evicted) := .of_eq rfl rfl
  hevict.trans (.ddosCheckV4 _ c.now c.srcIp c.tcp)

theorem ddosCfg_exec (cs : List FilterCall) (m : DdosMaps) :
    (ddosFilter.exec m cs).ddosCfg = m.ddosCfg :=
  Machine.exec_of_step (P := fun m' => m'.ddosCfg = m.ddosCfg)
    (fun m' c h => (next_ddosFilter c m').ddosCfg.trans h) cs rfl

end L4Balancer
