import L4Balancer.Purge
import L4Balancer.Xdp.DropCount
import L4Balancer.Xdp.SynWindow

/-!
# Floods

A flood on one VIP is not meant to drop the clients of another one. The filter has a ban and
a counter for each source (`SourceState`). What a call does to those of its source, and its
verdict, depend on them and on three bits of the rest (`Rest`): whether the maps have room
for a counter and for a ban, and whether the SYNs of all sources, to all VIPs, are too many
(`SourceState.check`, `check_source`).

So the packets to other VIPs of sources that never address a VIP leave the verdicts of that VIP
alone as long as these bits are the same with and without them (`floods_apart`).
-/

namespace L4Balancer

open Bpf

variable {m m' : DdosMaps} {now : UInt64} {srcIp src vip : BitVec 32} {tcp : TcpHdr} {v : Verdict}

/-- A call of `ddos_check_v4` for a packet to the address `vip`, which it does not look at. -/
structure VipCall extends FilterCall where
  vip : BitVec 32

/-- The machine of `ddos_check_v4`, for packets to any addresses. -/
def vipFilter : Machine DdosMaps VipCall Verdict where
  step c := ddosFilter.step c.toFilterCall

/-! ## A source and the rest -/

/-- What the filter keeps for a source. -/
@[ext] structure SourceState where
  ban : Option UInt64
  counter : Option SynCounter

/-- What the maps have for a source. -/
def DdosMaps.source (m : DdosMaps) (src : BitVec 32) : SourceState :=
  ⟨m.blacklist.lookup src, m.synTracker.lookup src⟩

/-- What a call may read besides the state of its source: whether the counter of the source
    fits into `syn_tracker`, whether its ban fits into `blacklist`, and whether there are too many
    SYNs of all sources. -/
structure Rest where
  tracked : Bool
  bannable : Bool
  tooMany : Bool

/-- With this packet, there are too many SYNs of all sources. -/
def DdosMaps.tooMany (m : DdosMaps) (now : UInt64) (tcp : TcpHdr) : Bool :=
  tcp.pureSyn ∧ (m.ddosCfg.get 0).globalSynThreshold > 0 ∧
    ((m.globalSyn.get 0).countSyn now).synCount > (m.ddosCfg.get 0).globalSynThreshold.toUInt64

/-- What a call finds besides the state of its source. -/
def DdosMaps.rest (m : DdosMaps) (now : UInt64) (srcIp : BitVec 32) (tcp : TcpHdr) : Rest :=
  ⟨m.synTracker.HasRoom srcIp, m.blacklist.HasRoom srcIp, m.tooMany now tcp⟩

namespace SourceState

/-- The counter after a packet. -/
def count (s : SourceState) (now : UInt64) (tcp : TcpHdr) : SynCounter :=
  (s.counter.getD ⟨0, 0, now, 0⟩).count now tcp

/-- The source is under a ban. -/
def Banned (s : SourceState) (duration now : UInt64) : Prop := ∃ t ∈ s.ban, now - t < duration

instance (s : SourceState) (duration now : UInt64) : Decidable (s.Banned duration now) :=
  inferInstanceAs (Decidable (∃ _, _ ∧ _))

/-- The call, as it is seen from its source. -/
def check (s : SourceState) (cfg : DdosConfig) (now : UInt64) (tcp : TcpHdr) (r : Rest) :
    Verdict × SourceState :=
  if s.Banned cfg.banDurationNs now then (.drop, s)
  else if r.tracked then
    if r.tooMany then (.drop, ⟨none, some (s.count now tcp)⟩)
    else if cfg.exceeded (s.count now tcp) then
      (.drop, ⟨if r.bannable then some now else none, some (s.count now tcp)⟩)
    else (.pass, ⟨none, some (s.count now tcp)⟩)
  else (.pass, ⟨none, s.counter⟩)

/-- A packet of the source reads the same in `r` and `r'`, as far as it reads them. -/
def ReadsAlike (s : SourceState) (cfg : DdosConfig) (now : UInt64) (tcp : TcpHdr) (r r' : Rest) :
    Prop :=
  s.Banned cfg.banDurationNs now ∨ r'.tracked = r.tracked ∧ (r.tracked → r'.tooMany = r.tooMany ∧
    (r.tooMany = false → cfg.exceeded (s.count now tcp) → r'.bannable = r.bannable))

instance (s : SourceState) (cfg : DdosConfig) (now : UInt64) (tcp : TcpHdr) (r r' : Rest) :
    Decidable (s.ReadsAlike cfg now tcp r r') :=
  inferInstanceAs (Decidable (_ ∨ _))

theorem ReadsAlike.check {s : SourceState} {cfg : DdosConfig} {r r' : Rest}
    (h : s.ReadsAlike cfg now tcp r r') : s.check cfg now tcp r' = s.check cfg now tcp r := by
  rw [SourceState.check, SourceState.check]
  rcases h with hban | ⟨htracked, h⟩
  · rw [if_pos hban, if_pos hban]
  · rw [htracked]
    cases ht : r.tracked with
    | false => rfl
    | true =>
      obtain ⟨htoo, hban⟩ := h ht
      rw [htoo]
      cases hm : r.tooMany with
      | true => rfl
      | false =>
        cases hx : cfg.exceeded (s.count now tcp) with
        | true => rw [hban hm hx]
        | false => rfl

end SourceState

/-! ## A call -/

/-- Looking for a ban: if it does not last, the entry is removed, which changes nothing else that
    the call reads. -/
theorem checkBan_source (m : DdosMaps) (now : UInt64) (srcIp : BitVec 32) (tcp : TcpHdr) :
    (m.source srcIp).Banned (m.ddosCfg.get 0).banDurationNs now ∧
        m.checkBan now srcIp (m.ddosCfg.lookup 0) = (true, m) ∨
      ¬(m.source srcIp).Banned (m.ddosCfg.get 0).banDurationNs now ∧
        ∃ m₁, m.checkBan now srcIp (m.ddosCfg.lookup 0) = (false, m₁) ∧
          m₁.source srcIp = ⟨none, m.synTracker.lookup srcIp⟩ ∧ m₁.ddosCfg = m.ddosCfg ∧
          m₁.rest now srcIp tcp = m.rest now srcIp tcp := by
  cases ht : m.blacklist.lookup srcIp with
  | none =>
    refine .inr ⟨?_, m, checkBan_of_absent ht _, by rw [DdosMaps.source, ht], rfl, rfl⟩
    rintro ⟨t, hmem, -⟩
    cases ht.symm.trans hmem
  | some t =>
    rw [checkBan_of_lookup ht]
    by_cases hlt : now - t < m.banDuration
    · exact .inl ⟨⟨t, ht, hlt⟩, if_pos hlt⟩
    · refine .inr ⟨?_, m.unban srcIp, if_neg hlt, ?_, rfl, ?_⟩
      · rintro ⟨t', hmem, hlt'⟩
        obtain rfl := Option.some.inj (ht.symm.trans hmem)
        exact hlt hlt'
      · exact SourceState.ext (lookup_unban m srcIp) rfl
      · have hroom : decide ((m.blacklist.delete srcIp).HasRoom srcIp) =
            decide (m.blacklist.HasRoom srcIp) :=
          decide_eq_decide.2 (m.blacklist.hasRoom_delete srcIp)
        exact congrArg (Rest.mk _ · _) hroom

/-- Looking for the counter of a source: it is there exactly if the map has room for it. -/
theorem lookupCounter_source (m : DdosMaps) (now : UInt64) (srcIp : BitVec 32) :
    (m.synTracker.HasRoom srcIp ∧
      ∃ m₁, m.lookupCounter now srcIp = (some (m.counter now srcIp), m₁) ∧
        m₁.blacklist = m.blacklist ∧ m₁.globalSyn = m.globalSyn ∧ m₁.ddosCfg = m.ddosCfg ∧
        ∀ cnt, (m₁.synTracker.put srcIp cnt).lookup srcIp = some cnt) ∨
      ¬m.synTracker.HasRoom srcIp ∧ m.lookupCounter now srcIp = (none, m) := by
  have hglobal := globalSyn_lookupCounter m now srcIp
  have hcfg := (Elsewhere.lookupCounter m now srcIp).ddosCfg
  rcases lookupCounter_cases m now srcIp with ⟨m₁, hcnt, hlist, hput⟩ | ⟨hcnt, hroom⟩
  · rw [hcnt] at hglobal hcfg
    refine .inl ⟨?_, m₁, hcnt, hlist, hglobal, hcfg, fun cnt => (hput cnt srcIp).trans (if_pos rfl)⟩
    -- without room the new counter would not be found
    by_contra hroom
    have hnone : m.synTracker.lookup srcIp = none := by
      cases hl : m.synTracker.lookup srcIp with
      | none => rfl
      | some cnt => exact absurd (.inl (by rw [hl]; rfl)) hroom
    rw [DdosMaps.lookupCounter, hnone] at hcnt
    dsimp only at hcnt
    rw [HashMap.put_of_not_hasRoom hroom, hnone] at hcnt
    cases hcnt
  · exact .inr ⟨hroom, hcnt⟩

/-- Counting a SYN of all sources. -/
theorem countGlobal_source (m : DdosMaps) (now : UInt64) (tcp : TcpHdr) :
    ∃ gs, m.countGlobal now (m.ddosCfg.lookup 0) tcp =
      (m.tooMany now tcp, { m with globalSyn := gs }) := by
  have hgs : m.globalSyn.lookup 0 = some (m.globalSyn.get 0) := rfl
  have hcfg : m.ddosCfg.lookup 0 = some (m.ddosCfg.get 0) := rfl
  rw [DdosMaps.countGlobal, hgs, hcfg, DdosMaps.tooMany]
  cases hsyn : tcp.pureSyn with
  | false => exact ⟨m.globalSyn, by simp⟩
  | true =>
    simp only [if_true, Option.any_some, true_and]
    split_ifs with hover
    · exact ⟨_, by rw [hover]⟩
    · exact ⟨_, by rw [Bool.eq_false_iff.2 hover]⟩

/-- Banning a source without an entry on the blacklist. -/
theorem source_ban (h : m.blacklist.lookup srcIp = none) (now : UInt64) :
    (m.ban now srcIp).source srcIp =
      ⟨if decide (m.blacklist.HasRoom srcIp) then some now else none,
        m.synTracker.lookup srcIp⟩ := by
  refine SourceState.ext ?_ rfl
  change (m.blacklist.put srcIp now).lookup srcIp = _
  by_cases hroom : m.blacklist.HasRoom srcIp
  · rw [if_pos (decide_eq_true hroom), HashMap.lookup_put hroom, if_pos rfl]
  · rw [HashMap.put_of_not_hasRoom hroom, h, decide_eq_false hroom]
    rfl

/-- The limits, once the packet is counted for its source. -/
theorem limits_source {cnt : SynCounter} (hban : m.blacklist.lookup srcIp = none)
    (hcnt : m.synTracker.lookup srcIp = some cnt)
    (h : (match m.countGlobal now (m.ddosCfg.lookup 0) tcp with
      | (true, m₁) => (Verdict.drop, m₁)
      | (false, m₁) =>
        if (m.ddosCfg.lookup 0).any (·.exceeded cnt) then (.drop, m₁.ban now srcIp)
        else (.pass, m₁)) = (v, m')) :
    (if m.tooMany now tcp then (Verdict.drop, ⟨none, some cnt⟩)
      else if (m.ddosCfg.get 0).exceeded cnt then
        (.drop, ⟨if decide (m.blacklist.HasRoom srcIp) then some now else none, some cnt⟩)
      else (.pass, ⟨none, some cnt⟩)) = (v, m'.source srcIp) := by
  obtain ⟨gs, hg⟩ := countGlobal_source m now tcp
  have hcfg : (m.ddosCfg.lookup 0).any (·.exceeded cnt) = (m.ddosCfg.get 0).exceeded cnt := rfl
  have hsource : DdosMaps.source { m with globalSyn := gs } srcIp = ⟨none, some cnt⟩ :=
    SourceState.ext hban hcnt
  rw [hg] at h
  cases htoo : m.tooMany now tcp with
  | true =>
    rw [htoo] at h
    obtain ⟨rfl, rfl⟩ := Prod.mk.inj h
    rw [if_pos rfl, hsource]
  | false =>
    rw [htoo] at h
    dsimp only at h
    rw [hcfg] at h
    rw [if_neg Bool.false_ne_true]
    cases hx : (m.ddosCfg.get 0).exceeded cnt with
    | true =>
      rw [hx, if_pos rfl] at h
      obtain ⟨rfl, rfl⟩ := Prod.mk.inj h
      rw [if_pos rfl, source_ban (m := { m with globalSyn := gs }) hban, hcnt]
    | false =>
      rw [hx, if_neg Bool.false_ne_true] at h
      obtain ⟨rfl, rfl⟩ := Prod.mk.inj h
      rw [if_neg Bool.false_ne_true, hsource]

/-- A call is what its source sees of it. -/
theorem check_source (h : ddosCheckV4 m now srcIp tcp = (v, m')) :
    (m.source srcIp).check (m.ddosCfg.get 0) now tcp (m.rest now srcIp tcp) =
      (v, m'.source srcIp) := by
  rw [SourceState.check]
  rcases checkBan_source m now srcIp tcp with
    ⟨hbanned, hban⟩ | ⟨hfree, m₁, hban, hsource, hcfg, hrest⟩
  · rw [ddosCheckV4, hban] at h
    obtain ⟨rfl, rfl⟩ := Prod.mk.inj h
    exact if_pos hbanned
  have hnone : m₁.blacklist.lookup srcIp = none := congrArg SourceState.ban hsource
  have hcount : (m₁.counter now srcIp).count now tcp = (m.source srcIp).count now tcp := by
    have hlookup : m₁.synTracker.lookup srcIp = m.synTracker.lookup srcIp :=
      congrArg SourceState.counter hsource
    rw [DdosMaps.counter, hlookup]
    rfl
  rw [if_neg hfree, ← hrest, ← hcfg]
  rw [ddosCheckV4, hban, ← hcfg] at h
  dsimp only at h
  rcases lookupCounter_source m₁ now srcIp with
    ⟨hroom, m₂, hcnt, hlist, hglobal, hcfg₂, hput⟩ | ⟨hroom, hcnt⟩
  · have htracked : (m₁.rest now srcIp tcp).tracked = true := decide_eq_true hroom
    rw [if_pos htracked, ← hcount]
    rw [hcnt, ← hcfg₂] at h
    -- the new counter is all that differs from the maps before it
    have hlimits := limits_source (m := { m₂ with synTracker := m₂.synTracker.put srcIp _ })
      (hlist ▸ hnone) (hput _) h
    rw [DdosMaps.tooMany, hglobal, hcfg₂, hlist] at hlimits
    exact hlimits
  · rw [hcnt] at h
    obtain ⟨rfl, rfl⟩ := Prod.mk.inj h
    have htracked : ¬(m₁.rest now srcIp tcp).tracked = true := fun ht =>
      hroom (of_decide_eq_true ht)
    rw [if_neg htracked, hsource]
    rfl

/-- A call leaves what the filter keeps for the other sources. -/
theorem source_ddosCheckV4_ne (h : src ≠ srcIp) (m : DdosMaps) (now : UInt64) (tcp : TcpHdr) :
    (ddosCheckV4 m now srcIp tcp).2.source src = m.source src := by
  refine SourceState.ext ((Elsewhere.ddosCheckV4 m now srcIp tcp).blacklist src h) ?_
  have hstep := FilterStep.of_ddosCheckV4 m now srcIp tcp
  change (ddosCheckV4 m now srcIp tcp).2.synTracker.lookup src = m.synTracker.lookup src
  generalize (ddosCheckV4 m now srcIp tcp).1 = v at hstep
  generalize (ddosCheckV4 m now srcIp tcp).2 = m' at hstep ⊢
  cases hstep with
  | banned => rfl
  | untracked _ _ _ htracker => rw [htracker]
  | counted _ _ htracker => rw [htracker, if_neg h]

theorem source_evict (m : DdosMaps) (srcs : List (BitVec 32)) (src : BitVec 32) :
    (m.evict srcs).source src =
      ⟨m.blacklist.lookup src, if src ∈ srcs then none else m.synTracker.lookup src⟩ :=
  SourceState.ext rfl (lookup_evict m srcs src)

/-! ## Runs -/

/-- Some packet of the run goes from the source to the VIP. -/
def addresses (cs : List VipCall) (vip src : BitVec 32) : Bool :=
  cs.any fun c => c.vip == vip && c.srcIp == src

/-- The packets that matter to a VIP: those to it, and those of the sources that address it. -/
def concerns (cs : List VipCall) (vip : BitVec 32) (c : VipCall) : Bool :=
  c.vip == vip || addresses cs vip c.srcIp

/-- The filter keeps the same for the sources that address the VIP. -/
structure AlikeFor (cs : List VipCall) (vip : BitVec 32) (m m' : DdosMaps) : Prop where
  ddosCfg : m'.ddosCfg = m.ddosCfg
  source : ∀ src, addresses cs vip src → m'.source src = m.source src

/-- The others do not disturb a call, where `m` is the state of the run of all packets and `m'` that
    of the run of those that matter to the VIP: a call that matters to it reads the same in both;
    another one does not go along with the eviction of the counter of a source that addresses it. -/
def Undisturbed (cs : List VipCall) (vip : BitVec 32) : DdosMaps × DdosMaps → VipCall → Prop
  | (m, m'), c =>
    if concerns cs vip c then
      ((m.evict c.evicted).source c.srcIp).ReadsAlike (m.ddosCfg.get 0) c.now c.tcp
        ((m.evict c.evicted).rest c.now c.srcIp c.tcp)
        ((m'.evict c.evicted).rest c.now c.srcIp c.tcp)
    else ∀ src ∈ c.evicted, addresses cs vip src → m.synTracker.lookup src = none

instance (cs : List VipCall) (vip : BitVec 32) :
    ∀ ms c, Decidable (Undisturbed cs vip ms c)
  | (m, _), c =>
    have := List.decidableBAll
      (fun src => addresses cs vip src → m.synTracker.lookup src = none) c.evicted
    inferInstanceAs (Decidable (ite _ _ _))

namespace AlikeFor

variable {cs : List VipCall} {c : VipCall}

/-- A call that matters to the VIP. -/
theorem keep (h : AlikeFor cs vip m m') (hc : addresses cs vip c.srcIp)
    (hread : ((m.evict c.evicted).source c.srcIp).ReadsAlike (m.ddosCfg.get 0) c.now c.tcp
      ((m.evict c.evicted).rest c.now c.srcIp c.tcp)
      ((m'.evict c.evicted).rest c.now c.srcIp c.tcp)) :
    vipFilter.out c m' = vipFilter.out c m ∧
      AlikeFor cs vip (vipFilter.next c m) (vipFilter.next c m') := by
  have hevict : ∀ src, addresses cs vip src →
      (m'.evict c.evicted).source src = (m.evict c.evicted).source src := fun src hsrc => by
    rw [source_evict, source_evict]
    have hs := h.source src hsrc
    rw [DdosMaps.source, DdosMaps.source, SourceState.mk.injEq] at hs
    rw [hs.1, hs.2]
  have hcheck := hread.check
  have hone : _ = (vipFilter.out c m, (vipFilter.next c m).source c.srcIp) :=
    check_source (m := m.evict c.evicted) rfl
  have hone' : _ = (vipFilter.out c m', (vipFilter.next c m').source c.srcIp) :=
    check_source (m := m'.evict c.evicted) rfl
  have hcfg : (m'.evict c.evicted).ddosCfg = m.ddosCfg := h.ddosCfg
  rw [hevict _ hc, hcfg, hcheck] at hone'
  obtain ⟨hout, hsource⟩ := Prod.mk.inj (hone'.symm.trans hone)
  refine ⟨hout, ?_, fun src hsrc => ?_⟩
  · exact (next_ddosFilter _ m').ddosCfg.trans
      (h.ddosCfg.trans (next_ddosFilter _ m).ddosCfg.symm)
  · by_cases hne : src = c.srcIp
    · rw [hne]
      exact hsource
    · exact (source_ddosCheckV4_ne hne _ c.now c.tcp).trans
        ((hevict src hsrc).trans (source_ddosCheckV4_ne hne _ c.now c.tcp).symm)

/-- Another call. -/
theorem skip (h : AlikeFor cs vip m m') (hc : ¬addresses cs vip c.srcIp)
    (hevicted : ∀ src ∈ c.evicted, addresses cs vip src → m.synTracker.lookup src = none) :
    AlikeFor cs vip (vipFilter.next c m) m' := by
  refine ⟨h.ddosCfg.trans (next_ddosFilter _ m).ddosCfg.symm, fun src hsrc => ?_⟩
  have hne : src ≠ c.srcIp := fun he => hc (he ▸ hsrc)
  have hnext : (vipFilter.next c m).source src = (m.evict c.evicted).source src :=
    source_ddosCheckV4_ne hne _ c.now c.tcp
  rw [hnext, source_evict, h.source src hsrc]
  refine SourceState.ext rfl ?_
  change m.synTracker.lookup src = ite _ _ _
  split_ifs with hmem
  · exact hevicted src hmem hsrc
  · rfl

end AlikeFor

/-- Floods. In a run in which the others disturb no call, the verdicts for the packets to a VIP are
    the same as in the run without the packets to other VIPs of sources that never address it. -/
theorem floods_apart (m : DdosMaps) (cs : List VipCall) (vip : BitVec 32)
    (h : (vipFilter.beside (concerns cs vip)).Each (Undisturbed cs vip) (m, m) cs) :
    vipFilter.outsTo (·.vip = vip) m cs =
      vipFilter.outsTo (·.vip = vip) m (cs.filter (concerns cs vip)) := by
  have haddr : ∀ c ∈ cs, concerns cs vip c → addresses cs vip c.srcIp := fun c hc hcon => by
    rcases Bool.or_eq_true_iff.1 hcon with hvip | haddr
    · exact List.any_eq_true.2 ⟨c, hc, by rw [hvip, beq_self_eq_true]; rfl⟩
    · exact haddr
  refine Machine.outsTo_filter (R := AlikeFor cs vip) (Q := Undisturbed cs vip) (fun c _ hvip => ?_)
    (fun c hc s s' hcon hs hu => ?_) (fun c hc s s' hcon hs hu => ?_) ⟨rfl, fun _ _ => rfl⟩ h
  · rw [concerns, beq_iff_eq.2 (of_decide_eq_true hvip)]
    rfl
  · rw [Undisturbed, if_pos hcon] at hu
    exact hs.keep (haddr c hc hcon) hu
  · rw [Undisturbed, if_neg hcon] at hu
    exact hs.skip (fun ha => hcon (by rw [concerns, ha, Bool.or_true])) hu

/-- So many SYNs of all sources are the limit. -/
def demoGlobalLimit (limit : UInt32) : DdosMaps :=
  { DdosMaps.fresh with ddosCfg := .const ⟨0, 0, limit, 0⟩ }

/-- A SYN of the source 2 to the VIP 20, then one of the source 1 to the VIP 10. -/
def demoFlood : List VipCall :=
  [⟨⟨0, 2, ⟨1, 80, false, true, false, false⟩, []⟩, 20⟩,
    ⟨⟨1, 1, ⟨1, 80, false, true, false, false⟩, []⟩, 10⟩]

theorem floods_apart_demo :
    vipFilter.outsTo (·.vip = 10) (demoGlobalLimit 2) demoFlood =
      vipFilter.outsTo (·.vip = 10) (demoGlobalLimit 2) (demoFlood.filter (concerns demoFlood 10)) :=
  floods_apart (demoGlobalLimit 2) demoFlood 10 (by decide +kernel)

/-- With a limit of one SYN, the SYN to the other VIP drops the client. -/
theorem flood_drops_client :
    vipFilter.outsTo (·.vip = 10) (demoGlobalLimit 1) demoFlood = [.drop] ∧
      vipFilter.outsTo (·.vip = 10) (demoGlobalLimit 1)
        (demoFlood.filter (concerns demoFlood 10)) = [.pass] := by
  decide +kernel

end L4Balancer
