import L4Balancer.Control.Distinct
import L4Balancer.Control.Positions
import L4Balancer.Xdp.Calls
import L4Balancer.Xdp.Isolation
import L4Balancer.Xdp.Scans

/-!
# Keys that are always served

A key is always served (`AlwaysServed`) if every packet with it that opens a flow gets a
backend, whatever packets came before. For a round robin this is a matter of the windows
that it scans: as its cursor can be brought behind each hit by further packets, it gets to
every window that has no hit (`alwaysServed_iff_first`).

* round robin (`Positioned.alwaysServed_rr_iff`): windows of four positions;
* weighted round robin (`Positioned.alwaysServed_wrr_iff`): windows of 32 positions, or two
  rounds. To get on, the packets use up the weight of the last choice (`wrr_turn`);
* consistent hash (`alwaysServed_ch_iff`): what the maps have for the hashes, but
  only for TCP.
-/

namespace L4Balancer

open Bpf Scan

variable {cpus : ℕ} {env : Env} {config config' : BaseConfig} {m : Maps cpus} {info : ServiceInfo}
  {key : ServiceKey} {service : BalancerService} {c₀ : Call cpus}

/-- Whatever packets came before, a packet with the key that opens a flow gets a backend. -/
def AlwaysServed (key : ServiceKey) (m : Maps cpus) : Prop :=
  ∀ cs : List (Call cpus), (∀ c ∈ cs, c.OfFrame) →
    ∀ c : Call cpus, c.OfFrame → c.Opens → c.key = key →
      ((finder cpus).out c ((finder cpus).exec m cs)).isSome

/-! ## Packets that reach a loop -/

/-- A packet that opens a flow reaches the `switch`, with nothing changed before. -/
theorem Call.Opens.reaches_eq {c : Call cpus} (hc : c.Opens)
    (hinfo : m.activeServices.lookup c.key = some info) : c.reaches m = some (info, 0, m) := by
  cases c with
  | tcp c =>
    have hinfo : m.activeServices.lookup c.key = some info := hinfo
    rw [reaches_tcp (.absent (.inl hc)) (by simp), hinfo]
    rfl
  | udp c =>
    have hinfo : m.activeServices.lookup c.key = some info := hinfo
    rw [reaches, hinfo]
    rfl

/-- A packet that opens a flow gets what the loop of its service returns, and leaves its cursors. -/
theorem Call.Opens.loop {c : Call cpus} (hc : c.Opens)
    (hinfo : m.activeServices.lookup c.key = some info)
    (handle : UInt32 → Maps cpus → Option Backend × UInt32 × Maps cpus)
    (htcp : ∀ tc, c = .tcp tc → selectTcp tc.ctx m.activeBackends info tc.stateKey tc.key
      tc.packetLen 0 m = selectLoop handle 5 0 m)
    (hudp : ∀ uc, c = .udp uc → selectUdp m.activeBackends info uc.key m = selectLoop handle 5 0 m) :
    (finder cpus).out c m = (selectLoop handle 5 0 m).1 ∧
      ((finder cpus).next c m).rrIndex = (selectLoop handle 5 0 m).2.2.rrIndex ∧
      ((finder cpus).next c m).wrrStateMap = (selectLoop handle 5 0 m).2.2.wrrStateMap := by
  obtain ⟨hselect, hout, hcursors⟩ := next_of_reaches (hc.reaches_eq hinfo) handle htcp hudp
  rw [hselect, map_fst_chosen] at hout
  exact ⟨hout, hcursors⟩

theorem Call.Opens.loop_rr {c : Call cpus} (hc : c.Opens)
    (hinfo : m.activeServices.lookup c.key = some info) (hrr : info.algorithm = BALANCER_RR) :
    (finder cpus).out c m =
        (selectLoop (rrBalancerHandle m.activeBackends info c.key) 5 0 m).1 ∧
      ((finder cpus).next c m).rrIndex =
        (selectLoop (rrBalancerHandle m.activeBackends info c.key) 5 0 m).2.2.rrIndex := by
  obtain ⟨hout, hcursor, -⟩ := hc.loop hinfo (rrBalancerHandle m.activeBackends info c.key)
    (fun tc he => by subst he; exact if_pos hrr) (fun uc he => by subst he; exact if_pos hrr)
  exact ⟨hout, hcursor⟩

theorem Call.Opens.loop_wrr {c : Call cpus} (hc : c.Opens)
    (hinfo : m.activeServices.lookup c.key = some info) (hwrr : info.algorithm = BALANCER_WRR) :
    (finder cpus).out c m =
        (selectLoop (wrrBalancerHandle m.activeBackends info c.key) 5 0 m).1 ∧
      ((finder cpus).next c m).wrrStateMap =
        (selectLoop (wrrBalancerHandle m.activeBackends info c.key) 5 0 m).2.2.wrrStateMap := by
  have hne : info.algorithm ≠ BALANCER_RR := by rw [hwrr]; decide
  obtain ⟨hout, -, hcursor⟩ := hc.loop hinfo (wrrBalancerHandle m.activeBackends info c.key)
    (fun tc he => by subst he; exact (if_neg hne).trans (if_pos hwrr))
    (fun uc he => by subst he; exact (if_neg hne).trans (if_pos hwrr))
  exact ⟨hout, hcursor⟩

theorem activeServices_exec (cs : List (Call cpus)) (m : Maps cpus) :
    ((finder cpus).exec m cs).activeServices = m.activeServices :=
  Maps.activeServices_congr (tables_exec cs m)

/-- A key has packets that open flows. -/
theorem exists_opens [NeZero cpus] (hprep : service.prepareKey env = .ok key) :
    ∃ c : Call cpus, c.OfFrame ∧ c.Opens ∧ c.key = key := by
  let ctx : Ctx cpus := ⟨0, ⟨0, NeZero.pos cpus⟩⟩
  by_cases htcp : key.protocol = IPPROTO_TCP
  · refine ⟨.tcp (.syn ctx key 0), ?_, rfl, rfl⟩
    exact TcpCall.syn_ofFrame (BalancerService.prepareKey_ofTcp hprep htcp) ctx 0
  · refine ⟨.udp ⟨ctx, key, 0⟩, ?_, trivial, rfl⟩
    obtain ⟨vip, -, rfl⟩ := BalancerService.prepareKey_eq_ok.1 hprep
    exact if_neg fun htcp' => htcp (if_pos htcp')

/-- If the packets with a key get what a scan from some position finds, and one can have them go on
    behind what it has found, the key is always served exactly if every window has a hit. -/
theorem alwaysServed_iff_first {P : ℕ → Bool} {n w : ℕ} (At : Maps cpus → ℕ → Prop)
    (hP : P.Periodic n) (hn : 0 < n) (hat : ∀ cs, ∃ k, At ((finder cpus).exec m cs) k)
    (hout : ∀ cs k, At ((finder cpus).exec m cs) k → ∀ c : Call cpus, c.Opens → c.key = key →
      ((finder cpus).out c ((finder cpus).exec m cs)).isSome = (first P w k).isSome)
    (hnext : ∀ cs k q, At ((finder cpus).exec m cs) k → first P w k = some q →
      ∃ n, At ((finder cpus).exec m (cs ++ List.replicate n c₀)) (q + 1))
    (hc₀ : c₀.OfFrame) (hopens : c₀.Opens) (hkey : c₀.key = key) :
    AlwaysServed key m ↔ ∀ p, (first P w p).isSome := by
  constructor
  · intro hserved
    -- the scanner is where the runs of frames lead it
    obtain ⟨k₀, hk₀⟩ := hat []
    refine forall_of_le hP hn fun p hp => isSome_of_reached
      (fun k => ∃ cs : List (Call cpus), (∀ c ∈ cs, c.OfFrame) ∧
        At ((finder cpus).exec m cs) k) ⟨[], by simp, hk₀⟩ ?_ hp
    rintro k ⟨cs, hcs, hk⟩
    have hsome := hserved cs hcs c₀ hc₀ hopens hkey
    rw [hout cs k hk c₀ hopens hkey] at hsome
    obtain ⟨q, hq⟩ := Option.isSome_iff_exists.1 hsome
    obtain ⟨n, hn⟩ := hnext cs k q hk hq
    refine ⟨q, hq, cs ++ List.replicate n c₀, fun c hc => ?_, hn⟩
    rcases List.mem_append.1 hc with hc | hc
    · exact hcs c hc
    · exact List.eq_of_mem_replicate hc ▸ hc₀
  · intro hfirst cs _ c _ hc hck
    obtain ⟨k, hk⟩ := hat cs
    rw [hout cs k hk c hc hck]
    exact hfirst k

/-! ## Round robin -/

/-- Round robin always serves a key exactly if every window of four positions has an active
    backend. -/
theorem Positioned.alwaysServed_rr_iff (h : Positioned env config m) (hk : key ∈ config.keys env)
    (hinfo : m.activeServices.lookup key = some info) (hfits : info.Fits)
    (hrr : info.algorithm = BALANCER_RR) (hc₀ : c₀.OfFrame) (hopens : c₀.Opens)
    (hkey : c₀.key = key) : AlwaysServed key m ↔
      ∀ p, (first (info.hits m.activeBackends (·.active ≠ 0) info.span) 4 p).isSome := by
  -- what a packet gets after a run, and the cursor that it leaves
  have hloop : ∀ (cs : List (Call cpus)) (c : Call cpus), c.Opens → c.key = key →
      (finder cpus).out c ((finder cpus).exec m cs) = (selectLoop
        (rrBalancerHandle m.activeBackends info key) 5 0 ((finder cpus).exec m cs)).1 ∧
      ((finder cpus).exec m (cs ++ [c])).rrIndex = (selectLoop
        (rrBalancerHandle m.activeBackends info key) 5 0 ((finder cpus).exec m cs)).2.2.rrIndex := by
    intro cs c hc hck
    have hinfo' : ((finder cpus).exec m cs).activeServices.lookup c.key = some info := by
      rw [activeServices_exec, hck, hinfo]
    have hl := hc.loop_rr hinfo' hrr
    rw [hck, activeBackends_exec] at hl
    rwa [Machine.exec_append]
  refine alwaysServed_iff_first (fun m' k => ∃ cur, m'.rrIndex.lookup key = some cur ∧
      (info.rrNext cur).toNat = k % info.span) (ServiceInfo.hits_periodic _) info.span_pos
    (fun cs => ?_) ?_ ?_ hc₀ hopens hkey
  · obtain ⟨cur, hcur⟩ := Option.isSome_iff_exists.1 ((h.exec cs).cursors.rr key hk)
    exact ⟨_, cur, hcur, (Nat.mod_eq_of_lt (info.rrNext_lt cur)).symm⟩
  · rintro cs k ⟨cur, hcur, hnext⟩ c hc hck
    rw [(hloop cs c hc hck).1]
    exact (rr_selectLoop hfits hcur hnext 4).1
  · rintro cs k q ⟨cur, hcur, hnext⟩ hq
    obtain ⟨b, idx, m', hsel, -, -, cur', hcur', hnext'⟩ :=
      (@rr_selectLoop cpus m.activeBackends info key 0 _ hfits cur hcur k hnext 4).2 q hq
    refine ⟨1, cur', ?_, hnext'⟩
    rw [List.replicate_one, (hloop cs c₀ hopens hkey).2, hsel]
    exact hcur'

/-! ## Weighted round robin -/

/-- Weighted round robin has states of services only. -/
def Maps.KnownStates (m : Maps cpus) : Prop :=
  ∀ k, (m.wrrStateMap.lookup k).isSome → (m.activeServices.lookup k).isSome

theorem Maps.KnownStates.next (h : m.KnownStates) (c : Call cpus) :
    ((finder cpus).next c m).KnownStates := by
  intro k hk
  rw [Maps.activeServices_congr (tables_finder c m)]
  cases hinfo : m.activeServices.lookup k with
  | some info => rfl
  | none =>
    -- the packet has not given it a state
    rw [(cursors_next c fun _ => hinfo).2] at hk
    exact (hinfo ▸ h k hk :)

/-- So there is room for every service. -/
theorem Maps.KnownStates.hasRoom (h : m.KnownStates)
    (hinfo : m.activeServices.lookup key = some info) : m.wrrStateMap.HasRoom key :=
  HashMap.hasRoom_of_lookup h le_rfl (Option.isSome_of_eq_some hinfo)

theorem Maps.knownStates_empty (h : m.wrrStateMap = .empty) : m.KnownStates := by
  intro k hk
  rw [h] at hk
  cases hk

theorem hasRoom_exec (hwrr : m.wrrStateMap = .empty) (cs : List (Call cpus))
    (hinfo : m.activeServices.lookup key = some info) :
    ((finder cpus).exec m cs).wrrStateMap.HasRoom key := by
  have hknown : ((finder cpus).exec m cs).KnownStates :=
    Machine.exec_of_step (fun _ c h => h.next c) cs (Maps.knownStates_empty hwrr)
  refine hknown.hasRoom (?_ : _ = some info)
  rw [activeServices_exec, hinfo]

/-- The position of weighted round robin is one of the block. -/
theorem Cursors.wrrAt_within {keys : List ServiceKey} (h : Cursors keys m.activeServices m)
    (hinfo : m.activeServices.lookup key = some info) : (m.wrrAt key).Within info := by
  rw [Maps.wrrAt]
  cases hst : m.wrrStateMap.lookup key with
  | none => exact WrrState.zero_within info
  | some st => exact h.wrr key info st hinfo hst

section Wrr

variable (hempty : m.wrrStateMap = .empty) (hinfo : m.activeServices.lookup key = some info)
  (hfits : info.Fits) (hwrr : info.algorithm = BALANCER_WRR)

include hempty hinfo hwrr in
/-- What a packet gets after a run, and the state that it leaves. -/
theorem wrr_step (cs : List (Call cpus)) {c : Call cpus} (hc : c.Opens) (hck : c.key = key) :
    ((finder cpus).out c ((finder cpus).exec m cs)).isSome =
        (wrrSearch m.activeBackends info 32 (((finder cpus).exec m cs).wrrAt key)).1.isSome ∧
      ((finder cpus).exec m (cs ++ [c])).wrrAt key =
        (wrrSearch m.activeBackends info 32 (((finder cpus).exec m cs).wrrAt key)).2 := by
  have hroom := hasRoom_exec hempty cs hinfo
  have hinfo' : ((finder cpus).exec m cs).activeServices.lookup c.key = some info := by
    rw [activeServices_exec, hck, hinfo]
  obtain ⟨hout, hleft⟩ := hc.loop_wrr hinfo' hwrr
  rw [hck, activeBackends_exec] at hout hleft
  obtain ⟨hloop, hstate⟩ :=
    @wrr_selectLoop_eq cpus m.activeBackends info key 0 ((finder cpus).exec m cs) hroom
  rw [← hleft] at hstate
  refine ⟨by rw [hout, ← hloop, Option.isSome_map], ?_⟩
  rw [Machine.exec_append, Maps.wrrAt]
  exact (congrArg (Option.getD · ⟨0, 0⟩) hstate).trans (Option.getD_some ..)

/-- The block has a position, and the state is there. -/
def WrrState.AtPosition (st : WrrState) (info : ServiceInfo) (k : ℕ) : Prop :=
  st.currentIndex.toNat = k % info.backendCount.toNat

include hempty hinfo hfits hwrr in
/-- The same as a scan, where the state is at a position. -/
theorem wrr_step_scan (hc : info.backendCount ≠ 0) (cs : List (Call cpus)) {k : ℕ}
    (hk : (((finder cpus).exec m cs).wrrAt key).AtPosition info k) {c : Call cpus} (hopens : c.Opens)
    (hck : c.key = key) :
    let scan := first (info.hits m.activeBackends Backend.eligible info.backendCount.toNat)
      info.wrrWindow k
    ((finder cpus).out c ((finder cpus).exec m cs)).isSome = scan.isSome ∧
      ∀ q, scan = some q → ∃ b x,
        m.activeBackends.lookup (info.backendStartIdx.toNat + q % info.backendCount.toNat) =
          some b ∧
        (k = q → x = (((finder cpus).exec m cs).wrrAt key).currentWeightCounter) ∧
        ((finder cpus).exec m (cs ++ [c])).wrrAt key =
          WrrState.take ⟨.ofNat (q % info.backendCount.toNat), x⟩ info b := by
  obtain ⟨hout, hleft⟩ := wrr_step hempty hinfo hwrr cs hopens hck
  have hscan := @wrrSearch_scan m.activeBackends info hfits hc 32 le_rfl _ k hk
  rw [Nat.sub_self, Nat.sub_zero, ← hout] at hscan
  refine ⟨hscan.1, fun q hq => ?_⟩
  obtain ⟨b, hb, hsearch⟩ := hscan.2 q hq
  exact ⟨b, _, hb, fun he => if_pos he.symm, hleft.trans (congrArg Prod.snd hsearch)⟩

include hempty hinfo hfits hwrr in
/-- Packets use up the weight of the backend that was chosen last. -/
theorem wrr_turn (hc : info.backendCount ≠ 0) (hopens : c₀.Opens) (hkey : c₀.key = key) {q : ℕ}
    {b : Backend}
    (hb : m.activeBackends.lookup (info.backendStartIdx.toNat + q % info.backendCount.toNat) =
      some b) (hhit : b.eligible) (d : ℕ) (cs : List (Call cpus)) (x : UInt32)
    (hd : b.weight.toNat ≤ (x + 1).toNat + d)
    (hst : ((finder cpus).exec m cs).wrrAt key =
      WrrState.take ⟨.ofNat (q % info.backendCount.toNat), x⟩ info b) :
    ∃ n, (((finder cpus).exec m (cs ++ List.replicate n c₀)).wrrAt key).AtPosition info (q + 1) := by
  have hpos : 0 < info.backendCount.toNat := UInt32.pos_iff_ne_zero.2 hc
  have hmod := Nat.mod_lt q hpos
  have hindex : (UInt32.ofNat (q % info.backendCount.toNat)).toNat =
      q % info.backendCount.toNat := by
    refine UInt32.toNat_ofNat_of_lt' (hmod.trans_le (hfits.count_le.trans (by decide)))
  have hweight : b.weight.toUInt32.toNat = b.weight.toNat := UInt8.toNat_toUInt32 _
  -- the last packet of the turn leaves the next position
  have hlast : ∀ (cs : List (Call cpus)) (x : UInt32), ¬x + 1 < b.weight.toUInt32 →
      ((finder cpus).exec m cs).wrrAt key =
        WrrState.take ⟨.ofNat (q % info.backendCount.toNat), x⟩ info b →
      (((finder cpus).exec m (cs ++ List.replicate 0 c₀)).wrrAt key).AtPosition info (q + 1) := by
    intro cs x hge hst
    rw [List.replicate_zero, List.append_nil, hst, WrrState.take, if_neg hge]
    exact WrrState.toNat_advance hfits hc hindex
  induction d generalizing cs x with
  | zero =>
    refine ⟨0, hlast cs x ?_ hst⟩
    rw [UInt32.lt_iff_toNat_lt, hweight]
    omega
  | succ d ih =>
    by_cases hlt : x + 1 < b.weight.toUInt32
    · -- it is chosen once more
      have hstay : ((finder cpus).exec m cs).wrrAt key =
          ⟨.ofNat (q % info.backendCount.toNat), x + 1⟩ := by
        rw [hst, WrrState.take, if_pos hlt]
      have hat : (((finder cpus).exec m cs).wrrAt key).AtPosition info q := by
        rw [hstay]
        exact hindex
      obtain ⟨-, hnext⟩ := wrr_step_scan hempty hinfo hfits hwrr hc cs hat hopens hkey
      have hself : first (info.hits m.activeBackends Backend.eligible info.backendCount.toNat)
          info.wrrWindow q = some q := by
        obtain ⟨window, hwindow⟩ := Nat.exists_eq_succ_of_ne_zero
          (by rw [ServiceInfo.wrrWindow]; omega : info.wrrWindow ≠ 0)
        rw [hwindow]
        refine first_of_hit ?_ window
        rw [ServiceInfo.hits, hb, Option.any_some]
        exact hhit
      obtain ⟨b', x', hb', hx', hst'⟩ := hnext q hself
      obtain rfl := Option.some.inj (hb.symm.trans hb')
      rw [hx' rfl, hstay] at hst'
      have hsucc : (x + 1 + 1).toNat = (x + 1).toNat + 1 := by
        rw [UInt32.lt_iff_toNat_lt, hweight] at hlt
        have hbyte := b.weight.toNat_lt
        rw [UInt32.toNat_add, UInt32.toNat_one]
        exact Nat.mod_eq_of_lt (by omega)
      obtain ⟨n, hn⟩ := ih (cs ++ [c₀]) (x + 1) (by omega) hst'
      exact ⟨n + 1, by rwa [List.append_assoc, List.singleton_append, ← List.replicate_succ] at hn⟩
    · exact ⟨0, hlast cs x hlt hst⟩

include hempty hinfo hfits hwrr in
/-- Weighted round robin always serves a key exactly if every window of its positions has an active
    backend with a weight. -/
theorem Positioned.alwaysServed_wrr_iff (h : Positioned env config m) (hc : info.backendCount ≠ 0)
    (hc₀ : c₀.OfFrame) (hopens : c₀.Opens) (hkey : c₀.key = key) : AlwaysServed key m ↔
      ∀ p, (first (info.hits m.activeBackends Backend.eligible info.backendCount.toNat)
        info.wrrWindow p).isSome := by
  have hpos : 0 < info.backendCount.toNat := UInt32.pos_iff_ne_zero.2 hc
  refine alwaysServed_iff_first (fun m' k => (m'.wrrAt key).AtPosition info k)
    (ServiceInfo.hits_periodic _) hpos (fun cs => ?_) ?_ ?_ hc₀ hopens hkey
  · have hinfo' : ((finder cpus).exec m cs).activeServices.lookup key = some info := by
      rw [activeServices_exec, hinfo]
    exact ⟨_, (Nat.mod_eq_of_lt (((h.exec cs).cursors.wrrAt_within hinfo').lt hc)).symm⟩
  · intro cs k hk c hopens' hck
    exact (wrr_step_scan hempty hinfo hfits hwrr hc cs hk hopens' hck).1
  · intro cs k q hk hq
    obtain ⟨b, x, hb, -, hst⟩ :=
      (wrr_step_scan hempty hinfo hfits hwrr hc cs hk hopens hkey).2 q hq
    have hhit : b.eligible := by
      have hq := (first_spec hq).2.2.1
      rwa [ServiceInfo.hits, hb, Option.any_some] at hq
    obtain ⟨n, hn⟩ := wrr_turn hempty hinfo hfits hwrr hc hopens hkey hb hhit b.weight.toNat
      (cs ++ [c₀]) x (Nat.le_add_left _ _) hst
    exact ⟨n + 1, by rwa [List.append_assoc, List.singleton_append, ← List.replicate_succ] at hn⟩

include hempty hinfo hwrr in
/-- It serves no key of an empty block. -/
theorem not_alwaysServed_wrr (hc : info.backendCount = 0) (hc₀ : c₀.OfFrame) (hopens : c₀.Opens)
    (hkey : c₀.key = key) : ¬AlwaysServed key m := by
  intro hserved
  have hsome := hserved [] (by simp) c₀ hc₀ hopens hkey
  rw [(wrr_step hempty hinfo hwrr [] hopens hkey).1, wrrSearch_empty hc] at hsome
  cases hsome

end Wrr

/-! ## Consistent hash -/

/-- `find_udp_backend` does not know consistent hash. -/
theorem out_udp_ch {c : UdpCall cpus} (hinfo : m.activeServices.lookup c.key = some info)
    (hch : info.algorithm = BALANCER_CH) : (finder cpus).out (.udp c) m = none := by
  have hs := UdpStep.of_next c m
  change (udpFinder cpus).out c m = none
  generalize (udpFinder cpus).next c m = m' at hs
  generalize (udpFinder cpus).out c m = out at hs ⊢
  cases hs with
  | unmatched | drop => rfl
  | forward hinfo' hsel =>
    obtain rfl := Option.some.inj (hinfo.symm.trans hinfo')
    rw [selectUdp, hch, if_neg (by decide), if_neg (by decide)] at hsel
    cases hsel

/-- Consistent hash always serves a key exactly if it is one of TCP and the maps have a backend for
    every hash. -/
theorem alwaysServed_ch_iff [NeZero cpus] (hprep : service.prepareKey env = .ok key)
    (hinfo : m.activeServices.lookup key = some info) (hch : info.algorithm = BALANCER_CH) :
    AlwaysServed key m ↔
      key.protocol = IPPROTO_TCP ∧ ∀ keyHash, (m.chPick keyHash).isSome := by
  let ctx : Ctx cpus := ⟨0, ⟨0, NeZero.pos cpus⟩⟩
  constructor
  · intro hserved
    -- the keys of UDP have packets too, and these get nothing
    have htcp : key.protocol = IPPROTO_TCP := by
      by_contra hne
      have hudp : key.protocol = IPPROTO_UDP := by
        obtain ⟨vip, -, rfl⟩ := BalancerService.prepareKey_eq_ok.1 hprep
        exact if_neg fun htcp => hne (if_pos htcp)
      have hsome := hserved [] (by simp) (.udp ⟨ctx, key, 0⟩) hudp trivial rfl
      rw [Machine.exec, out_udp_ch hinfo hch] at hsome
      cases hsome
    refine ⟨htcp, fun keyHash => ?_⟩
    -- some flow to the service has the hash
    obtain ⟨src, rfl⟩ := exists_syn key keyHash ctx
    have hframe := TcpCall.syn_ofFrame (BalancerService.prepareKey_ofTcp hprep htcp) ctx src
    have hsome := hserved [] (by simp) (.tcp (.syn ctx key src)) hframe rfl rfl
    rwa [Machine.exec, out_syn_ch rfl hinfo hch, Option.isSome_map] at hsome
  · rintro ⟨htcp, hpicks⟩ cs _ c hframe hopens rfl
    cases c with
    | tcp c =>
      have hinfo' : ((finder cpus).exec m cs).activeServices.lookup c.key = some info := by
        rw [activeServices_exec]
        exact hinfo
      rw [out_syn_ch hopens hinfo' hch, Option.isSome_map, chPick_exec]
      exact hpicks _
    | udp c =>
      have hudp : c.key.protocol = IPPROTO_UDP := hframe
      exact absurd (hudp.symm.trans htcp) (by decide)

end L4Balancer
