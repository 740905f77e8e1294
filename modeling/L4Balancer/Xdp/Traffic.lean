import L4Balancer.Xdp.Cursors
import L4Balancer.Xdp.Dsr

/-!
# Traffic accounting

The counters of packets and bytes are meant to count every frame that goes out once, for
its backend and for its service (`Arrival.Accounted`). For UDP they do, as long as the
service has a counter. For TCP they do not: the bytes are never added to the service,
and consistent hash counts a packet that it chooses a backend for twice, once in
`chBalancerHandle` and once in `finishTcp`.

`traffic_accounting_iff` says that along a run every frame is accounted for exactly if
no TCP packet goes out and every datagram that goes out is of a service with a counter.
-/

namespace L4Balancer

open Bpf

variable {cpus : ℕ} {m m' : Maps cpus}

/-- The packets and the bytes of a counter. -/
def PacketsData.volume (d : PacketsData) : UInt64 × UInt64 := (d.totalPackets, d.totalBytes)

/-- The packets and bytes of a backend, as the counters of all CPUs together have them. -/
def Maps.backendTraffic (m : Maps cpus) (b : Fin 1024) : UInt64 × UInt64 :=
  m.backendsPacketsStats.total PacketsData.volume b

/-- The packets and bytes of a service. -/
def Maps.serviceTraffic (m : Maps cpus) (s : Fin 256) : UInt64 × UInt64 :=
  m.servicesPacketsStats.total PacketsData.volume s

/-- The counters of traffic are the same. -/
structure SameTraffic (m m' : Maps cpus) : Prop where
  backend : ∀ b, m'.backendTraffic b = m.backendTraffic b
  service : ∀ s, m'.serviceTraffic s = m.serviceTraffic s

namespace SameTraffic

theorem refl (m : Maps cpus) : SameTraffic m m := ⟨fun _ => rfl, fun _ => rfl⟩

theorem trans {m₁ : Maps cpus} (h : SameTraffic m m₁) (h' : SameTraffic m₁ m') :
    SameTraffic m m' :=
  ⟨fun b => (h'.backend b).trans (h.backend b), fun s => (h'.service s).trans (h.service s)⟩

theorem of_eq (hb : m'.backendsPacketsStats = m.backendsPacketsStats)
    (hs : m'.servicesPacketsStats = m.servicesPacketsStats) : SameTraffic m m' :=
  ⟨fun _ => by rw [Maps.backendTraffic, hb, Maps.backendTraffic],
    fun _ => by rw [Maps.serviceTraffic, hs, Maps.serviceTraffic]⟩

end SameTraffic

/-! ## Parts of the program -/

/-- A change of one counter that adds `d` to its packets and bytes. -/
theorem total_volume {n : ℕ} (a : PerCpuArray PacketsData cpus n) (cpu : Fin cpus) (i : ℕ)
    {f : PacketsData → PacketsData} (d : UInt64 × UInt64)
    (hf : ∀ v, (f v).volume = v.volume + d) (j : Fin n) :
    (a.modify cpu i f).total PacketsData.volume j =
      a.total PacketsData.volume j + if i = j then d else 0 :=
  a.total_modify cpu i f PacketsData.volume hf j

theorem volume_prepared (len : UInt32) (d : PacketsData) :
    (d.prepared len).volume = d.volume + (1, len.toUInt64) := rfl

theorem volume_forwardTcp (tcp : TcpHdr) (delta : BitVec 32) (d : PacketsData) :
    (d.forwardTcp tcp delta).volume = d.volume + (1, 0) :=
  Prod.ext rfl (add_zero d.totalBytes).symm

theorem volume_connect (delta : BitVec 32) (d : PacketsData) :
    (d.connect delta).volume = d.volume + 0 := (add_zero d.volume).symm

theorem Lookup.sameTraffic {c : TcpCall cpus} {state : Option SessionStateVal}
    (h : Lookup c m state m') : SameTraffic m m' := by
  cases h with
  | absent => exact .refl m
  | live => exact .of_eq rfl rfl
  | @expired state =>
    refine ⟨fun b => ?_, fun s => ?_⟩
    · rw [Maps.backendTraffic, Maps.expireSession, total_volume _ _ _ 0 (volume_connect _), ite_self,
        add_zero, Maps.backendTraffic]
    · rw [Maps.serviceTraffic, Maps.expireSession, total_volume _ _ _ 0 (volume_connect _), ite_self,
        add_zero, Maps.serviceTraffic]

section Finish

variable (ctx : Ctx cpus) (k : SessionStateKey) (tcp : TcpHdr) (len : UInt32)
  (state : Option SessionStateVal) (last serviceIdx : UInt32) (delta : BitVec 32) (m : Maps cpus)

theorem backendTraffic_finishTcp (b : Fin 1024) :
    (finishTcp ctx k tcp len state last serviceIdx delta m).backendTraffic b =
      m.backendTraffic b + if last.toNat = b then (1, len.toUInt64) else 0 :=
  total_volume _ _ _ (1, len.toUInt64) (fun _ => rfl) b

/-- The bytes of a TCP packet are not added to its service. -/
theorem serviceTraffic_finishTcp (s : Fin 256) :
    (finishTcp ctx k tcp len state last serviceIdx delta m).serviceTraffic s =
      m.serviceTraffic s + if serviceIdx.toNat = s then (1, 0) else 0 :=
  total_volume _ _ _ (1, 0) (volume_forwardTcp _ _) s

end Finish

section Select

variable {backends : ArrayMap Backend 1024} {info : ServiceInfo} {key : ServiceKey}

theorem rrBalancerHandle_sameTraffic (last : UInt32) (m : Maps cpus) :
    SameTraffic m (rrBalancerHandle backends info key last m).2.2 := by
  rw [rrBalancerHandle]
  split <;> exact .of_eq rfl rfl

theorem wrrBalancerHandle_sameTraffic (last : UInt32) (m : Maps cpus) :
    SameTraffic m (wrrBalancerHandle backends info key last m).2.2 := by
  have hinit : SameTraffic m (m.initWrrState key) := by
    rw [Maps.initWrrState]
    split <;> exact .of_eq rfl rfl
  refine hinit.trans ?_
  rw [wrrBalancerHandle]
  generalize m.initWrrState key = m₁
  split
  · exact .refl m₁
  · split <;> exact .of_eq rfl rfl

theorem selectLoop_sameTraffic {handle : UInt32 → Maps cpus → Option Backend × UInt32 × Maps cpus}
    (h : ∀ last m, SameTraffic m (handle last m).2.2) (left : ℕ) (last : UInt32) (m : Maps cpus) :
    SameTraffic m (selectLoop handle left last m).2.2 :=
  selectLoop_keeps (fun last m₁ hm => hm.trans (h last m₁)) left last m (.refl m)

theorem selectUdp_sameTraffic {idx : UInt32} {b : Option Backend}
    (h : selectUdp backends info key m = (b, idx, m')) : SameTraffic m m' := by
  have hm' : m' = (selectUdp backends info key m).2.2 := by rw [h]
  rw [hm', selectUdp]
  split_ifs
  · exact selectLoop_sameTraffic rrBalancerHandle_sameTraffic 5 0 m
  · exact selectLoop_sameTraffic wrrBalancerHandle_sameTraffic 5 0 m
  · exact .refl m

theorem consistentHashLookup_sameTraffic (keyHash : UInt32) (usePrev : Bool) (m : Maps cpus) :
    SameTraffic m (consistentHashLookup keyHash usePrev m).2 := by
  have hcount : ∀ i v p, SameTraffic m (m.countLookup i v p) := fun i v p => by
    rw [Maps.countLookup]
    split <;> exact .of_eq rfl rfl
  rw [consistentHashLookup]
  split
  · exact .refl m
  · split_ifs
    · exact .refl m
    · dsimp only
      split
      · exact .refl m
      · split_ifs
        · exact .refl m
        · exact hcount _ _ _

/-- Consistent hash adds the packet to the counter of the backend that it chooses. -/
theorem chBalancerHandle_traffic {ctx : Ctx cpus} {keyHash len last idx : UInt32}
    {b : Option Backend} (h : chBalancerHandle ctx key keyHash len last m = (b, idx, m')) :
    (b = none → SameTraffic m m') ∧ ∀ b', b = some b' → ∀ i : Fin 1024,
      m'.backendTraffic i = m.backendTraffic i + if idx.toNat = i then (1, len.toUInt64) else 0 := by
  have hl := consistentHashLookup_sameTraffic keyHash false m
  rw [chBalancerHandle] at h
  generalize consistentHashLookup keyHash false m = r at hl h
  obtain ⟨backendIdx, m₁⟩ := r
  dsimp only at hl h
  split_ifs at h
  · obtain ⟨rfl, -, rfl⟩ := by simpa only [Prod.mk.injEq] using h
    exact ⟨fun _ => hl, by simp⟩
  · split at h
    · obtain ⟨rfl, -, rfl⟩ := by simpa only [Prod.mk.injEq] using h
      exact ⟨fun _ => hl, by simp⟩
    · split_ifs at h
      · obtain ⟨rfl, -, rfl⟩ := by simpa only [Prod.mk.injEq] using h
        exact ⟨fun _ => hl, by simp⟩
      · obtain ⟨rfl, rfl, rfl⟩ := by simpa only [Prod.mk.injEq] using h
        refine ⟨by simp, fun b' _ i => ?_⟩
        rw [← hl.backend i]
        exact total_volume _ _ _ _ (volume_prepared len) i

theorem selectTcp_sameTraffic {ctx : Ctx cpus} {k : SessionStateKey} {len last idx : UInt32}
    {b : Option Backend} (h : selectTcp ctx backends info k key len last m = (b, idx, m'))
    (hb : info.algorithm = BALANCER_CH → b = none) : SameTraffic m m' := by
  have hm' : m' = (selectTcp ctx backends info k key len last m).2.2 := by rw [h]
  by_cases hch : info.algorithm = BALANCER_CH
  · rw [selectTcp, if_neg (by rw [hch]; decide), if_neg (by rw [hch]; decide), if_pos hch] at h
    exact (chBalancerHandle_traffic h).1 (hb hch)
  · rw [hm', selectTcp]
    split_ifs
    · exact selectLoop_sameTraffic rrBalancerHandle_sameTraffic 5 last m
    · exact selectLoop_sameTraffic wrrBalancerHandle_sameTraffic 5 last m
    · exact .refl m

end Select

/-! ## Calls -/

theorem UdpStep.sameTraffic {c : UdpCall cpus} (h : UdpStep c m none m') : SameTraffic m m' := by
  cases h with
  | unmatched => exact .refl m
  | drop _ hsel => exact selectUdp_sameTraffic hsel

theorem TcpStep.sameTraffic {c : TcpCall cpus} (h : TcpStep c m none m') : SameTraffic m m' := by
  cases h with
  | drop hl _ hsel =>
    rcases hsel with ⟨-, rfl⟩ | ⟨info, idx, -, hsel⟩
    · exact hl.sameTraffic
    · exact hl.sameTraffic.trans (selectTcp_sameTraffic hsel fun _ => rfl)

/-- A datagram that is forwarded is counted for its backend and its service. -/
theorem UdpStep.traffic {c : UdpCall cpus} {b : Backend} (h : UdpStep c m (some b) m') :
    ∃ info idx, m.activeServices.lookup c.key = some info ∧
      m.activeBackends.lookup idx = some b ∧
      (∀ i, m'.backendTraffic i =
        m.backendTraffic i + if idx = i then (1, c.packetLen.toUInt64) else 0) ∧
      ∀ s, m'.serviceTraffic s =
        m.serviceTraffic s + if info.serviceIdx.toNat = s then (1, c.packetLen.toUInt64) else 0 := by
  cases h with
  | @forward info b idx m₁ hinfo hsel =>
    have hsame := selectUdp_sameTraffic hsel
    refine ⟨info, idx.toNat, hinfo, (selectUdp_spec hsel).1, fun i => ?_, fun s => ?_⟩
    · rw [← hsame.backend]
      exact total_volume _ _ _ _ (volume_prepared _) i
    · rw [← hsame.service]
      exact total_volume _ _ _ _ (volume_prepared _) s

/-- A TCP packet that is forwarded is counted without its bytes for its service, or twice for its
    backend. -/
theorem TcpStep.traffic {c : TcpCall cpus} {b : Backend} (h : TcpStep c m (some b) m') :
    (∃ idx : ℕ, ∀ s, m'.serviceTraffic s = m.serviceTraffic s + if idx = s then (1, 0) else 0) ∨
      ∃ idx : ℕ, ∀ i, m'.backendTraffic i = m.backendTraffic i +
        if idx = i then (1, c.packetLen.toUInt64) + (1, c.packetLen.toUInt64) else 0 := by
  cases h with
  | @hit state _ _ _ _ hb =>
    exact .inl ⟨state.serviceIdx.toNat, fun s => serviceTraffic_finishTcp ..⟩
  | @create state m₁ m₂ info b idx hl _ _ hsel =>
    by_cases hch : info.algorithm = BALANCER_CH
    · refine .inr ⟨idx.toNat, fun i => ?_⟩
      rw [selectTcp, if_neg (by rw [hch]; decide), if_neg (by rw [hch]; decide), if_pos hch] at hsel
      have htraffic := (chBalancerHandle_traffic hsel).2 b rfl i
      have hstore : (m₂.storeSession c.stateKey ⟨idx, info.serviceIdx, c.ctx.now,
        TCP_STATE_TIMEOUT⟩).backendTraffic i = m₂.backendTraffic i := rfl
      rw [backendTraffic_finishTcp, hstore, htraffic, hl.sameTraffic.backend]
      split_ifs
      · rw [add_assoc]
      · rw [add_zero, add_zero]
    · refine .inl ⟨info.serviceIdx.toNat, fun s => ?_⟩
      have htraffic := (hl.sameTraffic.trans
        (selectTcp_sameTraffic hsel fun h => absurd h hch)).service s
      rw [← htraffic]
      exact serviceTraffic_finishTcp ..

/-! ## Frames -/

variable {s : XdpState cpus} {a : Arrival cpus}

/-- A frame that goes out adds one packet and its bytes to the counters of its backend and of its
    service; any other frame adds nothing to any counter. -/
def Arrival.Accounted (s : XdpState cpus) (a : Arrival cpus) : Prop :=
  let m := s.maps
  let m' := ((xdp cpus).next a s).maps
  let volume : UInt64 × UInt64 := (1, .ofNat a.bytes.length)
  if ((xdp cpus).out a s).1 = .tx then
    ∃ (h : Headers) (b : Backend) (i : Fin 1024) (j : Fin 256), a.bytes.headers = some h ∧
      a.selected m = some b ∧ m.activeBackends.lookup i = some b ∧
      (∀ info, m.activeServices.lookup (h.call a.ctx a.bytes).key = some info →
        info.serviceIdx.toNat = j) ∧
      (∀ i', m'.backendTraffic i' = m.backendTraffic i' + if i = i' then volume else 0) ∧
      ∀ j', m'.serviceTraffic j' = m.serviceTraffic j' + if j = j' then volume else 0
  else SameTraffic m m'

/-- If there is a backend for a frame that passes the filter, then it is a datagram, and its service
    has a counter. -/
def Arrival.Metered (s : XdpState cpus) (a : Arrival cpus) : Prop :=
  a.filterVerdict s ≠ .drop → ∀ h b, a.bytes.headers = some h → a.selected s.maps = some b →
    (h.call a.ctx a.bytes).isTcp = false ∧
      ∀ info, s.maps.activeServices.lookup (h.call a.ctx a.bytes).key = some info →
        info.serviceIdx.toNat < 256

theorem toUInt64_packetLen {p : Packet} (h : p.length < 2 ^ 32) :
    p.packetLen.toUInt64 = .ofNat p.length := by
  refine UInt64.toNat_inj.1 ?_
  rw [UInt32.toNat_toUInt64, Packet.packetLen, UInt32.toNat_ofNat_of_lt' h,
    UInt64.toNat_ofNat_of_lt' (h.trans (by norm_num))]

theorem Headers.packetLen_udp {h : Headers} {ctx : Ctx cpus} {p : Packet} {c : UdpCall cpus}
    (hc : h.call ctx p = .udp c) : c.packetLen = p.packetLen := by
  cases h <;> cases hc <;> rfl

/-- No TCP packet that is forwarded adds the packet and its bytes to one backend and one service. -/
theorem TcpStep.not_accounted {c : TcpCall cpus} {b : Backend} (hs : TcpStep c m (some b) m')
    {len : UInt64} (hlen : len ≠ 0) {i : Fin 1024} {j : Fin 256}
    (hi : ∀ i', m'.backendTraffic i' = m.backendTraffic i' + if i = i' then (1, len) else 0)
    (hj : ∀ j', m'.serviceTraffic j' = m.serviceTraffic j' + if j = j' then (1, len) else 0) :
    False := by
  have h₀ : (0 : UInt64) ≠ 1 := by decide
  have h₂ : (1 + 1 : UInt64) ≠ 1 := by decide
  rcases hs.traffic with ⟨idx, htraffic⟩ | ⟨idx, htraffic⟩
  · have he := add_left_cancel ((htraffic j).symm.trans (hj j))
    rw [if_pos rfl] at he
    split_ifs at he
    · exact hlen (congrArg Prod.snd he).symm
    · exact h₀ (congrArg Prod.fst he)
  · have he := add_left_cancel ((htraffic i).symm.trans (hi i))
    rw [if_pos rfl] at he
    split_ifs at he
    · exact h₂ (congrArg Prod.fst he)
    · exact h₀ (congrArg Prod.fst he)

/-- A datagram that is forwarded adds itself to the counters of its backend and, if this has a
    counter, of its service. -/
theorem UdpStep.accounted_iff {c : UdpCall cpus} {b : Backend} (hs : UdpStep c m (some b) m') :
    (∃ (i : Fin 1024) (j : Fin 256), m.activeBackends.lookup i = some b ∧
      (∀ info, m.activeServices.lookup c.key = some info → info.serviceIdx.toNat = j) ∧
      (∀ i', m'.backendTraffic i' =
        m.backendTraffic i' + if i = i' then (1, c.packetLen.toUInt64) else 0) ∧
      ∀ j', m'.serviceTraffic j' =
        m.serviceTraffic j' + if j = j' then (1, c.packetLen.toUInt64) else 0) ↔
      ∀ info, m.activeServices.lookup c.key = some info → info.serviceIdx.toNat < 256 := by
  constructor
  · rintro ⟨i, j, -, hj, -, -⟩ info hinfo
    exact hj info hinfo ▸ j.isLt
  · intro hm
    obtain ⟨info, idx, hinfo, hlookup, hi, hj⟩ := hs.traffic
    refine ⟨⟨idx, ArrayMap.lt_of_lookup hlookup⟩, ⟨_, hm info hinfo⟩, hlookup,
      fun info' hinfo' => ?_, fun i' => ?_, fun j' => ?_⟩
    · obtain rfl := Option.some.inj (hinfo.symm.trans hinfo')
      rfl
    · simp only [Fin.ext_iff]
      exact hi i'
    · simp only [Fin.ext_iff]
      exact hj j'

/-- A call that finds no backend counts no packet. -/
theorem sameTraffic_of_out {c : Call cpus} (hout : (finder cpus).out c m = none) :
    SameTraffic m ((finder cpus).next c m) := by
  cases c with
  | tcp c =>
    have hs := TcpStep.of_next c m
    have hnone : (tcpFinder cpus).out c m = none := hout
    rw [hnone] at hs
    exact hs.sameTraffic
  | udp c =>
    have hs := UdpStep.of_next c m
    have hnone : (udpFinder cpus).out c m = none := hout
    rw [hnone] at hs
    exact hs.sameTraffic

theorem accounted_iff (hlen : a.bytes.length < 2 ^ 32) : a.Accounted s ↔ a.Metered s := by
  have hs := XdpStep.of_next a s
  rw [Arrival.Accounted, Arrival.Metered, Arrival.selected]
  generalize (xdp cpus).out a s = r at hs ⊢
  obtain ⟨verdict, q⟩ := r
  generalize ((xdp cpus).next a s).maps = m' at hs
  dsimp only at hs ⊢
  cases hs with
  | ignored hh =>
    rw [if_neg (by decide), hh]
    exact iff_of_true (.refl _) (by simp)
  | filtered hh _ hf =>
    rw [if_neg (by decide)]
    exact iff_of_true (.refl _) fun hf' => absurd hf hf'
  | unmatched hh hf hout =>
    rw [if_neg (by decide), hh, Option.bind_some, hout]
    exact iff_of_true (sameTraffic_of_out hout) (by simp)
  | @forwarded h b hh hf hout =>
    rw [if_pos rfl, hh, Option.bind_some, hout]
    cases hc : h.call a.ctx a.bytes with
    | tcp c =>
      have hstep := TcpStep.of_next c s.maps
      rw [hc] at hout
      have hout : (tcpFinder cpus).out c s.maps = some b := hout
      rw [hout] at hstep
      -- the bytes of TCP are not counted for the service
      refine iff_of_false ?_ fun hm => ?_
      · rintro ⟨h', b', i, j, -, -, -, -, hi, hj⟩
        refine hstep.not_accounted ?_ hi hj
        have hpos := (Packet.length_of_headers hh).1
        rw [Ne, ← UInt64.toNat_inj, UInt64.toNat_ofNat_of_lt' (hlen.trans (by norm_num))]
        exact (lt_of_lt_of_le (by norm_num) hpos).ne'
      · have htcp := (hm hf h b rfl rfl).1
        rw [hc] at htcp
        cases htcp
    | udp c =>
      have hstep := UdpStep.of_next c s.maps
      rw [hc] at hout
      have hout : (udpFinder cpus).out c s.maps = some b := hout
      rw [hout] at hstep
      have hiff := hstep.accounted_iff
      rw [Headers.packetLen_udp hc, toUInt64_packetLen hlen] at hiff
      constructor
      · rintro ⟨h', b', i, j, he, hb, hcounted⟩ - h'' b'' he' -
        obtain rfl := Option.some.inj he
        obtain rfl := Option.some.inj he'
        obtain rfl := Option.some.inj hb
        rw [hc] at hcounted ⊢
        exact ⟨rfl, hiff.1 ⟨i, j, hcounted⟩⟩
      · intro hm
        have hmetered := (hm hf h b rfl rfl).2
        rw [hc] at hmetered
        obtain ⟨i, j, hcounted⟩ := hiff.2 hmetered
        refine ⟨h, b, i, j, rfl, rfl, ?_⟩
        rw [hc]
        exact hcounted

/-- Traffic accounting. Along a run of frames, every frame that goes out adds one packet and its
    bytes to the counters of its backend and of its service, and any other frame nothing, exactly if
    every frame that goes out is a datagram of a service with a counter. -/
theorem traffic_accounting_iff {as : List (Arrival cpus)}
    (hlen : ∀ a ∈ as, a.bytes.length < 2 ^ 32) :
    (xdp cpus).Each (fun s a => a.Accounted s) s as ↔
      (xdp cpus).Each (fun s a => a.Metered s) s as := by
  rw [Machine.each_iff, Machine.each_iff]
  refine forall₂_congr fun x hx => ?_
  obtain ⟨pre, post, he, -⟩ := Machine.mem_trace.1 hx
  exact accounted_iff (hlen x.2 (he ▸ List.mem_append_right _ List.mem_cons_self))

/-- A datagram over IPv6 is accounted for. -/
theorem traffic_accounting_demo :
    (xdp 1).Each (fun s a => a.Accounted s) demoStateV6 [⟨⟨0, 0⟩, demoFrameV6, []⟩] := by
  refine (traffic_accounting_iff (by simp [demoFrameV6])).2 ⟨fun _ h b hh _ => ?_, trivial⟩
  obtain rfl : Headers.udpV6 = h := Option.some.inj hh
  refine ⟨rfl, fun info hinfo => ?_⟩
  have hentry : demoStateV6.maps.activeServices.lookup
    (Headers.udpV6.call (⟨0, 0⟩ : Ctx 1) demoFrameV6).key = some ⟨1, 0, BALANCER_RR, 0⟩ := by
    decide +kernel
  obtain rfl := Option.some.inj (hentry.symm.trans hinfo)
  decide

/-- A SYN is not: its bytes are not added to its service. -/
theorem traffic_not_accounted :
    ¬Arrival.Accounted ⟨demoMaps BALANCER_RR, .fresh⟩ ⟨⟨0, 0⟩, demoSyn, []⟩ := by
  rw [accounted_iff (by simp [demoSyn])]
  intro hm
  cases (hm (by decide +kernel) (.tcpV4 34) (demoBackend 1) (by decide +kernel)
    (by decide +kernel)).1

end L4Balancer
