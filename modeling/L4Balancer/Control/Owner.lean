import L4Balancer.Control.Delivery
import L4Balancer.Netutils.Exchange
import L4Balancer.Netutils.Ndp

/-!
# Who receives the frames

A reload asks the network for the MAC addresses of the reals: over IPv4 it exchanges frames with
the stations (`Arp.Sockets.lookup`), over IPv6 it has the kernel dump its neighbours
(`Ndp.lookup`). Where both are honest about the stations of a network (`Env.In`), the MAC
addresses in the maps are those of the stations that have the addresses of the reals
(`Env.In.owner`); and whatever frames come in after the reload, each one that goes out to a service
of one of the round robins is received by the station of an enabled real of it (`owner_receives`).
-/

namespace L4Balancer

open Bpf Bytes

variable {cpus : ℕ} {env : Env} {config : BaseConfig} {d d₁ d₂ : Dataplane cpus} {p : Packet}
  {service : SessionStateKey → ServiceKey}

/-! ## The stations -/

/-- The stations of a network, with their IPv4 addresses and the bytes of their IPv6 addresses. -/
structure Stations extends Arp.Network where
  station6 : List UInt8 → Option (List UInt8)

namespace Stations

variable (net : Stations)

/-- The MAC of the station that has the address. -/
def owner (ipVersion : UInt8) (addr : Addr) : Option (List UInt8) :=
  if ipVersion = 4 then net.station (.ofBitVec addr.ipv4) else net.station6 (leBytes 16 addr.toNat)

/-- What a dump says of the address on the interface is said of its station. -/
def HonestDump (addr6 : List UInt8) (ifIndex : UInt32) (dump : List (List (List UInt8))) : Prop :=
  ∀ r ∈ dump.flatten, ∀ mac ∈ Ndp.entryMac addr6 ifIndex r, net.station6 addr6 = some mac

end Stations

/-- The lookups of the environment are made in the network, with honest frames and dumps; `inet_addr`
    reads an address as `inet_aton` does. -/
structure Env.In (env : Env) (net : Stations) : Prop where
  arp : ∀ text, ∀ mac ∈ env.arpLookup text, ∃ (s : Arp.Sockets) (frames : List (List UInt8)),
    (s.lookup text frames).mac = some (leBytes 6 mac.toNat) ∧
      (∀ frame ∈ frames, net.Honest frame) ∧
      ∀ ip ∈ env.inetAton text, s.inetAddr text = .ofBitVec ip
  ndp : ∀ text, ∀ mac ∈ env.ndpLookup text, ∀ addr ∈ env.inetPton text,
    ∃ (sys : Ndp.System) (iface : String) (dump : List (List (List UInt8))),
      Ndp.lookup sys text iface = .returned (some (leBytes 6 mac.toNat)) ∧
        Ndp.Replies sys text iface (leBytes 16 addr.toNat) dump ∧
        net.HonestDump (leBytes 16 addr.toNat) (sys.ifNametoindex iface) dump

variable {net : Stations}

/-- A lookup among the neighbours returns the MAC of an entry of the dump. -/
theorem Ndp.exists_entry {sys : Ndp.System} {ipv6 iface : String} {addr6 mac : List UInt8}
    {dump : List (List (List UInt8))} (h : Ndp.Replies sys ipv6 iface addr6 dump)
    (hmac : Ndp.lookup sys ipv6 iface = .returned (some mac)) :
    ∃ r ∈ dump.flatten, Ndp.entryMac addr6 (sys.ifNametoindex iface) r = some mac := by
  rw [Ndp.lookup_eq h] at hmac
  cases hr : Ndp.decisive addr6 (sys.ifNametoindex iface) (dump.flatMap Ndp.beforeDone) with
  | none =>
    rw [hr] at hmac
    cases hmac
  | some r =>
    rw [hr] at hmac
    obtain ⟨ms, hms, hmem⟩ := List.mem_flatMap.1 (List.mem_of_find?_eq_some hr)
    exact ⟨r, List.mem_flatten.2 ⟨ms, hms, List.takeWhile_subset _ hmem⟩,
      Ndp.Outcome.returned.inj hmac⟩

/-- The MAC that is looked up for an address is that of its station. -/
theorem Env.In.owner (h : env.In net) {ipVersion : UInt8} {text : String} {addr : Addr} {mac : Mac}
    (haddr : env.address ipVersion text = some addr)
    (hmac : env.macLookup ipVersion text = some mac) :
    net.owner ipVersion addr = some (leBytes 6 mac.toNat) := by
  rw [Env.address] at haddr
  rw [Env.macLookup] at hmac
  rw [Stations.owner]
  -- over IPv4 an exchange of ARP, over IPv6 a dump of the neighbours
  split_ifs at haddr hmac ⊢ with hv4
  · obtain ⟨ip, hip, rfl⟩ := Option.map_eq_some_iff.1 haddr
    obtain ⟨s, frames, hlookup, hhonest, hread⟩ := h.arp text mac hmac
    rw [Addr.ipv4_ofIpv4, ← hread ip hip]
    exact Arp.station_of_lookup hhonest _ hlookup
  · obtain ⟨sys, iface, dump, hlookup, hreplies, hhonest⟩ := h.ndp text mac hmac addr haddr
    obtain ⟨r, hr, hentry⟩ := Ndp.exists_entry hreplies hlookup
    exact hhonest r hr _ hentry

/-! ## The frames -/

/-- A frame over IPv6 gets the address of the backend. -/
theorem slice_redirectV6 {update : UInt16 → Addr → Addr → UInt16 → UInt16 → UInt16}
    {checkOff : ℕ} (h : checkOff + 2 ≤ p.length) (hoff : 58 ≤ checkOff) (b : Backend) :
    slice (p.redirectV6 checkOff update b) 38 16 = leBytes 16 b.ip.toNat := by
  have hlen := length_redirect (p := p) (by omega) b
  rw [Packet.redirectV6]
  generalize update _ _ _ _ _ = check
  generalize p.redirect b = q at hlen
  have hA : (leBytes 16 b.ip.toNat).length = 16 := length_leBytes _ _
  have hD : (leBytes 2 (swap16 b.port).toNat).length = 2 := length_leBytes _ _
  have hC : (leBytes 2 check.toNat).length = 2 := length_leBytes _ _
  have h₁ : 38 + (leBytes 16 b.ip.toNat).length ≤ q.length := by omega
  have hlen₁ := length_overwrite h₁
  have h₂ : 56 + (leBytes 2 (swap16 b.port).toNat).length ≤
    (overwrite q 38 (leBytes 16 b.ip.toNat)).length := by omega
  have hlen₂ := length_overwrite h₂
  -- the port and the checksum are written behind the address
  rw [slice_overwrite_of_le (by omega) (by omega), slice_overwrite_of_le h₂ (by omega)]
  rw [← hA]
  exact slice_overwrite_self h₁

/-- What a frame that goes out has of its backend. -/
theorem rewrite_spec {h : Headers} (hh : p.headers = some h) (b : Backend) :
    slice (h.rewrite p b) 0 6 = leBytes 6 b.mac.toNat ∧
      (h.isV6 → slice (h.rewrite p b) 38 16 = leBytes 16 b.ip.toNat) := by
  obtain ⟨hlen, htcp, hudp⟩ := Packet.length_of_headers hh
  cases h with
  | tcpV4 | udpV4 => exact ⟨(redirect_spec hlen b).1, fun hv6 => by cases hv6⟩
  | tcpV6 =>
    have hlen : 70 + 2 ≤ p.length := (by decide : 70 + 2 ≤ 74).trans (htcp rfl)
    exact ⟨(redirectV6_spec _ hlen (by decide) b).1, fun _ => slice_redirectV6 hlen (by decide) b⟩
  | udpV6 =>
    have hlen : 60 + 2 ≤ p.length := hudp rfl
    exact ⟨(redirectV6_spec _ hlen (by decide) b).1, fun _ => slice_redirectV6 hlen (by decide) b⟩

/-- The frame goes to the station of an enabled real of the service; if both are over IPv6, with the
    address of the real. -/
def Received (env : Env) (net : Stations) (s : BalancerService) (isV6 : Bool) (q : Packet) : Prop :=
  ∃ real ∈ s.reals, real.enabled ∧ ∃ addr, env.address real.ipVersion real.ip = some addr ∧
    net.owner real.ipVersion addr = some (slice q 0 6) ∧
    (isV6 → real.ipVersion ≠ 4 → slice q 38 16 = leBytes 16 addr.toNat)

/-- The frame, if it goes out to a service of one of the round robins, goes to a station of the
    service. -/
def Arrival.Reaches (env : Env) (config : BaseConfig) (net : Stations) (x : XdpState cpus)
    (a : Arrival cpus) : Prop :=
  ∀ h s q, a.bytes.headers = some h →
    config.serviceAt env (h.call a.ctx a.bytes).key = some s → s.type ≠ .ch → s.reals ≠ [] →
      (xdp cpus).out a x = (.tx, q) → Received env net s h.isV6 q

/-! ## Runs -/

/-- The statistics are reset last, and whether that succeeds does not matter here. -/
theorem Loaded.of_reloadConfig (hpub : d.publish env config = .ok d₁)
    (hswitch : d₁.switch env = .ok d₂) : Loaded env config (d.reloadConfig env config).dataplane := by
  have hreload : d.reloadConfig env config = d₂.resetStats := by
    rw [Dataplane.reloadConfig, hpub]
    exact congrArg (· >>= Dataplane.resetStats) hswitch
  rw [hreload]
  exact (OnlyStats.resetStats d₂).loaded (.of_reload hpub hswitch)

/-- The maps have the configuration, and the sessions and cursors are those of its services. -/
structure Maps.Sound (env : Env) (config : BaseConfig) (service : SessionStateKey → ServiceKey)
    (m : Maps cpus) : Prop where
  positioned : Positioned env config m
  settled : Settled service m

namespace Maps.Sound

theorem of_reloadConfig (hpub : d.publish env config = .ok d₁) (hswitch : d₁.switch env = .ok d₂) :
    (d.reloadConfig env config).dataplane.maps.Sound env config service := by
  have hloaded := Loaded.of_reloadConfig hpub hswitch
  exact ⟨.of_loaded hloaded, .of_loaded hloaded⟩

variable {x : XdpState cpus} {a : Arrival cpus}

theorem frame (h : x.maps.Sound env config service) (ha : a.InFlow service) :
    ((xdp cpus).next a x).maps.Sound env config service := by
  have hcall : ∀ h : Headers, a.bytes.headers = some h → (h.call a.ctx a.bytes).InFlow service :=
    fun h hh => ha _ (by rw [Arrival.call?, hh]; rfl)
  have hstep := XdpStep.of_next a x
  generalize ((xdp cpus).next a x).maps = m' at hstep
  generalize (xdp cpus).out a x = r at hstep
  obtain ⟨v, q⟩ := r
  dsimp only at hstep
  cases hstep with
  | ignored | filtered => exact h
  | unmatched hh | forwarded hh =>
    exact ⟨h.positioned.next _, h.settled.next (hcall _ hh)⟩

/-- A frame that goes out to a service of one of the round robins goes to the backend of an enabled
    real of it. -/
theorem exists_real (h : x.maps.Sound env config service) (ha : a.InFlow service) {hd : Headers}
    (hh : a.bytes.headers = some hd) {s : BalancerService}
    (hs : config.serviceAt env (hd.call a.ctx a.bytes).key = some s) (htype : s.type ≠ .ch)
    (hreals : s.reals ≠ []) {q : Packet} (hout : (xdp cpus).out a x = (.tx, q)) :
    ∃ real ∈ s.reals, real.enabled ∧ ∃ b, Translation env s real b ∧ q = hd.rewrite a.bytes b := by
  have hstep := XdpStep.of_next a x
  rw [hout] at hstep
  generalize ((xdp cpus).next a x).maps = m' at hstep
  cases hstep with
  | forwarded hh' _ hb =>
    obtain rfl := Option.some.inj (hh.symm.trans hh')
    obtain ⟨real, hreal, henabled, ht⟩ := h.positioned.exists_real h.settled
      (ha _ (by rw [Arrival.call?, hh]; rfl)) hs htype hreals hb
    exact ⟨real, hreal, henabled, _, ht, rfl⟩

end Maps.Sound

/-- The owner receives. Let a reload of any dataplane, with lookups in a network of stations, succeed
    up to the statistics. In every run of frames of any bytes after it, in which no two services
    share a flow, and whatever the SYN filter has in its maps: a frame to a service of round robin
    or weighted round robin that has reals, if it goes out, is received by the station that has the
    address of an enabled real of the service. -/
theorem owner_receives (hpub : d.publish env config = .ok d₁) (hswitch : d₁.switch env = .ok d₂)
    (hnet : env.In net) (service : SessionStateKey → ServiceKey) (ddos : DdosMaps)
    {as : List (Arrival cpus)} (hflows : ∀ a ∈ as, a.InFlow service) :
    (xdp cpus).Each (Arrival.Reaches env config net)
      ⟨(d.reloadConfig env config).dataplane.maps, ddos⟩ as := by
  have hsound : (d.reloadConfig env config).dataplane.maps.Sound env config service :=
    .of_reloadConfig hpub hswitch
  generalize (d.reloadConfig env config).dataplane = d' at hsound
  refine Machine.each_iff.2 fun ⟨x, a⟩ hx h s q hh hs htype hreals hout => ?_
  obtain ⟨pre, post, rfl, rfl⟩ := Machine.mem_trace.1 hx
  rw [List.forall_mem_append, List.forall_mem_cons] at hflows
  -- the frames before it keep the positions and the sessions
  have hpre : ((xdp cpus).exec ⟨d'.maps, ddos⟩ pre).maps.Sound env config service :=
    Machine.exec_of_mem (P := fun x : XdpState cpus => x.maps.Sound env config service)
      (fun a ha _ hx => hx.frame (hflows.1 a ha)) hsound
  obtain ⟨real, hreal, henabled, b, ⟨⟨addr, haddr, hip⟩, hmac, -⟩, rfl⟩ :=
    hpre.exists_real hflows.2.1 hh hs htype hreals hout
  obtain ⟨hdst, hdaddr⟩ := rewrite_spec hh b
  refine ⟨real, hreal, henabled, addr, haddr, hdst ▸ hnet.owner haddr hmac, fun hv6 hne => ?_⟩
  rw [if_neg hne] at hip
  rw [hdaddr hv6, hip]

/-- The stations of the small environment. -/
def demoStations : Stations where
  station ip := [(0x0101000a, leBytes 6 1), (0x0201000a, leBytes 6 2)].lookup ip
  length_mac ip mac hmac := by
    simp only [List.lookup_cons, List.lookup_nil] at hmac
    split at hmac
    · cases hmac
      rfl
    · split at hmac <;> cases hmac
      rfl
  station6 _ := none

/-- Sockets that read addresses as it does. -/
def demoReader : Arp.Sockets :=
  { Arp.demoSockets with
    inetAddr := fun text => (demoEnv.inetAton text).elim Arp.INADDR_NONE .ofBitVec }

/-- The answer to the request for an address. -/
def demoReplies (text : String) : List (List UInt8) :=
  ((demoReader.request text).bind demoStations.answer).toList

theorem demoEnv_in : demoEnv.In demoStations where
  arp text mac hmac := by
    have hall : ∀ e ∈ [("10.0.1.1", (1 : Mac)), ("10.0.1.2", 2)],
        (demoReader.lookup e.1 (demoReplies e.1)).mac = some (leBytes 6 e.2.toNat) ∧
          ∀ frame ∈ demoReplies e.1, demoStations.Honest frame := by decide +kernel
    have hmem : (text, mac) ∈ [("10.0.1.1", (1 : Mac)), ("10.0.1.2", 2)] := by
      obtain ⟨l₁, l₂, h, -⟩ := List.lookup_eq_some_iff.1 hmac
      rw [h]
      simp
    obtain ⟨hlookup, hhonest⟩ := hall _ hmem
    refine ⟨demoReader, demoReplies text, hlookup, hhonest, fun ip hip => ?_⟩
    have hread : demoReader.inetAddr text = (demoEnv.inetAton text).elim Arp.INADDR_NONE .ofBitVec :=
      rfl
    rw [hread, hip]
    rfl
  ndp text mac hmac := by cases hmac

/-- A SYN to the service of a small configuration goes out, to the first station. -/
theorem owner_receives_demo :
    let d := ((Dataplane.fresh 1).reloadConfig demoEnv (demoNumbers (80, 1))).dataplane
    let r := (xdp 1).out ⟨⟨0, 0⟩, demoSyn, []⟩ ⟨d.maps, .fresh⟩
    r.1 = .tx ∧ Received demoEnv demoStations demoWeb false r.2 := by
  intro d r
  have hpub : (Dataplane.fresh 1).publish demoEnv (demoNumbers (80, 1)) = .ok (demoPublished _) :=
    demoDataplane_published (by decide +kernel)
  have hswitch : (demoPublished (demoNumbers (80, 1))).switch demoEnv = .ok (demoDataplane _) :=
    demoDataplane_switched (by decide +kernel)
  have htx : r.1 = .tx := by decide +kernel
  have hflow : ∀ a ∈ [(⟨⟨0, 0⟩, demoSyn, []⟩ : Arrival 1)], a.InFlow SessionStateKey.service :=
    fun a ha => by
      obtain rfl := List.mem_singleton.1 ha
      exact demoSyn_inFlow _
  have hreaches := (owner_receives hpub hswitch demoEnv_in _ .fresh hflow).1
  exact ⟨htx, hreaches _ demoWeb r.2 demoSyn_headers (by decide +kernel) (by decide) (by decide)
    (Prod.ext htx rfl)⟩

end L4Balancer
