import L4Balancer.Control.Addressed
import L4Balancer.Control.Single
import L4Balancer.Xdp.Flow

/-!
# The positions of consistent hash

Consistent hash counts the enabled reals of its service, the backends map counts all the
reals of the configuration. The session of a flow of consistent hash has an index of the
first kind, and is read as one of the second kind: so the first packet of the flow and those
that follow it go to the same server exactly if the two positions of a backend have the same
server (`Positioned.chAffinity_iff`), which is a matter of the configuration
(`ch_affinity_iff`).
-/

namespace L4Balancer

open Bpf

variable {cpus : ℕ} {env : Env} {config : BaseConfig} {m : Maps cpus} {s : Operation cpus}
  {service : BalancerService} {d d' : Dataplane cpus}

/-- The backends have the same address and the same MAC. -/
def Backend.SameServer (b b' : Backend) : Prop := b.endpoint = b'.endpoint ∧ b.mac = b'.mac

/-- In any run of packets, after a packet that creates the session of a flow to a service of
    consistent hash, the packets that follow it go to the same server. -/
def ChAffinity (env : Env) (config : BaseConfig) (m : Maps cpus) : Prop :=
  ∀ (pre mid : List (Call cpus)) (first last : TcpCall cpus),
    (∀ c ∈ pre ++ .tcp first :: (mid ++ [.tcp last]), c.OfFrame) →
    ∀ service, config.serviceAt env first.key = some service → service.type = .ch →
      Follows ((finder cpus).exec m pre) first mid last →
      ∃ b b', (finder cpus).out (.tcp first) ((finder cpus).exec m pre) = some b ∧
        (finder cpus).out (.tcp last) ((finder cpus).exec m (pre ++ .tcp first :: mid)) = some b' ∧
        b'.SameServer b

/-- What consistent hash has for a hash is at the same index among the active backends. -/
def Maps.ChAligned (m : Maps cpus) : Prop :=
  ∀ keyHash b idx, m.chPick keyHash = some (b, idx) →
    ∀ b', m.activeBackends.lookup idx.toNat = some b' → b'.SameServer b

theorem activeBackends_exec (cs : List (Call cpus)) (m : Maps cpus) :
    ((finder cpus).exec m cs).activeBackends = m.activeBackends :=
  Maps.activeBackends_congr (tables_exec cs m)

/-- A packet of the flow of a SYN, after the SYN. -/
def TcpCall.ackOf (c : TcpCall cpus) : TcpCall cpus :=
  { c with tcp := { c.tcp with syn := false, ack := true } }

theorem TcpCall.OfFrame.ackOf {c : TcpCall cpus} (h : c.OfFrame) : c.ackOf.OfFrame :=
  ⟨h.protocol, h.version, h.dst, h.ports, h.port⟩

/-- Packets follow their SYNs where the two positions have the same server. -/
theorem Positioned.chAffinity_iff [NeZero cpus] (h : Positioned env config m)
    (hsessions : m.tcpSessionState = .empty) (hch : config.TcpCh env service) :
    ChAffinity env config m ↔ m.ChAligned := by
  have hrange : m.SessionsInRange := fun k state hs => by
    rw [hsessions] at hs
    cases hs
  constructor
  · intro haffine keyHash b idx hpick b' hb'
    obtain ⟨htype, key, hs, htcp⟩ := hch
    obtain ⟨i, -, hprep, -⟩ := h.entry_serviceAt hs
    obtain ⟨info, hinfo, hinfoCh⟩ := h.entry_ch hs htype
    -- a SYN with the hash, and the packet that follows it
    let ctx : Ctx cpus := ⟨0, ⟨0, NeZero.pos cpus⟩⟩
    obtain ⟨src, rfl⟩ := exists_syn key keyHash ctx
    generalize hsyn : TcpCall.syn ctx key src = syn at hpick
    have hframe : syn.OfFrame :=
      hsyn ▸ TcpCall.syn_ofFrame (BalancerService.prepareKey_ofTcp hprep htcp) ctx src
    have hkey : syn.key = key := by rw [← hsyn]; rfl
    have hpure : syn.tcp.pureSyn = true := by rw [← hsyn]; rfl
    have hout : (finder cpus).out (.tcp syn) m = some b := by
      rw [out_syn_ch hpure (hkey ▸ hinfo) hinfoCh, hpick, Option.map_some]
    have hfollows : Follows m syn [] syn.ackOf := by
      refine ⟨by rw [hsessions]; decide, ?_, ⟨Option.isSome_of_eq_some hout, ?_⟩, trivial, rfl, ?_, ?_⟩
      · simp [Call.now, TcpCall.ackOf]
      · exact fun hhits => absurd (hhits.1.symm.trans hpure) (by simp)
      · rfl
      · simp [lastInFlow, TcpCall.ackOf, TCP_STATE_TIMEOUT]
    obtain ⟨b₁, idx₁, b₂, hpick₁, hb₂, hout₁, hout₂⟩ :=
      hfollows.outs hrange (hkey ▸ hinfo) hinfoCh
    have hframes : ∀ c ∈ [] ++ (.tcp syn : Call cpus) :: ([] ++ [.tcp syn.ackOf]), c.OfFrame := by
      simpa using ⟨hframe, hframe.ackOf⟩
    obtain ⟨b₃, b₄, hout₃, hout₄, hsame⟩ :=
      haffine [] [] syn syn.ackOf hframes service (hkey.symm ▸ hs) htype hfollows
    obtain ⟨rfl, rfl⟩ := Prod.mk.inj (Option.some.inj (hpick.symm.trans hpick₁))
    obtain rfl := Option.some.inj (hb'.symm.trans hb₂)
    obtain rfl := Option.some.inj (hout₃.symm.trans hout₁)
    obtain rfl := Option.some.inj (hout₄.symm.trans hout₂)
    exact hsame
  · intro haligned pre mid first last _ service hs htype hfollows
    have hrange' : ((finder cpus).exec m pre).SessionsInRange :=
      Machine.exec_of_step (fun _ c h => h.next c) pre hrange
    obtain ⟨info, hinfo, hinfoCh⟩ := (h.exec pre).entry_ch hs htype
    obtain ⟨b, idx, b', hpick, hb', hout, hout'⟩ := hfollows.outs hrange' hinfo hinfoCh
    -- packets have changed neither of the two maps
    refine ⟨b, b', hout, ?_, ?_⟩
    · rwa [Machine.exec_append]
    · rw [chPick_exec] at hpick
      rw [activeBackends_exec] at hb'
      exact haligned _ b idx hpick b' hb'

/-! ## The backends map after a reload -/

/-- `ReloadConfig` up to its flip writes the buffer that is not active. -/
theorem Dataplane.publish_published (h : d.publish env config = .ok d') :
    Published d'.xdp (1 - d.currentIndex) d.maps d'.maps :=
  .of_runWrites (runWrites_publish h).2.2.2

namespace Operation

theorem reload_published (hok : (s.reload env config).2.intact) :
    Published (s.reload env config).2.dataplane.xdp (1 - s.dataplane.currentIndex) s.maps
      (s.reload env config).2.maps := by
  rw [reload] at hok ⊢
  cases hd : s.dataplane.publish env config >>= Dataplane.resetCursors with
  | error e =>
    rw [hd] at hok
    cases hok
  | ok d =>
    obtain ⟨d₁, hpub, hreset⟩ := Dataplane.bind_eq_ok hd
    have hswitch : d₁.switch env = .ok (d.updateAllCh env).clearSessions :=
      Dataplane.switch_of_resetCursors hreset
    obtain ⟨hbuffers, hxdp, -⟩ := Dataplane.switch_spec hswitch
    have hstats := OnlyStats.resetStats (d.updateAllCh env).clearSessions
    have hpublished := (Dataplane.publish_published hpub).congr
      (hbuffers.trans hstats.place.1.buffers)
    obtain ⟨a, b, he⟩ := hstats
    rw [← hxdp] at hpublished
    dsimp only
    rw [he] at hpublished ⊢
    exact hpublished

/-- The server that the backends map has at an index after a reload is that of the backend: it is
    that of the real of the configuration there, or the one that the buffer had there before. -/
def ServerAt (env : Env) (config : BaseConfig) (s : Operation cpus) (i : ℕ) (b : Backend) : Prop :=
  match config.reals[i]? with
  | some real => real.endpoint env = some b.endpoint ∧ real.mac env = some b.mac
  | none => ∀ b', (s.maps.backendsAt (1 - s.dataplane.currentIndex)).lookup i = some b' →
    b'.SameServer b

theorem serverAt_iff (hload : config.load env = ((s.reload env config).2.dataplane.xdp, none))
    (hok : (s.reload env config).2.intact) {i : ℕ} {b : Backend} :
    (∀ b', (s.reload env config).2.maps.activeBackends.lookup i = some b' → b'.SameServer b) ↔
      s.ServerAt env config i b := by
  have hpub := reload_published hok
  generalize (s.reload env config).2 = s' at hload hpub ⊢
  have hreals := load_reals hload
  rw [ServerAt]
  cases hi : config.reals[i]? with
  | none =>
    -- the batch of the backends ends before the index
    have hle : s'.dataplane.xdp.backends.length ≤ i := by
      rw [← hreals.length_eq]
      exact List.getElem?_eq_none_iff.1 hi
    dsimp only
    rw [ArrayMap.lookup_updateFrom hpub.activeBackends, if_neg (by omega)]
  | some real =>
    obtain ⟨b₀, hb₀, hrep⟩ := getElem?_of_forall₂ hreals hi
    dsimp only
    rw [hpub.lookup_backends hb₀, hrep.endpoint, hrep.mac, Option.some_inj, Option.some_inj]
    constructor
    · exact fun h => h b₀ rfl
    · intro h b' hb'
      exact Option.some.inj hb' ▸ h

/-- The two positions of the backends of consistent hash have the same server. If the configuration
    has an enabled real of consistent hash: for each enabled real of the last service that has one,
    the real of the configuration with the same number has the address and the MAC of the first
    real with its address, if this is enabled. Otherwise: for each backend that the maps have for
    some hash. -/
def Aligned (env : Env) (config : BaseConfig) (s : Operation cpus) : Prop :=
  match config.lastCh with
  | some last => ∀ (k : ℕ) (real first : BalancerReal), last.enabledReals[k]? = some real →
    config.firstAt env real = some first → first.enabled →
      ∃ other, config.reals[k]? = some other ∧ other.endpoint env = first.endpoint env ∧
        other.mac env = first.mac env
  | none => ∀ keyHash b idx, s.maps.chPick keyHash = some (b, idx) →
    s.ServerAt env config idx.toNat b

theorem aligned_iff (hsound : s.dataplane.chManager.Sound env.xxh3)
    (hok : (s.reload env config).2.intact) :
    (s.reload env config).2.maps.ChAligned ↔ s.Aligned env config := by
  have hr := reloaded_of_intact hsound hok
  have hload := hr.dataplane.load
  rcases hr.tables with ⟨hnone, hsame, -⟩ | ⟨last, p, hlast, -, ht, hp, hw⟩
  · -- nothing was published: consistent hash has what it had before
    rw [Aligned, hnone]
    simp only [Maps.ChAligned, hsame.chPick, serverAt_iff hload hok]
  · obtain ⟨hmem, -⟩ := BaseConfig.lastCh_spec hlast
    have hbackends := chBackends_reals hload hmem
    rw [Aligned, hlast]
    dsimp only
    -- the service has at most as many enabled reals as the configuration has reals
    have hfits : ∀ (k : ℕ) (real : BalancerReal), last.enabledReals[k]? = some real →
        (UInt32.ofNat k).toNat = k ∧ ∃ other, config.reals[k]? = some other := by
      intro k real hk
      have hlt := (List.getElem?_eq_some_iff.1 hk).1
      have hle := last.length_enabledReals_le.trans (BaseConfig.length_reals_le hmem)
      have hlen : config.reals.length ≤ 1024 := by
        rw [(load_reals hload).length_eq]
        exact (reload_published hok).length_backends_le
      refine ⟨UInt32.toNat_ofNat_of_lt' ?_, _, List.getElem?_eq_getElem (hlt.trans_le hle)⟩
      exact (hlt.trans_le (hle.trans hlen)).trans (by decide)
    refine ((hw hok).forall_chPick_iff ht (P := fun b idx => ∀ b',
      (s.reload env config).2.maps.activeBackends.lookup idx.toNat = some b' →
        b'.SameServer b)).trans ?_
    simp only [serverAt_iff hload hok, hp]
    constructor
    · intro h k real first hk hfirst henabled
      obtain ⟨b, hb, hback⟩ := getElem?_of_forall₂ hbackends hk
      obtain ⟨first', hfirst', hrep, -⟩ := FirstBackend.represents hload hback
      obtain rfl := Option.some.inj (hfirst.symm.trans hfirst')
      obtain ⟨hnat, other, hother⟩ := hfits k real hk
      have hserver := h k b hb (hrep.active.2 henabled)
      rw [hnat, ServerAt, hother] at hserver
      exact ⟨other, hother, hserver.1.trans hrep.endpoint.symm, hserver.2.trans hrep.mac.symm⟩
    · intro h k b hb hactive
      obtain ⟨real, hk, hback⟩ := getElem?_of_forall₂ hbackends.flip hb
      obtain ⟨first, hfirst, hrep, -⟩ := FirstBackend.represents hload hback
      obtain ⟨other, hother, hendpoint, hmac⟩ :=
        h k real first hk hfirst (hrep.active.1 hactive)
      rw [(hfits k real hk).1, ServerAt, hother]
      exact ⟨hendpoint.trans hrep.endpoint, hmac.trans hrep.mac⟩

end Operation

theorem Operation.chAffinity_iff [NeZero cpus] (hsound : s.dataplane.chManager.Sound env.xxh3)
    (hok : (s.reload env config).2.intact) (hch : config.TcpCh env service) :
    ChAffinity env config (s.reload env config).2.maps ↔
      (s.reload env config).2.maps.ChAligned := by
  have hloaded := (reloaded_of_intact hsound hok).dataplane
  exact (Positioned.of_loaded hloaded).chAffinity_iff hloaded.sessions hch

/-- Flow affinity of consistent hash. After a reload whose writes succeed, of a configuration with a
    service of consistent hash over TCP, in any run of packets of TCP and UDP: the packets that
    follow a packet of a flow to such a service that has created its session go to the server of
    this packet, exactly if the two positions of the backends of consistent hash have the same
    server. -/
theorem ch_affinity_iff [NeZero cpus] (hsound : s.dataplane.chManager.Sound env.xxh3)
    (hok : (s.reload env config).2.intact) (hch : config.TcpCh env service) :
    ChAffinity env config (s.reload env config).2.maps ↔ s.Aligned env config :=
  (Operation.chAffinity_iff hsound hok hch).trans (Operation.aligned_iff hsound hok)

/-- One service. -/
theorem ch_affinity_demo :
    ChAffinity demoEnv (demoCh "10.0.0.1")
      ((Operation.fresh 1).reload demoEnv (demoCh "10.0.0.1")).2.maps := by
  have hch : (demoCh "10.0.0.1").TcpCh demoEnv (demoService "10.0.0.1" .ch ["10.0.1.1"]) :=
    ⟨rfl, ⟨.ofIpv4 0x0100000a, 80, IPPROTO_TCP, 4⟩, by decide +kernel, rfl⟩
  have hlast : (demoCh "10.0.0.1").lastCh = some (demoService "10.0.0.1" .ch ["10.0.1.1"]) :=
    (demoCh_oneCh _).lastCh_eq List.mem_cons_self (demoCh_live _)
  refine (ch_affinity_iff (.empty _)
    (Operation.reload_intact (.empty _) (by decide) (by decide +kernel)) hch).2 ?_
  rw [Operation.Aligned, hlast]
  rintro k real first hk hfirst -
  match k with
  | 0 =>
    obtain rfl := Option.some.inj hk
    have hzero : (demoCh "10.0.0.1").firstAt demoEnv ⟨"10.0.1.1", true, 1, 4, 80⟩ =
        (demoCh "10.0.0.1").reals[0]? := by decide +kernel
    exact ⟨first, hzero.symm.trans hfirst, rfl, rfl⟩
  | k + 1 => cases hk

/-- A service of round robin before one of consistent hash, with a real each. -/
def demoBehind : BaseConfig where
  services := [demoService "10.0.0.1" .rr ["10.0.1.1"], demoService "10.0.0.2" .ch ["10.0.1.2"]]

theorem demoBehind_not_aligned : ¬(Operation.fresh 1).Aligned demoEnv demoBehind := by
  have hlast : demoBehind.lastCh = some (demoService "10.0.0.2" .ch ["10.0.1.2"]) := by
    decide +kernel
  rw [Operation.Aligned, hlast]
  intro h
  obtain ⟨other, hother, he, -⟩ := h 0 ⟨"10.0.1.2", true, 1, 4, 80⟩ ⟨"10.0.1.2", true, 1, 4, 80⟩
    (by decide +kernel) (by decide +kernel) rfl
  obtain rfl := Option.some.inj hother
  revert he
  decide +kernel

/-- The flows of the service of consistent hash go to the real of the other one from their second
    packet on. -/
theorem flow_changes_server : ((Operation.fresh 1).reload demoEnv demoBehind).2.intact ∧
    demoBehind.TcpCh demoEnv (demoService "10.0.0.2" .ch ["10.0.1.2"]) ∧
    ¬ChAffinity demoEnv demoBehind ((Operation.fresh 1).reload demoEnv demoBehind).2.maps := by
  have hok : ((Operation.fresh 1).reload demoEnv demoBehind).2.intact :=
    Operation.reload_intact (.empty _) (by decide) (by decide +kernel)
  have hch : demoBehind.TcpCh demoEnv (demoService "10.0.0.2" .ch ["10.0.1.2"]) :=
    ⟨rfl, ⟨.ofIpv4 0x0200000a, 80, IPPROTO_TCP, 4⟩, by decide +kernel, rfl⟩
  refine ⟨hok, hch, fun haffine => demoBehind_not_aligned ?_⟩
  have haligned := (Operation.chAffinity_iff (.empty _) hok hch).1 haffine
  exact (Operation.aligned_iff (.empty _) hok).1 haligned

end L4Balancer
