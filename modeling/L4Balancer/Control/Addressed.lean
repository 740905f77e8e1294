import L4Balancer.Control.Reals
import L4Balancer.Xdp.Hash

/-!
# Packets that open a flow

What becomes of a packet that is addressed to a service of the loaded configuration and
has no session: a pure SYN, or a packet of UDP. It goes to an enabled real of the service,
unless this has no reals at all, or consistent hash finds a backend in its maps
(`Positioned.opens_cases`). As every hash is that of some flow, a service of consistent hash
meets every backend that the maps have for some hash (`Positioned.forall_syn_iff`).
-/

namespace L4Balancer

open Bpf

variable {cpus : ℕ} {env : Env} {config : BaseConfig} {m : Maps cpus} {info : ServiceInfo}
  {service : BalancerService} {key : ServiceKey} {b : Backend}

/-- The packet does not look for a session. -/
def Call.Opens : Call cpus → Prop
  | tcp c => c.tcp.pureSyn
  | udp _ => True

/-- The service of consistent hash has a key to which packets of TCP are addressed. -/
def BaseConfig.TcpCh (env : Env) (config : BaseConfig) (service : BalancerService) : Prop :=
  service.type = .ch ∧ ∃ key, config.serviceAt env key = some service ∧ key.protocol = IPPROTO_TCP

theorem BalancerType.toUInt8_eq_ch {type : BalancerType} :
    type.toUInt8 = BALANCER_CH ↔ type = .ch := by
  cases type <;> decide

/-- The backends that the functions choose are active. -/
theorem selectTcp_active {ctx : Ctx cpus} {backends : ArrayMap Backend 1024}
    {stateKey : SessionStateKey} {packetLen last idx : UInt32} {m' : Maps cpus}
    (h : selectTcp ctx backends info stateKey key packetLen last m = (some b, idx, m')) :
    b.active ≠ 0 := by
  by_cases hch : info.algorithm = BALANCER_CH
  · exact (Maps.chPick_spec (chPick_of_selectTcp hch h)).2
  · by_cases hrr : info.algorithm = BALANCER_RR ∨ info.algorithm = BALANCER_WRR
    · exact (selectTcp_spec hrr h).2
    · rw [selectTcp, if_neg (not_or.1 hrr).1, if_neg (not_or.1 hrr).2, if_neg hch] at h
      cases h

theorem Call.Opens.active {c : Call cpus} (hc : c.Opens) (h : (finder cpus).out c m = some b) :
    b.active ≠ 0 := by
  cases c with
  | tcp c =>
    have hout : (tcpFinder cpus).out c m = some b := h
    have hs := TcpStep.of_next c m
    rw [hout] at hs
    generalize (tcpFinder cpus).next c m = m' at hs
    cases hs with
    | hit hsyn => exact absurd (hsyn.symm.trans hc) Bool.false_ne_true
    | create _ _ _ hsel => exact selectTcp_active hsel
  | udp c =>
    have hout : (udpFinder cpus).out c m = some b := h
    have hs := UdpStep.of_next c m
    rw [hout] at hs
    generalize (udpFinder cpus).next c m = m' at hs
    cases hs with
    | forward _ hsel => exact (selectUdp_spec hsel).2

/-- A pure SYN to a service of consistent hash. -/
theorem out_syn_ch {c : TcpCall cpus} (hsyn : c.tcp.pureSyn)
    (hinfo : m.activeServices.lookup c.key = some info) (hch : info.algorithm = BALANCER_CH) :
    (finder cpus).out (.tcp c) m = (m.chPick c.stateKey.chHash).map Prod.fst := by
  have hstep : (finder cpus).step (.tcp c) m =
    findTcpBackend c.ctx c.stateKey c.key c.tcp c.packetLen m := rfl
  have hl : sessionLookup c.ctx c.stateKey c.tcp m = (none, m) := if_pos hsyn
  obtain ⟨m', he⟩ := @selectTcp_ch cpus c.ctx (m.backendsAt m.activeBuffer) info hch c.stateKey c.key
    c.packetLen 0 m
  rw [Maps.activeServices] at hinfo
  rw [Machine.out, hstep, findTcpBackend, m.lookup_atomicIndex]
  dsimp only
  rw [hl, Option.bind_none]
  dsimp only [Option.elim]
  rw [hinfo]
  dsimp only
  rw [he]
  cases m.chPick c.stateKey.chHash <;> rfl

/-- Packets leave what consistent hash has for the hashes. -/
theorem chPick_exec (cs : List (Call cpus)) (m : Maps cpus) (keyHash : UInt32) :
    ((finder cpus).exec m cs).chPick keyHash = m.chPick keyHash :=
  Maps.chPick_congr (tables_exec cs m) keyHash

/-- The keys of services, as frames have them. -/
theorem BalancerService.prepareKey_ofTcp (h : service.prepareKey env = .ok key)
    (htcp : key.protocol = IPPROTO_TCP) : key.OfTcp := by
  refine ⟨htcp, ?_⟩
  rw [prepareKey] at h
  split at h
  · cases h
  · rename_i vip hvip
    obtain rfl := Except.ok.inj h
    dsimp only
    by_cases hv : service.ipVersion = 4
    · rw [Env.address, if_pos hv] at hvip
      obtain ⟨dst, -, rfl⟩ := Option.map_eq_some_iff.1 hvip
      exact .inr ⟨if_pos hv, dst, rfl⟩
    · exact .inl (if_neg hv)

namespace Positioned

theorem exec (h : Positioned env config m) (cs : List (Call cpus)) :
    Positioned env config ((finder cpus).exec m cs) :=
  Machine.exec_of_step (fun _ c h => h.next c) cs h

/-- The entry of the service that a key is addressed to. -/
theorem entry_serviceAt (h : Positioned env config m) (hs : config.serviceAt env key = some service) :
    ∃ i info, service.prepareKey env = .ok key ∧ m.activeServices.lookup key = some info ∧
      Entry env config m i service info ∧ info.Fits := by
  obtain ⟨xdp, buffer, m₀, hload, hpub⟩ := h.published
  obtain ⟨i, info, hi, hprep, hinfo, he⟩ := hpub.entry_serviceAt hload hs
  exact ⟨i, info, hprep, hinfo, he, Entry.fits hload hpub hi he⟩

/-- The entry of a service of consistent hash. -/
theorem entry_ch (h : Positioned env config m) (hs : config.serviceAt env key = some service)
    (hch : service.type = .ch) :
    ∃ info, m.activeServices.lookup key = some info ∧ info.algorithm = BALANCER_CH := by
  obtain ⟨i, info, -, hinfo, hentry, -⟩ := h.entry_serviceAt hs
  exact ⟨info, hinfo, hentry.algorithm.trans (BalancerType.toUInt8_eq_ch.2 hch)⟩

/-- Where a packet that opens a flow goes. -/
theorem opens_cases (h : Positioned env config m) {c : Call cpus} (hc : c.Opens)
    (hs : config.serviceAt env c.key = some service) (hout : (finder cpus).out c m = some b) :
    (∃ real ∈ service.reals, real.enabled ∧ real.endpoint env = some b.endpoint) ∨
      service.reals = [] ∨ service.type = .ch ∧
        ∃ tc idx, c = .tcp tc ∧ m.chPick tc.stateKey.chHash = some (b, idx) := by
  obtain ⟨i, info, -, hinfo, hentry, hfits⟩ := h.entry_serviceAt hs
  rcases Call.out_cases hout with ⟨tc, state, rfl, hhit, -⟩ | ⟨info', last, m₁, hreach, hcases⟩
  · -- by a session, which it has not looked for
    exact absurd (hhit.1.symm.trans hc) Bool.false_ne_true
  obtain ⟨hinfo', -⟩ := Call.reaches_spec hreach
  obtain rfl := Option.some.inj (hinfo.symm.trans hinfo')
  rcases hcases with ⟨idx, hmem⟩ | ⟨tc, idx, rfl, hch, hpick⟩
  · -- by one of the round robins: the index is one of the block, or the start of an empty one
    rw [Call.handlerCalls, hreach] at hmem
    obtain ⟨r, hr, he⟩ := List.mem_map.1 hmem
    obtain ⟨-, rfl⟩ := Prod.mk.inj he
    rcases (h.cursors_reached hreach).handlerCalls hinfo hfits _ hr b rfl with
      hholds | ⟨-, hcount, -⟩
    · obtain ⟨real, hreal, ht⟩ := hentry.exists_real hholds (handlerCalls_names hr rfl)
      have hrep := ht.represents
      exact .inl ⟨real, List.mem_of_getElem? hreal, hrep.active.1 (hc.active hout), hrep.endpoint⟩
    · refine .inr (.inl (List.length_eq_zero_iff.1 ?_))
      rw [← hentry.backendCount, hcount]
      rfl
  · -- by consistent hash
    rw [hentry.algorithm] at hch
    exact .inr (.inr ⟨BalancerType.toUInt8_eq_ch.1 hch, tc, idx, rfl, hpick⟩)

/-- The pure SYNs to a service of consistent hash get what the maps have for some hash. -/
theorem forall_syn_iff [NeZero cpus] (h : Positioned env config m)
    (hch : config.TcpCh env service) (P : Backend → Prop) :
    (∀ c : TcpCall cpus, c.OfFrame → c.tcp.pureSyn → config.serviceAt env c.key = some service →
        ∀ b, (finder cpus).out (.tcp c) m = some b → P b) ↔
      ∀ keyHash b idx, m.chPick keyHash = some (b, idx) → P b := by
  obtain ⟨htype, key, hs, htcp⟩ := hch
  constructor
  · intro hsyn keyHash b idx hpick
    obtain ⟨i, info', hprep, -⟩ := h.entry_serviceAt hs
    obtain ⟨info, hinfo, hinfoCh⟩ := h.entry_ch hs htype
    -- a flow with the hash
    let ctx : Ctx cpus := ⟨0, ⟨0, NeZero.pos cpus⟩⟩
    obtain ⟨src, rfl⟩ := exists_syn key keyHash ctx
    have hframe := TcpCall.syn_ofFrame (BalancerService.prepareKey_ofTcp hprep htcp) ctx src
    refine hsyn _ hframe rfl hs b ?_
    rw [out_syn_ch rfl hinfo hinfoCh, hpick, Option.map_some]
  · intro hpicks c _ hsyn hs b hout
    obtain ⟨info, hinfo, hinfoCh⟩ := h.entry_ch hs htype
    rw [out_syn_ch hsyn hinfo hinfoCh] at hout
    obtain ⟨⟨b', idx⟩, hpick, rfl⟩ := Option.map_eq_some_iff.1 hout
    exact hpicks _ _ idx hpick

end Positioned

end L4Balancer
