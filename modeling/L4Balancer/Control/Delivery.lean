import L4Balancer.Control.Narrowing
import L4Balancer.Control.Served
import L4Balancer.Control.Startup
import L4Balancer.Xdp.Ownership
import L4Balancer.Xdp.Transport
import L4Balancer.Xdp.Unfiltered

/-!
# From the configuration file to the frame

What becomes of a frame over IPv4 after `main` has read and validated a file and loaded it,
whatever frames came before and whatever the SYN filter is set to. To a service of one of the
round robins that has reals, a frame that opens a flow and whose service serves its key goes
out; and each frame that goes out, of a new flow or an old one, has the MAC address of an
enabled real of the service, and is otherwise as it came in (`delivered`).

The frames of a run are the calls of the finders that their handlers make
(`exec_unfiltered`); the filter has no part in it.
-/

namespace L4Balancer

open Bpf Bytes

variable {cpus : ℕ} {env : Env} {config config' : BaseConfig} {m : Maps cpus}
  {service : SessionStateKey → ServiceKey}

/-! ## Frames as calls -/

/-- The call that the handler of a frame makes. -/
def Arrival.call? (a : Arrival cpus) : Option (Call cpus) :=
  a.bytes.headers.map fun h => h.call a.ctx a.bytes

/-- The frame is addressed to the service that its flow has. -/
def Arrival.InFlow (service : SessionStateKey → ServiceKey) (a : Arrival cpus) : Prop :=
  ∀ c, a.call? = some c → c.InFlow service

theorem next_unfiltered (a : Arrival cpus) (m : Maps cpus) :
    (unfiltered cpus).next a m = a.call?.elim m fun c => (finder cpus).next c m := by
  have hstep : (unfiltered cpus).step a m = passHandler a.ctx a.bytes m := rfl
  rw [Machine.next, hstep, passHandler, Arrival.call?]
  cases a.bytes.headers with
  | none => rfl
  | some h =>
    rw [Option.map_some, Option.elim_some, Machine.next]
    dsimp only
    rcases (finder cpus).step (h.call a.ctx a.bytes) m with ⟨_ | b, m'⟩ <;> rfl

theorem exec_unfiltered (as : List (Arrival cpus)) (m : Maps cpus) :
    (unfiltered cpus).exec m as = (finder cpus).exec m (as.filterMap Arrival.call?) := by
  induction as generalizing m with
  | nil => rfl
  | cons a as ih =>
    rw [Machine.exec, next_unfiltered, ih]
    cases hc : a.call? with
    | none => rw [List.filterMap_cons_none hc, Option.elim_none]
    | some c => rw [List.filterMap_cons_some hc, Option.elim_some, Machine.exec]

/-- What goes out of a frame. -/
theorem out_unfiltered {a : Arrival cpus} {h : Headers} (hh : a.bytes.headers = some h) :
    (unfiltered cpus).out a m = ((finder cpus).out (h.call a.ctx a.bytes) m).elim (.pass, a.bytes)
      fun b => (.tx, h.rewrite a.bytes b) := by
  have hstep : (unfiltered cpus).step a m = passHandler a.ctx a.bytes m := rfl
  rw [Machine.out, Machine.out, hstep, passHandler, hh]
  dsimp only
  rcases (finder cpus).step (h.call a.ctx a.bytes) m with ⟨_ | b, m'⟩ <;> rfl

/-! ## Delivery -/

/-- The frame `q` is the frame `p` as it goes to an enabled real of the service: only its MAC
    addresses are others. -/
structure Delivered (env : Env) (s : BalancerService) (p q : Packet) : Prop where
  dst : ∃ real ∈ s.reals, real.enabled ∧
    ∃ mac, real.mac env = some mac ∧ slice q 0 6 = leBytes 6 mac.toNat
  src : slice q 6 6 = slice p 0 6
  rest : q.drop 12 = p.drop 12

theorem startConfig_eq_some {read : String → Except String Json} {text : String}
    (h : startConfig read text = some config) :
    ∃ parsed : BaseConfig, parsed.validate = (config, none) := by
  rw [startConfig] at h
  split_ifs at h
  split at h
  · cases h
  · rename_i parsed _
    refine ⟨parsed, ?_⟩
    rcases hv : parsed.validate with ⟨validated, _ | e⟩ <;> rw [hv] at h <;> cases h
    rfl

theorem Settled.exec (h : Settled service m) {cs : List (Call cpus)}
    (hcs : ∀ c ∈ cs, c.InFlow service) : Settled service ((finder cpus).exec m cs) :=
  Machine.exec_of_mem (fun c hc _ hm => hm.next (hcs c hc)) h

/-- A reload leaves no sessions and no states of weighted round robin. -/
theorem Settled.of_loaded {d : Dataplane cpus} (h : Loaded env config d) :
    Settled service d.maps := by
  refine ⟨⟨by simp, fun key info st _ hst => ?_⟩, fun k v hk => ?_⟩
  · rw [h.wrr] at hst
    cases hst
  · rw [h.sessions] at hk
    cases hk

/-- A frame over IPv4 is redirected. -/
theorem Headers.rewrite_v4 {h : Headers} (hv4 : h.isV6 = false) (p : Packet) :
    h.rewrite p = p.redirect := by
  cases h with
  | tcpV4 | udpV4 => rfl
  | tcpV6 | udpV6 => cases hv4

/-- A packet to a service of one of the round robins that is forwarded goes to the backend of an
    enabled real of the service. -/
theorem Positioned.exists_real (hpos : Positioned env config m) (hsettled : Settled service m)
    {c : Call cpus} (hc : c.InFlow service) {s : BalancerService}
    (hs : config.serviceAt env c.key = some s) (htype : s.type ≠ .ch) (hreals : s.reals ≠ [])
    {b : Backend} (hb : (finder cpus).out c m = some b) :
    ∃ real ∈ s.reals, real.enabled ∧ Translation env s real b := by
  obtain ⟨i, info, -, hinfo, hentry, hfits⟩ := hpos.entry_serviceAt hs
  have hch : info.algorithm ≠ BALANCER_CH := by
    rw [hentry.algorithm]
    exact fun h => htype (BalancerType.toUInt8_eq_ch.1 h)
  have hcount : info.backendCount ≠ 0 := fun hzero => by
    have hlength := hentry.backendCount
    rw [hzero] at hlength
    exact hreals (List.length_eq_zero_iff.1 hlength.symm)
  -- the backend is one of the block
  obtain ⟨idx, hholds, hlookup, hactive⟩ := hsettled.out hc hinfo hfits hch hcount hb
  obtain ⟨real, hreal, ht⟩ := hentry.exists_real hholds hlookup
  exact ⟨real, List.mem_of_getElem? hreal, ht.represents.active.1 hactive, ht⟩

/-- From the configuration file to the frame. For every file that is read and validated, loaded by a
    first reload whose writes up to the statistics succeed; after every run of frames of any bytes
    and of settings of the SYN filter, in which no two services share a flow: a frame over IPv4 to a
    service of round robin or weighted round robin that has reals, if it opens a flow and the
    service serves its key, goes out; and if it goes out, it goes to an enabled real of the service,
    with nothing but its MAC addresses changed. -/
theorem delivered [NeZero cpus] {read : String → Except String Json} {text : String}
    (hstart : startConfig read text = some config)
    (hok : ((Operation.fresh cpus).reload env config).2.intact)
    (service : SessionStateKey → ServiceKey) {is : List (Input cpus)}
    (hflows : ∀ a ∈ is.filterMap Input.frame?, a.InFlow service) {a : Arrival cpus} {h : Headers}
    (hh : a.bytes.headers = some h) (hv4 : h.isV6 = false) (hflow : a.InFlow service)
    {s : BalancerService} (hs : config.serviceAt env (h.call a.ctx a.bytes).key = some s)
    (htype : s.type ≠ .ch) (hreals : s.reals ≠ []) {v : Verdict} {q : Packet}
    (hout : (xdp cpus).out a ((configured cpus).exec
      ⟨((Operation.fresh cpus).reload env config).2.maps, .fresh⟩ is) = (v, q)) :
    ((h.call a.ctx a.bytes).Opens → config.Serves env (h.call a.ctx a.bytes).key → v = .tx) ∧
      (v = .tx → Delivered env s a.bytes q) := by
  obtain ⟨parsed, hvalid⟩ := startConfig_eq_some hstart
  have hloaded := (Operation.reloaded_of_intact (.empty _) hok).dataplane
  obtain ⟨i, hlast⟩ := BaseConfig.serviceAt_eq_some_iff.1 hs
  -- the run of frames, as one of calls
  generalize hm : ((Operation.fresh cpus).reload env config).2.maps = m at hout
  have hm' : ((Operation.fresh cpus).reload env config).2.dataplane.maps = m := hm
  have hpos : Positioned env config m := hm' ▸ Positioned.of_loaded hloaded
  have hsettled : Settled service m := hm' ▸ .of_loaded hloaded
  have hunacted : Unacted ⟨m, .fresh⟩ (⟨m, .fresh⟩ : XdpState cpus) := ⟨.fresh, rfl⟩
  obtain ⟨-, hmaps, halways⟩ := hunacted.run is
  have hunused := halways.exec.unused
  generalize (configured cpus).exec ⟨m, .fresh⟩ is = x at hout hmaps hunused
  rw [exec_unfiltered] at hmaps
  generalize hcs : (is.filterMap Input.frame?).filterMap Arrival.call? = cs at hmaps
  have hcalls : ∀ c ∈ cs, c.OfFrame ∧ c.InFlow service := fun c hc => by
    obtain ⟨a', ha', hc⟩ := List.mem_filterMap.1 (hcs ▸ hc)
    refine ⟨?_, hflows a' ha' c hc⟩
    obtain ⟨h', -, rfl⟩ := Option.map_eq_some_iff.1 hc
    exact h'.call_ofFrame a'.bytes a'.ctx
  have hcall : a.call? = some (h.call a.ctx a.bytes) := by
    rw [Arrival.call?, hh]
    rfl
  rw [(hunused.frame a).1, out_unfiltered hh, hmaps] at hout
  cases hb : (finder cpus).out (h.call a.ctx a.bytes) ((finder cpus).exec m cs) with
  | none =>
    rw [hb] at hout
    -- a frame that opens a flow does not get past a service that serves its key
    obtain ⟨rfl, -⟩ := Prod.mk.inj hout
    refine ⟨fun hopens hserves => ?_, fun hv => by cases hv⟩
    have hserved := (alwaysServed_iff hvalid hok (BaseConfig.serviceAt_mem hs) hlast.2.1).2 hserves
    rw [hm] at hserved
    have hsome := hserved cs (fun c hc => (hcalls c hc).1) _ (h.call_ofFrame a.bytes a.ctx) hopens rfl
    rw [hb] at hsome
    cases hsome
  | some b =>
    rw [hb] at hout
    obtain ⟨rfl, rfl⟩ := Prod.mk.inj hout
    refine ⟨fun _ _ => rfl, fun _ => ?_⟩
    obtain ⟨real, hreal, henabled, ht⟩ := (hpos.exec cs).exists_real
      (hsettled.exec fun c hc => (hcalls c hc).2) (hflow _ hcall) hs htype hreals hb
    obtain ⟨hdst, hsrc, hrest⟩ := redirect_spec (Packet.length_of_headers hh).1 b
    rw [h.rewrite_v4 hv4]
    exact ⟨⟨real, hreal, henabled, b.mac, ht.represents.mac, hdst⟩, hsrc, hrest⟩

theorem demoSyn_headers : demoSyn.headers = some (.tcpV4 34) := by decide +kernel

theorem demoSyn_inFlow (ctx : Ctx cpus) :
    (⟨ctx, demoSyn, []⟩ : Arrival cpus).InFlow SessionStateKey.service := by
  intro c hc
  rw [Arrival.call?, demoSyn_headers] at hc
  obtain rfl := Option.some.inj hc
  exact Call.inFlow_of_ofV4 ⟨_, _, _, rfl⟩

/-- The service of a small file. -/
def demoWeb : BalancerService :=
  ⟨[⟨"10.0.1.1", true, 1, 4, 80⟩], "web", "10.0.0.1", "tcp", 80, .rr, 4⟩

/-- The second one of two SYNs to it, over a limit of one SYN. -/
theorem delivered_demo :
    let r := (xdp 1).out ⟨⟨1, 0⟩, demoSyn, []⟩ ((configured 1).exec
      ⟨((Operation.fresh 1).reload demoEnv (demoNumbers (80, 1))).2.maps, .fresh⟩
      [.settings ⟨1, 0, 0, 0⟩, .frame ⟨⟨0, 0⟩, demoSyn, []⟩])
    r.1 = .tx ∧ Delivered demoEnv demoWeb demoSyn r.2 := by
  intro r
  have hstart : startConfig (demoDocument 80 1) (demoText 80 1) = some (demoNumbers (80, 1)) := by
    decide +kernel
  have hok : ((Operation.fresh 1).reload demoEnv (demoNumbers (80, 1))).2.intact :=
    Operation.reload_intact (.empty _) (by decide) (by decide +kernel)
  have hserves : (demoNumbers (80, 1)).Serves demoEnv demoKey := by
    rintro (_ | i) last ⟨hi, -⟩
    · obtain rfl := Option.some.inj hi
      exact (by decide : (demoNumbers (80, 1)).NoGap 0 1 4)
    · cases hi
  obtain ⟨hsent, hdelivered⟩ := @delivered 1 demoEnv (demoNumbers (80, 1)) _ (demoDocument 80 1)
    (demoText 80 1) hstart hok SessionStateKey.service
    [.settings ⟨1, 0, 0, 0⟩, .frame ⟨⟨0, 0⟩, demoSyn, []⟩]
    (fun a ha => by obtain rfl := List.mem_singleton.1 ha; exact demoSyn_inFlow _)
    ⟨⟨1, 0⟩, demoSyn, []⟩ (.tcpV4 34) demoSyn_headers rfl (demoSyn_inFlow _) demoWeb
    (by decide +kernel) (by decide) (by decide) r.1 r.2 rfl
  have hkey : (Headers.call (⟨1, 0⟩ : Ctx 1) demoSyn (.tcpV4 34)).key = demoKey := by decide +kernel
  have htx := hsent (by decide +kernel : (demoSyn.tcpHdr 34).pureSyn = true) (hkey ▸ hserves)
  exact ⟨htx, hdelivered htx⟩

end L4Balancer
