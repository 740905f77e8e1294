import L4Balancer.Control.Owner
import L4Balancer.Control.SmallStep
import L4Balancer.Control.Switches

/-!
# The balancer as a whole

The server of the API with the dataplane below it, and the frames that come in between the requests
(`balancer`). The manager replaces its configuration at each request that the server takes, and has
the dataplane reload it.

As long as the reloads get to their statistics, what the maps hold is the configuration of the
manager (`Balancer.Sound`); with the history of the requests, which says how each real is switched
(`switchesAfter`), it follows that a real that is switched off gets no frames (`switched_off`).
-/

namespace L4Balancer

open Bpf Bytes

variable {cpus : ℕ} {env : Env} {config : BaseConfig} {d d₁ d₂ : Dataplane cpus}
  {service : SessionStateKey → ServiceKey} {s : BalancerService}

/-! ## The machine -/

/-- The configuration of the manager and the dataplane. What the system has answered to the reload
    made last is kept beside them. -/
structure Balancer (cpus : ℕ) where
  config : BaseConfig
  env : Env
  dataplane : Dataplane cpus

/-- A request, with the answers of the system to the reload that is made for it, or a frame. -/
inductive Incoming (cpus : ℕ)
  | request (env : Env) (request : Request)
  | frame (a : Arrival cpus)

inductive Outgoing
  | handled (handled : Handled)
  | frame (verdict : Verdict) (packet : Packet)

/-- The maps for the program. -/
def Dataplane.xdpState (d : Dataplane cpus) : XdpState cpus := ⟨d.maps, d.ddos⟩

/-- The balancer after the manager has loaded a configuration. -/
def Balancer.load (d : Dataplane cpus) (env : Env) (config : BaseConfig) : Balancer cpus :=
  ⟨config, env, (d.reloadConfig env config).dataplane⟩

/-- The reload for a request, if one is made: the server calls the dataplane for these only
    (`server_spec`). -/
def Balancer.reload (b : Balancer cpus) (env : Env) (request : Request) : Option (Outcome cpus) :=
  (request.target b.config).map (b.dataplane.reloadConfig env)

/-- The machine of the balancer. -/
def balancer (cpus : ℕ) : Machine (Balancer cpus) (Incoming cpus) Outgoing where
  step
    | .request env request => fun b =>
      let reload := b.reload env request
      let (handled, config) := server.step (request, reload.bind Outcome.error?) b.config
      (.handled handled, ⟨config, reload.elim b.env fun _ => env,
        reload.elim b.dataplane Outcome.dataplane⟩)
    | .frame a => fun b =>
      let ((verdict, packet), x) := (xdp cpus).step a b.dataplane.xdpState
      (.frame verdict packet,
        { b with dataplane := { b.dataplane with maps := x.maps, ddos := x.ddos } })

/-- The reload for the request, if one is made, gets to the statistics. -/
def Incoming.Loads (b : Balancer cpus) : Incoming cpus → Prop
  | request env r => ∀ config ∈ r.target b.config, ∃ d₁ d₂,
      b.dataplane.publish env config = .ok d₁ ∧ d₁.switch env = .ok d₂
  | frame _ => True

def Incoming.frame? : Incoming cpus → Option (Arrival cpus)
  | request _ _ => none
  | frame a => some a

/-- The call of the API; its result does not matter for the configurations. -/
def Incoming.call? : Incoming cpus → Option ApiCall
  | request _ r => some (.change r none)
  | frame _ => none

theorem out_frame (a : Arrival cpus) (b : Balancer cpus) : (balancer cpus).out (.frame a) b =
    .frame ((xdp cpus).out a b.dataplane.xdpState).1 ((xdp cpus).out a b.dataplane.xdpState).2 := rfl

/-! ## The configurations -/

/-- The configuration of the manager is that of its server. -/
theorem config_next (i : Incoming cpus) (b : Balancer cpus) :
    ((balancer cpus).next i b).config = i.call?.elim b.config fun call => api.next call b.config := by
  cases i with
  | request env request =>
    have hnext : ((balancer cpus).next (.request env request) b).config =
        (request.target b.config).getD b.config := (server_spec b.config (request, _)).2.2
    have hapi : api.next (.change request none) b.config = (request.target b.config).getD b.config :=
      (server_spec b.config (request, none)).2.2
    exact hnext.trans hapi.symm
  | frame a => rfl

theorem config_exec (is : List (Incoming cpus)) (b : Balancer cpus) :
    ((balancer cpus).exec b is).config = api.exec b.config (is.filterMap Incoming.call?) := by
  induction is generalizing b with
  | nil => rfl
  | cons i is ih =>
    rw [Machine.exec, ih, config_next]
    cases hi : i.call? with
    | none => rw [List.filterMap_cons_none hi, Option.elim_none]
    | some call => rw [List.filterMap_cons_some hi, Option.elim_some, Machine.exec]

/-! ## The maps -/

/-- The maps have the configuration of the manager. -/
def Balancer.Sound (service : SessionStateKey → ServiceKey) (b : Balancer cpus) : Prop :=
  b.dataplane.maps.Sound b.env b.config service

theorem Balancer.Sound.next {b : Balancer cpus} (h : b.Sound service) {i : Incoming cpus}
    (hloads : i.Loads b) (hflow : ∀ a ∈ i.frame?, a.InFlow service) :
    ((balancer cpus).next i b).Sound service := by
  cases i with
  | request env request =>
    have hconfig := (server_spec b.config (request, (b.reload env request).bind Outcome.error?)).2.2
    have hstep : (balancer cpus).next (.request env request) b =
      ⟨server.next (request, (b.reload env request).bind Outcome.error?) b.config,
        (b.reload env request).elim b.env fun _ => env,
        (b.reload env request).elim b.dataplane Outcome.dataplane⟩ := rfl
    rw [hstep, hconfig]
    -- a request that is not taken changes nothing; one that is taken reloads
    cases htarget : request.target b.config with
    | none =>
      rw [reload, htarget]
      exact h
    | some config =>
      obtain ⟨d₁, d₂, hpub, hswitch⟩ := hloads config htarget
      rw [reload, htarget]
      exact Maps.Sound.of_reloadConfig hpub hswitch
  | frame a => exact Maps.Sound.frame (x := b.dataplane.xdpState) h (hflow a rfl)

/-! ## Switches -/

/-- Switches do not move services. -/
theorem BaseConfig.LastAt.withSwitches {key : ServiceKey} {i : ℕ} (h : config.LastAt env key i s)
    (switch : Switches) :
    (config.withSwitches switch).LastAt env key i (s.withSwitches fun j => switch (i, j)) := by
  obtain ⟨hi, hkey, hlast⟩ := h
  refine ⟨?_, hkey, fun j later hj hlater => ?_⟩
  · rw [BaseConfig.withSwitches, List.getElem?_mapIdx, hi, Option.map_some]
  · rw [BaseConfig.withSwitches, List.getElem?_mapIdx] at hlater
    obtain ⟨later', hlater', rfl⟩ := Option.map_eq_some_iff.1 hlater
    exact hlast j later' hj hlater'

/-- The reals of a service with other switches. -/
theorem exists_of_mem_withSwitches {switch : ℕ → Bool} {real : BalancerReal}
    (h : real ∈ (s.withSwitches switch).reals) :
    ∃ (j : ℕ) (given : BalancerReal), s.reals[j]? = some given ∧
      real = { given with enabled := switch j } := by
  obtain ⟨j, hj⟩ := List.mem_iff_getElem?.1 h
  rw [BalancerService.withSwitches, List.getElem?_mapIdx] at hj
  obtain ⟨given, hgiven, rfl⟩ := Option.map_eq_some_iff.1 hj
  exact ⟨j, given, hgiven, rfl⟩

/-- Switched off is switched off. From a reload of any dataplane that gets to its statistics, in every
    run of requests that change the configuration and of frames of any bytes, in which every reload
    gets to its statistics and no two services share a flow: a frame that goes out to a service of
    round robin or weighted round robin that has reals, by the configuration loaded last, goes to
    the MAC address of a real of it that is switched on, by the last request that leads to it or
    else as it was loaded. -/
theorem switched_off (hpub : d.publish env config = .ok d₁) (hswitch : d₁.switch env = .ok d₂)
    (service : SessionStateKey → ServiceKey) {is : List (Incoming cpus)}
    (hloads : (balancer cpus).Each Incoming.Loads (.load d env config) is)
    (hflows : ∀ a ∈ is.filterMap Incoming.frame?, a.InFlow service) :
    let b := (balancer cpus).exec (.load d env config) is
    let history := (is.filterMap Incoming.call?).foldl ApiCall.record (config, [])
    ∀ (a : Arrival cpus) (h : Headers) (i : ℕ) (s : BalancerService) (q : Packet),
      a.InFlow service → a.bytes.headers = some h →
      history.1.LastAt b.env (h.call a.ctx a.bytes).key i s → s.type ≠ .ch → s.reals ≠ [] →
      (balancer cpus).out (.frame a) b = .frame .tx q →
        ∃ j real mac, s.reals[j]? = some real ∧ switchesAfter history (i, j) ∧
          real.mac b.env = some mac ∧ slice q 0 6 = leBytes 6 mac.toNat := by
  intro b history a h i s q hflow hh hlast htype hreals hout
  have hstart : (Balancer.load d env config).Sound service :=
    Maps.Sound.of_reloadConfig hpub hswitch
  have hsound : b.Sound service := by
    refine (Machine.always_of_step (M := balancer cpus) (P := Balancer.Sound service)
      (Q := fun b i => i.Loads b ∧ ∀ a ∈ i.frame?, a.InFlow service)
      (fun b i hb hi => hb.next hi.1 hi.2) hstart
      (Machine.each_iff.2 fun x hx => ⟨Machine.each_iff.1 hloads x hx, fun a ha => ?_⟩)).exec
    have hmem : x.2 ∈ is := by
      rw [← (balancer cpus).map_snd_trace _ is]
      exact List.mem_map_of_mem hx
    exact hflows a (List.mem_filterMap.2 ⟨x.2, hmem, ha⟩)
  have hconfig : b.config = history.1.withSwitches (switchesAfter history) :=
    (config_exec is _).trans (exec_api config _)
  rw [Balancer.Sound, hconfig] at hsound
  -- the service with its switches
  have hs := BaseConfig.serviceAt_eq_some_iff.2 ⟨i, hlast.withSwitches (switchesAfter history)⟩
  have hsome : (s.withSwitches fun j => switchesAfter history (i, j)).reals ≠ [] := by
    rw [BalancerService.withSwitches, Ne, List.mapIdx_eq_nil_iff]
    exact hreals
  -- the real that the frame goes to, back in the configuration as it was loaded
  rw [out_frame] at hout
  obtain ⟨hverdict, hpacket⟩ := Outgoing.frame.inj hout
  obtain ⟨real, hreal, henabled, backend, ht, rfl⟩ := Maps.Sound.exists_real
    (x := b.dataplane.xdpState) hsound hflow hh hs htype hsome (Prod.ext hverdict hpacket)
  obtain ⟨j, given, hgiven, rfl⟩ := exists_of_mem_withSwitches hreal
  exact ⟨j, given, backend.mac, hgiven, henabled, ht.represents.mac, (rewrite_spec hh backend).1⟩

/-- A service with two reals, -/
def demoPair : BalancerService := demoService "10.0.0.1" .rr ["10.0.1.1", "10.0.1.2"]

def demoPairs : BaseConfig := { services := [demoPair] }

/-- and a request that switches the first one off. -/
def demoSwitchOff : Request := .setBackendStatus ⟨"10.0.0.1", "", 0, "10.0.1.1", false⟩

/-- A SYN to the service goes to the second one. -/
theorem switched_off_demo :
    let b := (balancer 1).exec (.load (.fresh 1) demoEnv demoPairs) [.request demoEnv demoSwitchOff]
    ∃ q, (balancer 1).out (.frame ⟨⟨0, 0⟩, demoSyn, []⟩) b = .frame .tx q ∧
      slice q 0 6 = leBytes 6 2 := by
  intro b
  have hpub : (Dataplane.fresh 1).publish demoEnv demoPairs = .ok (demoPublished _) :=
    demoDataplane_published (by decide +kernel)
  have hswitch : (demoPublished demoPairs).switch demoEnv = .ok (demoDataplane _) :=
    demoDataplane_switched (by decide +kernel)
  have hloads : (balancer 1).Each Incoming.Loads (.load (.fresh 1) demoEnv demoPairs)
      [.request demoEnv demoSwitchOff] := by
    have hok : ∀ config ∈ demoSwitchOff.target demoPairs,
        let d := ((Dataplane.fresh 1).reloadConfig demoEnv demoPairs).dataplane
        Except.isOk (d.publish demoEnv config) ∧
          Except.isOk ((d.publish demoEnv config).dataplane.switch demoEnv) := by decide +kernel
    exact ⟨fun config hconfig => ⟨_, _, Outcome.eq_ok (hok config hconfig).1,
      Outcome.eq_ok (hok config hconfig).2⟩, trivial⟩
  have henv : b.env = demoEnv := by
    have hnext : b.env =
      ((Balancer.load (.fresh 1) demoEnv demoPairs).reload demoEnv demoSwitchOff).elim demoEnv
        fun _ => demoEnv := rfl
    rw [hnext]
    cases Balancer.reload _ _ _ <;> rfl
  have hlast : demoPairs.LastAt b.env (Headers.call (⟨0, 0⟩ : Ctx 1) demoSyn (.tcpV4 34)).key 0
      demoPair := by
    rw [henv]
    refine ⟨rfl, by decide +kernel, fun j later hj hlater => ?_⟩
    have hlength : demoPairs.services.length ≤ j := hj
    rw [List.getElem?_eq_none hlength] at hlater
    cases hlater
  have htx : ((xdp 1).out ⟨⟨0, 0⟩, demoSyn, []⟩ b.dataplane.xdpState).1 = .tx := by decide +kernel
  have hout : (balancer 1).out (.frame ⟨⟨0, 0⟩, demoSyn, []⟩) b =
      .frame .tx ((xdp 1).out ⟨⟨0, 0⟩, demoSyn, []⟩ b.dataplane.xdpState).2 := by
    rw [out_frame, htx]
  refine ⟨_, hout, ?_⟩
  obtain ⟨j, real, mac, hreal, hon, hmac, hdst⟩ := switched_off hpub hswitch SessionStateKey.service
    hloads (by simp [Incoming.frame?]) _ _ 0 demoPair _ (demoSyn_inFlow _) demoSyn_headers hlast
    (by decide) (by decide) hout
  rcases j with _ | _ | j
  · exact absurd hon (by decide +kernel)
  · have hsecond : ∀ real ∈ demoPair.reals[1]?, real.mac demoEnv = some 2 := by decide +kernel
    have hmac : real.mac b.env = some mac := hmac
    rw [henv, hsecond real hreal] at hmac
    rw [hdst, ← Option.some.inj hmac]
    rfl
  · cases hreal

end L4Balancer
