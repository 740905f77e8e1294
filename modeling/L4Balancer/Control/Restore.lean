import L4Balancer.Cli.ConfigFile
import L4Balancer.Control.Reloader
import L4Balancer.Control.RoundTrip
import L4Balancer.Control.Server

/-!
# Restoring a configuration

An operator prints the configuration with the command line, and gives the document back to
the server later. The server takes it, but the ports of the reals in it are lost
(`RoundTrip`). Yet no reload looks at them: the backend of a real has the port of its
service. So a reload of a configuration does the same as one of the configuration without
ports (`withoutPorts_run`), and the document restores the services, whatever has been done in
between, down to the last map (`document_restores`).

Only the settings of the filter are not in the document: `ReloadConfig` leaves those that are
in `ddos_cfg`.
-/

namespace L4Balancer

variable {cpus : ℕ} {env : Env} {config : BaseConfig} {errno : Option String}
  {d : Dataplane cpus} {p : Process cpus}

/-! ## Without ports -/

def BalancerReal.withoutPort (real : BalancerReal) : BalancerReal := { real with port := 0 }

def BalancerService.withoutPorts (service : BalancerService) : BalancerService :=
  { service with reals := service.reals.map BalancerReal.withoutPort }

def BaseConfig.withoutPorts (config : BaseConfig) : BaseConfig :=
  { config with services := config.services.map BalancerService.withoutPorts }

def Dataplane.withoutPorts (d : Dataplane cpus) : Dataplane cpus :=
  { d with currConfig := d.currConfig.withoutPorts }

def Task.withoutPorts : Task → Task
  | service env svc => service env svc.withoutPorts
  | t => t

def Process.withoutPorts (p : Process cpus) : Process cpus :=
  ⟨p.dataplane.withoutPorts, p.tasks.map Task.withoutPorts⟩

def Event.withoutPorts : Event cpus → Event cpus
  | reload env config => reload env config.withoutPorts
  | e => e

/-- Other ports are no other configuration. -/
theorem withoutPorts_withPorts (port : ℕ → ℕ → UInt32) (services : List BalancerService) :
    (withPorts port services).map BalancerService.withoutPorts =
      services.map BalancerService.withoutPorts := by
  refine List.ext_getElem? fun i => ?_
  rw [withPorts, List.getElem?_map, List.getElem?_map, List.getElem?_mapIdx, Option.map_map]
  refine congrArg (Option.map · services[i]?) (funext fun service => ?_)
  have hreals : (service.reals.mapIdx fun j real => { real with port := port i j }).map
      BalancerReal.withoutPort = service.reals.map BalancerReal.withoutPort := by
    refine List.ext_getElem? fun j => ?_
    rw [List.getElem?_map, List.getElem?_map, List.getElem?_mapIdx, Option.map_map]
    rfl
  exact congrArg (fun reals => { service with reals := reals }) hreals

/-! ## The translation -/

namespace BalancerService

variable (env) (service : BalancerService)

theorem loadReals_withoutPorts (k : ℕ) (reals : List BalancerReal) :
    service.withoutPorts.loadReals env k (reals.map BalancerReal.withoutPort) =
      service.loadReals env k reals := by
  induction reals generalizing k with
  | nil => rfl
  | cons real reals ih =>
    have hreal : service.withoutPorts.prepareReal env k real.withoutPort =
        service.prepareReal env k real := rfl
    rw [List.map_cons, loadReals, loadReals, ih, hreal]

theorem chBackends_withoutPorts (backends : List Backend) :
    service.withoutPorts.chBackends env backends = service.chBackends env backends := by
  rw [chBackends, chBackends, withoutPorts, List.filter_map, List.filterMap_map]
  rfl

end BalancerService

theorem loadServices_withoutPorts (start idx : ℕ) (services : List BalancerService) :
    loadServices env start idx (services.map BalancerService.withoutPorts) =
      loadServices env start idx services := by
  induction services generalizing start idx with
  | nil => rfl
  | cons service services ih =>
    have hkey : service.withoutPorts.prepareKey env = service.prepareKey env := rfl
    have hreals : service.withoutPorts.loadReals env start service.withoutPorts.reals =
        service.loadReals env start service.reals :=
      service.loadReals_withoutPorts env start service.reals
    have htype : service.withoutPorts.type = service.type := rfl
    simp only [List.map_cons, loadServices, hkey, hreals, ih, htype]

theorem load_withoutPorts (env : Env) (config : BaseConfig) :
    config.withoutPorts.load env = config.load env :=
  loadServices_withoutPorts 0 0 config.services

/-! ## Reloads -/

theorem reloadTasks_withoutPorts (d : Dataplane cpus) (env : Env) (b : Fin 2) :
    d.withoutPorts.reloadTasks env b = (d.reloadTasks env b).map Task.withoutPorts := by
  simp only [Dataplane.reloadTasks, Dataplane.withoutPorts, BaseConfig.withoutPorts, List.map_append,
    List.map_cons, List.map_map]
  rfl

/-- A step of a reload does not look at ports. -/
theorem Task.step_withoutPorts (errno : Option String) (d : Dataplane cpus) (t : Task) :
    t.withoutPorts.step errno d.withoutPorts =
      Prod.map Dataplane.withoutPorts (Except.map (List.map Task.withoutPorts))
        (t.step errno d) := by
  have hmaps : d.withoutPorts.maps = d.maps := rfl
  cases t with
  | write w error =>
    simp only [withoutPorts, step, hmaps]
    cases w.call errno d.maps <;> rfl
  | ddosCfg conf => cases errno <;> rfl
  | loadIndex env =>
    have hfirst : d.withoutPorts.isFirstRun = d.isFirstRun := rfl
    simp only [withoutPorts, step, hmaps, hfirst, reloadTasks_withoutPorts]
    split_ifs
    · rfl
    · cases errno <;> rfl
  | drainWrrState =>
    simp only [withoutPorts, step, hmaps]
    cases d.maps.wrrStateMap.keys.head? <;> rfl
  | drainSessions =>
    simp only [withoutPorts, step, hmaps]
    cases d.maps.tcpSessionState.keys.head? <;> rfl
  | delete w =>
    simp only [withoutPorts, step, hmaps]
    cases w.call errno d.maps <;> rfl
  | service env svc =>
    -- consistent hash looks its backends up by the addresses of the reals
    have htype : svc.withoutPorts.type = svc.type := rfl
    have hxdp : d.withoutPorts.xdp = d.xdp := rfl
    have hkey : svc.withoutPorts.chKey env = svc.chKey env := rfl
    have hmanager : d.withoutPorts.chManager = d.chManager := rfl
    simp only [withoutPorts, step, htype, hxdp, hkey, hmanager, svc.chBackends_withoutPorts]
    split_ifs
    · rfl
    · cases d.chManager.updateServiceBackends env.xxh3 (svc.chKey env)
        (svc.chBackends env d.xdp.backends) <;> rfl
    · rfl
  | publication ws =>
    cases ws with
    | nil => rfl
    | cons w ws =>
      simp only [withoutPorts, step, hmaps]
      cases w.call errno d.maps with
      | error e =>
        dsimp only
        split_ifs <;> rfl
      | ok m => rfl

/-- Nor does any event. -/
theorem Process.step_withoutPorts (e : Event cpus) (p : Process cpus) :
    (reloader cpus).step e.withoutPorts p.withoutPorts =
      Prod.map id Process.withoutPorts ((reloader cpus).step e p) := by
  obtain ⟨d, ts⟩ := p
  cases e with
  | packet c => rfl
  | reload env config =>
    cases ts with
    | cons t ts => rfl
    | nil =>
      have hstep : ∀ (d : Dataplane cpus) (config : BaseConfig),
          (reloader cpus).step (.reload env config) ⟨d, []⟩ = Process.reload ⟨d, []⟩ env config :=
        fun d config => Process.step_reload rfl env config
      change (reloader cpus).step (.reload env config.withoutPorts) ⟨d.withoutPorts, []⟩ = _
      rw [hstep, hstep, Process.reload, Process.reload, load_withoutPorts]
      rcases config.load env with ⟨xdp, _ | e⟩
      · have hconf : config.withoutPorts.ddosConf = config.ddosConf := rfl
        dsimp only
        rw [hconf]
        cases config.ddosConf <;> rfl
      · rfl
  | task errno =>
    cases ts with
    | nil => rfl
    | cons t ts =>
      change Process.step ⟨d.withoutPorts, t.withoutPorts :: ts.map Task.withoutPorts⟩ errno =
        Prod.map id Process.withoutPorts (Process.step ⟨d, t :: ts⟩ errno)
      simp only [Process.step, Task.step_withoutPorts]
      rcases t.step errno d with ⟨d', e | new⟩
      · rfl
      · dsimp only [Prod.map_apply, Except.map]
        rw [← List.map_append]
        cases new ++ ts <;> rfl

/-- The maps, the tables of consistent hash and the vectors of two dataplanes are the same. -/
structure SameEffect (d d' : Dataplane cpus) : Prop where
  maps : d'.maps = d.maps
  ddos : d'.ddos = d.ddos
  chManager : d'.chManager = d.chManager
  xdp : d'.xdp = d.xdp
  isFirstRun : d'.isFirstRun = d.isFirstRun

theorem SameEffect.of_withoutPorts {d' : Dataplane cpus} (h : d'.withoutPorts = d.withoutPorts) :
    SameEffect d d' :=
  ⟨(congrArg Dataplane.maps h :), (congrArg Dataplane.ddos h :), (congrArg Dataplane.chManager h :),
    (congrArg Dataplane.xdp h :), (congrArg Dataplane.isFirstRun h :)⟩

/-- Two configurations that differ in ports of reals only have the same effect. -/
theorem sameEffect_of_withoutPorts {config' : BaseConfig}
    (h : config'.withoutPorts = config.withoutPorts) (env : Env) (p : Process cpus)
    (es : List (Event cpus)) :
    (reloader cpus).outs p (.reload env config' :: es) =
        (reloader cpus).outs p (.reload env config :: es) ∧
      SameEffect ((reloader cpus).exec p (.reload env config :: es)).dataplane
        ((reloader cpus).exec p (.reload env config' :: es)).dataplane := by
  have hrun := fun c => Machine.run_map (M := reloader cpus) Process.step_withoutPorts p
    (.reload env c :: es)
  -- both runs are the same run once the ports are taken away
  have hsame : (Event.reload env config' :: es).map Event.withoutPorts =
      (Event.reload env config :: es).map Event.withoutPorts := by
    rw [List.map_cons, List.map_cons, Event.withoutPorts, Event.withoutPorts, h]
  obtain ⟨houts, hexec⟩ := hrun config
  obtain ⟨houts', hexec'⟩ := hrun config'
  rw [hsame] at houts' hexec'
  exact ⟨houts'.symm.trans houts,
    .of_withoutPorts (congrArg Process.dataplane (hexec'.symm.trans hexec) :)⟩

/-! ## The document -/

/-- Restoring a configuration. The document that the command line prints of the configuration of the
    server, given back to it after any further requests, is taken; and the reload of what the server
    makes of it answers and leaves, whatever packets come in between and whatever calls fail, what a
    reload of the printed services does. -/
theorem document_restores (config : BaseConfig) (xs : List (Request × Option String))
    (uninit : ℕ → ℕ → UInt32) (result : Option String) :
    ∃ proto restored,
      parseConfigJSON (printConfigJSON (toProtoConfiguration config.listServices)) = some proto ∧
      (server.out (.updateConfig proto uninit, result) (server.exec config xs)).response = ⟨true, []⟩ ∧
      (server.out (.updateConfig proto uninit, result) (server.exec config xs)).reloaded =
        some restored ∧
      server.next (.updateConfig proto uninit, result) (server.exec config xs) = restored ∧
      ∀ (cpus : ℕ) (env : Env) (p : Process cpus) (es : List (Event cpus)),
        (reloader cpus).outs p (.reload env restored :: es) =
            (reloader cpus).outs p (.reload env { services := config.services } :: es) ∧
          SameEffect
            ((reloader cpus).exec p (.reload env { services := config.services } :: es)).dataplane
            ((reloader cpus).exec p (.reload env restored :: es)).dataplane := by
  have hdecode := fromProtoConfiguration_toProto uninit config.listServices
  have hstep : ∀ config' : BaseConfig, server.step
      (.updateConfig (toProtoConfiguration config.listServices) uninit, result) config' =
        loadConfig { services := withPorts uninit config.listServices } result := fun config' => by
    simp only [server, hdecode]
  refine ⟨_, { services := withPorts uninit config.listServices }, parseConfigJSON_print _, ?_, ?_,
    ?_, fun cpus env p es => sameEffect_of_withoutPorts ?_ env p es⟩
  · rw [Machine.out, hstep]
    rfl
  · rw [Machine.out, hstep]
    rfl
  · rw [Machine.next, hstep]
    rfl
  · exact congrArg (fun services => ({ services := services } : BaseConfig))
      (withoutPorts_withPorts uninit config.services)

end L4Balancer
