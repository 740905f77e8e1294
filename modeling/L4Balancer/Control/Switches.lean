import Mathlib.Logic.Function.Basic
import L4Balancer.Control.Metrics
import L4Balancer.Control.RoundTrip
import L4Balancer.Control.Server

/-!
# The API and its switches

All requests of the gRPC server that are about the configuration (`api`): those of `server`, which
change it, and `GetConfig`, `ListServices` and `ListBackends`, which read it. `ListServices` passes
no metrics on, whether they are asked for or not: it has the maps for them, but nothing fills them.

To an operator the configuration is a board with one switch for each real (`board`). A request for
a real throws the switch at the position that its names lead to (`BaseConfig.locate`), which depends
on no switch; the other requests look at the board, or replace it. The server is such a board
(`api_board`), so that a switch is as the last request for it says, whatever the others do and
whatever the reloads return (`last_request_wins`).
-/

namespace L4Balancer

/-! ## Reading -/

namespace Api

/-- `api::ServiceMetrics`. -/
structure ServiceMetrics where
  totalPackets : UInt64
  tcpSynPackets : UInt64
  preparedPackets : UInt64
  activeConnections : UInt32
  totalBytes : UInt64
  deriving DecidableEq

/-- `api::BackendInfo`. -/
structure BackendInfo where
  ip : String
  port : UInt32
  weight : UInt32
  enabled : Bool
  metrics : Option ServiceMetrics := none
  deriving DecidableEq

/-- `api::ServiceInfo`. -/
structure ServiceInfo where
  name : String
  vip : String
  port : UInt32
  protocol : String
  backends : List BackendInfo
  metrics : Option ServiceMetrics := none
  deriving DecidableEq

/-- `api::ListServicesRequest`, with the fields of its filter. -/
structure ListServicesRequest where
  protocol : Option String := none
  enabledOnly : Bool := false
  ipVersion : Option UInt32 := none
  includeBackends : Bool := false
  includeMetrics : Bool := false

end Api

/-- `ToProtoServiceMetrics`. -/
def toProtoServiceMetrics (data : MetricsData) : Api.ServiceMetrics where
  totalPackets := data.totalPackets
  tcpSynPackets := data.tcpSynPackets
  preparedPackets := data.preparedPackets
  activeConnections := .ofBitVec data.connections
  totalBytes := data.totalBytes

/-- `ToProtoBackendInfo`, without metrics or with them. -/
def toProtoBackendInfo (real : BalancerReal) (metrics : Option MetricsData := none) :
    Api.BackendInfo where
  ip := real.ip
  port := real.port
  weight := real.weight.toUInt32
  enabled := real.enabled
  metrics := metrics.map toProtoServiceMetrics

/-- `ToProtoServiceInfo`. -/
def toProtoServiceInfo (service : BalancerService) (includeBackends includeMetrics : Bool)
    (svcMetrics : Option MetricsData) (backendMetricsMap : List (String × MetricsData)) :
    Api.ServiceInfo where
  name := service.name
  vip := service.vip
  port := service.port
  protocol := service.protocol
  backends :=
    if includeBackends then
      service.reals.map fun real =>
        toProtoBackendInfo real (if includeMetrics then backendMetricsMap.lookup real.ip else none)
    else []
  metrics := if includeMetrics then svcMetrics.map toProtoServiceMetrics else none

/-- The service gets past the filter. -/
def Api.ListServicesRequest.passes (request : Api.ListServicesRequest) (svc : BalancerService) :
    Bool :=
  request.protocol.all (svc.protocol = ·) &&
    request.ipVersion.all (svc.ipVersion.toUInt32 = ·) &&
    (!request.enabledOnly || svc.reals.any (·.enabled))

/-- `ControlplaneApiServerImpl::ListServices`. -/
def BaseConfig.listServicesReply (config : BaseConfig) (request : Api.ListServicesRequest) :
    List Api.ServiceInfo :=
  (config.listServices.filter request.passes).map fun svc =>
    toProtoServiceInfo svc request.includeBackends request.includeMetrics none []

/-- `ConfigManager::ListBackends`. -/
def BaseConfig.listBackends (config : BaseConfig) : List BalancerReal :=
  config.services.flatMap (·.reals)

/-- A request to the server; one that changes the configuration comes with the result of the reload
    that is made for it, if one is made. -/
inductive ApiCall
  | change (request : Request) (result : Option String)
  | getConfig
  | listServices (request : Api.ListServicesRequest)
  | listBackends

/-- What the server answers. -/
inductive ApiReply
  | changed (handled : Handled)
  | config (proto : Api.Configuration)
  | services (services : List Api.ServiceInfo)
  | backends (backends : List Api.BackendInfo)

/-- The machine of the API. -/
def api : Machine BaseConfig ApiCall ApiReply where
  step
    | .change request result => fun config =>
      Prod.map .changed id (server.step (request, result) config)
    | .getConfig => fun config => (.config (toProtoConfiguration config.listServices), config)
    | .listServices request => fun config => (.services (config.listServicesReply request), config)
    | .listBackends => fun config => (.backends (config.listBackends.map toProtoBackendInfo), config)

/-! ## The board -/

/-- One switch for each real: that of the real `j` of the service `i`. -/
abbrev Switches := ℕ × ℕ → Bool

/-- The service with other switches. -/
def BalancerService.withSwitches (service : BalancerService) (switch : ℕ → Bool) :
    BalancerService :=
  { service with reals := service.reals.mapIdx fun j real => { real with enabled := switch j } }

namespace BaseConfig

variable (config : BaseConfig)

/-- The switches as the configuration has them. -/
def switches : Switches := fun (i, j) =>
  (config.services[i]?.bind (·.reals[j]?)).elim false (·.enabled)

/-- The configuration with other switches. -/
def withSwitches (switch : Switches) : BaseConfig :=
  { config with services := config.services.mapIdx fun i service =>
      service.withSwitches fun j => switch (i, j) }

/-- The position of the real that a request is about, or the error. -/
def locate (request : Api.SetBackendStatusRequest) : Except String (ℕ × ℕ) :=
  let serviceName := config.targetName request
  if serviceName = "" then
    .error s!"service not found by vip={request.vip} port={request.servicePort}"
  else
    match config.services.findIdx? (·.name = serviceName) with
    | none => .error s!"service with name {serviceName} not found"
    | some i =>
      match (config.services[i]?.elim [] (·.reals)).findIdx? (·.ip = request.backendIp) with
      | none => .error s!"real {request.backendIp} not found"
      | some j => .ok (i, j)

end BaseConfig

/-- A configuration as it was loaded, and the switches now. -/
structure Board where
  config : BaseConfig
  switch : Switches

/-- The configuration that an operator sees. -/
def Board.view (b : Board) : BaseConfig := b.config.withSwitches b.switch

/-- The board with another configuration. -/
def Board.load (config : BaseConfig) : Board := ⟨config, config.switches⟩

/-- The machine of the board. -/
def board : Machine Board ApiCall ApiReply where
  step
    | .change (.updateConfig proto uninit) result => fun b =>
      match fromProtoConfiguration uninit proto with
      | (config, []) => (.changed (loadConfig config result).1, .load config)
      | (_, errors) => (.changed ⟨⟨false, errors⟩, none, none⟩, b)
    | .change (.setBackendStatus request) _ => fun b =>
      match b.config.locate request with
      | .error e => (.changed ⟨⟨false, [e]⟩, none, none⟩, b)
      | .ok position =>
        let b := { b with switch := Function.update b.switch position request.status }
        (.changed ⟨⟨true, []⟩, some b.view, none⟩, b)
    | .getConfig => fun b => (.config (toProtoConfiguration b.view.services), b)
    | .listServices request => fun b => (.services (b.view.listServicesReply request), b)
    | .listBackends => fun b => (.backends (b.view.listBackends.map toProtoBackendInfo), b)

section Lists

variable {α β : Type*} {as : List α}

/-- What is looked for in a list that has been mapped. -/
theorem findIdx?_mapIdx {f : ℕ → α → β} {p : β → Bool} {q : α → Bool}
    (h : ∀ i a, p (f i a) = q a) : (as.mapIdx f).findIdx? p = as.findIdx? q := by
  induction as generalizing f with
  | nil => rfl
  | cons a as ih =>
    rw [List.mapIdx_cons, List.findIdx?_cons, List.findIdx?_cons, h, ih fun i a => h (i + 1) a]

theorem elim_find?_mapIdx {γ : Type*} {f : ℕ → α → β} {p : β → Bool} {q : α → Bool} {g : β → γ}
    {g' : α → γ} (c : γ) (h : ∀ i a, p (f i a) = q a) (hg : ∀ i a, g (f i a) = g' a) :
    ((as.mapIdx f).find? p).elim c g = (as.find? q).elim c g' := by
  induction as generalizing f with
  | nil => rfl
  | cons a as ih =>
    rw [List.mapIdx_cons, List.find?_cons, List.find?_cons, h]
    cases q a with
    | true => exact hg 0 a
    | false => exact ih (fun i a => h (i + 1) a) fun i a => hg (i + 1) a

/-- Setting an element of a list that has been mapped. -/
theorem set_mapIdx {f g : ℕ → α → β} {i : ℕ} {b : β} (hi : ∀ a, as[i]? = some a → g i a = b)
    (hne : ∀ j a, j ≠ i → g j a = f j a) : (as.mapIdx f).set i b = as.mapIdx g := by
  refine List.ext_getElem? fun j => ?_
  rw [List.getElem?_set, List.getElem?_mapIdx, List.getElem?_mapIdx, List.length_mapIdx]
  split_ifs with hij hlt
  · subst hij
    rw [List.getElem?_eq_getElem hlt, Option.map_some, hi _ (List.getElem?_eq_getElem hlt)]
  · subst hij
    rw [List.getElem?_eq_none (not_lt.1 hlt), Option.map_none]
  · cases as[j]? with
    | none => rfl
    | some a => rw [Option.map_some, Option.map_some, hne j a (Ne.symm hij)]

variable {p : α → Bool} {f : α → Except String α} {error : String}

/-- The element that is modified is the one found. -/
theorem modifyFirst_eq (as : List α) : modifyFirst p f error as =
    match as.findIdx? p with
    | none => .error error
    | some i => (as[i]?.elim (.error error) f).map (as.set i ·) := by
  induction as with
  | nil => rfl
  | cons a as ih =>
    rw [modifyFirst, List.findIdx?_cons]
    cases p a with
    | true => rfl
    | false =>
      rw [if_neg Bool.false_ne_true, if_neg Bool.false_ne_true, ih]
      cases as.findIdx? p with
      | none => rfl
      | some i =>
        dsimp only [Option.map_some]
        rw [List.getElem?_cons_succ]
        cases as[i]?.elim (.error error) f <;> rfl

end Lists

/-- The switches of a service as it has them. -/
theorem BalancerService.withSwitches_self {service : BalancerService} {switch : ℕ → Bool}
    (h : ∀ j real, service.reals[j]? = some real → switch j = real.enabled) :
    service.withSwitches switch = service := by
  have hreals : (service.reals.mapIdx fun j real => { real with enabled := switch j }) =
      service.reals := by
    refine List.ext_getElem? fun j => ?_
    rw [List.getElem?_mapIdx]
    cases hj : service.reals[j]? with
    | none => rfl
    | some real => rw [Option.map_some, h j real hj]
  rw [withSwitches, hreals]

namespace BaseConfig

variable (config : BaseConfig) (switch : Switches)

theorem withSwitches_switches : config.withSwitches config.switches = config := by
  have hservices : (config.services.mapIdx fun i service =>
      service.withSwitches fun j => config.switches (i, j)) = config.services := by
    refine List.ext_getElem? fun i => ?_
    rw [List.getElem?_mapIdx]
    cases hi : config.services[i]? with
    | none => rfl
    | some service =>
      rw [Option.map_some, BalancerService.withSwitches_self fun j real hj => ?_]
      rw [switches, hi, Option.bind_some, hj, Option.elim_some]
  rw [withSwitches, hservices]

variable (request : Api.SetBackendStatusRequest)

theorem targetName_withSwitches :
    (config.withSwitches switch).targetName request = config.targetName request := by
  have hfind : ∀ p : BalancerService → Bool, (∀ row service, p (service.withSwitches row) = p service) →
      ((config.withSwitches switch).services.find? p).elim "" (·.name) =
        (config.services.find? p).elim "" (·.name) :=
    fun p hp => elim_find?_mapIdx "" (fun _ service => hp _ service) fun _ _ => rfl
  rw [targetName, targetName, hfind _ fun _ _ => rfl]

end BaseConfig

/-- The switches of a service, if one of them is thrown, -/
theorem Switches.update_row (switch : Switches) (i j : ℕ) (b : Bool) :
    (fun k => Function.update switch (i, j) b (i, k)) =
      Function.update (fun k => switch (i, k)) j b := by
  funext k
  simp only [Function.update_apply, Prod.mk.injEq, true_and]

/-- or one of another service. -/
theorem Switches.update_row_ne (switch : Switches) {i i' : ℕ} (h : i' ≠ i) (j : ℕ) (b : Bool) :
    (fun k => Function.update switch (i, j) b (i', k)) = fun k => switch (i', k) := by
  funext k
  exact Function.update_of_ne (fun he => h (Prod.mk.inj he).1) _ _

/-- A service with another switch for one of its reals. -/
theorem BalancerService.set_reals {service : BalancerService} (switch : ℕ → Bool) {j : ℕ}
    {real : BalancerReal} (hj : service.reals[j]? = some real) (enabled : Bool) :
    { service.withSwitches switch with
      reals := (service.withSwitches switch).reals.set j { real with enabled := enabled } } =
      service.withSwitches (Function.update switch j enabled) := by
  have hreals : (service.withSwitches switch).reals.set j { real with enabled := enabled } =
      (service.withSwitches (Function.update switch j enabled)).reals := by
    refine set_mapIdx (fun a ha => ?_) fun k a hk => ?_
    · rw [Option.some.inj (ha.symm.trans hj), Function.update_self]
    · rw [Function.update_of_ne hk]
  rw [hreals]
  rfl

/-- A request for a real throws its switch. -/
theorem BaseConfig.setBackendStatus_eq (config : BaseConfig) (switch : Switches)
    (request : Api.SetBackendStatusRequest) :
    (config.withSwitches switch).setBackendStatus request =
      (config.locate request).map fun position =>
        config.withSwitches (Function.update switch position request.status) := by
  rw [setBackendStatus, locate, targetName_withSwitches]
  split_ifs with hname
  · rfl
  -- the service and the real are looked for by their names, which have no switches
  have hservice : (config.withSwitches switch).services.findIdx?
      (fun service => decide (service.name = config.targetName request)) =
        config.services.findIdx? fun service => decide (service.name = config.targetName request) :=
    findIdx?_mapIdx fun _ _ => rfl
  rw [setRealState, modifyFirst_eq, hservice]
  cases hi : config.services.findIdx? fun service =>
    decide (service.name = config.targetName request) with
  | none => rfl
  | some i =>
    obtain ⟨hlt, -⟩ := List.findIdx?_eq_some_iff_getElem.1 hi
    have hget := List.getElem?_eq_getElem hlt
    generalize config.services[i] = service at hget
    have hget' : (config.withSwitches switch).services[i]? =
        some (service.withSwitches fun j => switch (i, j)) := by
      rw [withSwitches, List.getElem?_mapIdx, hget, Option.map_some]
    have hreal : (service.withSwitches fun j => switch (i, j)).reals.findIdx?
        (fun real => decide (real.ip = request.backendIp)) =
          service.reals.findIdx? fun real => decide (real.ip = request.backendIp) :=
      findIdx?_mapIdx fun _ _ => rfl
    dsimp only
    rw [hget', hget, Option.elim_some, Option.elim_some, modifyFirst_eq, hreal]
    cases hj : service.reals.findIdx? fun real => decide (real.ip = request.backendIp) with
    | none => rfl
    | some j =>
      obtain ⟨hltj, -⟩ := List.findIdx?_eq_some_iff_getElem.1 hj
      have hgetj := List.getElem?_eq_getElem hltj
      generalize service.reals[j] = real at hgetj
      have hgetj' : (service.withSwitches fun j => switch (i, j)).reals[j]? =
          some { real with enabled := switch (i, j) } := by
        rw [BalancerService.withSwitches, List.getElem?_mapIdx, hgetj, Option.map_some]
      have hset := BalancerService.set_reals (fun j => switch (i, j)) hgetj request.status
      have hservices : (config.withSwitches switch).services.set i
          (service.withSwitches (Function.update (fun j => switch (i, j)) j request.status)) =
            (config.withSwitches (Function.update switch (i, j) request.status)).services := by
        refine set_mapIdx (fun a ha => ?_) fun k a hk => ?_
        · rw [Option.some.inj (ha.symm.trans hget), switch.update_row]
        · rw [switch.update_row_ne hk]
      dsimp only
      rw [hgetj', Option.elim_some]
      exact congrArg (fun services => Except.ok (BaseConfig.mk services config.ddosConf))
        ((congrArg (List.set _ i) hset).trans hservices)

/-! ## The server is a board -/

@[simp] theorem Board.view_load (config : BaseConfig) : (load config).view = config :=
  config.withSwitches_switches

/-- What the last of the requests that lead to a position says. -/
def lastStatus (config : BaseConfig) (position : ℕ × ℕ) (requests : List Api.SetBackendStatusRequest) :
    Option Bool :=
  (requests.reverse.find? fun request => (config.locate request).toOption = some position).map
    (·.status)

/-- What a request adds to the history: the configuration that was loaded last, and the requests for
    reals since. -/
def ApiCall.record (history : BaseConfig × List Api.SetBackendStatusRequest) :
    ApiCall → BaseConfig × List Api.SetBackendStatusRequest
  | change (.updateConfig proto uninit) _ =>
    match fromProtoConfiguration uninit proto with
    | (config, []) => (config, [])
    | _ => history
  | change (.setBackendStatus request) _ => (history.1, history.2 ++ [request])
  | getConfig | listServices _ | listBackends => history

/-- The switches after a history. -/
def switchesAfter (history : BaseConfig × List Api.SetBackendStatusRequest) : Switches := fun position =>
  (lastStatus history.1 position history.2).getD (history.1.switches position)

theorem lastStatus_concat (config : BaseConfig) (position : ℕ × ℕ)
    (requests : List Api.SetBackendStatusRequest) (request : Api.SetBackendStatusRequest) :
    lastStatus config position (requests ++ [request]) =
      if (config.locate request).toOption = some position then some request.status
      else lastStatus config position requests := by
  rw [lastStatus, List.reverse_append, List.reverse_singleton, List.singleton_append,
    List.find?_cons, lastStatus]
  split_ifs with h
  · rw [decide_eq_true h]
    rfl
  · rw [decide_eq_false h]

/-- The board follows the history. -/
theorem board_follows (history : BaseConfig × List Api.SetBackendStatusRequest) (call : ApiCall) :
    board.next call ⟨history.1, switchesAfter history⟩ =
      ⟨(ApiCall.record history call).1, switchesAfter (ApiCall.record history call)⟩ := by
  rw [Machine.next]
  cases call with
  | change request result =>
    cases request with
    | updateConfig proto uninit =>
      rcases h : fromProtoConfiguration uninit proto with ⟨config, _ | ⟨e, errors⟩⟩ <;>
        simp only [board, ApiCall.record, h]
      rfl
    | setBackendStatus request =>
      rcases h : history.1.locate request with e | position <;>
        simp only [board, ApiCall.record, h, Board.mk.injEq, true_and] <;> funext position'
      · -- a request that leads nowhere throws no switch
        rw [switchesAfter, switchesAfter, lastStatus_concat, h]
        rfl
      · have hsome : (Except.ok position : Except String (ℕ × ℕ)).toOption = some position := rfl
        rw [Function.update_apply, switchesAfter, switchesAfter, lastStatus_concat, h, hsome]
        -- the one it leads to, or another one
        by_cases hp : position' = position
        · rw [if_pos hp, if_pos (congrArg some hp.symm), Option.getD_some]
        · rw [if_neg hp, if_neg fun he => hp (Option.some.inj he).symm]
  | getConfig | listServices _ | listBackends => rfl

/-- A request to the server is one to its board. -/
theorem step_view (call : ApiCall) (b : Board) :
    api.step call b.view = Prod.map id Board.view (board.step call b) := by
  cases call with
  | change request result =>
    cases request with
    | updateConfig proto uninit =>
      rcases h : fromProtoConfiguration uninit proto with ⟨config, _ | ⟨e, errors⟩⟩ <;>
        simp only [api, server, board, h, Prod.map]
      · rw [Board.view_load]
        rfl
      · rfl
    | setBackendStatus request =>
      have heq := b.config.setBackendStatus_eq b.switch request
      rcases h : b.config.locate request with e | position <;> rw [h] at heq <;>
        simp only [api, server, board, h, Board.view, heq] <;> rfl
  | getConfig | listServices _ | listBackends => rfl

/-- The server is a board. -/
theorem api_board (config : BaseConfig) (calls : List ApiCall) :
    api.outs config calls = board.outs (.load config) calls ∧
      api.exec config calls = (board.exec (.load config) calls).view := by
  have hrun := Machine.run_map (f := Board.view) (g := id) step_view (.load config) calls
  rwa [List.map_id, Board.view_load] at hrun

/-- The configuration of the server is that of the history. -/
theorem exec_api (config : BaseConfig) (calls : List ApiCall) :
    api.exec config calls = (calls.foldl ApiCall.record (config, [])).1.withSwitches
      (switchesAfter (calls.foldl ApiCall.record (config, []))) := by
  have hboard : ∀ (calls : List ApiCall) (history : BaseConfig × List Api.SetBackendStatusRequest),
      board.exec ⟨history.1, switchesAfter history⟩ calls =
        ⟨(calls.foldl ApiCall.record history).1, switchesAfter (calls.foldl ApiCall.record history)⟩ := by
    intro calls
    induction calls with
    | nil => exact fun _ => rfl
    | cons call calls ih =>
      intro history
      rw [Machine.exec, board_follows, ih, List.foldl_cons]
  rw [(api_board config calls).2, Board.view, Board.load]
  exact congrArg Board.view (hboard calls (config, []))

/-- The service gets past the filter with these switches. -/
def Api.ListServicesRequest.shows (request : Api.ListServicesRequest) (svc : BalancerService)
    (switch : ℕ → Bool) : Bool :=
  request.protocol.all (svc.protocol = ·) &&
    request.ipVersion.all (svc.ipVersion.toUInt32 = ·) &&
    (!request.enabledOnly || (List.range svc.reals.length).any switch)

theorem passes_withSwitches (request : Api.ListServicesRequest) (svc : BalancerService)
    (switch : ℕ → Bool) : request.passes (svc.withSwitches switch) = request.shows svc switch := by
  have hany : (svc.withSwitches switch).reals.any (·.enabled) =
      (List.range svc.reals.length).any switch := by
    rw [BalancerService.withSwitches, List.mapIdx_eq_zipIdx_map, List.any_map, List.range_eq_range',
      ← List.zipIdx_map_snd 0 svc.reals, List.any_map]
    rfl
  rw [Api.ListServicesRequest.passes, hany]
  rfl

/-- What a request for a real is answered. -/
def BaseConfig.answer (config : BaseConfig) (switch : Switches)
    (request : Api.SetBackendStatusRequest) : Handled :=
  match config.locate request with
  | .error e => { response := ⟨false, [e]⟩ }
  | .ok position =>
    { response := ⟨true, []⟩
      reloaded := some (config.withSwitches (Function.update switch position request.status)) }

/-- The last request wins. After any requests, with any results of the reloads, the server has the
    configuration that was loaded last, with each switch as the last request since then that
    leads to it says, or else as it was loaded. A further request is answered by the
    positions of that configuration alone, and `ListServices` shows the services by those switches. -/
theorem last_request_wins (config : BaseConfig) (calls : List ApiCall) :
    let history := calls.foldl ApiCall.record (config, [])
    let switch := switchesAfter history
    api.exec config calls = history.1.withSwitches switch ∧
    (∀ request result, api.out (.change (.setBackendStatus request) result) (api.exec config calls) =
      .changed (history.1.answer switch request)) ∧
    ∀ request, api.out (.listServices request) (api.exec config calls) =
      .services (((history.1.services.zipIdx).filter fun x =>
        request.shows x.1 fun j => switch (x.2, j)).map fun x =>
          toProtoServiceInfo (x.1.withSwitches fun j => switch (x.2, j)) request.includeBackends
            request.includeMetrics none []) := by
  dsimp only
  have hexec := exec_api config calls
  generalize calls.foldl ApiCall.record (config, []) = history at hexec
  rw [hexec]
  refine ⟨rfl, fun request result => ?_, fun request => ?_⟩
  · have heq := history.1.setBackendStatus_eq (switchesAfter history) request
    rw [Machine.out, BaseConfig.answer]
    rcases h : history.1.locate request with e | position <;> rw [h] at heq <;>
      simp only [api, server, heq] <;> rfl
  · refine congrArg ApiReply.services ?_
    rw [BaseConfig.listServicesReply, BaseConfig.listServices, BaseConfig.withSwitches]
    dsimp only
    rw [List.mapIdx_eq_zipIdx_map, List.filter_map, List.map_map]
    have hfilter : request.passes ∘ (fun x : BalancerService × ℕ =>
        x.1.withSwitches fun j => switchesAfter history (x.2, j)) = fun x =>
          request.shows x.1 fun j => switchesAfter history (x.2, j) :=
      funext fun x => passes_withSwitches request x.1 _
    exact congrArg (fun p => (history.1.services.zipIdx.filter p).map _) hfilter

end L4Balancer
