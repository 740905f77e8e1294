import L4Balancer.Control.Proto
import L4Balancer.Machine

/-!
# The server

`UpdateConfig` and `SetBackendStatus` of the gRPC server, with the methods of
`ConfigManager` they call, over any dataplane: what `ReloadConfig` returns is part of the
input. The server starts after `main` has loaded a configuration, so that the manager has
one (`server`).

The manager stores a configuration before it calls `ReloadConfig`, and neither of its
methods passes the error on: `LoadConfig` logs it, `SetRealState` drops it. So a request is
answered truthfully only as long as no reload fails (`truthful_iff`).
-/

namespace L4Balancer

/-- A request that changes the configuration. -/
inductive Request
  /-- The second argument is the memory that decoding leaves uninitialised. -/
  | updateConfig (proto : Api.Configuration) (uninit : ℕ → ℕ → UInt32)
  | setBackendStatus (request : Api.SetBackendStatusRequest)

/-- The response, `UpdateConfigResponse` or `SetBackendStatusResponse`. -/
structure Response where
  success : Bool
  errors : List String := []
  deriving DecidableEq

/-- What handling a request does outside of the manager. -/
structure Handled where
  response : Response
  /-- The configuration that `ReloadConfig` is called with. -/
  reloaded : Option BaseConfig := none
  /-- The line written to the log. -/
  logged : Option String := none
  deriving DecidableEq

/-- `ConfigManager::LoadConfig`, with the result of `ReloadConfig`. -/
def loadConfig (config : BaseConfig) (result : Option String) : Handled × BaseConfig :=
  ({ response := ⟨true, []⟩
     reloaded := some config
     logged := result.map ("[ERROR]: " ++ ·) }, config)

/-- The service that `SetBackendStatus` is about, the empty text if there is none. -/
def BaseConfig.targetName (config : BaseConfig) (request : Api.SetBackendStatusRequest) : String :=
  if request.serviceName = "" then
    (config.services.find? fun svc => svc.vip = request.vip ∧ svc.port = request.servicePort).elim ""
      (·.name)
  else request.serviceName

/-- The configuration that `SetBackendStatus` makes of the one of the manager, or its error. -/
def BaseConfig.setBackendStatus (config : BaseConfig) (request : Api.SetBackendStatusRequest) :
    Except String BaseConfig :=
  let serviceName := config.targetName request
  if serviceName = "" then
    .error s!"service not found by vip={request.vip} port={request.servicePort}"
  else config.setRealState ⟨serviceName, request.backendIp, request.status⟩

/-- The machine of the server; its state is the configuration of the manager. An input is a request
    with the result of the call of `ReloadConfig` that is made for it, if one is made. -/
def server : Machine BaseConfig (Request × Option String) Handled where
  step
    | (.updateConfig proto uninit, result) => fun config =>
      match fromProtoConfiguration uninit proto with
      | (config', []) => loadConfig config' result
      | (_, errors) => (⟨⟨false, errors⟩, none, none⟩, config)
    | (.setBackendStatus request, _) => fun config =>
      match config.setBackendStatus request with
      | .error e => (⟨⟨false, [e]⟩, none, none⟩, config)
      -- the result of the reload is not looked at
      | .ok config' => (⟨⟨true, []⟩, some config', none⟩, config')

/-- The configuration a request asks for, if it is one that the server takes. -/
def Request.target (config : BaseConfig) : Request → Option BaseConfig
  | updateConfig proto uninit =>
    if (fromProtoConfiguration uninit proto).2 = [] then some (fromProtoConfiguration uninit proto).1
    else none
  | setBackendStatus request => (config.setBackendStatus request).toOption

variable {config : BaseConfig} {x : Request × Option String} {xs : List (Request × Option String)}

/-- What a request does: the server takes it, or it answers with errors. -/
theorem server_spec (config : BaseConfig) (x : Request × Option String) :
    (server.out x config).response.success = (x.1.target config).isSome ∧
      (server.out x config).reloaded = x.1.target config ∧
      server.next x config = (x.1.target config).getD config := by
  obtain ⟨request, result⟩ := x
  cases request with
  | updateConfig proto uninit =>
    rw [Machine.out, Machine.next, Request.target]
    rcases h : fromProtoConfiguration uninit proto with ⟨config', _ | ⟨e, errors⟩⟩ <;>
      simp only [server, h] <;> exact ⟨rfl, rfl, rfl⟩
  | setBackendStatus request =>
    rw [Machine.out, Machine.next, Request.target]
    cases h : config.setBackendStatus request <;> simp only [server, h] <;> exact ⟨rfl, rfl, rfl⟩

/-! ## Success means applied -/

/-- The services that `ListServices` reports. -/
def BaseConfig.listServices (config : BaseConfig) : List BalancerService := config.services

/-- The request is answered with success only if the reload made for it returned no error, and a
    reload with an error leaves what `ListServices` reports. -/
def Truthful (config : BaseConfig) (x : Request × Option String) : Prop :=
  let r := server.out x config
  (r.response.success → r.reloaded.isSome ∧ x.2 = none) ∧
    (r.reloaded.isSome → x.2 ≠ none →
      (server.next x config).listServices = config.listServices)

/-- The server takes the request only with a reload that returns no error. -/
def Applied (config : BaseConfig) (x : Request × Option String) : Prop :=
  (x.1.target config).isSome → x.2 = none

theorem truthful_step (config : BaseConfig) (x : Request × Option String) :
    Truthful config x ↔ Applied config x := by
  obtain ⟨hsuccess, hreloaded, -⟩ := server_spec config x
  rw [Truthful, Applied, hsuccess, hreloaded]
  constructor
  · exact fun h ht => (h.1 ht).2
  · exact fun h => ⟨fun ht => ⟨ht, h ht⟩, fun ht hne => absurd (h ht) hne⟩

/-- Success means applied. For every run of requests and all results of the reloads: every request
    is answered truthfully exactly if no reload that is made for one returns an error. -/
theorem truthful_iff (config : BaseConfig) (xs : List (Request × Option String)) :
    server.Each Truthful config xs ↔ server.Each Applied config xs :=
  Machine.each_congr (I := fun _ => True) (fun _ _ h => h) (fun config x _ => truthful_step config x)
    trivial

/-- An update whose reload fails is answered with success. -/
theorem failure_answered_with_success :
    ¬server.Each Truthful { services := [] } [(.updateConfig ⟨[]⟩ fun _ _ => 0, some "no MAC")] := by
  rintro ⟨h, -⟩
  exact absurd ((truthful_step _ _).1 h rfl) (by decide)

end L4Balancer
