import L4Balancer.Control.Config

/-!
# Messages

The messages of the gRPC interface that carry configurations, and their decoding in
`grpc_mappers.h`. A decoded real has no port: the member is left uninitialised, so that
the decoding has what the memory held there as an argument (`uninit`), for each real its
own.
-/

namespace L4Balancer

namespace Api

/-- `api::Backend`. -/
structure Backend where
  ip : String
  port : UInt32
  weight : UInt32
  enabled : Bool
  ipVersion : UInt32

/-- `api::Service`. -/
structure Service where
  name : String
  vip : String
  port : UInt32
  protocol : String
  ipVersion : UInt32
  algorithm : String
  backends : List Backend

/-- `api::Configuration`. -/
structure Configuration where
  services : List Service

/-- `api::SetBackendStatusRequest`, the fields the handler reads. -/
structure SetBackendStatusRequest where
  serviceName : String
  vip : String
  servicePort : UInt32
  backendIp : String
  status : Bool

end Api

/-- `FromProtoBackend`. -/
def fromProtoBackend (uninit : UInt32) (proto : Api.Backend) : BalancerReal where
  ip := proto.ip
  enabled := proto.enabled
  weight := proto.weight.toUInt8
  ipVersion := proto.ipVersion.toUInt8
  port := uninit

/-- `FromProtoService`. -/
def fromProtoService (uninit : ℕ → UInt32) (proto : Api.Service) : Except String BalancerService :=
  match BalancerType.fromString proto.algorithm with
  | none => .error ("unknown algorithm: " ++ proto.algorithm)
  | some type => .ok
    { reals := proto.backends.mapIdx fun j backend => fromProtoBackend (uninit j) backend
      name := proto.name
      vip := proto.vip
      protocol := proto.protocol
      port := proto.port
      type := type
      ipVersion := proto.ipVersion.toUInt8 }

/-- The loop over the services, with `i` services before them: the services and the errors. -/
def fromProtoServices (uninit : ℕ → ℕ → UInt32) :
    ℕ → List Api.Service → List BalancerService × List String
  | _, [] => ([], [])
  | i, svc :: svcs =>
    let (services, errors) := fromProtoServices uninit (i + 1) svcs
    match fromProtoService (uninit i) svc with
    | .error e => (services, ("service '" ++ svc.name ++ "': " ++ e) :: errors)
    | .ok service => (service :: services, errors)

/-- `FromProtoConfiguration`. -/
def fromProtoConfiguration (uninit : ℕ → ℕ → UInt32) (proto : Api.Configuration) :
    BaseConfig × List String :=
  let (services, errors) := fromProtoServices uninit 0 proto.services
  ({ services := services }, errors)

end L4Balancer
