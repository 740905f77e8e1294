import L4Balancer.Control.Proto

/-!
# Getting and updating

A configuration that an operator gets from the server and gives back to it goes through the
encoding of `grpc_mappers.h` and its decoding (`Proto`). Field by field the decoding inverts
the encoding, but for the port of a real: `ToProtoBackend` writes zero for it and
`FromProtoBackend` reads nothing, so that it becomes what the memory held
(`fromProtoConfiguration_toProto`). So the services come back only if the memory happens to hold
the ports that they had (`getUpdate_iff`).
-/

namespace L4Balancer

/-- `ToProtoAlgorithm`. -/
def toProtoAlgorithm : BalancerType → String
  | .rr => "rr"
  | .wrr => "wrr"
  | .ch => "ch"

/-- `ToProtoBackend`. -/
def toProtoBackend (real : BalancerReal) : Api.Backend where
  ip := real.ip
  port := 0
  weight := real.weight.toUInt32
  enabled := real.enabled
  ipVersion := real.ipVersion.toUInt32

/-- `toProtoService`. -/
def toProtoService (service : BalancerService) : Api.Service where
  name := service.name
  vip := service.vip
  port := service.port
  protocol := service.protocol
  ipVersion := service.ipVersion.toUInt32
  algorithm := toProtoAlgorithm service.type
  backends := service.reals.map toProtoBackend

/-- `ToProtoConfiguration`. -/
def toProtoConfiguration (services : List BalancerService) : Api.Configuration where
  services := services.map toProtoService

/-- Getting the services and giving them back reports no error and yields them. -/
def GetUpdate (uninit : ℕ → ℕ → UInt32) (services : List BalancerService) : Prop :=
  fromProtoConfiguration uninit (toProtoConfiguration services) = ({ services := services }, [])

instance (uninit : ℕ → ℕ → UInt32) (services : List BalancerService) :
    Decidable (GetUpdate uninit services) :=
  inferInstanceAs (Decidable (_ = _))

/-! ## The decoding of the encoding -/

theorem fromString_toProtoAlgorithm (type : BalancerType) :
    BalancerType.fromString (toProtoAlgorithm type) = some type := by
  cases type <;> rfl

/-- The services with other ports of their reals. -/
def withPorts (port : ℕ → ℕ → UInt32) (services : List BalancerService) : List BalancerService :=
  services.mapIdx fun i service =>
    { service with reals := service.reals.mapIdx fun j real => { real with port := port i j } }

theorem fromProtoBackend_toProto (uninit : UInt32) (real : BalancerReal) :
    fromProtoBackend uninit (toProtoBackend real) = { real with port := uninit } := by
  simp [fromProtoBackend, toProtoBackend]

theorem fromProtoService_toProto (uninit : ℕ → UInt32) (service : BalancerService) :
    fromProtoService uninit (toProtoService service) =
      .ok { service with reals := service.reals.mapIdx fun j real =>
        { real with port := uninit j } } := by
  have hreals : (service.reals.map toProtoBackend).mapIdx
      (fun j backend => fromProtoBackend (uninit j) backend) =
      service.reals.mapIdx fun j real => { real with port := uninit j } := by
    rw [List.mapIdx_eq_iff]
    intro j
    rw [List.getElem?_mapIdx, List.getElem?_map, Option.map_map]
    congr 1
    exact funext fun real => (fromProtoBackend_toProto (uninit j) real).symm
  simp only [fromProtoService, toProtoService, fromString_toProtoAlgorithm, hreals,
    UInt8.toUInt8_toUInt32]

theorem fromProtoServices_toProto (uninit : ℕ → ℕ → UInt32) (i : ℕ)
    (services : List BalancerService) :
    fromProtoServices uninit i (services.map toProtoService) =
      (withPorts (fun k => uninit (i + k)) services, []) := by
  induction services generalizing i with
  | nil => rfl
  | cons service services ih =>
    have hindex : ∀ k, i + 1 + k = i + (k + 1) := fun k => by omega
    rw [List.map_cons, fromProtoServices, ih, fromProtoService_toProto, withPorts, withPorts,
      List.mapIdx_cons]
    simp only [hindex, Nat.add_zero]

/-- What comes back are the services with the ports that the memory held, and no error. -/
theorem fromProtoConfiguration_toProto (uninit : ℕ → ℕ → UInt32) (services : List BalancerService) :
    fromProtoConfiguration uninit (toProtoConfiguration services) =
      ({ services := withPorts uninit services }, []) := by
  rw [fromProtoConfiguration, toProtoConfiguration, fromProtoServices_toProto]
  simp only [Nat.zero_add]

/-! ## The services that come back -/

/-- A list is left as it is exactly if each of its elements is. -/
theorem mapIdx_eq_self_iff {α : Type*} {f : ℕ → α → α} {as : List α} :
    as.mapIdx f = as ↔ ∀ i a, as[i]? = some a → f i a = a := by
  rw [List.mapIdx_eq_iff]
  refine forall_congr' fun i => ?_
  cases as[i]? with
  | none => simp
  | some a => simp [eq_comm]

theorem setPort_eq_self_iff {port : UInt32} {real : BalancerReal} :
    { real with port := port } = real ↔ port = real.port := by
  cases real
  simp

theorem setReals_eq_self_iff {reals : List BalancerReal} {service : BalancerService} :
    { service with reals := reals } = service ↔ reals = service.reals := by
  cases service
  simp

/-- The memory that decoding leaves uninitialised holds the ports of the reals. -/
def HoldsPorts (uninit : ℕ → ℕ → UInt32) (services : List BalancerService) : Prop :=
  ∀ i service, services[i]? = some service →
    ∀ j real, service.reals[j]? = some real → uninit i j = real.port

theorem withPorts_eq_self_iff {uninit : ℕ → ℕ → UInt32} {services : List BalancerService} :
    withPorts uninit services = services ↔ HoldsPorts uninit services := by
  rw [withPorts, mapIdx_eq_self_iff, HoldsPorts]
  refine forall_congr' fun i => forall_congr' fun service => imp_congr_right fun _ => ?_
  simp only [setReals_eq_self_iff, mapIdx_eq_self_iff, setPort_eq_self_iff]

/-- No memory holds two ports at one place, so that only services without reals are safe from it. -/
theorem forall_holdsPorts_iff {services : List BalancerService} :
    (∀ uninit, HoldsPorts uninit services) ↔ ∀ service ∈ services, service.reals = [] := by
  constructor
  · intro h service hservice
    obtain ⟨i, hi⟩ := List.mem_iff_getElem?.1 hservice
    cases hreals : service.reals with
    | nil => rfl
    | cons real reals =>
      have hheld : ∀ port, port = real.port := fun port =>
        h (fun _ _ => port) i service hi 0 real (by rw [hreals]; rfl)
      exact absurd ((hheld 0).trans (hheld 1).symm) (by decide)
  · intro h uninit i service hi j real hj
    rw [h service (List.mem_of_getElem? hi)] at hj
    cases hj

/-- Get then update is the identity exactly if the memory that decoding leaves uninitialised holds the
    ports of the reals; whatever it holds, exactly if no service has a real. -/
theorem getUpdate_iff (services : List BalancerService) :
    (∀ uninit, GetUpdate uninit services ↔ HoldsPorts uninit services) ∧
      ((∀ uninit, GetUpdate uninit services) ↔ ∀ service ∈ services, service.reals = []) := by
  have hiff : ∀ uninit, GetUpdate uninit services ↔ HoldsPorts uninit services := fun uninit => by
    rw [GetUpdate, fromProtoConfiguration_toProto, ← withPorts_eq_self_iff]
    simp
  exact ⟨hiff, (forall_congr' hiff).trans forall_holdsPorts_iff⟩

/-- A real loses its port. -/
theorem getUpdate_port_lost :
    ¬GetUpdate (fun _ _ => 0)
      [⟨[⟨"10.0.1.1", true, 1, 4, 80⟩], "web", "10.0.0.1", "tcp", 80, .rr, 4⟩] := by
  decide

end L4Balancer
