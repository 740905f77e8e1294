import Mathlib.Data.UInt

/-!
# Configurations

The configuration types of `baseconfig.h`, and what `ConfigManager::SetRealState` does to
the configuration that it then reloads.
-/

namespace L4Balancer

/-- `enum class BalancerType`. -/
inductive BalancerType
  | rr
  | wrr
  | ch
  deriving DecidableEq

/-- The number of an algorithm, as `static_cast<int>` gives it. -/
def BalancerType.toUInt8 : BalancerType → UInt8
  | rr => 0
  | wrr => 1
  | ch => 2

/-- `fromString`. -/
def BalancerType.fromString (data : String) : Option BalancerType :=
  if data = "rr" then some rr
  else if data = "wrr" then some wrr
  else if data = "ch" then some ch
  else none

structure BalancerReal where
  ip : String
  enabled : Bool
  weight : UInt8 := 1
  ipVersion : UInt8 := 4
  port : UInt32
  deriving DecidableEq

structure BalancerService where
  reals : List BalancerReal
  name : String
  vip : String
  protocol : String
  port : UInt32
  type : BalancerType
  ipVersion : UInt8 := 4
  deriving DecidableEq

structure DDoSConfig where
  synThreshold : UInt32
  synAckRatio : UInt32
  globalSynThreshold : UInt32
  banDurationMs : UInt32
  deriving DecidableEq

structure BaseConfig where
  services : List BalancerService
  ddosConf : Option DDoSConfig := none
  deriving DecidableEq

/-! ## Toggling a real -/

/-- `command::SetRealStateRequest`. -/
structure SetRealStateRequest where
  serviceName : String
  realIp : String
  enabled : Bool

/-- Modifying the first element that `std::find_if` finds. -/
def modifyFirst {α : Type*} (p : α → Bool) (f : α → Except String α) (error : String) :
    List α → Except String (List α)
  | [] => .error error
  | a :: as =>
    if p a then (f a).map (· :: as) else (modifyFirst p f error as).map (a :: ·)

/-- `ConfigManager::SetRealState`, up to the reload. -/
def BaseConfig.setRealState (config : BaseConfig) (request : SetRealStateRequest) :
    Except String BaseConfig := do
  let services ← modifyFirst (·.name = request.serviceName)
    (fun service => do
      let reals ← modifyFirst (·.ip = request.realIp)
        (fun real => .ok { real with enabled := request.enabled })
        s!"real {request.realIp} not found" service.reals
      return { service with reals := reals })
    s!"service with name {request.serviceName} not found" config.services
  return { config with services := services }

/-- What the modification of an element keeps, the list keeps. -/
theorem map_modifyFirst {α β : Type*} {p : α → Bool} {f : α → Except String α} {error : String}
    {g : α → β} (hf : ∀ a a', f a = .ok a' → g a' = g a) {as as' : List α}
    (h : modifyFirst p f error as = .ok as') : as'.map g = as.map g := by
  induction as generalizing as' with
  | nil => cases h
  | cons a as ih =>
    rw [modifyFirst] at h
    split_ifs at h
    · cases ha : f a with
      | error e =>
        rw [ha] at h
        cases h
      | ok a' =>
        rw [ha] at h
        obtain rfl := Except.ok.inj h
        rw [List.map_cons, List.map_cons, hf a a' ha]
    · cases has : modifyFirst p f error as with
      | error e =>
        rw [has] at h
        cases h
      | ok as₁ =>
        rw [has] at h
        obtain rfl := Except.ok.inj h
        rw [List.map_cons, List.map_cons, ih has]

/-- The request changes nothing but the state of a real: the types of the services stay. -/
theorem BaseConfig.types_setRealState {config config' : BaseConfig} {request : SetRealStateRequest}
    (h : config.setRealState request = .ok config') :
    config'.services.map (·.type) = config.services.map (·.type) := by
  rw [setRealState] at h
  generalize hservices : modifyFirst _ _ _ config.services = r at h
  cases r with
  | error e => cases h
  | ok services =>
    obtain rfl := Except.ok.inj h
    refine map_modifyFirst (fun service service' hs => ?_) hservices
    generalize modifyFirst _ _ _ service.reals = r at hs
    cases r with
    | error e => cases hs
    | ok reals =>
      obtain rfl := Except.ok.inj hs
      rfl

end L4Balancer
