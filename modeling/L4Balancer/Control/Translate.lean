import L4Balancer.Control.Config
import L4Balancer.Xdp.Structs

/-!
# Translating a configuration

The first part of `XdpDataplane::ReloadConfig`: the loops over the services and
their reals that build the entries of the backends and services maps
(`loadServices`). What the system answers on the way, the libc conversions of
addresses and the MAC lookups, is an environment (`Env`).

The loops stop at the first service or real that cannot be prepared; the vectors
they have built so far stay in the dataplane. A backend is a local variable that is
not initialised, so that one over IPv4 has in the rest of its address what the memory
held there (`Env.uninit`).
-/

namespace L4Balancer

/-- What `ReloadConfig` asks of the system. -/
structure Env where
  /-- `inet_aton`, in network order. -/
  inetAton : String → Option (BitVec 32)
  /-- `inet_pton` for IPv6. -/
  inetPton : String → Option Addr
  /-- `Arp::Lookup` on the interface of the program. -/
  arpLookup : String → Option Mac
  /-- `Ndp::Lookup` on the interface of the program. -/
  ndpLookup : String → Option Mac
  /-- `XXH3_64bits_withSeed`. -/
  xxh3 : List UInt8 → UInt64 → UInt64
  /-- What the memory holds at the address of the `k`-th backend before it is written. -/
  uninit : ℕ → Addr

namespace Env

variable (env : Env)

/-- The bytes of an address. -/
def address (ipVersion : UInt8) (text : String) : Option Addr :=
  if ipVersion = 4 then (env.inetAton text).map .ofIpv4 else env.inetPton text

/-- The MAC of an address. -/
def macLookup (ipVersion : UInt8) (text : String) : Option Mac :=
  if ipVersion = 4 then env.arpLookup text else env.ndpLookup text

end Env

/-- The IP version as keys and backends store it. -/
def storedVersion (ipVersion : UInt8) : UInt8 := if ipVersion = 4 then 4 else 6

namespace BalancerService

variable (env : Env) (service : BalancerService)

def protocolNumber : UInt8 := if service.protocol = "tcp" then IPPROTO_TCP else IPPROTO_UDP

/-- The key of a service. -/
def prepareKey : Except String ServiceKey :=
  match env.address service.ipVersion service.vip with
  | none => .error s!"failed to prepare VIP {service.vip} into bytes"
  | some vip =>
    .ok ⟨vip, service.port.toUInt16, service.protocolNumber, storedVersion service.ipVersion⟩

/-- The backend of a real of the service, the `k`-th backend of all. -/
def prepareReal (k : ℕ) (real : BalancerReal) : Except String Backend :=
  match env.address real.ipVersion real.ip with
  | none => .error s!"failed to prepare real IP {real.ip} into bytes"
  | some ip =>
    match env.macLookup real.ipVersion real.ip with
    | none => .error s!"failed to get MAC address for real IP {real.ip} "
    | some mac =>
      let ip := if real.ipVersion = 4 then (env.uninit k).withIpv4 ip.ipv4 else ip
      .ok ⟨ip, service.port.toUInt16, mac, real.enabled.toUInt8, storedVersion real.ipVersion,
        real.weight⟩

/-- The loop over the reals, with `k` backends before them: the backends up to the first error. -/
def loadReals : (k : ℕ) → List BalancerReal → List Backend × Option String
  | _, [] => ([], none)
  | k, real :: reals =>
    match service.prepareReal env k real with
    | .error e => ([], some e)
    | .ok back =>
      let (backends, error) := loadReals (k + 1) reals
      (back :: backends, error)

end BalancerService

/-- The vectors `m_xdpBackends`, `m_xdpKeys` and `m_xdpServices`. -/
structure XdpConfig where
  backends : List Backend
  keys : List ServiceKey
  services : List ServiceInfo

/-- The loop over the services, with `currentBackendIdx` backends and `serviceIdx` services before
    them: the vectors up to the first error. -/
def loadServices (env : Env) : (currentBackendIdx serviceIdx : ℕ) → List BalancerService →
    XdpConfig × Option String
  | _, _, [] => (⟨[], [], []⟩, none)
  | currentBackendIdx, serviceIdx, service :: services =>
    match service.prepareKey env with
    | .error e => (⟨[], [], []⟩, some e)
    | .ok key =>
      match service.loadReals env currentBackendIdx service.reals with
      | (backends, some e) => (⟨backends, [key], []⟩, some e)
      | (backends, none) =>
        let info : ServiceInfo :=
          ⟨.ofNat backends.length, .ofNat currentBackendIdx, service.type.toUInt8,
            .ofNat serviceIdx⟩
        let (xdp, error) :=
          loadServices env (currentBackendIdx + backends.length) (serviceIdx + 1) services
        (⟨backends ++ xdp.backends, key :: xdp.keys, info :: xdp.services⟩, error)

/-- The vectors for a configuration, and the error that ended the loops. -/
def BaseConfig.load (env : Env) (config : BaseConfig) : XdpConfig × Option String :=
  loadServices env 0 0 config.services

/-! ## Small configurations

Three virtual addresses and two reals, for concrete runs. -/

def demoEnv : Env where
  inetAton text := [("10.0.0.1", 0x0100000a), ("10.0.0.2", 0x0200000a), ("10.0.0.3", 0x0300000a),
    ("10.0.1.1", 0x0101000a), ("10.0.1.2", 0x0201000a)].lookup text
  inetPton _ := none
  arpLookup text := [("10.0.1.1", 1), ("10.0.1.2", 2)].lookup text
  ndpLookup _ := none
  xxh3 _ _ := 0
  uninit _ := 0

/-- A TCP service with the given reals, all enabled. -/
def demoService (vip : String) (type : BalancerType) (reals : List String) : BalancerService where
  reals := reals.map fun ip => { ip := ip, enabled := true, port := 80 }
  name := vip
  vip := vip
  protocol := "tcp"
  port := 80
  type := type

end L4Balancer
