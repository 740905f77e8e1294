import L4Balancer.Control.ConsistentHash
import L4Balancer.Control.Translate

/-!
# The dataplane

`XdpDataplane::ReloadConfig`, call by call. A reload writes the new services and
backends to the buffer that packets do not read, then the number of that buffer to
`atomic_index`: together, `publish`. After this *flip* it resets what belongs to the
old positions (`switch`): the cursors of round robin and weighted round robin, the
tables of consistent hash, the sessions. At last it resets the statistics
(`resetStats`).

A write of a map is a `Write`; the calls succeed as long as the maps take them, a
full hash map or an index past the end of an array makes a call fail with `E2BIG`.
The flip is taken to write the number of the buffer and no more, though the kernel
takes eight bytes at the address of an `int`.
What other failures and what packets between the calls do is the matter of the
machine in `Control/Reloader`.
-/

namespace L4Balancer

open Bpf

variable {cpus : ℕ}

/-! ## Writes -/

namespace Maps

/-- Replacing the services map, or the backends map, of a buffer. -/
def setServices (m : Maps cpus) (buffer : Fin 2) (services : HashMap ServiceKey ServiceInfo 256) :
    Maps cpus :=
  if buffer = 0 then { m with servicesFirst := services } else { m with servicesSecond := services }

def setBackends (m : Maps cpus) (buffer : Fin 2) (backends : ArrayMap Backend 1024) : Maps cpus :=
  if buffer = 0 then { m with backendsFirst := backends } else { m with backendsSecond := backends }

end Maps

/-- A write to a map: an element of a batch, an update or a deletion. -/
inductive Write
  | backend (buffer : Fin 2) (i : ℕ) (b : Backend)
  | service (buffer : Fin 2) (key : ServiceKey) (info : ServiceInfo)
  /-- The flip: `0` or `1`, in all the bytes of the value. -/
  | atomicIndex (buffer : Fin 2)
  | rrIndex (key : ServiceKey)
  | deleteWrrState (key : ServiceKey)
  | chConfig (i : ℕ) (v : UInt32)
  | chBackend (i : ℕ) (b : Backend)
  | chCurrLookup (i : ℕ) (v : ℤ)
  | chPrevLookup (i : ℕ) (v : ℤ)
  | deleteSession (key : SessionStateKey)
  | backendStats (i : ℕ)
  | serviceStats (key : ServiceKey)

/-- What a write makes of the maps; `none` if they do not take it. -/
def Write.run (m : Maps cpus) : Write → Option (Maps cpus)
  | backend buffer i b => ((m.backendsAt buffer).update i b).map (m.setBackends buffer)
  | service buffer key info => ((m.servicesAt buffer).update key info).map (m.setServices buffer)
  | atomicIndex buffer => (m.atomicIndex.update 0 buffer).map fun a => { m with atomicIndex := a }
  | rrIndex key => (m.rrIndex.update key 0).map fun a => { m with rrIndex := a }
  | deleteWrrState key => some { m with wrrStateMap := m.wrrStateMap.delete key }
  | chConfig i v => (m.chConfig.update i v).map fun a => { m with chConfig := a }
  | chBackend i b => (m.chBackends.update i b).map fun a => { m with chBackends := a }
  | chCurrLookup i v => (m.chCurrLookup.update i v).map fun a => { m with chCurrLookup := a }
  | chPrevLookup i v => (m.chPrevLookup.update i v).map fun a => { m with chPrevLookup := a }
  | deleteSession key => some { m with tcpSessionState := m.tcpSessionState.delete key }
  | backendStats i =>
    (m.backendsPacketsStats.updateAllCpus i fun _ => .zero).map fun a =>
      { m with backendsPacketsStats := a }
  -- the map is given the address of the key: the index is its first four bytes
  | serviceStats key =>
    (m.servicesPacketsStats.updateAllCpus key.vip.ipv4.toNat fun _ => .zero).map fun a =>
      { m with servicesPacketsStats := a }

/-- Writes in order, up to the first that fails, and whether none did. -/
def runWrites (m : Maps cpus) : List Write → Maps cpus × Bool
  | [] => (m, true)
  | w :: ws =>
    match w.run m with
    | none => (m, false)
    | some m => runWrites m ws

/-- One write for each element of a list, the first one at the index `i`. -/
def writesFrom {α : Type*} (write : ℕ → α → Write) : ℕ → List α → List Write
  | _, [] => []
  | i, a :: as => write i a :: writesFrom write (i + 1) as

namespace XdpConfig

variable (xdp : XdpConfig)

/-- The batch of the backends. -/
def backendWrites (buffer : Fin 2) : List Write := writesFrom (.backend buffer) 0 xdp.backends

/-- The batch of the services. -/
def serviceWrites (buffer : Fin 2) : List Write :=
  (xdp.keys.zip xdp.services).map fun (key, info) => .service buffer key info

/-- The batch of the round robin cursors. -/
def rrWrites : List Write := xdp.keys.map .rrIndex

end XdpConfig

/-- The writes of `updateChBpfMaps`, in order. -/
def ChPublication.writes (p : ChPublication) : List Write :=
  [.chConfig 0 p.hashringSize, .chConfig 1 (.ofNat p.backends.length)] ++
    writesFrom .chBackend 0 p.backends ++
    writesFrom .chCurrLookup 0 (p.currLookup.take p.hashringSize.toNat) ++
    writesFrom .chPrevLookup 0 (p.prevLookup.take p.hashringSize.toNat)

/-- The number of backends in `ch_config`: the result of this write is not checked. -/
def Write.unchecked : Write → Bool
  | chConfig i _ => i = 1
  | _ => false

/-- `updateChBpfMaps`: the first checked write that fails ends it. -/
def updateChBpfMaps (m : Maps cpus) : List Write → Maps cpus × Bool
  | [] => (m, true)
  | w :: ws =>
    match w.run m with
    | none => if w.unchecked then updateChBpfMaps m ws else (m, false)
    | some m => updateChBpfMaps m ws

/-! ## Reloading -/

/-- `XdpDataplane` with the maps it works on. -/
structure Dataplane (cpus : ℕ) where
  maps : Maps cpus
  ddos : DdosMaps
  isFirstRun : Bool
  chManager : ConsistentHashManager
  xdp : XdpConfig
  currConfig : BaseConfig

/-- A dataplane after `RunProgram`. -/
def Dataplane.fresh (cpus : ℕ) : Dataplane cpus where
  maps := .fresh cpus
  ddos := .fresh
  isFirstRun := true
  chManager := ⟨∅⟩
  xdp := ⟨[], [], []⟩
  currConfig := { services := [] }

/-- `strerror` of the failure of a write that a map does not take. -/
def E2BIG : String := "Argument list too long"

/-- What a part of a reload leaves: the dataplane, and the error it returned. -/
abbrev Outcome (cpus : ℕ) := Except (String × Dataplane cpus) (Dataplane cpus)

/-- The entry of `ddos_cfg`. The product is one of 32-bit numbers. -/
def DDoSConfig.entry (conf : DDoSConfig) : DdosConfig where
  synThreshold := conf.synThreshold
  synAckRatio := conf.synAckRatio
  globalSynThreshold := conf.globalSynThreshold
  banDurationNs := (conf.banDurationMs * 1000000).toUInt64

/-- The backends of a service that consistent hash gets: for each enabled real the first backend
    of all with its address. -/
def BalancerService.chBackends (env : Env) (backends : List Backend) (service : BalancerService) :
    List Backend :=
  (service.reals.filter BalancerReal.enabled).filterMap fun real =>
    (env.address real.ipVersion real.ip).bind fun addr =>
      backends.find? fun back =>
        if real.ipVersion = 4 then back.ip.ipv4 = addr.ipv4 ∧ back.ipVersion = 4
        else back.ip = addr ∧ back.ipVersion = 6

/-- The key under which consistent hash keeps a service. -/
def BalancerService.chKey (env : Env) (service : BalancerService) : ServiceKey :=
  ⟨(env.address service.ipVersion service.vip).getD 0, service.port.toUInt16,
    service.protocolNumber, service.ipVersion⟩

/-! The errors of the parts of a reload. -/

def backendsError (errno : String) : String := s!"failed to update batch of backends: {errno}"
def servicesError (errno : String) : String := s!"failed to update batch of services: {errno}"
def indexError (errno : String) : String := s!"failed to update atomic pointer on config: {errno}"
def rrError (errno : String) : String := s!"failed to update rr index on config: {errno}"
def backendStatsError (i : ℕ) (errno : String) : String :=
  s!"Failed to reset backend {i} stats: {errno}"
def serviceStatsError (errno : String) : String := s!"Failed to reset service stats: {errno}"

namespace Dataplane

variable (d : Dataplane cpus)

/-- Writes, each with the same error. -/
def write (ws : List Write) (error : String → String) : Outcome cpus :=
  match runWrites d.maps ws with
  | (m, true) => .ok { d with maps := m }
  | (m, false) => .error (error E2BIG, { d with maps := m })

/-- The buffer number that the dataplane takes for the active one. -/
def currentIndex : Fin 2 := if d.isFirstRun then 0 else d.maps.activeBuffer

/-- The update of `ddos_cfg`, if the configuration has one. -/
def updateDdosCfg (conf : Option DDoSConfig) : Dataplane cpus :=
  match conf with
  | none => d
  | some conf => { d with ddos := { d.ddos with ddosCfg := d.ddos.ddosCfg.put 0 conf.entry } }

/-- `ReloadConfig` up to the write of `atomic_index`. -/
def publish (env : Env) (config : BaseConfig) : Outcome cpus :=
  match config.load env with
  | (xdp, some e) => .error (e, { d with currConfig := config, xdp := xdp })
  | (xdp, none) => do
    let d := { d with currConfig := config, xdp := xdp }.updateDdosCfg config.ddosConf
    let buffer : Fin 2 := 1 - d.currentIndex
    let d := { d with isFirstRun := false }
    let d ← d.write (xdp.backendWrites buffer) backendsError
    let d ← d.write (xdp.serviceWrites buffer) servicesError
    d.write [.atomicIndex buffer] indexError

/-- What consistent hash publishes for a service, with the manager after it. -/
def chPublication (env : Env) (service : BalancerService) :
    Option (ConsistentHashManager × ChPublication) :=
  d.chManager.updateServiceBackends env.xxh3 (service.chKey env)
    (service.chBackends env d.xdp.backends)

/-- The update of the consistent hash of a service. -/
def updateCh (env : Env) (service : BalancerService) : Dataplane cpus :=
  if service.type = .ch then
    if service.chBackends env d.xdp.backends = [] then
      { d with chManager := d.chManager.removeService (service.chKey env) }
    else
      match d.chPublication env service with
      | none => d
      | some (chManager, p) =>
        { d with chManager := chManager, maps := (updateChBpfMaps d.maps p.writes).1 }
  else d

/-- Deleting the first key of a map until there is none. -/
def clearWrrState : Dataplane cpus := { d with maps := { d.maps with wrrStateMap := .empty } }

def clearSessions : Dataplane cpus := { d with maps := { d.maps with tcpSessionState := .empty } }

/-- The reset of the cursors, after the write of `atomic_index`. -/
def resetCursors : Outcome cpus := do
  let d ← d.write d.xdp.rrWrites rrError
  return d.clearWrrState

/-- The update of consistent hash. -/
def updateAllCh (env : Env) : Dataplane cpus :=
  d.currConfig.services.foldl (fun d service => d.updateCh env service) d

/-- `ReloadConfig` from the write of `atomic_index` to the statistics. -/
def switch (env : Env) : Outcome cpus := do
  let d ← d.resetCursors
  return (d.updateAllCh env).clearSessions

/-- The end of `ReloadConfig`: the statistics. -/
def resetStats : Outcome cpus := do
  let d ← (List.range d.xdp.backends.length).foldlM
    (fun d i => d.write [.backendStats i] (backendStatsError i)) d
  d.xdp.keys.foldlM (fun d key => d.write [.serviceStats key] serviceStatsError) d

/-- `ReloadConfig`. -/
def reloadConfig (env : Env) (config : BaseConfig) : Outcome cpus := do
  let d ← d.publish env config
  let d ← d.switch env
  d.resetStats

end Dataplane

end L4Balancer
