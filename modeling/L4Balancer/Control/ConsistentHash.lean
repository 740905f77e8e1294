import L4Balancer.Maglev
import L4Balancer.Xdp.Structs

/-!
# Consistent hash in the control plane

`ConsistentHashInstance` and `ConsistentHashManager` of `consistent_hash.cpp`. An
instance keeps the current and the previous Maglev table of one service, the
manager one instance for each service key.

The 64-bit hash of a backend, `XXH3_64bits_withSeed`, is a parameter: a function of
the twenty bytes that are hashed and of the seed. The manager hands every update to
a callback; here it returns what it hands on (`ChPublication`).
-/

namespace L4Balancer

/-- `XXH3_64bits_withSeed`. -/
abbrev Xxh3 := List UInt8 → UInt64 → UInt64

def MAGLEV_SEED_1 : UInt64 := 0x5bd1e995
def MAGLEV_SEED_2 : UInt64 := 0x9747b28c

def HASHRING_SMALL : UInt32 := 65537

structure InstanceConfig where
  hashringSize : UInt32 := HASHRING_SMALL
  mergeTimeoutTicks : UInt32 := 180

structure InstanceStats where
  mergeCount : UInt64 := 0
  updateCount : UInt64 := 0
  currentBackendsCount : UInt32 := 0

structure ConsistentHashInstance where
  config : InstanceConfig
  stats : InstanceStats
  backends : List Backend
  currLookup : List ℤ
  prevLookup : List ℤ
  needsMerge : Bool
  mergeTimer : UInt32

/-- What the callback gets: the backends, both tables and their size. -/
structure ChPublication where
  backends : List Backend
  currLookup : List ℤ
  prevLookup : List ℤ
  hashringSize : UInt32

/-- The bytes of an address, the first one first. -/
def Addr.bytes (a : Addr) : List UInt8 :=
  (List.range 16).map fun i => UInt8.ofBitVec ((a >>> (8 * i)).setWidth 8)

/-- The bytes of a backend that are hashed: the address, the port, the IP version and a zero. -/
def Backend.hashInput (b : Backend) : List UInt8 :=
  (if b.ipVersion = 4 then Addr.ofIpv4 b.ip.ipv4 else b.ip).bytes ++
    [b.port.toUInt8, (b.port >>> 8).toUInt8, b.ipVersion, 0]

def hashBackend1 (xxh3 : Xxh3) (b : Backend) : UInt32 := (xxh3 b.hashInput MAGLEV_SEED_1).toUInt32
def hashBackend2 (xxh3 : Xxh3) (b : Backend) : UInt32 := (xxh3 b.hashInput MAGLEV_SEED_2).toUInt32

/-- `generatePermutations`, for a table of `m` slots. -/
def generatePermutations (xxh3 : Xxh3) (m : ℕ) (backends : List Backend) : List (List ℕ) :=
  backends.map fun b => Maglev.permutation m ((hashBackend1 xxh3 b).toNat % m)
    ((hashBackend2 xxh3 b).toNat % (m - 1) + 1)

namespace ConsistentHashInstance

/-- The constructor. -/
def new (config : InstanceConfig) : ConsistentHashInstance where
  config := config
  stats := {}
  backends := []
  currLookup := List.replicate config.hashringSize.toNat (-1)
  prevLookup := List.replicate config.hashringSize.toNat (-1)
  needsMerge := false
  mergeTimer := 0

/-- The number of slots. -/
def slots (inst : ConsistentHashInstance) : ℕ := inst.config.hashringSize.toNat

def clear (inst : ConsistentHashInstance) : ConsistentHashInstance :=
  { inst with
    backends := []
    currLookup := inst.currLookup.map fun _ => -1
    prevLookup := inst.prevLookup.map fun _ => -1
    needsMerge := false
    mergeTimer := 0 }

/-- The previous table of the next update: the current one, or, before a merge, the old one. -/
def newPrev (inst : ConsistentHashInstance) : List ℤ :=
  if inst.currLookup[0]? ≠ some (-1) ∧ ¬inst.needsMerge then inst.currLookup
  else if inst.needsMerge then inst.prevLookup
  else List.replicate inst.slots (-1)

/-- `updateBackends`; `none` if `populateLookupTable` reads past the end of a permutation. -/
def updateBackends (xxh3 : Xxh3) (inst : ConsistentHashInstance) (backends : List Backend) :
    Option ConsistentHashInstance :=
  if backends = [] then some inst.clear
  else
    (Maglev.populate inst.slots (generatePermutations xxh3 inst.slots backends)).map
      fun newCurr =>
        { inst with
          backends := backends
          currLookup := newCurr
          prevLookup := inst.newPrev
          stats :=
            { inst.stats with
              updateCount := inst.stats.updateCount + 1
              currentBackendsCount := .ofNat backends.length }
          mergeTimer := 0
          needsMerge := true }

/-- `merge`. -/
def merge (inst : ConsistentHashInstance) : ConsistentHashInstance :=
  if inst.needsMerge then
    { inst with
      prevLookup := inst.currLookup
      needsMerge := false
      mergeTimer := 0
      stats := { inst.stats with mergeCount := inst.stats.mergeCount + 1 } }
  else inst

/-- `tickMergeTimer`: whether it has merged. -/
def tickMergeTimer (inst : ConsistentHashInstance) : Bool × ConsistentHashInstance :=
  if inst.needsMerge then
    let ticks := inst.mergeTimer + 1
    let inst := { inst with mergeTimer := ticks }
    if ticks ≥ inst.config.mergeTimeoutTicks then (true, inst.merge) else (false, inst)
  else (false, inst)

/-- The slot of a hash. -/
def slot (inst : ConsistentHashInstance) (keyHash : UInt32) : ℕ :=
  (keyHash % inst.config.hashringSize).toNat

/-- An entry, if it is not negative. -/
def toOpt (v : ℤ) : Option ℤ := if v ≥ 0 then some v else none

/-- `lookupCurr`. -/
def lookupCurr (inst : ConsistentHashInstance) (keyHash : UInt32) : Option ℤ :=
  if inst.backends = [] then none
  else inst.currLookup[inst.slot keyHash]?.bind toOpt

/-- `lookupPrev`. -/
def lookupPrev (inst : ConsistentHashInstance) (keyHash : UInt32) : Option ℤ :=
  if inst.backends = [] then none
  else inst.prevLookup[inst.slot keyHash]?.bind toOpt

/-- `LookupResult`. -/
structure Result where
  stable : Bool
  curr : Option ℤ
  prev : Option ℤ

/-- `lookup`; `none` if it reads past the end of a table. -/
def lookup (inst : ConsistentHashInstance) (keyHash : UInt32) : Option Result :=
  if inst.backends = [] then some ⟨false, none, none⟩
  else do
    let currVal ← inst.currLookup[inst.slot keyHash]?
    let prevVal ← inst.prevLookup[inst.slot keyHash]?
    return ⟨prevVal = -1 ∨ currVal = prevVal, toOpt currVal, toOpt prevVal⟩

/-- `isStable`; `none` if it reads past the end of a table. Whether there is a previous table is
    read off its first slot. -/
def isStable (inst : ConsistentHashInstance) (keyHash : UInt32) : Option Bool := do
  let first ← inst.prevLookup[0]?
  if first = -1 then return true
  let currVal ← inst.currLookup[inst.slot keyHash]?
  let prevVal ← inst.prevLookup[inst.slot keyHash]?
  return currVal = prevVal

def publication (inst : ConsistentHashInstance) : ChPublication :=
  ⟨inst.backends, inst.currLookup, inst.prevLookup, inst.config.hashringSize⟩

end ConsistentHashInstance

/-- `operator<=>` of `ServiceKey`. -/
def ServiceKey.cmp (a b : ServiceKey) : Ordering :=
  (compare a.ipVersion b.ipVersion).then <|
  (if a.ipVersion = 4 then compare a.vip.ipv4.toNat b.vip.ipv4.toNat
    else compare a.vip.bytes b.vip.bytes).then <|
  (compare a.port b.port).then (compare a.protocol b.protocol)

/-- The instances, by service key. -/
structure ConsistentHashManager where
  services : AList fun _ : ServiceKey => ConsistentHashInstance

namespace ConsistentHashManager

/-- `updateServiceBackends`: the manager after it, and what it hands to the callback. -/
def updateServiceBackends (xxh3 : Xxh3) (mgr : ConsistentHashManager) (key : ServiceKey)
    (backends : List Backend) (config : InstanceConfig := {}) :
    Option (ConsistentHashManager × ChPublication) :=
  let inst := (mgr.services.lookup key).getD (.new config)
  (inst.updateBackends xxh3 backends).map fun inst =>
    (⟨mgr.services.insert key inst⟩, inst.publication)

def removeService (mgr : ConsistentHashManager) (key : ServiceKey) : ConsistentHashManager :=
  ⟨mgr.services.erase key⟩

/-- The loop of `periodicMaintenance` over the instances `es`: the manager after it, and what it
    hands to the callback, with the keys. -/
def maintain : List (Sigma fun _ : ServiceKey => ConsistentHashInstance) → ConsistentHashManager →
    ConsistentHashManager × List (ServiceKey × ChPublication)
  | [], mgr => (mgr, [])
  | ⟨key, inst⟩ :: es, mgr =>
    if inst.needsMerge then
      let (merged, inst) := inst.tickMergeTimer
      let (mgr, published) := maintain es ⟨mgr.services.insert key inst⟩
      (mgr, if merged then (key, inst.publication) :: published else published)
    else maintain es mgr

/-- `periodicMaintenance`: the map of the services is walked in the order of the keys. -/
def periodicMaintenance (mgr : ConsistentHashManager) :
    ConsistentHashManager × List (ServiceKey × ChPublication) :=
  mgr.maintain (mgr.services.entries.mergeSort fun e e' => (e.1.cmp e'.1).isLE)

end ConsistentHashManager

end L4Balancer
