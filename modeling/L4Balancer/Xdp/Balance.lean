import L4Balancer.Xdp.Structs

/-!
# Balancing

The three ways of `balancer.bpf.c` to choose a backend for a packet of a
service:

* *round robin* (`rrBalancerHandle`): a cursor for each service, moved before
  every choice and put back to the start of the block of the service at its end;
* *weighted round robin* (`wrrBalancerHandle`): a cursor and a counter for each
  service; a choice stays at the cursor until the counter reaches the weight,
  and skips the backends that are inactive or without weight, at most `32` of them;
* *consistent hash* (`chBalancerHandle`): the hash of the flow picks a slot of a
  table, the slot an entry of `ch_backends`.

A function that writes its answer through `last_index` takes the old value of it
and returns the new one. The C code changes `wrr_state` in place and then updates
the map with it; here the search returns the new state, which is written once.
-/

namespace L4Balancer

open Bpf

/-- What a packet finds on its CPU: the time, and the number of the CPU. -/
structure Ctx (cpus : ℕ) where
  now : UInt64
  cpu : Fin cpus

variable {cpus : ℕ}

/-- The counters of a prepared packet. -/
def PacketsData.prepared (packetLen : UInt32) (d : PacketsData) : PacketsData :=
  { d with
    totalPackets := d.totalPackets + 1
    preparedPackets := d.preparedPackets + 1
    totalBytes := d.totalBytes + packetLen.toUInt64 }

/-! ## Consistent hash -/

/-- `hash_key_consistent`. -/
def hashKeyConsistent (key seed : UInt32) : UInt32 :=
  let hash := seed ^^^ key
  let hash := hash * 0x9e3779b9
  let hash := (hash <<< 13) ||| (hash >>> 19)
  let hash := hash ^^^ (hash >>> 17)
  hash * 0x85ebca6b

/-- The hash of a flow: it mixes the IPv4 members of the addresses and the ports. -/
def SessionStateKey.chHash (k : SessionStateKey) : UInt32 :=
  hashKeyConsistent (UInt32.ofBitVec k.src.ipv4 ^^^ UInt32.ofBitVec k.dst.ipv4 ^^^
    (k.srcPort.toUInt32 <<< 16) ^^^ k.dstPort.toUInt32) 0x5737a28c

/-- Counting a successful lookup of the current table: it is stable if the previous table agrees. -/
def Maps.countLookup (m : Maps cpus) (index : ℕ) (backendIdx : ℤ) (usePrev : Bool) : Maps cpus :=
  match m.chStatsMap.lookup 0 with
  | none => m
  | some stats =>
    let stats := { stats with totalLookups := stats.totalLookups + 1 }
    let stats :=
      if usePrev then stats
      else if m.chPrevLookup.lookup index = some backendIdx then
        { stats with stableLookups := stats.stableLookups + 1 }
      else { stats with unstableLookups := stats.unstableLookups + 1 }
    { m with chStatsMap := m.chStatsMap.put 0 stats }

/-- The current or the previous lookup table. -/
def Maps.chLookup (m : Maps cpus) (usePrev : Bool) : ArrayMap ℤ 65537 :=
  if usePrev then m.chPrevLookup else m.chCurrLookup

/-- `consistent_hash_lookup`: the entry of the slot of a hash, or `-1`. -/
def consistentHashLookup (keyHash : UInt32) (usePrev : Bool) (m : Maps cpus) : ℤ × Maps cpus :=
  match m.chConfig.lookup 0 with
  | none => (-1, m)
  | some hashringSize =>
    if hashringSize = 0 then (-1, m)
    else
      let index := (keyHash % hashringSize).toNat
      match (m.chLookup usePrev).lookup index with
      | none => (-1, m)
      | some backendIdx =>
        if backendIdx < 0 then (-1, m) else (backendIdx, m.countLookup index backendIdx usePrev)

/-- `consistent_hash_is_stable`: whether both tables have the same entry at the slot of a hash. -/
def consistentHashIsStable (keyHash : UInt32) (m : Maps cpus) : Bool :=
  match m.chConfig.lookup 0 with
  | none => true
  | some hashringSize =>
    if hashringSize = 0 then true
    else
      let index := (keyHash % hashringSize).toNat
      match m.chCurrLookup.lookup index, m.chPrevLookup.lookup index with
      | some curr, some prev => curr = prev
      | _, _ => true

/-- `ch_balancer_handle`. The service counters are looked up with the address of `key`, that is,
    with its first four bytes as the index. -/
def chBalancerHandle (ctx : Ctx cpus) (key : ServiceKey) (keyHash packetLen lastIndex : UInt32)
    (m : Maps cpus) : Option Backend × UInt32 × Maps cpus :=
  match consistentHashLookup keyHash false m with
  | (backendIdx, m) =>
    if backendIdx < 0 then (none, lastIndex, m)
    else
      let bid := UInt32.ofNat backendIdx.toNat
      match m.chBackends.lookup bid.toNat with
      | none => (none, lastIndex, m)
      | some backend =>
        if backend.active = 0 then (none, lastIndex, m)
        else
          (some backend, bid, { m with
            backendsPacketsStats :=
              m.backendsPacketsStats.modify ctx.cpu bid.toNat (.prepared packetLen)
            servicesPacketsStats :=
              m.servicesPacketsStats.modify ctx.cpu key.vip.ipv4.toNat (.prepared packetLen) })

/-! ## Round robin -/

/-- `rr_balancer_handle`. -/
def rrBalancerHandle (backends : ArrayMap Backend 1024) (info : ServiceInfo) (key : ServiceKey)
    (lastIndex : UInt32) (m : Maps cpus) : Option Backend × UInt32 × Maps cpus :=
  match m.rrIndex.lookup key with
  | none => (none, lastIndex, m)
  | some currentIndex =>
    let newIndex := if currentIndex + 1 ≥ info.backendCount then 0 else currentIndex + 1
    let backendSearchIndex := info.backendStartIdx + newIndex
    (backends.lookup backendSearchIndex.toNat, backendSearchIndex,
      { m with rrIndex := m.rrIndex.put key newIndex })

/-! ## Weighted round robin -/

/-- A backend that weighted round robin may choose. -/
def Backend.eligible (b : Backend) : Bool := b.active ≠ 0 ∧ b.weight > 0

/-- The next position of the block, with the counter at zero. -/
def WrrState.advance (st : WrrState) (info : ServiceInfo) : WrrState :=
  ⟨(st.currentIndex + 1) % info.backendCount, 0⟩

/-- The loop of `wrr_balancer_handle`, with `left` attempts of `32` left: the backend it chooses
    with its index, and the state it leaves. -/
def wrrSearch (backends : ArrayMap Backend 1024) (info : ServiceInfo) :
    ℕ → WrrState → Option (Backend × UInt32) × WrrState
  | 0, st => (none, st)
  | left + 1, st =>
    -- the bound is compared as a signed number
    if (31 - left : ℤ) ≥ (info.backendCount * 2).toBitVec.toInt then (none, st)
    else
      let idx := info.backendStartIdx + st.currentIndex
      match backends.lookup idx.toNat with
      | none => wrrSearch backends info left (st.advance info)
      | some back =>
        if back.eligible then
          let counter := st.currentWeightCounter + 1
          if counter < back.weight.toUInt32 then
            (some (back, idx), { st with currentWeightCounter := counter })
          else (some (back, idx), st.advance info)
        else wrrSearch backends info left (st.advance info)

/-- A service without `wrr_state` gets a zeroed one, if the map has room. -/
def Maps.initWrrState (m : Maps cpus) (key : ServiceKey) : Maps cpus :=
  match m.wrrStateMap.lookup key with
  | none => { m with wrrStateMap := m.wrrStateMap.put key ⟨0, 0⟩ }
  | some _ => m

/-- `wrr_balancer_handle`. -/
def wrrBalancerHandle (backends : ArrayMap Backend 1024) (info : ServiceInfo) (key : ServiceKey)
    (lastIndex : UInt32) (m : Maps cpus) : Option Backend × UInt32 × Maps cpus :=
  let m := m.initWrrState key
  match m.wrrStateMap.lookup key with
  | none => (none, lastIndex, m)
  | some state =>
    match wrrSearch backends info 32 state with
    | (none, state) => (none, lastIndex, { m with wrrStateMap := m.wrrStateMap.put key state })
    | (some (back, idx), state) =>
      (some back, idx, { m with wrrStateMap := m.wrrStateMap.put key state })

/-! ## Retries -/

/-- The loop around a handler: call it until it returns no backend or an active one; the fifth
    call counts as a failure. `left` calls are left. -/
def selectLoop (handle : UInt32 → Maps cpus → Option Backend × UInt32 × Maps cpus) :
    ℕ → UInt32 → Maps cpus → Option Backend × UInt32 × Maps cpus
  | 0, lastIndex, m => (none, lastIndex, m)
  | left + 1, lastIndex, m =>
    match handle lastIndex m with
    | (backend, lastIndex, m) =>
      if left = 0 then (none, lastIndex, m)
      else
        match backend with
        | none => (none, lastIndex, m)
        | some b => if b.active = 0 then selectLoop handle left lastIndex m
                    else (some b, lastIndex, m)

end L4Balancer
