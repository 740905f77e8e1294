import Std.Data.String.ToNat
import L4Balancer.Collect
import L4Balancer.Control.Dataplane
import L4Balancer.Xdp.Merge

/-!
# Metrics

What `XdpDataplane` hands to the exporter. `GetBackendsMetrics` and
`GetServicesMetrics` add up the copies of every counter and collect the sums in a map by
backend or by service; `GetBackendsCurrentMetrics` and `GetServicesCurrentMetrics`
collect these in a map by label. A label has the address as a text, which `inet_ntop`
makes of the first four bytes of it whatever its version is, the port and the version; a
label of a service moreover the name that the configuration has for the text and the
port.

The maps are ordered by the `operator<=>` of their keys. An entry takes the place of an
earlier one of the same key. (A key that is there stays in C++; the keys of a backends
map that are the same differ at most in the bytes after an IPv4 address.)
-/

namespace L4Balancer

open Bpf Bytes

variable {cpus : ℕ}

/-! ## Orders -/

/-- `operator<=>` of `Backend`. -/
def Backend.cmp (a b : Backend) : Ordering :=
  (compare a.ipVersion b.ipVersion).then <|
  (if a.ipVersion = 4 then compare a.ip.ipv4.toNat b.ip.ipv4.toNat
    else compare a.ip.bytes b.ip.bytes).then <|
  (compare a.port b.port).then <|
  (compare (leBytes 6 a.mac.toNat) (leBytes 6 b.mac.toNat)).then <|
  (compare a.active b.active).then (compare a.weight b.weight)

/-- What an address of a version is compared by: as an IPv4 address, or as bytes. -/
def Addr.sortKey (ipVersion : UInt8) (a : Addr) : ℕ × List UInt8 :=
  if ipVersion = 4 then (a.ipv4.toNat, []) else (0, a.bytes)

theorem compare_sortKey (v : UInt8) (a b : Addr) :
    (if v = 4 then compare a.ipv4.toNat b.ipv4.toNat else compare a.bytes b.bytes) =
      (compare (a.sortKey v).1 (b.sortKey v).1).then (compare (a.sortKey v).2 (b.sortKey v).2) := by
  rw [Addr.sortKey, Addr.sortKey]
  split_ifs
  · exact Ordering.then_eq.symm
  · rfl

/-- What comes after a component is compared only if the component is the same. -/
theorem then_congr {α : Type*} [Ord α] [Std.LawfulEqOrd α] {a b : α} {o o' : Ordering}
    (h : a = b → o = o') : (compare a b).then o = (compare a b).then o' := by
  cases hc : compare a b with
  | lt => rfl
  | gt => rfl
  | eq => exact h (Std.LawfulEqCmp.eq_of_compare hc)

theorem Backend.cmp_eq : Backend.cmp =
    compareLex (compareOn ipVersion) (compareLex (compareOn fun b => (b.ip.sortKey b.ipVersion).1)
      (compareLex (compareOn fun b => (b.ip.sortKey b.ipVersion).2) (compareLex (compareOn port)
        (compareLex (compareOn fun b => leBytes 6 b.mac.toNat)
          (compareLex (compareOn active) (compareOn weight)))))) := by
  funext a b
  refine then_congr fun hv => ?_
  rw [compare_sortKey, Ordering.then_assoc]
  simp only [compareLex, compareOn, hv]

theorem ServiceKey.cmp_eq : ServiceKey.cmp =
    compareLex (compareOn ipVersion) (compareLex (compareOn fun k => (k.vip.sortKey k.ipVersion).1)
      (compareLex (compareOn fun k => (k.vip.sortKey k.ipVersion).2)
        (compareLex (compareOn port) (compareOn protocol)))) := by
  funext a b
  refine then_congr fun hv => ?_
  rw [compare_sortKey, Ordering.then_assoc]
  simp only [compareLex, compareOn, hv]

instance : Std.TransCmp Backend.cmp := by
  rw [Backend.cmp_eq]
  infer_instance

instance : Std.TransCmp ServiceKey.cmp := by
  rw [ServiceKey.cmp_eq]
  infer_instance

/-! ## Labels -/

/-- `inet_ntop` for IPv4: the four bytes in decimal. -/
def inetNtop (a : BitVec 32) : String :=
  let byte (i : ℕ) : ℕ := ((a >>> (8 * i)).setWidth 8).toNat
  (byte 0).repr ++ "." ++ (byte 1).repr ++ "." ++ (byte 2).repr ++ "." ++ (byte 3).repr

namespace Metrics

structure BackendInfo where
  ipAddress : String
  port : UInt32
  ipVersion : ℤ
  deriving DecidableEq

structure ServiceInfo where
  name : String
  vipAddress : String
  port : UInt32
  ipVersion : ℤ
  deriving DecidableEq

/-- `operator<=>` of `BackendInfo`. -/
def BackendInfo.cmp : BackendInfo → BackendInfo → Ordering :=
  compareLex (compareOn ipVersion) (compareLex (compareOn ipAddress) (compareOn port))

/-- `operator<=>` of `ServiceInfo`. -/
def ServiceInfo.cmp : ServiceInfo → ServiceInfo → Ordering :=
  compareLex (compareOn ipVersion)
    (compareLex (compareOn vipAddress) (compareLex (compareOn name) (compareOn port)))

instance : Std.TransCmp BackendInfo.cmp := inferInstanceAs (Std.TransCmp (compareLex _ _))

instance : Std.TransCmp ServiceInfo.cmp := inferInstanceAs (Std.TransCmp (compareLex _ _))

end Metrics

/-- `MetricsData`. -/
structure MetricsData where
  totalPackets : UInt64
  tcpSynPackets : UInt64
  preparedPackets : UInt64
  connections : BitVec 32
  totalBytes : UInt64

/-- The sums of a counter as the exporter gets them. -/
def PacketsData.metrics (stats : PacketsData) : MetricsData :=
  ⟨stats.totalPackets, stats.tcpSynPackets, stats.preparedPackets, stats.connections,
    stats.totalBytes⟩

/-- The label of a backend. -/
def Backend.info (b : Backend) : Metrics.BackendInfo :=
  ⟨inetNtop b.ip.ipv4, b.port.toUInt32, b.ipVersion.toNat⟩

/-- `FindServiceByVipAndPort`. -/
def BaseConfig.findServiceByVipAndPort (config : BaseConfig) (vip : String) (port : UInt32) :
    Option BalancerService :=
  config.services.find? fun service => service.vip = vip ∧ service.port = port

/-- The label of a service; its name is empty if the configuration has none. -/
def ServiceKey.info (config : BaseConfig) (key : ServiceKey) : Metrics.ServiceInfo :=
  let strIp := inetNtop key.vip.ipv4
  let service := config.findServiceByVipAndPort strIp key.port.toUInt32
  ⟨service.elim "" BalancerService.name, strIp, key.port.toUInt32, key.ipVersion.toNat⟩

/-! ## Sums and maps -/

/-- The sum of the copies of a counter; a lookup past the end of the array fails. -/
def summary {n : ℕ} (stats : PerCpuArray PacketsData cpus n) (i : ℕ) : Option PacketsData :=
  if h : i < n then some (stats.total id ⟨i, h⟩) else none

/-- The loop over keys: each one with the sum at its index, if there is one. -/
def samples {κ : Type*} {n : ℕ} (stats : PerCpuArray PacketsData cpus n) (keys : List κ) :
    List (κ × PacketsData) :=
  keys.zipIdx.filterMap fun e => (summary stats e.2).map (e.1, ·)

namespace Dataplane

variable (d : Dataplane cpus)

def getBackendsMetrics : Std.TreeMap Backend PacketsData Backend.cmp :=
  .ofList (samples d.maps.backendsPacketsStats d.xdp.backends) _

def getServicesMetrics : Std.TreeMap ServiceKey PacketsData ServiceKey.cmp :=
  .ofList (samples d.maps.servicesPacketsStats d.xdp.keys) _

/-- `GetBackendsCurrentMetrics`; a map is gone through in its order. -/
def getBackendsCurrentMetrics :
    Std.TreeMap Metrics.BackendInfo MetricsData Metrics.BackendInfo.cmp :=
  .ofList (d.getBackendsMetrics.toList.map fun (backend, stats) => (backend.info, stats.metrics)) _

/-- `GetServicesCurrentMetrics`. -/
def getServicesCurrentMetrics :
    Std.TreeMap Metrics.ServiceInfo MetricsData Metrics.ServiceInfo.cmp :=
  .ofList (d.getServicesMetrics.toList.map
    fun (key, stats) => (key.info d.currConfig, stats.metrics)) _

end Dataplane

/-- The loop pairs every key with the sum at its index, as long as the array goes on. -/
theorem samples_eq {κ : Type*} {n : ℕ} (stats : PerCpuArray PacketsData cpus n) (keys : List κ) :
    samples stats keys = (keys.zip (List.finRange n)).map fun e => (e.1, stats.total id e.2) := by
  have hfrom : ∀ k, (keys.zipIdx k).filterMap (fun e => (summary stats e.2).map (e.1, ·)) =
      (keys.zip ((List.finRange n).drop k)).map fun e => (e.1, stats.total id e.2) := by
    induction keys with
    | nil => exact fun _ => rfl
    | cons key keys ih =>
      intro k
      have hlater := ih (k + 1)
      rw [List.zipIdx_cons, List.filterMap_cons]
      dsimp only
      by_cases hk : k < n
      · have hdrop : (List.finRange n).drop k = ⟨k, hk⟩ :: (List.finRange n).drop (k + 1) := by
          rw [List.drop_eq_getElem_cons (by simpa using hk), List.getElem_finRange]
          rfl
        rw [summary, dif_pos hk, hdrop, hlater]
        rfl
      · have hnil : ∀ k', k ≤ k' → (List.finRange n).drop k' = [] := fun k' hk' =>
          List.drop_eq_nil_of_le (by simpa using (not_lt.1 hk).trans hk')
        rw [hnil (k + 1) (Nat.le_succ k), List.zip_nil_right] at hlater
        rw [summary, dif_neg hk, hnil k le_rfl, List.zip_nil_right, hlater]
        rfl
  exact hfrom 0

theorem map_fst_samples {κ : Type*} {n : ℕ} (stats : PerCpuArray PacketsData cpus n)
    (keys : List κ) : (samples stats keys).map Prod.fst = keys.take n := by
  have hfst : Prod.fst ∘ (fun e : κ × Fin n => (e.1, stats.total id e.2)) = Prod.fst := rfl
  rw [samples_eq, List.map_map, hfst, List.zip_eq_zip_take_min, List.map_fst_zip (by simp)]
  simp [min_comm]

theorem map_snd_samples {κ : Type*} {n : ℕ} (stats : PerCpuArray PacketsData cpus n)
    (keys : List κ) : (samples stats keys).map Prod.snd =
      ((List.finRange n).take keys.length).map fun i => stats.total id i := by
  have hsnd : Prod.snd ∘ (fun e : κ × Fin n => (e.1, stats.total id e.2)) =
    (fun i => stats.total id i) ∘ Prod.snd := rfl
  rw [samples_eq, List.map_map, hsnd, ← List.map_map, List.zip_eq_zip_take_min,
    List.map_snd_zip (by simp)]
  simp

/-! ## The CPU of a packet -/

theorem summary_of_mergeCpus {n : ℕ} {stats stats' : PerCpuArray PacketsData cpus n}
    (h : mergeCpus stats' = mergeCpus stats) : summary stats' = summary stats := by
  funext i
  rw [summary, summary]
  split_ifs with hi
  · exact congrArg (fun a => some (a.get 0 ⟨i, hi⟩)) h
  · rfl

theorem samples_of_mergeCpus {κ : Type*} {n : ℕ} {stats stats' : PerCpuArray PacketsData cpus n}
    (h : mergeCpus stats' = mergeCpus stats) (keys : List κ) :
    samples stats' keys = samples stats keys := by
  rw [samples, samples, summary_of_mergeCpus h]

/-- The dataplane after the program has handled frames. -/
def Dataplane.handle (d : Dataplane cpus) (as : List (Arrival cpus)) : Dataplane cpus :=
  let s := (L4Balancer.xdp cpus).exec ⟨d.maps, d.ddos⟩ as
  { d with maps := s.maps, ddos := s.ddos }

/-- Statistics do not depend on the CPU. Whatever CPUs handle the frames of a run, the program
    answers every frame alike, and the metrics of the backends and of the services are the same
    at the end. -/
theorem metrics_of_sameFrame {as as' : List (Arrival cpus)}
    (h : List.Forall₂ Arrival.SameFrame as as') (d : Dataplane cpus) :
    (xdp cpus).outs ⟨d.maps, d.ddos⟩ as' = (xdp cpus).outs ⟨d.maps, d.ddos⟩ as ∧
      (d.handle as').getBackendsMetrics = (d.handle as).getBackendsMetrics ∧
      (d.handle as').getServicesMetrics = (d.handle as).getServicesMetrics := by
  obtain ⟨houts, hexec⟩ := run_of_sameFrame h ⟨d.maps, d.ddos⟩
  have hmaps := congrArg XdpState.maps hexec
  refine ⟨houts, ?_, ?_⟩
  · have hstats := congrArg Maps.backendsPacketsStats hmaps
    exact congrArg (Std.TreeMap.ofList · _) (samples_of_mergeCpus hstats d.xdp.backends)
  · have hstats := congrArg Maps.servicesPacketsStats hmaps
    exact congrArg (Std.TreeMap.ofList · _) (samples_of_mergeCpus hstats d.xdp.keys)

/-- A dataplane on two CPUs, with a service of two backends. -/
def demoTwoCpus : Dataplane 2 :=
  let backends := [demoBackend 0, demoBackend 1]
  { Dataplane.fresh 2 with
    maps :=
      { Maps.fresh 2 with
        servicesFirst := HashMap.empty.put demoKey ⟨2, 0, BALANCER_RR, 0⟩
        backendsFirst := ((ArrayMap.const .zero).put 0 (demoBackend 0)).put 1 (demoBackend 1)
        rrIndex := HashMap.empty.put demoKey 0 }
    xdp := ⟨backends, [demoKey], [⟨2, 0, BALANCER_RR, 0⟩]⟩ }

/-- A SYN twice, on one CPU or on two. -/
theorem metrics_of_sameFrame_demo :
    let as : List (Arrival 2) := [⟨⟨0, 0⟩, demoSyn, []⟩, ⟨⟨1, 0⟩, demoSyn, []⟩]
    let as' : List (Arrival 2) := [⟨⟨0, 0⟩, demoSyn, []⟩, ⟨⟨1, 1⟩, demoSyn, []⟩]
    (xdp 2).outs ⟨demoTwoCpus.maps, demoTwoCpus.ddos⟩ as' =
        (xdp 2).outs ⟨demoTwoCpus.maps, demoTwoCpus.ddos⟩ as ∧
      (demoTwoCpus.handle as').getBackendsMetrics = (demoTwoCpus.handle as).getBackendsMetrics ∧
      (demoTwoCpus.handle as').getServicesMetrics = (demoTwoCpus.handle as).getServicesMetrics := by
  intro as as'
  have h : List.Forall₂ Arrival.SameFrame as as' :=
    .cons ⟨rfl, rfl, rfl⟩ (.cons ⟨rfl, rfl, rfl⟩ .nil)
  exact metrics_of_sameFrame h demoTwoCpus

end L4Balancer
