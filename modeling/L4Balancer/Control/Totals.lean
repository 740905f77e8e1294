import L4Balancer.Control.Loaded
import L4Balancer.Control.Metrics
import L4Balancer.Control.Validator

/-!
# Totals of metrics

The packets of all entries of a metrics map are meant to be those of all counters
(`Dataplane.Lossless`). But two indices under one label leave one entry, and what the
counters of the other index have is not exported. The label shows the first four bytes
of the address, the port and the version: a real with one address in two services, a
TCP and a UDP service with one target, or two IPv6 addresses that begin alike share it.

`lossless_iff` says that there is no other loss: whatever the counters have, the totals
agree exactly if no two backends and no two services show the same.
-/

namespace L4Balancer

open Bpf

variable {cpus n : ℕ}

/-- The packets of all entries of a map of metrics. -/
def packetsIn {ι : Type*} {cmp : ι → ι → Ordering} (metrics : Std.TreeMap ι MetricsData cmp) :
    UInt64 :=
  (metrics.toList.map fun e => e.2.totalPackets).sum

/-- The packets of the counters below the index `count`, on all CPUs. -/
def packetsBelow (stats : PerCpuArray PacketsData cpus n) (count : ℕ) : UInt64 :=
  (((List.finRange n).take count).map fun i => ∑ cpu, (stats.get cpu i).totalPackets).sum

/-- The metrics have the packets of all counters of the backends and of the services. -/
def Dataplane.Lossless (d : Dataplane cpus) : Prop :=
  packetsIn d.getBackendsCurrentMetrics =
      packetsBelow d.maps.backendsPacketsStats d.xdp.backends.length ∧
    packetsIn d.getServicesCurrentMetrics =
      packetsBelow d.maps.servicesPacketsStats d.xdp.keys.length

/-! ## Entries under labels -/

section Relabel

variable {κ ι : Type*} {cmp : κ → κ → Ordering} {cmp' : ι → ι → Ordering} [Std.TransCmp cmp]
  [Std.TransCmp cmp'] {info : κ → ι} {entries : List (κ × PacketsData)}

/-- The metrics by label of samples that are first collected by key. -/
def relabel (cmp : κ → κ → Ordering) (cmp' : ι → ι → Ordering) (info : κ → ι)
    (entries : List (κ × PacketsData)) : Std.TreeMap ι MetricsData cmp' :=
  .ofList ((Std.TreeMap.ofList entries cmp).toList.map fun e => (info e.1, e.2.metrics)) cmp'

/-- Samples under different labels are all there. -/
theorem relabel_perm [Std.LawfulEqCmp cmp'] (hinfo : ∀ a b, cmp a b = .eq → info a = info b)
    (h : (entries.map fun e => info e.1).Nodup) :
    (relabel cmp cmp' info entries).toList.Perm
      (entries.map fun e => (info e.1, e.2.metrics)) := by
  have hentries : (Std.TreeMap.ofList entries cmp).toList.Perm entries := by
    have hdistinct : entries.Pairwise fun e e' => cmp e.1 e'.1 ≠ .eq :=
      (List.pairwise_map.1 h).imp fun hne heq => hne (hinfo _ _ heq)
    exact Std.TreeMap.toList_ofList_perm hdistinct
  have hlabels := hentries.map fun e => (info e.1, e.2.metrics)
  refine (?_ : List.Perm _ _).trans hlabels
  have hdistinct : ((Std.TreeMap.ofList entries cmp).toList.map
      fun e => (info e.1, e.2.metrics)).Pairwise fun e e' => cmp' e.1 e'.1 ≠ .eq := by
    have hnodup := (hentries.map fun e => info e.1).nodup_iff.2 h
    refine List.pairwise_map.2 ((List.pairwise_map.1 hnodup).imp fun hne heq => ?_)
    exact hne (Std.LawfulEqCmp.eq_of_compare heq)
  exact Std.TreeMap.toList_ofList_perm hdistinct

/-- Every entry is a sample under its label. -/
theorem mem_relabel {e : ι × MetricsData} (h : e ∈ (relabel cmp cmp' info entries).toList) :
    ∃ e' ∈ entries, e = (info e'.1, e'.2.metrics) := by
  obtain ⟨e', he', rfl⟩ := List.mem_map.1 (Std.TreeMap.mem_of_mem_toList_ofList h)
  exact ⟨e', Std.TreeMap.mem_of_mem_toList_ofList he', rfl⟩

/-- Of samples two of which have the same label, one is not there. -/
theorem length_relabel_lt (h : ¬(entries.map fun e => info e.1).Nodup) :
    (relabel cmp cmp' info entries).toList.length < entries.length := by
  classical
  let labels := entries.map fun e => info e.1
  have hnodup : ((relabel cmp cmp' info entries).toList.map Prod.fst).Nodup :=
    List.pairwise_map.2 (Std.TreeMap.distinct_keys_toList.imp fun {e e'} hne heq => by
      rw [heq] at hne
      exact hne Std.ReflCmp.compare_self)
  have hsub : (relabel cmp cmp' info entries).toList.map Prod.fst ⊆ labels.dedup := by
    intro label hlabel
    obtain ⟨e, he, rfl⟩ := List.mem_map.1 hlabel
    obtain ⟨e', he', rfl⟩ := mem_relabel he
    exact List.mem_dedup.2 (List.mem_map.2 ⟨e', he', rfl⟩)
  have hle := (hnodup.subperm hsub).length_le
  have hlt : labels.dedup.length < labels.length :=
    lt_of_le_of_ne (List.dedup_sublist labels).length_le fun heq =>
      h (List.dedup_eq_self.1 ((List.dedup_sublist labels).eq_of_length heq))
  rw [List.length_map] at hle hlt
  exact lt_of_le_of_lt hle hlt

end Relabel

/-! ## Labels of addresses -/

/-- Numbers whose four bytes are the same. -/
theorem eq_of_bytes {a b : BitVec 32}
    (h : ∀ i < 4, (a >>> (8 * i)).setWidth 8 = (b >>> (8 * i)).setWidth 8) : a = b := by
  refine BitVec.eq_of_getLsbD_eq fun i hi => ?_
  have hbit := congrArg (BitVec.getLsbD · (i % 8)) (h (i / 8) (by omega))
  simpa [Nat.mod_lt, Nat.div_add_mod] using hbit

theorem ipv4_eq_of_bytes {a b : Addr} (h : a.bytes = b.bytes) : a.ipv4 = b.ipv4 := by
  refine eq_of_bytes fun i hi => ?_
  have hbyte : UInt8.ofBitVec ((a >>> (8 * i)).setWidth 8) =
      UInt8.ofBitVec ((b >>> (8 * i)).setWidth 8) :=
    List.map_inj_left.1 h i (List.mem_range.2 (by omega))
  have hbits := congrArg UInt8.toBitVec hbyte
  refine BitVec.eq_of_getLsbD_eq fun j hj => ?_
  have hbit := congrArg (BitVec.getLsbD · j) hbits
  have hlt : 8 * i + j < 32 := by omega
  simpa [Addr.ipv4, hj, hlt] using hbit

/-- What is before the first dot, and what is after it. -/
theorem dot_inj {x y s t : List Char} (hx : '.' ∉ x) (hy : '.' ∉ y)
    (h : x ++ '.' :: s = y ++ '.' :: t) : x = y ∧ s = t := by
  induction x generalizing y with
  | nil =>
    cases y with
    | nil => exact ⟨rfl, (List.cons.inj h).2⟩
    | cons d y => exact absurd ((List.cons.inj h).1 ▸ List.mem_cons_self) hy
  | cons c x ih =>
    cases y with
    | nil => exact absurd ((List.cons.inj h).1 ▸ List.mem_cons_self) hx
    | cons d y =>
      obtain ⟨hc, hrest⟩ := List.cons.inj h
      obtain ⟨hxy, hst⟩ := ih (fun hm => hx (List.mem_cons_of_mem _ hm))
        (fun hm => hy (List.mem_cons_of_mem _ hm)) hrest
      exact ⟨by rw [hc, hxy], hst⟩

theorem repr_dot_inj {x y : ℕ} {s t : String}
    (h : x.repr ++ ("." ++ s) = y.repr ++ ("." ++ t)) : x = y ∧ s = t := by
  have hdot : ∀ z : ℕ, '.' ∉ z.repr.toList := fun z hz => by
    rw [Nat.toList_repr] at hz
    exact absurd (Nat.isDigit_of_mem_toDigits (by decide) (by decide) hz) (by decide)
  have hlist : x.repr.toList ++ '.' :: s.toList = y.repr.toList ++ '.' :: t.toList := by
    simpa [String.toList_append] using congrArg String.toList h
  obtain ⟨hxy, hst⟩ := dot_inj (hdot x) (hdot y) hlist
  exact ⟨Nat.repr_inj.1 (String.toList_inj.1 hxy), String.toList_inj.1 hst⟩

theorem inetNtop_inj {a b : BitVec 32} : inetNtop a = inetNtop b ↔ a = b := by
  refine ⟨fun h => eq_of_bytes fun i hi => BitVec.eq_of_toNat_eq ?_, fun h => h ▸ rfl⟩
  simp only [inetNtop, String.append_assoc] at h
  obtain ⟨h₀, h⟩ := repr_dot_inj h
  obtain ⟨h₁, h⟩ := repr_dot_inj h
  obtain ⟨h₂, h⟩ := repr_dot_inj h
  have h₃ := Nat.repr_inj.1 h
  obtain rfl | rfl | rfl | rfl : i = 0 ∨ i = 1 ∨ i = 2 ∨ i = 3 := by omega
  · exact h₀
  · exact h₁
  · exact h₂
  · exact h₃

/-- What the label of a backend, or of a service, shows. -/
def Backend.shown (b : Backend) : BitVec 32 × UInt16 × UInt8 := (b.ip.ipv4, b.port, b.ipVersion)

def ServiceKey.shown (key : ServiceKey) : BitVec 32 × UInt16 × UInt8 :=
  (key.vip.ipv4, key.port, key.ipVersion)

/-- Numbers of ports and of versions keep apart when they are widened. -/
theorem widen_inj {p p' : UInt16} {v v' : UInt8} (hp : p.toUInt32 = p'.toUInt32)
    (hv : (v.toNat : ℤ) = v'.toNat) : p = p' ∧ v = v' :=
  ⟨UInt16.toNat_inj.1 (by simpa using congrArg UInt32.toNat hp),
    UInt8.toNat_inj.1 (Int.ofNat.inj hv)⟩

theorem Backend.info_inj {a b : Backend} : a.info = b.info ↔ a.shown = b.shown := by
  simp only [info, shown, Metrics.BackendInfo.mk.injEq, Prod.mk.injEq, inetNtop_inj]
  refine and_congr_right fun _ => ⟨fun h => widen_inj h.1 h.2, ?_⟩
  rintro ⟨hp, hv⟩
  rw [hp, hv]
  exact ⟨rfl, rfl⟩

/-- The name of a service is that of its address and port. -/
theorem ServiceKey.info_inj {config : BaseConfig} {a b : ServiceKey} :
    a.info config = b.info config ↔ a.shown = b.shown := by
  simp only [info, shown, Metrics.ServiceInfo.mk.injEq, Prod.mk.injEq, inetNtop_inj]
  constructor
  · rintro ⟨-, hip, hp, hv⟩
    exact ⟨hip, widen_inj hp hv⟩
  · rintro ⟨hip, hp, hv⟩
    rw [hip, hp, hv]
    exact ⟨rfl, rfl, rfl, rfl⟩

/-- Addresses that compare alike begin alike. -/
theorem ipv4_eq_of_compare {v : UInt8} {a b : Addr}
    (h : (if v = 4 then compare a.ipv4.toNat b.ipv4.toNat else compare a.bytes b.bytes) = .eq) :
    a.ipv4 = b.ipv4 := by
  split_ifs at h
  · exact BitVec.eq_of_toNat_eq (compare_eq_iff_eq.1 h)
  · exact ipv4_eq_of_bytes (Std.LawfulEqCmp.eq_of_compare h)

theorem Backend.shown_of_cmp {a b : Backend} (h : cmp a b = .eq) : a.shown = b.shown := by
  obtain ⟨hv, h⟩ := Ordering.then_eq_eq.1 h
  obtain ⟨hip, h⟩ := Ordering.then_eq_eq.1 h
  obtain ⟨hp, -⟩ := Ordering.then_eq_eq.1 h
  rw [shown, shown, ipv4_eq_of_compare hip, Std.LawfulEqCmp.eq_of_compare hp,
    Std.LawfulEqCmp.eq_of_compare hv]

theorem ServiceKey.shown_of_cmp {a b : ServiceKey} (h : cmp a b = .eq) : a.shown = b.shown := by
  obtain ⟨hv, h⟩ := Ordering.then_eq_eq.1 h
  obtain ⟨hip, h⟩ := Ordering.then_eq_eq.1 h
  obtain ⟨hp, -⟩ := Ordering.then_eq_eq.1 h
  rw [shown, shown, ipv4_eq_of_compare hip, Std.LawfulEqCmp.eq_of_compare hp,
    Std.LawfulEqCmp.eq_of_compare hv]

/-! ## Totals -/

/-- The packets of the samples are those of the counters. -/
theorem sum_samples {κ : Type*} (stats : PerCpuArray PacketsData cpus n) (keys : List κ) :
    ((samples stats keys).map fun e => e.2.totalPackets).sum = packetsBelow stats keys.length := by
  let packets : PacketsData →+ UInt64 := ⟨⟨PacketsData.totalPackets, rfl⟩, fun _ _ => rfl⟩
  have hsum : ∀ i, (stats.total id i).totalPackets = ∑ cpu, (stats.get cpu i).totalPackets :=
    fun i => map_sum packets (fun cpu => stats.get cpu i) Finset.univ
  have hmap : ((samples stats keys).map fun e => e.2.totalPackets) =
      ((samples stats keys).map Prod.snd).map PacketsData.totalPackets := by
    rw [List.map_map]
    rfl
  rw [hmap, map_snd_samples, List.map_map, packetsBelow]
  exact congrArg List.sum (List.map_congr_left fun i _ => hsum i)

theorem toNat_nsmul_one (k : ℕ) : (k • (1 : UInt64)).toNat = k % 2 ^ 64 := by
  induction k with
  | zero => rfl
  | succ k ih =>
    rw [succ_nsmul, UInt64.toNat_add, ih, UInt64.toNat_one]
    omega

/-- A packet on one CPU for each counter. -/
def onePacket (cpus n : ℕ) [NeZero cpus] : PerCpuArray PacketsData cpus n :=
  ⟨fun cpu _ => if cpu = 0 then ⟨1, 0, 0, 0, 0⟩ else 0⟩

theorem total_onePacket [NeZero cpus] (i : Fin n) :
    (onePacket cpus n).total id i = ⟨1, 0, 0, 0, 0⟩ :=
  Finset.sum_ite_eq' Finset.univ (0 : Fin cpus) (fun _ => (⟨1, 0, 0, 0, 0⟩ : PacketsData)) |>.trans
    (if_pos (Finset.mem_univ _))

section Relabel

variable {κ ι : Type*} {cmp : κ → κ → Ordering} {cmp' : ι → ι → Ordering} [Std.TransCmp cmp]
  [Std.TransCmp cmp'] {info : κ → ι}

/-- The totals of the metrics by label, whatever the counters have. -/
theorem packetsIn_relabel_iff [NeZero cpus] [Std.LawfulEqCmp cmp'] (hn : n < 2 ^ 64)
    (hinfo : ∀ a b, cmp a b = .eq → info a = info b) (keys : List κ) :
    (∀ stats : PerCpuArray PacketsData cpus n,
      packetsIn (relabel cmp cmp' info (samples stats keys)) = packetsBelow stats keys.length) ↔
      ((keys.take n).map info).Nodup := by
  have hlabels : ∀ stats : PerCpuArray PacketsData cpus n,
      ((samples stats keys).map fun e => info e.1) = (keys.take n).map info := fun stats => by
    rw [← map_fst_samples stats, List.map_map]
    rfl
  constructor
  · intro h
    by_contra hnodup
    have hlt : (relabel cmp cmp' info (samples (onePacket cpus n) keys)).toList.length <
        (samples (onePacket cpus n) keys).length :=
      length_relabel_lt ((hlabels (onePacket cpus n)).symm ▸ hnodup)
    have hlength : (samples (onePacket cpus n) keys).length < 2 ^ 64 := by
      have hle := congrArg List.length (map_fst_samples (onePacket cpus n) keys)
      rw [List.length_map, List.length_take] at hle
      omega
    -- all entries have one packet
    have hone : ∀ e ∈ samples (onePacket cpus n) keys, e.2.totalPackets = 1 := fun e he => by
      rw [samples_eq] at he
      obtain ⟨e', -, rfl⟩ := List.mem_map.1 he
      rw [total_onePacket]
    have hin : packetsIn (relabel cmp cmp' info (samples (onePacket cpus n) keys)) =
        (relabel cmp cmp' info (samples (onePacket cpus n) keys)).toList.length • 1 := by
      rw [packetsIn, List.sum_eq_card_nsmul _ 1, List.length_map]
      intro x hx
      obtain ⟨e, he, rfl⟩ := List.mem_map.1 hx
      obtain ⟨e', he', rfl⟩ := mem_relabel he
      exact hone e' he'
    have hbelow : packetsBelow (onePacket cpus n) keys.length =
        (samples (onePacket cpus n) keys).length • 1 := by
      rw [← sum_samples, List.sum_eq_card_nsmul _ 1, List.length_map]
      intro x hx
      obtain ⟨e, he, rfl⟩ := List.mem_map.1 hx
      exact hone e he
    have heq := congrArg UInt64.toNat (hin.symm.trans ((h (onePacket cpus n)).trans hbelow))
    rw [toNat_nsmul_one, toNat_nsmul_one, Nat.mod_eq_of_lt (hlt.trans hlength),
      Nat.mod_eq_of_lt hlength] at heq
    exact hlt.ne heq
  · intro hnodup stats
    have hperm : (relabel cmp cmp' info (samples stats keys)).toList.Perm _ :=
      relabel_perm hinfo ((hlabels stats).symm ▸ hnodup)
    rw [packetsIn, (hperm.map _).sum_eq, List.map_map, ← sum_samples]
    rfl

end Relabel

instance : Std.LawfulEqCmp Metrics.BackendInfo.cmp where
  eq_of_compare {a b} h := by
    obtain ⟨hv, h⟩ := Ordering.then_eq_eq.1 h
    obtain ⟨hip, hp⟩ := Ordering.then_eq_eq.1 h
    exact Metrics.BackendInfo.mk.injEq _ _ _ _ _ _ ▸ ⟨Std.LawfulEqCmp.eq_of_compare hip,
      Std.LawfulEqCmp.eq_of_compare hp, Std.LawfulEqCmp.eq_of_compare hv⟩

instance : Std.LawfulEqCmp Metrics.ServiceInfo.cmp where
  eq_of_compare {a b} h := by
    obtain ⟨hv, h⟩ := Ordering.then_eq_eq.1 h
    obtain ⟨hip, h⟩ := Ordering.then_eq_eq.1 h
    obtain ⟨hname, hp⟩ := Ordering.then_eq_eq.1 h
    exact Metrics.ServiceInfo.mk.injEq _ _ _ _ _ _ _ _ ▸ ⟨Std.LawfulEqCmp.eq_of_compare hname,
      Std.LawfulEqCmp.eq_of_compare hip, Std.LawfulEqCmp.eq_of_compare hp,
      Std.LawfulEqCmp.eq_of_compare hv⟩

theorem nodup_map_congr {α β γ : Type*} {f : α → β} {g : α → γ}
    (h : ∀ a b, f a = f b ↔ g a = g b) (l : List α) : (l.map f).Nodup ↔ (l.map g).Nodup := by
  rw [List.Nodup, List.Nodup, List.pairwise_map, List.pairwise_map]
  simp only [Ne, h]

/-- The dataplane with other contents of the statistics maps. -/
def Dataplane.withStats (d : Dataplane cpus) (backendStats : PerCpuArray PacketsData cpus 1024)
    (serviceStats : PerCpuArray PacketsData cpus 256) : Dataplane cpus :=
  { d with
    maps :=
      { d.maps with
        backendsPacketsStats := backendStats
        servicesPacketsStats := serviceStats } }

/-- Metrics lose no traffic exactly if the labels keep all entries apart. For every dataplane,
    whatever it has loaded: the totals agree for every content of the statistics maps exactly if
    no two backends and no two services, among those that have counters, show the same first four
    bytes of the address, port and version. -/
theorem lossless_iff [NeZero cpus] (d : Dataplane cpus) :
    (∀ backendStats serviceStats, (d.withStats backendStats serviceStats).Lossless) ↔
      ((d.xdp.backends.take 1024).map Backend.shown).Nodup ∧
        ((d.xdp.keys.take 256).map ServiceKey.shown).Nodup := by
  have hbackends : (∀ stats : PerCpuArray PacketsData cpus 1024,
      packetsIn (relabel Backend.cmp Metrics.BackendInfo.cmp Backend.info
        (samples stats d.xdp.backends)) = packetsBelow stats d.xdp.backends.length) ↔ _ :=
    packetsIn_relabel_iff (by norm_num)
      (fun a b h => Backend.info_inj.2 (Backend.shown_of_cmp h)) d.xdp.backends
  have hservices : (∀ stats : PerCpuArray PacketsData cpus 256,
      packetsIn (relabel ServiceKey.cmp Metrics.ServiceInfo.cmp (ServiceKey.info d.currConfig)
        (samples stats d.xdp.keys)) = packetsBelow stats d.xdp.keys.length) ↔ _ :=
    packetsIn_relabel_iff (by norm_num)
      (fun a b h => ServiceKey.info_inj.2 (ServiceKey.shown_of_cmp h)) d.xdp.keys
  rw [nodup_map_congr fun _ _ => Backend.info_inj] at hbackends
  rw [nodup_map_congr fun _ _ => ServiceKey.info_inj] at hservices
  rw [← hbackends, ← hservices]
  exact ⟨fun h => ⟨fun stats => (h stats d.maps.servicesPacketsStats).1,
    fun stats => (h d.maps.backendsPacketsStats stats).2⟩,
    fun h backendStats serviceStats => ⟨h.1 backendStats, h.2 serviceStats⟩⟩

/-- A packet for every index. -/
theorem lossless_demo : (demoTwoCpus.withStats (onePacket 2 1024) (onePacket 2 256)).Lossless :=
  (lossless_iff demoTwoCpus).2 ⟨by decide, by decide⟩ (onePacket 2 1024) (onePacket 2 256)

/-- Two services with one target, one for TCP and one for UDP. -/
def demoProtocols : BaseConfig where
  services := [demoService "10.0.0.1" .rr ["10.0.1.1"],
    { demoService "10.0.0.1" .rr ["10.0.1.2"] with name := "datagrams", protocol := "udp" }]

/-- The metrics of the services have one packet of two. -/
theorem protocols_lossy : demoProtocols.validate = (demoProtocols, none) ∧
    ((Dataplane.fresh 1).publish demoEnv demoProtocols).isOk ∧
    let d := (Outcome.dataplane ((Dataplane.fresh 1).reloadConfig demoEnv demoProtocols)).withStats
      (.const 0) (onePacket 1 256)
    packetsBelow d.maps.servicesPacketsStats d.xdp.keys.length = 2 ∧
      packetsIn d.getServicesCurrentMetrics = 1 ∧ ¬d.Lossless := by
  refine ⟨by decide +kernel, by decide +kernel, ?_⟩
  intro d
  have hbelow : packetsBelow d.maps.servicesPacketsStats d.xdp.keys.length = 2 := by decide +kernel
  have hin : packetsIn d.getServicesCurrentMetrics = 1 := by decide +kernel
  refine ⟨hbelow, hin, fun h => ?_⟩
  exact absurd (hin.symm.trans (h.2.trans hbelow)) (by decide)

end L4Balancer
