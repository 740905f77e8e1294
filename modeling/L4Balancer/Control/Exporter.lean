import L4Balancer.Control.History
import L4Balancer.Control.Reset
import L4Balancer.Control.Totals

/-!
# The exporter

`MetricsServer::scrapMetrics` adds to every exported counter of a label the difference
to the sample it took before, or the whole sample if it has none. The samples are 64-bit
numbers and the difference is taken without sign. So a sample below the one before adds
nearly `2 ^ 64`; and a reload sets the counters to zero.

The machine `exporter` handles frames, reloads and scrapes in any order. What it has
added under the label of a backend is meant to be at most what has been counted for the
backend. It is, as long as (`Exporter.Sound`)

* no scrape finds a sample below the one before,
* a reload gets to its reset of the counters, or leaves the backend at its index, and
* no other backend has the label.

The rates, which are floating-point numbers, are left out.
-/

namespace L4Balancer

open Bpf

variable {cpus : ℕ} {env : Env} {config : BaseConfig} {d d' d₁ : Dataplane cpus}

/-! ## Scrapes -/

/-- The fields of a sample that are exported as counters. -/
inductive CounterField
  | totalPackets
  | tcpSynPackets
  | preparedPackets
  | totalBytes
  deriving DecidableEq

/-- In the order in which a scrape adds them. -/
def CounterField.all : List CounterField :=
  [totalPackets, tcpSynPackets, preparedPackets, totalBytes]

def MetricsData.counter (data : MetricsData) : CounterField → UInt64
  | .totalPackets => data.totalPackets
  | .tcpSynPackets => data.tcpSynPackets
  | .preparedPackets => data.preparedPackets
  | .totalBytes => data.totalBytes

/-- What is exported: an amount added to a counter, or the value of a gauge. The labels are the
    fields of `info`; the versions in a dataplane are `4` and `6`, whose texts they are. -/
inductive Report
  | addBackend (field : CounterField) (info : Metrics.BackendInfo) (amount : UInt64)
  | backendConnections (info : Metrics.BackendInfo) (value : ℤ)
  | addService (field : CounterField) (info : Metrics.ServiceInfo) (amount : UInt64)
  | serviceConnections (info : Metrics.ServiceInfo) (value : ℤ)
  | addDropped (amount : UInt64)
  | blacklistSize (value : ℤ)

/-- `MetricsServer`, the samples it keeps. -/
structure MetricsServer where
  prevBackendMetrics : Std.TreeMap Metrics.BackendInfo MetricsData Metrics.BackendInfo.cmp
  prevServiceMetrics : Std.TreeMap Metrics.ServiceInfo MetricsData Metrics.ServiceInfo.cmp
  prevDroppedTotal : UInt64

def MetricsServer.fresh : MetricsServer := ⟨∅, ∅, 0⟩

/-- The amount that is added for a sample, with the one before if there is one. -/
def amount (prev : Option MetricsData) (current : MetricsData) (field : CounterField) : UInt64 :=
  match prev with
  | some prev => current.counter field - prev.counter field
  | none => current.counter field

/-- `GetDdosStats`: the packets dropped, and the number of sources in the blacklist. -/
def Dataplane.getDdosStats (d : Dataplane cpus) : UInt64 × UInt64 :=
  ((d.ddos.globalSyn.get 0).droppedTotal, .ofNat d.ddos.blacklist.size)

namespace MetricsServer

variable (server : MetricsServer)

/-- What is exported of a backend. -/
def backendReports (info : Metrics.BackendInfo) (current : MetricsData) : List Report :=
  CounterField.all.map (fun field =>
    .addBackend field info (amount server.prevBackendMetrics[info]? current field)) ++
    [.backendConnections info current.connections.toInt]

/-- What is exported of a service. -/
def serviceReports (info : Metrics.ServiceInfo) (current : MetricsData) : List Report :=
  CounterField.all.map (fun field =>
    .addService field info (amount server.prevServiceMetrics[info]? current field)) ++
    [.serviceConnections info current.connections.toInt]

/-- What is exported of the packets dropped: here the difference is only taken if there is one. -/
def droppedReports (droppedTotal : UInt64) : List Report :=
  if droppedTotal ≥ server.prevDroppedTotal then
    [.addDropped (droppedTotal - server.prevDroppedTotal)]
  else []

/-- `scrapMetrics`. -/
def scrapMetrics (d : Dataplane cpus) : List Report × MetricsServer :=
  let currentBackendMetrics := d.getBackendsCurrentMetrics
  let currentServiceMetrics := d.getServicesCurrentMetrics
  let (droppedTotal, blacklistSize) := d.getDdosStats
  (currentBackendMetrics.toList.flatMap (fun e => server.backendReports e.1 e.2) ++
    currentServiceMetrics.toList.flatMap (fun e => server.serviceReports e.1 e.2) ++
    server.droppedReports droppedTotal ++ [.blacklistSize blacklistSize.toInt64.toInt],
    ⟨currentBackendMetrics, currentServiceMetrics, droppedTotal⟩)

end MetricsServer

/-! ## Runs -/

/-- The dataplane with its exporter. -/
structure Exporter (cpus : ℕ) where
  dataplane : Dataplane cpus
  server : MetricsServer

def Exporter.fresh (cpus : ℕ) : Exporter cpus := ⟨.fresh cpus, .fresh⟩

/-- What happens: a frame arrives, a configuration is loaded, the metrics are scraped. -/
inductive Occasion (cpus : ℕ)
  | packet (a : Arrival cpus)
  | reload (env : Env) (config : BaseConfig)
  | scrape

/-- The machine of the dataplane and the exporter, with what it exports. -/
def exporter (cpus : ℕ) : Machine (Exporter cpus) (Occasion cpus) (List Report) where
  step
    | .packet a => fun s => ([], { s with dataplane := s.dataplane.handle [a] })
    | .reload env config => fun s =>
      ([], { s with dataplane := (s.dataplane.reloadConfig env config).dataplane })
    | .scrape => fun s =>
      let (reports, server) := s.server.scrapMetrics s.dataplane
      (reports, { s with server := server })

/-- What a report adds to the counter of a backend. -/
def Report.added (field : CounterField) (info : Metrics.BackendInfo) : Report → ℕ
  | addBackend field' info' amount => if field' = field ∧ info' = info then amount.toNat else 0
  | _ => 0

/-- What reports add to the counter of a backend. -/
def added (field : CounterField) (info : Metrics.BackendInfo) (reports : List Report) : ℕ :=
  (reports.map (Report.added field info)).sum

/-- The counters of the backend with a label. -/
def Dataplane.backendStats (d : Dataplane cpus) (info : Metrics.BackendInfo) :
    Option PacketsData :=
  (d.xdp.backends.findIdx? (·.info = info)).bind (summary d.maps.backendsPacketsStats)

/-- A field of them; `0` if there are none. -/
def Dataplane.backendCounter (d : Dataplane cpus) (field : CounterField)
    (info : Metrics.BackendInfo) : UInt64 :=
  (d.backendStats info).elim 0 fun stats => stats.metrics.counter field

/-- What a step counts for a backend: a packet, what it adds to the counter of the backend. -/
def counted (field : CounterField) (info : Metrics.BackendInfo) (s : Exporter cpus) :
    Occasion cpus → ℕ
  | .packet a =>
    ((s.dataplane.handle [a]).backendCounter field info -
      s.dataplane.backendCounter field info).toNat
  | _ => 0

/-- All that a run adds to the exported counter of a backend. -/
def totalAdded (field : CounterField) (info : Metrics.BackendInfo) (s : Exporter cpus)
    (es : List (Occasion cpus)) : ℕ :=
  (((exporter cpus).outs s es).map (added field info)).sum

/-- All that a run counts for a backend. -/
def totalCounted (field : CounterField) (info : Metrics.BackendInfo) (s : Exporter cpus)
    (es : List (Occasion cpus)) : ℕ :=
  (((exporter cpus).trace s es).map fun step => counted field info step.1 step.2).sum

/-! ## Samples -/

/-- No two backends have the label. -/
def Dataplane.Unshared (d : Dataplane cpus) (info : Metrics.BackendInfo) : Prop :=
  d.xdp.backends.Pairwise fun b b' => b.info = info → b'.info ≠ info

instance (info : Metrics.BackendInfo) : Decidable (d.Unshared info) :=
  inferInstanceAs (Decidable (List.Pairwise _ _))

/-- A sample is the sum at the index of its key. -/
theorem mem_samples {κ : Type*} {n : ℕ} {stats : PerCpuArray PacketsData cpus n} {keys : List κ}
    {e : κ × PacketsData} :
    e ∈ samples stats keys ↔ ∃ i, keys[i]? = some e.1 ∧ summary stats i = some e.2 := by
  rw [samples, List.mem_filterMap]
  constructor
  · rintro ⟨⟨key, i⟩, hkey, he⟩
    obtain ⟨sum, hsum, rfl⟩ := Option.map_eq_some_iff.1 he
    exact ⟨i, List.mem_zipIdx_iff_getElem?.1 hkey, hsum⟩
  · rintro ⟨i, hkey, hsum⟩
    exact ⟨(e.1, i), List.mem_zipIdx_iff_getElem?.2 hkey, by rw [hsum]; rfl⟩

/-- The samples under a label that no two backends have. -/
theorem Dataplane.Unshared.sample_eq {info : Metrics.BackendInfo} (h : d.Unshared info)
    {e : Backend × PacketsData} (he : e ∈ samples d.maps.backendsPacketsStats d.xdp.backends)
    (hinfo : e.1.info = info) : d.backendStats info = some e.2 := by
  obtain ⟨i, hkey, hsum⟩ := mem_samples.1 he
  obtain ⟨hi, hget⟩ := List.getElem?_eq_some_iff.1 hkey
  have hidx : d.xdp.backends.findIdx? (·.info = info) = some i := by
    refine List.findIdx?_eq_some_iff_getElem.2 ⟨hi, by simpa [hget] using hinfo, fun j hj hp => ?_⟩
    exact List.pairwise_iff_getElem.1 h j i (hj.trans hi) hi hj (by simpa using hp) (hget ▸ hinfo)
  rw [backendStats, hidx, Option.bind_some, hsum]

/-- The sample under a label that no two backends have. -/
theorem Dataplane.Unshared.getElem?_metrics {info : Metrics.BackendInfo} (h : d.Unshared info) :
    d.getBackendsCurrentMetrics[info]? = (d.backendStats info).map PacketsData.metrics := by
  have hsample : ∀ e ∈ d.getBackendsMetrics.toList, e.1.info = info →
      d.backendStats info = some e.2 := fun e he =>
    h.sample_eq (Std.TreeMap.mem_of_mem_toList_ofList he)
  rw [getBackendsCurrentMetrics]
  cases hstats : d.backendStats info with
  | none =>
    refine Std.TreeMap.getElem?_ofList_of_ne fun e he heq => ?_
    obtain ⟨e', he', rfl⟩ := List.mem_map.1 he
    have hsome := hsample e' he' (Std.LawfulEqCmp.eq_of_compare heq)
    rw [hstats] at hsome
    cases hsome
  | some stats =>
    refine Std.TreeMap.getElem?_ofList_of_agree (fun e he heq => ?_) ?_
    · obtain ⟨e', he', rfl⟩ := List.mem_map.1 he
      have hsome := hsample e' he' (Std.LawfulEqCmp.eq_of_compare heq)
      rw [hstats] at hsome
      exact congrArg PacketsData.metrics (Option.some.inj hsome).symm
    · -- the backend is there, under its key or under one that compares alike
      obtain ⟨i, hidx, hsum⟩ := Option.bind_eq_some_iff.1 hstats
      obtain ⟨hi, hinfo, -⟩ := List.findIdx?_eq_some_iff_getElem.1 hidx
      have hinfo : d.xdp.backends[i].info = info := by simpa using hinfo
      have hmem : (d.xdp.backends[i], stats) ∈
          samples d.maps.backendsPacketsStats d.xdp.backends :=
        mem_samples.2 ⟨i, List.getElem?_eq_getElem hi, hsum⟩
      have hget : d.getBackendsMetrics[d.xdp.backends[i]]? = some stats := by
        refine Std.TreeMap.getElem?_ofList_of_agree (fun e he heq => ?_)
          ⟨_, hmem, Std.ReflCmp.compare_self⟩
        have hinfo' := (Backend.info_inj.2 (Backend.shown_of_cmp heq)).trans hinfo
        exact (Option.some.inj (hstats.symm.trans (h.sample_eq he hinfo'))).symm
      obtain ⟨b, heq, hb⟩ :=
        Std.TreeMap.getElem?_eq_some_iff_exists_compare_eq_eq_and_mem_toList.1 hget
      have hb' := (Backend.info_inj.2 (Backend.shown_of_cmp heq)).symm.trans hinfo
      refine ⟨(b.info, stats.metrics), List.mem_map.2 ⟨_, hb, rfl⟩, ?_⟩
      dsimp only
      rw [hb']
      exact Std.ReflCmp.compare_self

/-! ## Reports -/

section Reports

variable {field : CounterField} {info : Metrics.BackendInfo}

theorem added_append (reports reports' : List Report) :
    added field info (reports ++ reports') =
      added field info reports + added field info reports' := by
  rw [added, List.map_append, List.sum_append, added, added]

theorem added_flatMap {α : Type*} (l : List α) (f : α → List Report) :
    added field info (l.flatMap f) = (l.map fun a => added field info (f a)).sum := by
  induction l with
  | nil => rfl
  | cons a l ih => rw [List.flatMap_cons, added_append, ih, List.map_cons, List.sum_cons]

/-- Only the reports of the backend with the label count. -/
theorem added_backendReports (server : MetricsServer) (info' : Metrics.BackendInfo)
    (current : MetricsData) : added field info (server.backendReports info' current) =
      if info' = info then
        (amount server.prevBackendMetrics[info']? current field).toNat
      else 0 := by
  by_cases h : info' = info
  · cases field <;>
      simp [added, MetricsServer.backendReports, CounterField.all, Report.added, h]
  · simp [added, MetricsServer.backendReports, CounterField.all, Report.added, h]

theorem added_serviceReports (server : MetricsServer) (info' : Metrics.ServiceInfo)
    (current : MetricsData) : added field info (server.serviceReports info' current) = 0 := by
  simp [added, MetricsServer.serviceReports, CounterField.all, Report.added]

theorem added_droppedReports (server : MetricsServer) (droppedTotal : UInt64) :
    added field info (server.droppedReports droppedTotal) = 0 := by
  rw [MetricsServer.droppedReports]
  split_ifs <;> rfl

/-- What a scrape adds under a label: the amount for the sample, if there is one. -/
theorem added_scrapMetrics (server : MetricsServer) (d : Dataplane cpus) :
    added field info (server.scrapMetrics d).1 =
      (d.getBackendsCurrentMetrics[info]?).elim 0 fun current =>
        (amount server.prevBackendMetrics[info]? current field).toNat := by
  let samples := d.getBackendsCurrentMetrics
  let value := fun e : Metrics.BackendInfo × MetricsData =>
    if e.1 = info then (amount server.prevBackendMetrics[e.1]? e.2 field).toNat else 0
  have hsum : added field info (server.scrapMetrics d).1 = (samples.toList.map value).sum := by
    rw [MetricsServer.scrapMetrics]
    simp only [added_append, added_flatMap, added_backendReports, added_serviceReports,
      added_droppedReports, List.map_const', List.sum_replicate, smul_zero, add_zero]
    rfl
  rw [hsum]
  cases hget : d.getBackendsCurrentMetrics[info]? with
  | none =>
    refine List.sum_eq_zero fun x hx => ?_
    obtain ⟨e, he, rfl⟩ := List.mem_map.1 hx
    refine if_neg fun heq => ?_
    have hsome : d.getBackendsCurrentMetrics[e.1]? = some e.2 :=
      Std.TreeMap.mem_toList_iff_getElem?_eq_some.1 he
    rw [heq, hget] at hsome
    cases hsome
  | some current =>
    classical
    -- the only sample under the label
    have hmem : (info, current) ∈ samples.toList :=
      Std.TreeMap.mem_toList_iff_getElem?_eq_some.2 hget
    have hother : ∀ e, e ≠ (info, current) → e ∈ samples.toList → value e = 0 := by
      intro e hne he
      refine if_neg fun heq => hne (Prod.ext heq ?_)
      have hsome : d.getBackendsCurrentMetrics[e.1]? = some e.2 :=
        Std.TreeMap.mem_toList_iff_getElem?_eq_some.1 he
      rw [heq, hget] at hsome
      exact (Option.some.inj hsome).symm
    have hnodup : samples.toList.Nodup :=
      Std.TreeMap.distinct_keys_toList.imp fun {e e'} hne heq => by
        rw [heq] at hne
        exact hne Std.ReflCmp.compare_self
    have hcount := @List.count_eq_one_of_mem _ instBEqOfDecidableEq _ _ _ hnodup hmem
    rw [List.sum_map_eq_nsmul_single _ value hother, hcount, one_smul]
    exact if_pos rfl

end Reports

/-! ## Reloads -/

/-- `d'` has the vectors and the counters of the backends of `d`. -/
structure KeepsCounts (d d' : Dataplane cpus) : Prop where
  xdp : d'.xdp = d.xdp
  counts : d'.maps.backendsPacketsStats = d.maps.backendsPacketsStats

/-- The writes that reset no counter of a backend. -/
def Write.keepsCounts : Write → Bool
  | backendStats _ => false
  | _ => true

namespace KeepsCounts

theorem refl (d : Dataplane cpus) : KeepsCounts d d := ⟨rfl, rfl⟩

theorem trans (d d₁ d₂ : Dataplane cpus) (h : KeepsCounts d d₁) (h' : KeepsCounts d₁ d₂) :
    KeepsCounts d d₂ := ⟨h'.xdp.trans h.xdp, h'.counts.trans h.counts⟩

theorem counts_of_run {w : Write} {m m' : Maps cpus} (hw : w.keepsCounts)
    (h : w.run m = some m') : m'.backendsPacketsStats = m.backendsPacketsStats := by
  cases w with
  | backendStats => cases hw
  | deleteWrrState | deleteSession =>
    obtain rfl := Option.some.inj h
    rfl
  | backend buffer =>
    obtain ⟨a, -, rfl⟩ := Option.map_eq_some_iff.1 h
    rw [Maps.setBackends]
    split_ifs <;> rfl
  | service buffer =>
    obtain ⟨a, -, rfl⟩ := Option.map_eq_some_iff.1 h
    rw [Maps.setServices]
    split_ifs <;> rfl
  | atomicIndex | rrIndex | chConfig | chBackend | chCurrLookup | chPrevLookup | serviceStats =>
    rw [Write.run] at h
    obtain ⟨a, -, rfl⟩ := Option.map_eq_some_iff.1 h
    rfl

theorem write {ws : List Write} (hws : ∀ w ∈ ws, w.keepsCounts) (d : Dataplane cpus)
    (error : String → String) : KeepsCounts d (d.write ws error).dataplane := by
  rw [Outcome.dataplane_write]
  exact ⟨rfl, rel_runWrites (R := fun m m' => m'.backendsPacketsStats = m.backendsPacketsStats)
    (fun _ => rfl) (fun _ _ _ h h' => h'.trans h)
    (fun w hw _ _ hrun => counts_of_run (hws w hw) hrun) d.maps⟩

theorem switch (d : Dataplane cpus) (env : Env) : KeepsCounts d (d.switch env).dataplane := by
  rw [Dataplane.switch]
  refine Outcome.dataplane_bind trans ?_ fun d₁ => ?_
  · rw [Dataplane.resetCursors]
    refine Outcome.dataplane_bind trans (write ?_ _ _) fun _ => ⟨rfl, rfl⟩
    simp [XdpConfig.rrWrites, Write.keepsCounts]
  · exact ⟨(d₁.foldl_updateCh_frame env d₁.currConfig.services).2.1,
      (SameStats.updateAllCh d₁ env).backends⟩

/-- Up to the flip, the vectors are overwritten, but no counter. -/
theorem publish (d : Dataplane cpus) (env : Env) (config : BaseConfig) :
    KeepsCounts { d with xdp := (config.load env).1 } (d.publish env config).dataplane := by
  have hbatch : ∀ w : Write, w.publishes → w.keepsCounts := fun w hpub => by
    cases w <;> first | rfl | cases hpub
  rcases hload : config.load env with ⟨xdp, _ | e⟩
  · refine trans _ _ _ ?_ (Outcome.dataplane_publish trans
      (fun d ws error hws => write (fun w hw => hbatch w (hws w hw)) d error) hload d)
    cases config.ddosConf <;> exact ⟨rfl, rfl⟩
  · rw [Dataplane.publish, hload]
    exact ⟨rfl, rfl⟩

end KeepsCounts

/-- The counters of the backends of the vectors are zero. -/
def Dataplane.Zeroed (d : Dataplane cpus) : Prop :=
  ∀ cpu (i : Fin 1024), i.val < d.xdp.backends.length →
    d.maps.backendsPacketsStats.get cpu i = .zero

/-- The reset of the statistics gets through the backends, whether or not it does through the
    services. -/
theorem zeroed_resetStats (h : d.xdp.backends.length ≤ 1024) :
    d.resetStats.dataplane.xdp = d.xdp ∧ d.resetStats.dataplane.Zeroed := by
  obtain ⟨a, ha⟩ : ∃ a, d.maps.backendsPacketsStats.fillAll .zero
      (List.range d.xdp.backends.length) = some a :=
    Option.isSome_iff_exists.1 (PerCpuArray.fillAll_isSome.2 fun i hi =>
      lt_of_lt_of_le (List.mem_range.1 hi) h)
  have hbackends : (List.range d.xdp.backends.length).foldlM
      (fun d i => d.write [.backendStats i] (backendStatsError i)) d =
    .ok { d with maps := { d.maps with backendsPacketsStats := a } } :=
    Dataplane.foldlM_write_eq_ok.2 ⟨_, (runWrites_backendStats _).2 ⟨a, ha, rfl⟩, rfl⟩
  have hkeeps : KeepsCounts { d with maps := { d.maps with backendsPacketsStats := a } }
      d.resetStats.dataplane := by
    rw [Dataplane.resetStats, hbackends, Dataplane.ok_bind]
    exact Outcome.dataplane_foldlM KeepsCounts.refl KeepsCounts.trans
      (fun d key => KeepsCounts.write (by simp [Write.keepsCounts]) d _) _ _
  refine ⟨hkeeps.xdp, fun cpu i hi => ?_⟩
  rw [hkeeps.xdp] at hi
  rw [hkeeps.counts, PerCpuArray.get_fillAll ha, if_pos (List.mem_range.2 hi)]

/-- A reload leaves the counters of the backends alone, or sets them to zero. -/
theorem reload_counts (d : Dataplane cpus) (env : Env) (config : BaseConfig) :
    KeepsCounts { d with xdp := (config.load env).1 }
        (Outcome.dataplane (d.reloadConfig env config)) ∨
      (Outcome.dataplane (d.reloadConfig env config)).Zeroed := by
  have hkeeps := KeepsCounts.publish d env config
  rw [Dataplane.reloadConfig]
  cases hpub : d.publish env config with
  | error e =>
    rw [hpub] at hkeeps
    exact .inl hkeeps
  | ok d₁ =>
    rw [hpub] at hkeeps
    have hswitched := KeepsCounts.switch d₁ env
    rw [Dataplane.ok_bind]
    cases hswitch : d₁.switch env with
    | error e =>
      rw [hswitch] at hswitched
      exact .inl (hkeeps.trans _ _ _ hswitched)
    | ok d₂ =>
      rw [hswitch] at hswitched
      obtain ⟨-, -, -, ⟨buffer, hpublished⟩, -⟩ := Dataplane.publish_eq_ok hpub
      have hle : d₂.xdp.backends.length ≤ 1024 := by
        have hxdp : d₂.xdp = d₁.xdp := hswitched.xdp
        rw [hxdp]
        exact hpublished.length_backends_le
      exact .inr (zeroed_resetStats hle).2

section Counter

variable (field : CounterField) (info : Metrics.BackendInfo)

theorem backendCounter_of_zeroed (h : d.Zeroed) : d.backendCounter field info = 0 := by
  rw [Dataplane.backendCounter]
  cases hstats : d.backendStats info with
  | none => rfl
  | some stats =>
    obtain ⟨i, hidx, hsum⟩ := Option.bind_eq_some_iff.1 hstats
    obtain ⟨hi, -, -⟩ := List.findIdx?_eq_some_iff_getElem.1 hidx
    rw [summary] at hsum
    split_ifs at hsum with hlt
    have hzero : d.maps.backendsPacketsStats.total id ⟨i, hlt⟩ = 0 :=
      Finset.sum_eq_zero fun cpu _ => h cpu ⟨i, hlt⟩ hi
    obtain rfl : (0 : PacketsData) = stats := hzero.symm.trans (Option.some.inj hsum)
    cases field <;> rfl

theorem backendCounter_of_keepsCounts {xdp : XdpConfig} (h : KeepsCounts { d with xdp := xdp } d')
    (hidx : xdp.backends.findIdx? (·.info = info) = d.xdp.backends.findIdx? (·.info = info)) :
    d'.backendCounter field info = d.backendCounter field info := by
  rw [Dataplane.backendCounter, Dataplane.backendCounter, Dataplane.backendStats,
    Dataplane.backendStats, h.xdp, h.counts, hidx]

end Counter

/-! ## Counters and what is exported of them -/

/-- Every address and MAC of the configuration is known, and the maps have room for it. -/
def Dataplane.Takes (d : Dataplane cpus) (env : Env) (config : BaseConfig) : Prop :=
  config.Resolves env ∧ config.reals.length ≤ 1024 ∧
    (d.maps.servicesAt (1 - d.currentIndex)).HasRoomFor (config.keys env) ∧
    d.maps.rrIndex.HasRoomFor (config.keys env)

instance : Decidable (d.Takes env config) := inferInstanceAs (Decidable (_ ∧ _ ∧ _ ∧ _))

/-- A reload that has room resets the counters. -/
theorem Dataplane.Takes.zeroed (h : d.Takes env config) :
    (Outcome.dataplane (d.reloadConfig env config)).Zeroed := by
  obtain ⟨hresolves, hreals, hservices, hrr⟩ := h
  obtain ⟨d₂, hreload, -, hlength, -⟩ := Dataplane.reload_of_room hresolves hreals hservices hrr
  rw [hreload]
  exact (zeroed_resetStats (hlength ▸ hreals)).2

namespace Exporter

variable {field : CounterField} {info : Metrics.BackendInfo} {s : Exporter cpus} {T C : ℕ}

/-- The steps after which the exporter is not ahead: a reload resets the counters, or leaves the
    backend at its index; a scrape finds no other backend under the label, and no sample below the
    one before. -/
def Sound (field : CounterField) (info : Metrics.BackendInfo) (s : Exporter cpus) :
    Occasion cpus → Prop
  | .packet _ => True
  | .reload env config => s.dataplane.Takes env config ∨
    (config.load env).1.backends.findIdx? (·.info = info) =
      s.dataplane.xdp.backends.findIdx? (·.info = info)
  | .scrape => s.dataplane.Unshared info ∧
    ∀ prev ∈ s.server.prevBackendMetrics[info]?, ∀ stats ∈ s.dataplane.backendStats info,
      prev.counter field ≤ stats.metrics.counter field

instance (e : Occasion cpus) : Decidable (s.Sound field info e) := by
  cases e with
  | packet => exact inferInstanceAs (Decidable True)
  | reload => exact inferInstanceAs (Decidable (_ ∨ _))
  | scrape => exact inferInstanceAs (Decidable (_ ∧ ∀ _ ∈ _, ∀ _ ∈ _, _))

/-- The sample that the exporter has taken before. -/
def prevCounter (s : Exporter cpus) (field : CounterField) (info : Metrics.BackendInfo) : ℕ :=
  (s.server.prevBackendMetrics[info]?).elim 0 fun prev => (prev.counter field).toNat

/-- What has been added, `T`, is at most what has been counted, `C`, and the next scrape adds at
    most what is missing. -/
structure Behind (field : CounterField) (info : Metrics.BackendInfo) (T C : ℕ)
    (s : Exporter cpus) : Prop where
  total : T ≤ C
  next : T + (s.dataplane.backendCounter field info).toNat ≤ C + s.prevCounter field info

theorem behind_fresh : Behind field info 0 0 (fresh cpus) := by
  refine ⟨le_rfl, ?_⟩
  have hzero : (fresh cpus).dataplane.backendCounter field info = 0 := rfl
  rw [hzero]
  exact Nat.zero_le _

/-- A frame adds to the counter what is counted; the difference goes around with the counter. -/
theorem Behind.packet (h : Behind field info T C s) (a : Arrival cpus) :
    Behind field info T (C + counted field info s (.packet a))
      ((exporter cpus).next (.packet a) s) := by
  refine ⟨h.total.trans (Nat.le_add_right _ _), ?_⟩
  have hnext := h.next
  change T + ((s.dataplane.handle [a]).backendCounter field info).toNat ≤
    C + ((s.dataplane.handle [a]).backendCounter field info -
      s.dataplane.backendCounter field info).toNat + s.prevCounter field info
  generalize (s.dataplane.handle [a]).backendCounter field info = c'
  generalize s.dataplane.backendCounter field info = c at hnext ⊢
  have hsub : c'.toNat ≤ (c' - c).toNat + c.toNat := by
    have hadd := congrArg UInt64.toNat (UInt64.sub_add_cancel c' c)
    rw [UInt64.toNat_add] at hadd
    omega
  omega

theorem Behind.reload (h : Behind field info T C s) {env : Env} {config : BaseConfig}
    (hs : s.Sound field info (.reload env config)) :
    Behind field info T C ((exporter cpus).next (.reload env config) s) := by
  refine ⟨h.total, ?_⟩
  have hprev : ((exporter cpus).next (.reload env config) s).prevCounter field info =
    s.prevCounter field info := rfl
  rw [hprev]
  by_cases hzero : (Outcome.dataplane (s.dataplane.reloadConfig env config)).Zeroed
  · have hcounter : ((exporter cpus).next (.reload env config) s).dataplane.backendCounter field
      info = 0 := backendCounter_of_zeroed field info hzero
    rw [hcounter]
    exact le_add_right h.total
  · have hkeeps := (reload_counts s.dataplane env config).resolve_right hzero
    have hidx := hs.resolve_left fun ht => hzero ht.zeroed
    have hcounter : ((exporter cpus).next (.reload env config) s).dataplane.backendCounter field
      info = s.dataplane.backendCounter field info :=
        backendCounter_of_keepsCounts field info hkeeps hidx
    rw [hcounter]
    exact h.next

theorem Behind.scrape (h : Behind field info T C s) (hs : s.Sound field info .scrape) :
    Behind field info (T + added field info ((exporter cpus).out .scrape s)) C
      ((exporter cpus).next .scrape s) := by
  obtain ⟨hunshared, hle⟩ := hs
  have hsample := hunshared.getElem?_metrics
  have hout : added field info ((exporter cpus).out .scrape s) =
      (s.dataplane.getBackendsCurrentMetrics[info]?).elim 0 fun current =>
        (amount s.server.prevBackendMetrics[info]? current field).toNat :=
    added_scrapMetrics s.server s.dataplane
  have hprev : ((exporter cpus).next .scrape s).prevCounter field info =
    (s.dataplane.getBackendsCurrentMetrics[info]?).elim 0 fun current =>
      (current.counter field).toNat := rfl
  have hdataplane : ((exporter cpus).next .scrape s).dataplane = s.dataplane := rfl
  have hnext := h.next
  rw [prevCounter, Dataplane.backendCounter] at hnext
  rw [hout]
  cases hstats : s.dataplane.backendStats info with
  | none =>
    rw [hstats, Option.map_none] at hsample
    refine ⟨by rw [hsample]; exact h.total, ?_⟩
    rw [hprev, hdataplane, Dataplane.backendCounter, hstats, hsample]
    exact h.total
  | some stats =>
    rw [hstats, Option.map_some] at hsample
    rw [hstats] at hle hnext
    dsimp only [Option.elim_some] at hnext
    -- what is added reaches from the sample before to this one
    have hamount : (amount s.server.prevBackendMetrics[info]? stats.metrics field).toNat +
        (s.server.prevBackendMetrics[info]?).elim 0 (fun prev => (prev.counter field).toNat) =
          (stats.metrics.counter field).toNat := by
      cases hp : s.server.prevBackendMetrics[info]? with
      | none => rfl
      | some prev =>
        have hle := hle prev hp stats rfl
        have hsub := UInt64.toNat_sub_of_le _ _ hle
        have hle := UInt64.le_iff_toNat_le.1 hle
        change (stats.metrics.counter field - prev.counter field).toNat +
          (prev.counter field).toNat = (stats.metrics.counter field).toNat
        omega
    rw [hsample]
    dsimp only [Option.elim_some]
    refine ⟨by omega, ?_⟩
    rw [hprev, hdataplane, Dataplane.backendCounter, hstats, hsample]
    dsimp only [Option.elim_some]
    omega

/-- A run of sound steps keeps the exporter behind. -/
theorem Behind.exec (h : Behind field info T C s) {es : List (Occasion cpus)}
    (hes : (exporter cpus).Each (fun s e => s.Sound field info e) s es) :
    Behind field info (T + totalAdded field info s es) (C + totalCounted field info s es)
      ((exporter cpus).exec s es) := by
  induction es generalizing s T C with
  | nil => exact h
  | cons e es ih =>
    have hstep : Behind field info (T + added field info ((exporter cpus).out e s))
        (C + counted field info s e) ((exporter cpus).next e s) := by
      cases e with
      | packet a => exact h.packet a
      | reload env config => exact h.reload hes.1
      | scrape => exact h.scrape hes.1
    have hrun := ih hstep hes.2
    rw [add_assoc, add_assoc] at hrun
    exact hrun

end Exporter

/-- Exported counters do not run ahead of the traffic. In every run from the start, of frames,
    reloads and scrapes, whose steps are sound for a counter of a backend: at every point of it,
    what has been added to the exported counter is at most what has been counted. -/
theorem exported_le_counted {field : CounterField} {info : Metrics.BackendInfo}
    {es : List (Occasion cpus)}
    (h : (exporter cpus).Each (fun s e => s.Sound field info e) (.fresh cpus) es)
    {pre : List (Occasion cpus)} (hpre : pre <+: es) :
    totalAdded field info (.fresh cpus) pre ≤ totalCounted field info (.fresh cpus) pre := by
  obtain ⟨post, rfl⟩ := hpre
  have hrun := Exporter.behind_fresh.exec (Machine.each_append.1 h).1
  have htotal := hrun.total
  rwa [zero_add, zero_add] at htotal

/-- A SYN to the service of `demoLow`. -/
def demoLowSyn : Occasion 1 := .packet ⟨⟨0, 0⟩, Bytes.overwrite demoSyn 33 [0], []⟩

/-- Two frames, each with a scrape after it. -/
theorem exported_le_counted_demo :
    let es : List (Occasion 1) :=
      [.reload demoLowEnv demoLow, demoLowSyn, .scrape, demoLowSyn, .scrape]
    totalAdded .totalPackets ⟨"10.0.1.1", 80, 4⟩ (.fresh 1) es ≤
      totalCounted .totalPackets ⟨"10.0.1.1", 80, 4⟩ (.fresh 1) es :=
  exported_le_counted (by decide +kernel) List.prefix_rfl

/-- A reload between two scrapes, of the configuration that is loaded, with one backend: the second
    scrape finds none of the packets that the first one has added, and adds `2 ^ 64` less these. -/
theorem exported_overrun : (demoLow.load demoLowEnv).1.backends.map Backend.info =
      [⟨"10.0.1.1", 80, 4⟩] ∧
    let es : List (Occasion 1) :=
      [.reload demoLowEnv demoLow, demoLowSyn, .scrape, .reload demoLowEnv demoLow, .scrape]
    totalCounted .totalPackets ⟨"10.0.1.1", 80, 4⟩ (.fresh 1) es = 1 ∧
      totalAdded .totalPackets ⟨"10.0.1.1", 80, 4⟩ (.fresh 1) es = 2 ^ 64 := by
  decide +kernel

end L4Balancer
