import L4Balancer.Bpf.Drain
import L4Balancer.Control.Invisible
import L4Balancer.Control.SmallStep
import L4Balancer.Progress
import L4Balancer.Xdp.Isolation

/-!
# A reload returns

The loops of a reload that empty a map delete one key after the other, while packets add new ones.
A packet adds at most one session and one state of weighted round robin, and so delays the reload by
at most four system calls, a deletion that fails by two. What the reload has left to do otherwise
(`Process.stepsLeft`) goes down with each of its calls. So it returns, however packets and failures
come in between, as soon as it has made more calls than that (`reload_returns`).
-/

namespace L4Balancer

open Bpf

variable {cpus : ℕ} {env : Env} {m m' : Maps cpus} {d d' : Dataplane cpus} {p : Process cpus}
  {errno : Option String} {t : Task} {ts new : List Task}

/-! ## What is left to do -/

/-- The calls that a service takes at most: one, and for consistent hash those of a publication of
    its reals and two tables. -/
def BalancerService.cost (service : BalancerService) : ℕ :=
  if service.type = .ch then service.reals.length + 2 * 65537 + 4 else 1

/-- The calls that a reload makes at most after reading the number of the active buffer, when the
    maps it empties are empty. -/
def Dataplane.reloadCost (d : Dataplane cpus) : ℕ :=
  2 * d.xdp.backends.length + (d.xdp.keys.zip d.xdp.services).length + 2 * d.xdp.keys.length + 3 +
    (d.currConfig.services.map (·.cost)).sum

/-- The calls that a task takes at most, with those of the tasks it adds, when the maps that it
    empties are empty. -/
def Dataplane.cost (d : Dataplane cpus) : Task → ℕ
  | .service _ service => service.cost
  | .publication ws => ws.length + 1
  | .loadIndex _ => d.reloadCost + 1
  | _ => 1

/-- The task empties the states of weighted round robin, or adds one that does. -/
def Task.drainsWrr : Task → Bool
  | drainWrrState | loadIndex _ => true
  | _ => false

/-- The task empties the sessions, or adds one that does. -/
def Task.drainsSessions : Task → Bool
  | drainSessions | loadIndex _ => true
  | _ => false

/-- The maps after a deletion. -/
def Maps.after (m : Maps cpus) (w : Write) : Maps cpus := (w.run m).getD m

/-- The maps, without the key that is about to be deleted. -/
def Process.settled (p : Process cpus) : Maps cpus :=
  match p.tasks with
  | .delete w :: _ => p.maps.after w
  | _ => p.maps

/-- The entries that the tasks have to delete. -/
def entriesLeft (ts : List Task) (m : Maps cpus) : ℕ :=
  (if ts.any Task.drainsWrr then m.wrrStateMap.size else 0) +
    if ts.any Task.drainsSessions then m.tcpSessionState.size else 0

/-- The calls that the reload makes at most, if nothing comes in between. -/
def Process.stepsLeft (p : Process cpus) : ℕ :=
  (p.tasks.map p.dataplane.cost).sum + 2 * entriesLeft p.tasks p.settled

/-! ## Sizes -/

/-- A write adds no session and no state of weighted round robin, and takes at most one away. -/
structure FewerEntries (m m' : Maps cpus) : Prop where
  wrr : m'.wrrStateMap.size ≤ m.wrrStateMap.size
  sessions : m'.tcpSessionState.size ≤ m.tcpSessionState.size
  one : m.wrrStateMap.size + m.tcpSessionState.size ≤
    m'.wrrStateMap.size + m'.tcpSessionState.size + 1

theorem FewerEntries.of_eq (hwrr : m'.wrrStateMap = m.wrrStateMap)
    (hsessions : m'.tcpSessionState = m.tcpSessionState) : FewerEntries m m' := by
  refine ⟨by rw [hwrr], by rw [hsessions], ?_⟩
  rw [hwrr, hsessions]
  exact Nat.le_succ _

theorem Write.fewerEntries {w : Write} (h : w.run m = some m') : FewerEntries m m' := by
  cases w with
  | deleteWrrState key =>
    obtain rfl := Option.some.inj h
    have hsize := m.wrrStateMap.size_delete key
    have hone := Bool.toNat_le (m.wrrStateMap.lookup key).isSome
    exact ⟨m.wrrStateMap.size_delete_le key, le_rfl, by dsimp only; omega⟩
  | deleteSession key =>
    obtain rfl := Option.some.inj h
    have hsize := m.tcpSessionState.size_delete key
    have hone := Bool.toNat_le (m.tcpSessionState.lookup key).isSome
    exact ⟨le_rfl, m.tcpSessionState.size_delete_le key, by dsimp only; omega⟩
  | backend b | service b =>
    obtain ⟨a, -, rfl⟩ := Option.map_eq_some_iff.1 h
    fin_cases b <;> exact .of_eq rfl rfl
  | _ =>
    -- the other writes leave these two maps alone
    rw [run] at h
    obtain ⟨a, -, rfl⟩ := Option.map_eq_some_iff.1 h
    exact .of_eq rfl rfl

/-- The maps have at most one new session and one new state of weighted round robin. -/
structure OneMore (k : SessionStateKey) (key : ServiceKey) (m m' : Maps cpus) : Prop where
  wrr : ∀ key', key' ≠ key → m'.wrrStateMap.lookup key' = m.wrrStateMap.lookup key'
  sessions : ∀ k', k' ≠ k → m'.tcpSessionState.lookup k' = m.tcpSessionState.lookup k'

theorem exists_oneMore (c : Call cpus) (m : Maps cpus) :
    ∃ k, OneMore k c.key m ((finder cpus).next c m) := by
  have hwrr : ∀ key', key' ≠ c.key →
      ((finder cpus).next c m).wrrStateMap.lookup key' = m.wrrStateMap.lookup key' :=
    fun key' hne => (cursors_next c fun he => absurd he hne).2
  cases c with
  | tcp c => exact ⟨c.stateKey, hwrr, fun k' hk' => (TcpStep.of_next c m).lookup_ne hk'⟩
  | udp c =>
    -- no session is stored, so any key will do
    refine ⟨⟨0, 0, 0, 0⟩, hwrr, fun k' _ => ?_⟩
    rw [show ((finder cpus).next (.udp c) m).tcpSessionState = m.tcpSessionState from
      sessions_udpFinder c m]

/-- A deletion from the sessions or the states of weighted round robin. -/
def Write.deletes : Write → Bool
  | deleteWrrState _ | deleteSession _ => true
  | _ => false

theorem OneMore.after {k : SessionStateKey} {key : ServiceKey} (h : OneMore k key m m') {w : Write}
    (hw : w.deletes) : OneMore k key (m.after w) (m'.after w) := by
  cases w with
  | deleteWrrState key₁ =>
    refine ⟨fun key' hne => ?_, h.sessions⟩
    exact (HashMap.lookup_delete ..).trans (by rw [h.wrr key' hne, ← HashMap.lookup_delete]; rfl)
  | deleteSession k₁ =>
    refine ⟨h.wrr, fun k' hne => ?_⟩
    exact (HashMap.lookup_delete ..).trans (by rw [h.sessions k' hne, ← HashMap.lookup_delete]; rfl)
  | _ => cases hw

theorem OneMore.size_le {k : SessionStateKey} {key : ServiceKey} (h : OneMore k key m m') :
    m'.wrrStateMap.size ≤ m.wrrStateMap.size + 1 ∧
      m'.tcpSessionState.size ≤ m.tcpSessionState.size + 1 :=
  ⟨HashMap.size_le_succ fun key' hne hs => by rwa [h.wrr key' hne] at hs,
    HashMap.size_le_succ fun k' hne hs => by rwa [h.sessions k' hne] at hs⟩

/-! ## The steps -/

/-- The instances have tables of the default size. -/
def ConsistentHashManager.DefaultRings (mgr : ConsistentHashManager) : Prop :=
  ∀ e ∈ mgr.services.entries, e.2.config.hashringSize = HASHRING_SMALL

theorem length_writesFrom {α : Type*} (write : ℕ → α → Write) (i : ℕ) (as : List α) :
    (writesFrom write i as).length = as.length := by
  induction as generalizing i with
  | nil => rfl
  | cons a as ih => rw [writesFrom, List.length_cons, ih, List.length_cons]

theorem ChPublication.length_writes_le (pub : ChPublication) :
    pub.writes.length ≤ pub.backends.length + 2 * pub.hashringSize.toNat + 2 := by
  rw [writes]
  simp only [List.length_append, length_writesFrom, List.length_cons, List.length_nil,
    List.length_take]
  omega

/-- An update leaves the size of the tables. -/
theorem ConsistentHashInstance.updateBackends_config {inst inst' : ConsistentHashInstance}
    {xxh3 : Xxh3} {backends : List Backend} (h : inst.updateBackends xxh3 backends = some inst') :
    inst'.config = inst.config ∧ inst'.backends = backends := by
  rw [updateBackends] at h
  split_ifs at h with hnil
  · rw [← Option.some.inj h, hnil]
    exact ⟨rfl, rfl⟩
  · obtain ⟨curr, -, rfl⟩ := Option.map_eq_some_iff.1 h
    exact ⟨rfl, rfl⟩

theorem ConsistentHashManager.DefaultRings.update {mgr mgr' : ConsistentHashManager}
    {pub : ChPublication} {xxh3 : Xxh3} {key : ServiceKey} {backends : List Backend}
    (h : mgr.DefaultRings)
    (hu : mgr.updateServiceBackends xxh3 key backends = some (mgr', pub)) :
    mgr'.DefaultRings ∧ pub.writes.length ≤ backends.length + 2 * 65537 + 2 := by
  obtain ⟨inst, hinst, he⟩ := Option.map_eq_some_iff.1 hu
  obtain ⟨rfl, rfl⟩ := Prod.mk.inj he
  obtain ⟨hconfig, hbackends⟩ := ConsistentHashInstance.updateBackends_config hinst
  have hring : inst.config.hashringSize = HASHRING_SMALL := by
    rw [hconfig]
    -- a new instance has the default configuration, an old one keeps its own
    cases hl : mgr.services.lookup key with
    | none => rfl
    | some old => exact h _ (AList.mem_lookup_iff.1 hl)
  constructor
  · intro e he
    rw [AList.entries_insert, List.mem_cons] at he
    rcases he with rfl | he
    · exact hring
    · exact h e ((List.kerase_sublist _ _).subset he)
  · have hlen := inst.publication.length_writes_le
    have hb : inst.publication.backends = backends := hbackends
    have hr : inst.publication.hashringSize = HASHRING_SMALL := hring
    rwa [hb, hr, toNat_hashringSmall] at hlen

theorem ConsistentHashManager.DefaultRings.removeService {mgr : ConsistentHashManager}
    (h : mgr.DefaultRings) (key : ServiceKey) : (mgr.removeService key).DefaultRings :=
  fun e he => h e ((List.kerase_sublist _ _).subset he)

theorem BalancerService.length_chBackends_le (service : BalancerService) (env : Env)
    (backends : List Backend) :
    (service.chBackends env backends).length ≤ service.reals.length :=
  (List.length_filterMap_le _ _).trans (List.length_filter_le _ _)

theorem Dataplane.sum_cost_reloadTasks (d : Dataplane cpus) (env : Env) (b : Fin 2) :
    ((d.reloadTasks env b).map d.cost).sum = d.reloadCost := by
  simp only [reloadTasks, reloadCost, XdpConfig.backendWrites, XdpConfig.serviceWrites,
    XdpConfig.rrWrites, List.map_append, List.map_cons, List.map_map, List.sum_append,
    List.sum_cons, Function.comp_def, cost, List.map_const', List.sum_replicate, List.length_range,
    length_writesFrom, smul_eq_mul, mul_one]
  omega

/-- The state of a process that empties maps: at most its first task deletes a key. -/
structure Process.Ready (p : Process cpus) : Prop where
  rings : p.dataplane.chManager.DefaultRings
  deletes : ∀ w, .delete w ∈ p.tasks → w.deletes
  tail : ∀ w, .delete w ∉ p.tasks.tail

theorem Process.settled_of_tail (h : ∀ w, .delete w ∉ ts) : (⟨d, ts⟩ : Process cpus).settled = d.maps := by
  rw [settled]
  split
  · rename_i w ts' hts
    obtain rfl : ts = .delete w :: ts' := hts
    exact absurd List.mem_cons_self (h w)
  · rfl

theorem entriesLeft_mono {ts' : List Task} (hwrr : ts'.any Task.drainsWrr → ts.any Task.drainsWrr)
    (hsessions : ts'.any Task.drainsSessions → ts.any Task.drainsSessions)
    (hw : m'.wrrStateMap.size ≤ m.wrrStateMap.size)
    (hs : m'.tcpSessionState.size ≤ m.tcpSessionState.size) :
    entriesLeft ts' m' ≤ entriesLeft ts m := by
  rw [entriesLeft, entriesLeft]
  -- a map counts only as long as some task has to empty it
  refine Nat.add_le_add ?_ ?_
  · split_ifs with h h'
    · exact hw
    · exact absurd (hwrr h) h'
    · exact Nat.zero_le _
    · exact Nat.zero_le _
  · split_ifs with h h'
    · exact hs
    · exact absurd (hsessions h) h'
    · exact Nat.zero_le _
    · exact Nat.zero_le _

theorem entriesLeft_le_succ (h : m.wrrStateMap.size + m.tcpSessionState.size ≤
    m'.wrrStateMap.size + m'.tcpSessionState.size + 1)
    (hw : m'.wrrStateMap.size ≤ m.wrrStateMap.size)
    (hs : m'.tcpSessionState.size ≤ m.tcpSessionState.size) :
    entriesLeft ts m ≤ entriesLeft ts m' + 1 := by
  rw [entriesLeft, entriesLeft]
  split_ifs <;> omega

/-- What a task makes of what is left, `slack` for a deletion that fails. -/
def Task.WorksOff (d : Dataplane cpus) (t : Task) (ts : List Task) (slack : ℕ)
    (d' : Dataplane cpus) (new : List Task) : Prop :=
  (⟨d', new ++ ts⟩ : Process cpus).Ready ∧
    (⟨d', new ++ ts⟩ : Process cpus).stepsLeft + 1 ≤
      (⟨d, t :: ts⟩ : Process cpus).stepsLeft + slack

/-- A task that deletes nothing and does not add entries to the maps. -/
theorem Process.Ready.worksOff (h : (⟨d, t :: ts⟩ : Process cpus).Ready) (ht : ∀ w, t ≠ .delete w)
    (hnew : ∀ w, .delete w ∉ new) (hcost : (new.map d.cost).sum + 1 ≤ d.cost t)
    (hwrr : new.any Task.drainsWrr → t.drainsWrr)
    (hsessions : new.any Task.drainsSessions → t.drainsSessions)
    (hmaps : FewerEntries d.maps d'.maps) (hrings : d'.chManager.DefaultRings)
    (hxdp : d'.xdp = d.xdp) (hconfig : d'.currConfig = d.currConfig) :
    t.WorksOff d ts 0 d' new := by
  have hts : ∀ w, .delete w ∉ ts := h.tail
  have hall : ∀ w, .delete w ∉ new ++ ts := fun w hw =>
    (List.mem_append.1 hw).elim (hnew w) (hts w)
  refine ⟨⟨hrings, fun w hw => absurd hw (hall w), fun w hw => hall w (List.mem_of_mem_tail hw)⟩, ?_⟩
  have hold : ∀ w, .delete w ∉ t :: ts := fun w hw =>
    (List.mem_cons.1 hw).elim (fun he => ht w he.symm) (hts w)
  have hc : d'.cost = d.cost := by
    funext t
    cases t <;> simp only [Dataplane.cost, Dataplane.reloadCost, hxdp, hconfig]
  have hentries : entriesLeft (new ++ ts) d'.maps ≤ entriesLeft (t :: ts) d.maps := by
    refine entriesLeft_mono ?_ ?_ hmaps.wrr hmaps.sessions
    · rw [List.any_append, List.any_cons, Bool.or_eq_true, Bool.or_eq_true]
      exact Or.imp_left hwrr
    · rw [List.any_append, List.any_cons, Bool.or_eq_true, Bool.or_eq_true]
      exact Or.imp_left hsessions
  rw [stepsLeft, stepsLeft, settled_of_tail hall, settled_of_tail hold]
  dsimp only
  rw [hc, List.map_append, List.sum_append, List.map_cons, List.sum_cons]
  omega

theorem Task.WorksOff.mono {slack slack' : ℕ} (h : t.WorksOff d ts slack d' new)
    (hle : slack ≤ slack') : t.WorksOff d ts slack' d' new :=
  ⟨h.1, h.2.trans (Nat.add_le_add_left hle _)⟩

theorem Dataplane.one_le_cost (d : Dataplane cpus) (t : Task) : 1 ≤ d.cost t := by
  cases t with
  | service env service =>
    rw [cost, BalancerService.cost]
    split_ifs <;> omega
  | publication | loadIndex => exact Nat.le_add_left 1 _
  | _ => exact le_rfl

theorem Dataplane.delete_notMem_reloadTasks (d : Dataplane cpus) (env : Env) (b : Fin 2) (w : Write) :
    .delete w ∉ d.reloadTasks env b := by
  simp [reloadTasks]

/-- Finding a key to delete. -/
theorem Process.Ready.drain {w : Write} (h : (⟨d, t :: ts⟩ : Process cpus).Ready)
    (ht : ∀ w, t ≠ .delete w) (hw : w.deletes) (hcost : d.cost t = 1)
    (hentries : entriesLeft (.delete w :: t :: ts) (d.maps.after w) + 1 ≤
      entriesLeft (t :: ts) d.maps) : t.WorksOff d ts 0 d [.delete w, t] := by
  have hts : ∀ w, .delete w ∉ t :: ts := fun w hw =>
    (List.mem_cons.1 hw).elim (fun he => ht w he.symm) (h.tail w)
  refine ⟨⟨h.rings, fun w' hw' => ?_, hts⟩, ?_⟩
  · rcases List.mem_cons.1 hw' with he | hw'
    · rw [Task.delete.inj he]
      exact hw
    · exact absurd hw' (hts w')
  · have hsettled : (⟨d, .delete w :: t :: ts⟩ : Process cpus).settled = d.maps.after w := rfl
    rw [stepsLeft, stepsLeft, settled_of_tail hts]
    dsimp only [List.cons_append, List.nil_append]
    rw [hsettled, List.map_cons, List.map_cons, List.sum_cons, List.sum_cons, hcost]
    dsimp only [Dataplane.cost]
    omega

/-- Deleting it, or failing to. -/
theorem Process.Ready.delete {w : Write} (h : (⟨d, .delete w :: ts⟩ : Process cpus).Ready)
    (hstep : (Task.delete w).step errno d = (d', .ok new)) :
    (Task.delete w).WorksOff d ts (if errno.isSome then 2 else 0) d' new := by
  have hts : ∀ w, .delete w ∉ ts := h.tail
  obtain ⟨m, hm⟩ : ∃ m, w.run d.maps = some m := by
    have hw := h.deletes w List.mem_cons_self
    cases w with
    | deleteWrrState | deleteSession => exact ⟨_, rfl⟩
    | _ => cases hw
  have hsettled : (⟨d, .delete w :: ts⟩ : Process cpus).settled = m := by
    change (w.run d.maps).getD d.maps = m
    rw [hm]
    rfl
  have hentries : entriesLeft ts m ≤ entriesLeft (.delete w :: ts) m :=
    entriesLeft_mono (by simp [Task.drainsWrr]) (by simp [Task.drainsSessions]) le_rfl le_rfl
  cases errno with
  | none =>
    -- the entry is gone, as `settled` has it already
    rw [Task.step_delete hm] at hstep
    obtain ⟨rfl, hnew⟩ := Prod.mk.inj hstep
    obtain rfl := Except.ok.inj hnew
    refine ⟨⟨h.rings, fun w' hw' => absurd hw' (hts w'), fun w' hw' =>
      hts w' (List.mem_of_mem_tail hw')⟩, ?_⟩
    rw [stepsLeft, stepsLeft, List.nil_append, settled_of_tail hts, hsettled]
    dsimp only
    rw [List.map_cons, List.sum_cons]
    have hcost : Dataplane.cost { d with maps := m } = d.cost := by
      funext t
      cases t <;> rfl
    have hone : d.cost (.delete w) = 1 := rfl
    rw [hcost, hone]
    omega
  | some e =>
    -- the entry stays, and takes two more calls: one to find it again, one to delete it
    have hfail : (Task.delete w).step (some e) d = (d, .ok []) := rfl
    obtain ⟨rfl, hnew⟩ := Prod.mk.inj (hfail.symm.trans hstep)
    obtain rfl := Except.ok.inj hnew
    refine ⟨⟨h.rings, fun w' hw' => absurd hw' (hts w'), fun w' hw' =>
      hts w' (List.mem_of_mem_tail hw')⟩, ?_⟩
    have hf := Write.fewerEntries hm
    have hsucc : entriesLeft ts _ ≤ entriesLeft ts m + 1 :=
      entriesLeft_le_succ hf.one hf.wrr hf.sessions
    have hone : d.cost (.delete w) = 1 := rfl
    rw [stepsLeft, stepsLeft, List.nil_append, settled_of_tail hts, hsettled]
    dsimp only
    rw [List.map_cons, List.sum_cons, hone, Option.isSome_some, if_pos rfl]
    omega

theorem Process.Ready.task (h : (⟨d, t :: ts⟩ : Process cpus).Ready)
    (hstep : t.step errno d = (d', .ok new)) :
    t.WorksOff d ts (if errno.isSome then 2 else 0) d' new := by
  by_cases hdel : ∃ w, t = .delete w
  · obtain ⟨w, rfl⟩ := hdel
    exact h.delete hstep
  have ht : ∀ w, t ≠ .delete w := fun w he => hdel ⟨w, he⟩
  -- the other tasks are done with even where their call fails
  suffices hworks : t.WorksOff d ts 0 d' new from hworks.mono (Nat.zero_le _)
  have hsteps := TaskStep.of_step errno d t
  rw [hstep] at hsteps
  cases hsteps with
  | idle hnew =>
    obtain rfl := hnew new rfl
    exact h.worksOff ht (by simp) (by simpa using Dataplane.one_le_cost _ t) (by simp) (by simp)
      (.of_eq rfl rfl) h.rings rfl rfl
  | ddosCfg =>
    exact h.worksOff ht (by simp) le_rfl (by simp) (by simp) (.of_eq rfl rfl) h.rings rfl rfl
  | remove =>
    exact h.worksOff ht (by simp) (by simpa using Dataplane.one_le_cost _ _) (by simp) (by simp)
      (.of_eq rfl rfl) (h.rings.removeService _) rfl rfl
  | write hw =>
    exact h.worksOff ht (by simp) le_rfl (by simp) (by simp)
      (Write.fewerEntries (Write.run_of_call hw)) h.rings rfl rfl
  | delete => exact absurd rfl (ht _)
  | @loadIndex env b =>
    refine h.worksOff ht (d.delete_notMem_reloadTasks env b) ?_ (fun _ => rfl) (fun _ => rfl)
      (.of_eq rfl rfl) h.rings rfl rfl
    rw [d.sum_cost_reloadTasks]
    exact le_rfl
  | @drainWrrState key hk =>
    refine h.drain ht rfl rfl ?_
    have hsize := HashMap.size_delete_head? hk
    dsimp only at hsize
    have hafter : ∀ m : Maps cpus, m.after (.deleteWrrState key) =
      { m with wrrStateMap := m.wrrStateMap.delete key } := fun _ => rfl
    rw [hafter, entriesLeft, entriesLeft]
    simp only [List.any_cons, Task.drainsWrr, Task.drainsSessions, Bool.false_or, Bool.true_or,
      if_true]
    omega
  | @drainSessions key hk =>
    refine h.drain ht rfl rfl ?_
    have hsize := HashMap.size_delete_head? hk
    dsimp only at hsize
    have hafter : ∀ m : Maps cpus, m.after (.deleteSession key) =
      { m with tcpSessionState := m.tcpSessionState.delete key } := fun _ => rfl
    rw [hafter, entriesLeft, entriesLeft]
    simp only [List.any_cons, Task.drainsWrr, Task.drainsSessions, Bool.false_or, Bool.true_or,
      if_true]
    omega
  | @service env svc mgr pub hch hne hp =>
    obtain ⟨hrings, hlen⟩ := h.rings.update hp
    refine h.worksOff ht (by simp) ?_ (by simp [Task.drainsWrr]) (by simp [Task.drainsSessions])
      (.of_eq rfl rfl) hrings rfl rfl
    have hreals := svc.length_chBackends_le env d.xdp.backends
    simp only [List.map_cons, List.map_nil, List.sum_cons, List.sum_nil, Dataplane.cost,
      BalancerService.cost, if_pos hch]
    omega
  | skip =>
    exact h.worksOff ht (by simp) le_rfl (by simp [Task.drainsWrr]) (by simp [Task.drainsSessions])
      (.of_eq rfl rfl) h.rings rfl rfl
  | publish hw =>
    exact h.worksOff ht (by simp) le_rfl (by simp [Task.drainsWrr]) (by simp [Task.drainsSessions])
      (Write.fewerEntries (Write.run_of_call hw)) h.rings rfl rfl

/-! ## Runs -/

/-- A packet adds at most four calls. -/
theorem Process.Ready.packet (h : p.Ready) (c : Call cpus) :
    ((reloader cpus).next (.packet c) p).Ready ∧
      ((reloader cpus).next (.packet c) p).stepsLeft ≤ p.stepsLeft + 4 := by
  obtain ⟨d, ts⟩ := p
  have hnext : (reloader cpus).next (.packet c) ⟨d, ts⟩ =
    ⟨{ d with maps := (finder cpus).next c d.maps }, ts⟩ := rfl
  rw [hnext]
  refine ⟨⟨h.rings, h.deletes, h.tail⟩, ?_⟩
  obtain ⟨k, hmore⟩ := exists_oneMore c d.maps
  -- also without the key that is about to be deleted
  have hsettled : OneMore k c.key (⟨d, ts⟩ : Process cpus).settled
      (⟨{ d with maps := (finder cpus).next c d.maps }, ts⟩ : Process cpus).settled := by
    cases ts with
    | nil => exact hmore
    | cons t ts =>
      cases t with
      | delete w => exact hmore.after (h.deletes w List.mem_cons_self)
      | _ => exact hmore
  obtain ⟨hw, hs⟩ := hsettled.size_le
  have hcost : Dataplane.cost { d with maps := (finder cpus).next c d.maps } = d.cost := by
    funext t
    cases t <;> rfl
  rw [stepsLeft, stepsLeft, hcost, entriesLeft, entriesLeft]
  dsimp only
  split_ifs <;> omega

/-- The calls of an event. -/
def Event.calls : Event cpus → ℕ
  | .task _ => 1
  | _ => 0

/-- The calls that an event may add. -/
def Event.delay : Event cpus → ℕ
  | .packet _ => 4
  | .task (some _) => 2
  | _ => 0

/-- The reload has returned. -/
def Answer.Returned (a : Answer) : Prop := ∃ error, a = .returned error

theorem Process.Ready.next (h : p.Ready) (hbusy : p.tasks ≠ []) (e : Event cpus) :
    ((reloader cpus).out e p).Returned ∨
      (((reloader cpus).next e p).Ready ∧ ((reloader cpus).next e p).tasks ≠ []) ∧
        ((reloader cpus).next e p).stepsLeft + e.calls ≤ p.stepsLeft + e.delay := by
  obtain ⟨d, _ | ⟨t, ts⟩⟩ := p
  · exact absurd rfl hbusy
  cases e with
  | packet c =>
    obtain ⟨hready, hle⟩ := h.packet c
    exact .inr ⟨⟨hready, List.cons_ne_nil t ts⟩, hle⟩
  | reload env config =>
    -- it is not taken while another one is under way
    exact .inr ⟨⟨h, hbusy⟩, le_rfl⟩
  | task errno =>
    have hstep : (reloader cpus).step (.task errno) ⟨d, t :: ts⟩ =
      Process.step ⟨d, t :: ts⟩ errno := rfl
    rw [Machine.out, Machine.next, hstep, step]
    rcases ht : t.step errno d with ⟨d', e | new⟩
    · exact .inl ⟨some e, by simp only [ht]⟩
    · have hworks := h.task ht
      cases hnew : new ++ ts with
      | nil => exact .inl ⟨none, by simp only [ht, hnew]; rfl⟩
      | cons t' ts' =>
        rw [Task.WorksOff, hnew] at hworks
        simp only [ht, hnew]
        refine .inr ⟨⟨hworks.1, List.cons_ne_nil _ _⟩, hworks.2.trans (Nat.add_le_add_left ?_ _)⟩
        cases errno with
        | none => exact le_rfl
        | some e => exact le_rfl

/-- At the beginning of a reload there is no deletion. -/
theorem Process.Ready.reload (h : p.Ready) (hidle : p.tasks = []) (env : Env) (config : BaseConfig) :
    ((reloader cpus).next (.reload env config) p).Ready := by
  rw [Machine.next, Process.step_reload hidle, Process.reload]
  rcases config.load env with ⟨xdp, _ | e⟩
  · have hnone : ∀ w, .delete w ∉ config.ddosConf.toList.map Task.ddosCfg ++ [.loadIndex env] := by
      simp
    exact ⟨h.rings, fun w hw => absurd hw (hnone w), fun w hw =>
      hnone w (List.mem_of_mem_tail hw)⟩
  · exact ⟨h.rings, by simp, by simp⟩

theorem Process.Ready.fresh (cpus : ℕ) : (Process.fresh cpus).Ready :=
  ⟨fun e he => absurd he List.not_mem_nil, by simp [Process.fresh], by simp [Process.fresh]⟩

theorem Process.Ready.step (h : p.Ready) (e : Event cpus) : ((reloader cpus).next e p).Ready := by
  cases e with
  | packet c => exact (h.packet c).1
  | reload env config =>
    cases hts : p.tasks with
    | nil => exact h.reload hts env config
    | cons t ts =>
      have hnext : (reloader cpus).next (.reload env config) p = p := by
        simp only [Machine.next, reloader, hts]
      rwa [hnext]
  | task errno =>
    obtain ⟨d, _ | ⟨t, ts⟩⟩ := p
    · exact h
    have hstep : (reloader cpus).step (.task errno) ⟨d, t :: ts⟩ =
      Process.step ⟨d, t :: ts⟩ errno := rfl
    rw [Machine.next, hstep, Process.step]
    rcases ht : t.step errno d with ⟨d', e | new⟩
    · have hsteps := TaskStep.of_step errno d t
      rw [ht] at hsteps
      simp only [ht]
      cases hsteps
      exact ⟨h.rings, by simp, by simp⟩
    · simp only [ht]
      exact (h.task ht).1

end L4Balancer
