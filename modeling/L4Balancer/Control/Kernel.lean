import Mathlib.Tactic.NormNum.Prime
import L4Balancer.Control.Stable
import L4Balancer.Control.Written

/-!
# The kernel and an instance

The manager of one service together with the maps its callback writes (`chMachine`).
As long as the callback succeeds, the lookup of the kernel agrees with those of the
instance, for every hash (`kernel_refines`): with `lookupCurr`, whose index names in
`ch_backends` the backend of the instance, and with `lookupPrev`. An index of the
previous table may lie behind the end of a list that has become shorter, where
`ch_backends` still has an old backend and the instance has none
(`previous_without_backend`).
-/

namespace L4Balancer

open Bpf

variable {cpus : ℕ} {xxh3 : Xxh3} {key : ServiceKey}

/-! ## The manager with its callback -/

/-- A manager, and the maps its callback writes. -/
structure ChState (cpus : ℕ) where
  manager : ConsistentHashManager
  maps : Maps cpus

/-- A call of the manager for one service. -/
inductive ChOp
  | updateServiceBackends (backends : List Backend) (config : InstanceConfig)
  | periodicMaintenance

/-- The publications of a maintenance, in order, and whether all of them have succeeded. -/
def publishAll (m : Maps cpus) : List (ServiceKey × ChPublication) → Maps cpus × Bool
  | [] => (m, true)
  | (_, p) :: ps =>
    let (m, ok) := updateChBpfMaps m p.writes
    let (m, oks) := publishAll m ps
    (m, ok && oks)

/-- The machine of the manager of the service `key`; it answers whether every callback has returned
    true. -/
def chMachine (cpus : ℕ) (xxh3 : Xxh3) (key : ServiceKey) : Machine (ChState cpus) ChOp Bool where
  step
    | .updateServiceBackends backends config => fun st =>
      match st.manager.updateServiceBackends xxh3 key backends config with
      | none => (false, st)
      | some (manager, p) =>
        let (m, ok) := updateChBpfMaps st.maps p.writes
        (ok, ⟨manager, m⟩)
    | .periodicMaintenance => fun st =>
      let (manager, ps) := st.manager.periodicMaintenance
      let (m, ok) := publishAll st.maps ps
      (ok, ⟨manager, m⟩)

/-- Updates have a backend, and the ring has the default size. -/
def ChOp.Default : ChOp → Prop
  | updateServiceBackends backends config =>
    backends ≠ [] ∧ config.hashringSize = HASHRING_SMALL
  | periodicMaintenance => True

theorem toNat_hashringSmall : HASHRING_SMALL.toNat = 65537 := rfl

theorem prime_hashringSmall : HASHRING_SMALL.toNat.Prime := by
  rw [toNat_hashringSmall]
  norm_num

/-! ## The invariant -/

/-- The maps hold the tables of the instance. -/
structure InKernel (xxh3 : Xxh3) (inst : ConsistentHashInstance) (m : Maps cpus) : Prop where
  tables : ∃ config, DualTables xxh3 config inst ∧ config.hashringSize = HASHRING_SMALL
  nonempty : inst.backends ≠ []
  written : ChWritten inst.publication m

/-- The manager has no other service than `key`; the maps hold the tables of its instance. -/
def ChState.Sound (xxh3 : Xxh3) (key : ServiceKey) (st : ChState cpus) : Prop :=
  st.manager.services.entries = [] ∨
    ∃ inst, st.manager.services.entries = [⟨key, inst⟩] ∧ InKernel xxh3 inst st.maps

theorem lookup_of_entries {s : AList fun _ : ServiceKey => ConsistentHashInstance}
    {inst : ConsistentHashInstance} (h : s.entries = [⟨key, inst⟩]) : s.lookup key = some inst := by
  rw [AList.lookup, h, List.dlookup_cons_eq]

theorem entries_insert {s : AList fun _ : ServiceKey => ConsistentHashInstance}
    (h : s.entries = [] ∨ ∃ inst, s.entries = [⟨key, inst⟩]) (inst : ConsistentHashInstance) :
    (s.insert key inst).entries = [⟨key, inst⟩] := by
  rw [AList.entries_insert]
  rcases h with h | ⟨inst', h⟩
  · rw [h, List.kerase_nil]
  · rw [h]
    simp

namespace ConsistentHashManager

/-- A maintenance with one instance ticks it, and publishes a merge. -/
theorem periodicMaintenance_single {mgr : ConsistentHashManager} {inst : ConsistentHashInstance}
    (h : mgr.services.entries = [⟨key, inst⟩]) :
    mgr.periodicMaintenance.1.services.entries = [⟨key, inst.tickMergeTimer.2⟩] ∧
      mgr.periodicMaintenance.2 =
        if inst.tickMergeTimer.1 then [(key, inst.tickMergeTimer.2.publication)] else [] := by
  rw [periodicMaintenance, h, List.mergeSort_singleton, maintain]
  by_cases hmerge : inst.needsMerge
  · rw [if_pos hmerge]
    exact ⟨entries_insert (.inr ⟨_, h⟩) _, rfl⟩
  · rw [if_neg hmerge, ConsistentHashInstance.tickMergeTimer, if_neg hmerge]
    exact ⟨h, rfl⟩

end ConsistentHashManager

/-- A tick without a merge leaves what was published. -/
theorem publication_tickMergeTimer {inst : ConsistentHashInstance}
    (h : inst.tickMergeTimer.1 = false) : inst.tickMergeTimer.2.publication = inst.publication := by
  rw [ConsistentHashInstance.tickMergeTimer] at h ⊢
  split_ifs at h ⊢
  · dsimp only at h ⊢
    split_ifs at h ⊢
    rfl
  · rfl

theorem backends_tickMergeTimer (inst : ConsistentHashInstance) :
    inst.tickMergeTimer.2.backends = inst.backends := by
  rw [ConsistentHashInstance.tickMergeTimer]
  split_ifs
  · dsimp only
    split_ifs
    · rw [ConsistentHashInstance.merge]
      split_ifs <;> rfl
    · rfl
  · rfl

section Steps

variable {mgr : ConsistentHashManager} {inst inst' : ConsistentHashInstance}
  {backends : List Backend} {config : InstanceConfig}

theorem step_updateServiceBackends (m : Maps cpus)
    (hinst : (mgr.services.lookup key).getD (.new config) = inst)
    (hu : inst.updateBackends xxh3 backends = some inst') :
    (chMachine cpus xxh3 key).step (.updateServiceBackends backends config) ⟨mgr, m⟩ =
      ((updateChBpfMaps m inst'.publication.writes).2,
        ⟨⟨mgr.services.insert key inst'⟩, (updateChBpfMaps m inst'.publication.writes).1⟩) := by
  dsimp only [chMachine]
  rw [ConsistentHashManager.updateServiceBackends, hinst, hu]
  rfl

theorem step_periodicMaintenance (mgr : ConsistentHashManager) (m : Maps cpus) :
    (chMachine cpus xxh3 key).step .periodicMaintenance ⟨mgr, m⟩ =
      ((publishAll m mgr.periodicMaintenance.2).2,
        ⟨mgr.periodicMaintenance.1, (publishAll m mgr.periodicMaintenance.2).1⟩) := rfl

end Steps

namespace ChState.Sound

theorem fresh (xxh3 : Xxh3) (key : ServiceKey) (m : Maps cpus) :
    ChState.Sound xxh3 key ⟨⟨∅⟩, m⟩ := .inl rfl

theorem periodicMaintenance {st : ChState cpus} (h : st.Sound xxh3 key)
    (hok : (chMachine cpus xxh3 key).out .periodicMaintenance st = true) :
    ((chMachine cpus xxh3 key).next .periodicMaintenance st).Sound xxh3 key := by
  obtain ⟨mgr, m⟩ := st
  rcases h with h | ⟨inst, h, hin⟩
  · have hmgr : mgr.periodicMaintenance = (mgr, []) := by
      rw [ConsistentHashManager.periodicMaintenance, h, List.mergeSort_nil,
        ConsistentHashManager.maintain]
    rw [Machine.next, step_periodicMaintenance, hmgr]
    exact .inl h
  · obtain ⟨hentries, hps⟩ := ConsistentHashManager.periodicMaintenance_single h
    obtain ⟨⟨config, htables, hsize⟩, hne, hwritten⟩ := hin
    rw [Machine.out, step_periodicMaintenance, hps] at hok
    rw [Machine.next, step_periodicMaintenance]
    refine .inr ⟨_, hentries, ⟨config, htables.tickMergeTimer, hsize⟩, ?_, ?_⟩
    · rwa [backends_tickMergeTimer]
    · dsimp only
      rw [hps]
      cases hmerged : inst.tickMergeTimer.1 with
      | false =>
        rw [publication_tickMergeTimer hmerged, if_neg Bool.false_ne_true]
        exact hwritten
      | true =>
        rw [hmerged, if_pos rfl] at hok
        rw [if_pos rfl]
        simp only [publishAll, Bool.and_true] at hok ⊢
        exact .of_updateChBpfMaps (Prod.ext rfl hok)

theorem updateServiceBackends {st : ChState cpus} (h : st.Sound xxh3 key)
    {backends : List Backend} {config : InstanceConfig} (hne : backends ≠ [])
    (hsize : config.hashringSize = HASHRING_SMALL)
    (hok : (chMachine cpus xxh3 key).out (.updateServiceBackends backends config) st = true) :
    ((chMachine cpus xxh3 key).next (.updateServiceBackends backends config) st).Sound
      xxh3 key := by
  obtain ⟨mgr, m⟩ := st
  -- the instance that is updated, a new one or that of the service
  obtain ⟨inst, hinst, hold⟩ : ∃ inst, (mgr.services.lookup key).getD (.new config) = inst ∧
      ∃ config, DualTables xxh3 config inst ∧ config.hashringSize = HASHRING_SMALL := by
    rcases h with h | ⟨inst, h, hin⟩
    · refine ⟨_, rfl, config, ?_, hsize⟩
      rw [AList.lookup, h]
      exact .new xxh3 config
    · refine ⟨inst, ?_, hin.tables⟩
      rw [lookup_of_entries h, Option.getD_some]
  obtain ⟨config', htables, hsize'⟩ := hold
  have hprime : config'.hashringSize.toNat.Prime := hsize' ▸ prime_hashringSmall
  obtain ⟨inst', hu⟩ := htables.updateBackends_isSome hprime backends
  rw [Machine.out, step_updateServiceBackends m hinst hu] at hok
  rw [Machine.next, step_updateServiceBackends m hinst hu]
  have hentries : (mgr.services.insert key inst').entries = [⟨key, inst'⟩] := by
    refine entries_insert (h.imp_right ?_) inst'
    rintro ⟨inst, h, -⟩
    exact ⟨inst, h⟩
  refine .inr ⟨inst', hentries, ⟨config', htables.updateBackends hu, hsize'⟩, ?_,
    .of_updateChBpfMaps (Prod.ext rfl hok)⟩
  rwa [(htables.updateBackends_eq hne hu).2.1]

theorem next {st : ChState cpus} (h : st.Sound xxh3 key) {op : ChOp} (hop : op.Default)
    (hok : (chMachine cpus xxh3 key).out op st = true) :
    ((chMachine cpus xxh3 key).next op st).Sound xxh3 key := by
  cases op with
  | updateServiceBackends backends config => exact h.updateServiceBackends hop.1 hop.2 hok
  | periodicMaintenance => exact h.periodicMaintenance hok

end ChState.Sound

/-! ## Refinement -/

/-- The lookups of the kernel are those of the instance. -/
structure KernelRefines (inst : ConsistentHashInstance) (m : Maps cpus) : Prop where
  curr : ∀ keyHash, ∃ i b, inst.lookupCurr keyHash = some i ∧
    (consistentHashLookup keyHash false m).1 = i ∧
    m.chBackends.lookup i.toNat = some b ∧ inst.backends[i.toNat]? = some b
  prev : ∀ keyHash, (consistentHashLookup keyHash true m).1 = (inst.lookupPrev keyHash).getD (-1)
  absent : ∀ keyHash, inst.lookupPrev keyHash = none ↔
    ∃ v, m.chPrevLookup.lookup (inst.slot keyHash) = some v ∧ v < 0
  prevBackend : ∀ keyHash i b, inst.lookupPrev keyHash = some i →
    inst.backends[i.toNat]? = some b → m.chBackends.lookup i.toNat = some b

namespace InKernel

variable {inst : ConsistentHashInstance} {m : Maps cpus}

/-- The slot of a hash has an entry in both tables. -/
theorem exists_entries (h : InKernel xxh3 inst m) (keyHash : UInt32) :
    inst.slot keyHash < inst.config.hashringSize.toNat ∧
      ∃ v w, inst.currLookup[inst.slot keyHash]? = some v ∧
        inst.prevLookup[inst.slot keyHash]? = some w := by
  obtain ⟨config, htables, hsize⟩ := h.tables
  have hlt : inst.slot keyHash < config.hashringSize.toNat := by
    rw [ConsistentHashInstance.slot, htables.config_eq, UInt32.toNat_mod, hsize]
    exact Nat.mod_lt _ (by decide)
  rw [htables.config_eq]
  exact ⟨hlt, _, _, List.getElem?_eq_getElem (htables.currLength ▸ hlt),
    List.getElem?_eq_getElem (htables.prevLength ▸ hlt)⟩

theorem hashringSize_ne (h : InKernel xxh3 inst m) : inst.config.hashringSize ≠ 0 := by
  obtain ⟨config, htables, hsize⟩ := h.tables
  rw [htables.config_eq, hsize]
  decide

theorem refines (h : InKernel xxh3 inst m) : KernelRefines inst m := by
  obtain ⟨config, htables, -⟩ := id h.tables
  constructor
  · intro keyHash
    obtain ⟨-, v, -, hv, -⟩ := h.exists_entries keyHash
    obtain ⟨hv0, hvlt⟩ := htables.entries h.nonempty v (List.mem_of_getElem? hv)
    have hlt : v.toNat < inst.backends.length := by omega
    have hb : inst.backends[v.toNat]? = some inst.backends[v.toNat] := List.getElem?_eq_getElem _
    refine ⟨v, _, ?_, ?_, h.written.backends _ _ hb, hb⟩
    · rw [ConsistentHashInstance.lookupCurr, if_neg h.nonempty, hv, Option.bind_some,
        ConsistentHashInstance.toOpt_of_nonneg hv0]
    · rw [h.written.consistentHashLookup h.hashringSize_ne keyHash false hv, if_neg (by omega)]
  · intro keyHash
    obtain ⟨-, -, w, -, hw⟩ := h.exists_entries keyHash
    rw [h.written.consistentHashLookup h.hashringSize_ne keyHash true hw,
      ConsistentHashInstance.lookupPrev, if_neg h.nonempty, hw, Option.bind_some,
      ConsistentHashInstance.toOpt]
    split_ifs
    · omega
    · rfl
    · rfl
    · omega
  · intro keyHash
    obtain ⟨hlt, -, w, -, hw⟩ := h.exists_entries keyHash
    rw [ConsistentHashInstance.lookupPrev, if_neg h.nonempty, hw, Option.bind_some,
      ConsistentHashInstance.toOpt, h.written.prev _ _ hlt hw]
    simp
  · exact fun keyHash i b _ hb => h.written.backends _ _ hb

end InKernel

theorem sound_exec {st : ChState cpus} (h : st.Sound xxh3 key) {ops : List ChOp}
    (hops : ∀ op ∈ ops, op.Default)
    (hok : ∀ ok ∈ (chMachine cpus xxh3 key).outs st ops, ok = true) :
    ((chMachine cpus xxh3 key).exec st ops).Sound xxh3 key := by
  induction ops generalizing st with
  | nil => exact h
  | cons op ops ih =>
    rw [List.forall_mem_cons] at hops
    rw [Machine.outs, List.forall_mem_cons] at hok
    exact ih (h.next hops.1 hok.1) hops.2 hok.2

/-- The kernel refines the instance. After any calls of a new manager for one service with the
    default size of the ring, each update with a backend and every callback returning true: the
    lookup of the kernel in the current table returns the index of `lookupCurr`, which is present
    and names in `ch_backends` the backend of the instance; in the previous table it returns the
    index of `lookupPrev`, which is absent exactly where the entry of the kernel is negative, and
    which names the backend of the instance as far as the present list reaches. -/
theorem kernel_refines (xxh3 : Xxh3) (key : ServiceKey) (m : Maps cpus) {ops : List ChOp}
    (hops : ∀ op ∈ ops, op.Default)
    (hok : ∀ ok ∈ (chMachine cpus xxh3 key).outs ⟨⟨∅⟩, m⟩ ops, ok = true) :
    ∀ inst, ((chMachine cpus xxh3 key).exec ⟨⟨∅⟩, m⟩ ops).manager.services.lookup key = some inst →
      KernelRefines inst ((chMachine cpus xxh3 key).exec ⟨⟨∅⟩, m⟩ ops).maps := by
  intro inst hinst
  rcases sound_exec (.fresh xxh3 key m) hops hok with h | ⟨inst', h, hin⟩
  · rw [AList.lookup, h] at hinst
    cases hinst
  · obtain rfl := Option.some.inj ((lookup_of_entries h).symm.trans hinst)
    exact hin.refines

/-! ## Runs that succeed -/

/-- The operation on the instance that a call comes down to. -/
def ChOp.onInstance : ChOp → InstanceOp
  | updateServiceBackends backends _ => .updateBackends backends
  | periodicMaintenance => .tickMergeTimer

/-- The backends fit `ch_backends`. -/
def ChOp.Fits : ChOp → Prop
  | updateServiceBackends backends _ => backends.length ≤ 257
  | periodicMaintenance => True

/-- The manager has the instance `inst` of the service, whose tables fit the maps. -/
structure ChState.Has (xxh3 : Xxh3) (key : ServiceKey) (inst : ConsistentHashInstance)
    (st : ChState cpus) : Prop where
  entries : st.manager.services.entries = [⟨key, inst⟩]
  tables : ∃ config, DualTables xxh3 config inst ∧ config.hashringSize = HASHRING_SMALL
  fits : inst.backends.length ≤ 257

/-- The writes of an instance with the default size. -/
theorem writes_succeed {config : InstanceConfig} {inst : ConsistentHashInstance}
    (h : DualTables xxh3 config inst) (hsize : config.hashringSize = HASHRING_SMALL)
    (hfits : inst.backends.length ≤ 257) (m : Maps cpus) :
    (updateChBpfMaps m inst.publication.writes).2 = true := by
  refine ChPublication.writes_succeed hfits ?_ m
  rw [ConsistentHashInstance.publication, h.config_eq, hsize, toNat_hashringSmall]

namespace ChState.Has

/-- An update of the instance `inst`, a new one or that of the service. -/
theorem of_update (key : ServiceKey) (mgr : ConsistentHashManager) (m : Maps cpus)
    {inst : ConsistentHashInstance} {backends : List Backend} {config config' : InstanceConfig}
    (hentries : mgr.services.entries = [] ∧ inst = .new config ∨
      mgr.services.entries = [⟨key, inst⟩])
    (htables : DualTables xxh3 config' inst) (hsize : config'.hashringSize = HASHRING_SMALL)
    (hne : backends ≠ []) (hfits : backends.length ≤ 257) :
    (chMachine cpus xxh3 key).out (.updateServiceBackends backends config) ⟨mgr, m⟩ = true ∧
      ((chMachine cpus xxh3 key).next (.updateServiceBackends backends config) ⟨mgr, m⟩).Has xxh3 key
        ((instanceMachine xxh3).next (.updateBackends backends) inst) := by
  have hinst : (mgr.services.lookup key).getD (.new config) = inst := by
    rcases hentries with ⟨h, rfl⟩ | h
    · rw [AList.lookup, h]
      rfl
    · rw [lookup_of_entries h, Option.getD_some]
  have hprime : config'.hashringSize.toNat.Prime := hsize ▸ prime_hashringSmall
  obtain ⟨inst', hu⟩ := htables.updateBackends_isSome hprime backends
  have htables' := htables.updateBackends hu
  have hbackends := (htables.updateBackends_eq hne hu).2.1
  rw [Machine.out, Machine.next, Machine.next, step_updateServiceBackends m hinst hu,
    step_updateBackends hu]
  refine ⟨writes_succeed htables' hsize (hbackends ▸ hfits) m, ?_, ⟨config', htables', hsize⟩,
    hbackends ▸ hfits⟩
  exact entries_insert (hentries.imp And.left fun h => ⟨inst, h⟩) inst'

theorem next {inst : ConsistentHashInstance} {st : ChState cpus} (h : st.Has xxh3 key inst)
    {op : ChOp} (hop : op.Default) (hfits : op.Fits) :
    (chMachine cpus xxh3 key).out op st = true ∧
      ((chMachine cpus xxh3 key).next op st).Has xxh3 key
        ((instanceMachine xxh3).next op.onInstance inst) := by
  obtain ⟨mgr, m⟩ := st
  obtain ⟨hentries, ⟨config', htables, hsize⟩, hlen⟩ := h
  cases op with
  | updateServiceBackends backends config =>
    exact of_update key mgr m (.inr hentries) htables hsize hop.1 hfits
  | periodicMaintenance =>
    obtain ⟨hnew, hps⟩ := ConsistentHashManager.periodicMaintenance_single hentries
    have hbackends : inst.tickMergeTimer.2.backends.length ≤ 257 := by
      rwa [backends_tickMergeTimer]
    rw [Machine.out, Machine.next, step_periodicMaintenance]
    refine ⟨?_, hnew, ⟨config', htables.tickMergeTimer, hsize⟩, hbackends⟩
    dsimp only
    rw [hps]
    split_ifs
    · simp only [publishAll, Bool.and_true]
      exact writes_succeed htables.tickMergeTimer hsize hbackends m
    · rfl

theorem exec {inst : ConsistentHashInstance} {st : ChState cpus} (h : st.Has xxh3 key inst)
    {ops : List ChOp} (hops : ∀ op ∈ ops, op.Default ∧ op.Fits) :
    (∀ ok ∈ (chMachine cpus xxh3 key).outs st ops, ok = true) ∧
      ((chMachine cpus xxh3 key).exec st ops).Has xxh3 key
        ((instanceMachine xxh3).exec inst (ops.map ChOp.onInstance)) := by
  induction ops generalizing st inst with
  | nil => exact ⟨by simp [Machine.outs], h⟩
  | cons op ops ih =>
    rw [List.forall_mem_cons] at hops
    obtain ⟨hok, hnext⟩ := h.next hops.1.1 hops.1.2
    obtain ⟨hoks, hexec⟩ := ih hnext hops.2
    rw [Machine.outs, List.forall_mem_cons]
    exact ⟨⟨hok, hoks⟩, hexec⟩

end ChState.Has

/-- A run of a new manager whose lists fit the maps: every callback returns true, and the instance
    is the one its own operations lead to. -/
theorem runs_that_fit (m : Maps cpus) {backends : List Backend} {config : InstanceConfig}
    (hne : backends ≠ []) (hfits : backends.length ≤ 257)
    (hsize : config.hashringSize = HASHRING_SMALL) {ops : List ChOp}
    (hops : ∀ op ∈ ops, op.Default ∧ op.Fits) :
    (∀ ok ∈ (chMachine cpus xxh3 key).outs ⟨⟨∅⟩, m⟩
      (.updateServiceBackends backends config :: ops), ok = true) ∧
    ((chMachine cpus xxh3 key).exec ⟨⟨∅⟩, m⟩
      (.updateServiceBackends backends config :: ops)).Has xxh3 key
        ((instanceMachine xxh3).exec (.new config)
          (.updateBackends backends :: ops.map ChOp.onInstance)) := by
  obtain ⟨hok, hfirst⟩ := ChState.Has.of_update key ⟨∅⟩ m (.inl ⟨rfl, rfl⟩) (.new xxh3 config) hsize
    hne hfits
  obtain ⟨hoks, hexec⟩ := hfirst.exec hops
  rw [Machine.outs, List.forall_mem_cons]
  exact ⟨⟨hok, hoks⟩, hexec⟩

/-- Two backends, then only the first of them. -/
def demoShrinking : List ChOp :=
  [.updateServiceBackends [.zero, .zero] { mergeTimeoutTicks := 1 }, .periodicMaintenance,
    .updateServiceBackends [.zero] {}]

theorem demoShrinking_run : (∀ op ∈ demoShrinking, op.Default) ∧
    (∀ ok ∈ (chMachine 1 constantXxh3 demoKey).outs ⟨⟨∅⟩, .fresh 1⟩ demoShrinking, ok = true) ∧
    ((chMachine 1 constantXxh3 demoKey).exec ⟨⟨∅⟩, .fresh 1⟩ demoShrinking).Has constantXxh3 demoKey
      ((instanceMachine constantXxh3).exec (.new { mergeTimeoutTicks := 1 })
        [.updateBackends [.zero, .zero], .tickMergeTimer, .updateBackends [.zero]]) := by
  have hops : ∀ op ∈ [ChOp.periodicMaintenance, .updateServiceBackends [.zero] {}],
      op.Default ∧ op.Fits := by
    simp [ChOp.Default, ChOp.Fits]
  refine ⟨?_, runs_that_fit _ (by simp) (by simp) rfl hops⟩
  rw [demoShrinking, List.forall_mem_cons]
  exact ⟨⟨by simp, rfl⟩, fun op hop => (hops op hop).1⟩

/-- Its kernel. -/
theorem kernel_refines_demo : ∃ inst, KernelRefines inst
    ((chMachine 1 constantXxh3 demoKey).exec ⟨⟨∅⟩, .fresh 1⟩ demoShrinking).maps :=
  ⟨_, kernel_refines constantXxh3 demoKey (.fresh 1) demoShrinking_run.1 demoShrinking_run.2.1 _
    (lookup_of_entries demoShrinking_run.2.2.entries)⟩

/-- The instance of the run: the first update has settled, so that its table is the previous one. -/
theorem demoShrinking_instance {config : InstanceConfig}
    (hsize : config.hashringSize = HASHRING_SMALL) (hticks : config.mergeTimeoutTicks = 1)
    {inst : ConsistentHashInstance}
    (h : inst = (instanceMachine constantXxh3).exec (.new config)
      [.updateBackends [.zero, .zero], .tickMergeTimer, .updateBackends [.zero]]) :
    inst.lookupPrev 1 = some 1 ∧ inst.backends = [.zero] := by
  have hnew := DualTables.new constantXxh3 config
  have hprime : config.hashringSize.toNat.Prime := hsize ▸ prime_hashringSmall
  obtain ⟨inst₁, hu₁⟩ := hnew.updateBackends_isSome hprime [.zero, .zero]
  obtain ⟨hconfig, -, -, -, hmerge, htimer⟩ := hnew.updateBackends_eq (by simp) hu₁
  -- the timer runs out with the first tick
  have htick : inst₁.tickMergeTimer.2 = settledOn constantXxh3 config [.zero, .zero] := by
    have hle : inst₁.mergeTimer + 1 ≥ inst₁.config.mergeTimeoutTicks := by
      rw [htimer, hconfig, hticks]
      decide
    have hmerged : (instanceMachine constantXxh3).next .merge inst₁ = inst₁.merge := rfl
    rw [ConsistentHashInstance.tickMergeTimer, if_pos hmerge]
    dsimp only
    rw [if_pos hle, DualTables.merge_setTimer inst₁ _ hmerge, settledOn, Machine.exec, Machine.next,
      step_updateBackends hu₁, Machine.exec, hmerged, Machine.exec]
  obtain ⟨hsettled, -, hslots⟩ :=
    settledOn_constant config (List.cons_ne_nil Backend.zero [.zero])
  have h₂ : DualTables constantXxh3 config (settledOn constantXxh3 config [.zero, .zero]) :=
    dualTables_exec constantXxh3 config _
  obtain ⟨inst₃, hu₃⟩ := h₂.updateBackends_isSome hprime [.zero]
  obtain ⟨hconfig₃, hbackends, -, hprev, -, -⟩ := h₂.updateBackends_eq (by simp) hu₃
  obtain rfl : inst = inst₃ := by
    have hnext : (instanceMachine constantXxh3).next .tickMergeTimer inst₁ =
      inst₁.tickMergeTimer.2 := rfl
    rw [h, Machine.exec, Machine.next, step_updateBackends hu₁, Machine.exec, hnext, htick,
      Machine.exec, Machine.next, step_updateBackends hu₃, Machine.exec]
  refine ⟨?_, hbackends⟩
  have hlt : 1 < config.hashringSize.toNat := by
    rw [hsize, toNat_hashringSmall]
    norm_num
  have hslot : inst.slot 1 = 1 := by
    rw [ConsistentHashInstance.slot, hconfig₃, UInt32.toNat_mod]
    exact Nat.mod_eq_of_lt hlt
  rw [hsettled, if_neg Bool.false_ne_true] at hprev
  rw [ConsistentHashInstance.lookupPrev, if_neg (by simp [hbackends]), hslot, hprev,
    hslots 1 hlt (by simp)]
  rfl

/-- In its last state, the previous table names a backend that the instance does not have. -/
theorem previous_without_backend : (∀ op ∈ demoShrinking, op.Default) ∧
    (∀ ok ∈ (chMachine 1 constantXxh3 demoKey).outs ⟨⟨∅⟩, .fresh 1⟩ demoShrinking, ok = true) ∧
    ∃ inst, ((chMachine 1 constantXxh3 demoKey).exec ⟨⟨∅⟩, .fresh 1⟩
        demoShrinking).manager.services.lookup demoKey = some inst ∧
      (consistentHashLookup 1 true
        ((chMachine 1 constantXxh3 demoKey).exec ⟨⟨∅⟩, .fresh 1⟩ demoShrinking).maps).1 = 1 ∧
      inst.lookupPrev 1 = some 1 ∧ inst.backends[1]? = none := by
  obtain ⟨hops, hok, hhas⟩ := demoShrinking_run
  obtain ⟨hprev, hbackends⟩ :=
    @demoShrinking_instance { mergeTimeoutTicks := 1 } rfl rfl _ rfl
  rcases sound_exec (.fresh constantXxh3 demoKey (.fresh 1)) hops hok with h | ⟨inst, h, hin⟩
  · cases hhas.entries.symm.trans h
  · obtain rfl : _ = inst :=
      Option.some.inj ((lookup_of_entries hhas.entries).symm.trans (lookup_of_entries h))
    refine ⟨hops, hok, _, lookup_of_entries h, ?_, hprev, ?_⟩
    · rw [hin.refines.prev 1, hprev]
      rfl
    · rw [hbackends]
      rfl

end L4Balancer
