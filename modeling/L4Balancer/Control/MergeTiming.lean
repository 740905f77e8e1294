import Mathlib.Data.List.DropRight
import L4Balancer.Control.Operation

/-!
# When merges happen

The calls of a manager are a machine (`managerMachine`); an input that stays in bounds
is an update, a removal or a maintenance of any service. What a manager should have of
a service is read off the calls alone: the configuration it was registered with
(`registration`), and the number of maintenances since its last update
(`maintenancesSince`). The timer of its instance counts these (`Aged`), so a maintenance
merges it in the one call that the configuration says (`merge_timing`).

The map of the services compares its keys with `ServiceKey.cmp`, which looks at the
first four bytes alone of an IPv4 address: the model has there the `canonical` key.
-/

namespace L4Balancer

variable {xxh3 : Xxh3} {mgr mgr' : ConsistentHashManager} {inst inst' : ConsistentHashInstance}
  {key : ServiceKey} {backends : List Backend} {config : InstanceConfig} {n : ℕ}

/-! ## Keys that compare equal -/

/-- The key with the bytes alone that `cmp` looks at. -/
def ServiceKey.canonical (key : ServiceKey) : ServiceKey :=
  if key.ipVersion = 4 then { key with vip := .ofIpv4 key.vip.ipv4 } else key

theorem Addr.bytes_inj {a b : Addr} : a.bytes = b.bytes ↔ a = b := by
  refine ⟨fun h => BitVec.eq_of_getLsbD_eq fun i hi => ?_, congrArg bytes⟩
  have hbyte : UInt8.ofBitVec ((a >>> (8 * (i / 8))).setWidth 8) =
      UInt8.ofBitVec ((b >>> (8 * (i / 8))).setWidth 8) :=
    List.map_inj_left.1 h (i / 8) (List.mem_range.2 (by omega))
  have hbit := congrArg (BitVec.getLsbD · (i % 8)) (congrArg UInt8.toBitVec hbyte)
  simpa [Nat.mod_lt, Nat.div_add_mod] using hbit

theorem ServiceKey.cmp_eq_iff {a b : ServiceKey} : a.cmp b = .eq ↔ a.canonical = b.canonical := by
  obtain ⟨vip, port, protocol, v⟩ := a
  obtain ⟨vip', port', protocol', v'⟩ := b
  have hipv4 : Addr.ofIpv4 vip.ipv4 = Addr.ofIpv4 vip'.ipv4 ↔ vip.ipv4 = vip'.ipv4 :=
    ⟨fun h => by rw [← Addr.ipv4_ofIpv4 vip.ipv4, h, Addr.ipv4_ofIpv4], congrArg _⟩
  rw [cmp, Ordering.then_eq_eq, Ordering.then_eq_eq, Ordering.then_eq_eq, canonical, canonical]
  dsimp only
  simp only [Std.LawfulEqCmp.compare_eq_iff_eq]
  constructor
  · rintro ⟨rfl, h, rfl, rfl⟩
    split_ifs at h ⊢
    · rw [hipv4.2 (BitVec.eq_of_toNat_eq (compare_eq_iff_eq.1 h))]
    · rw [Addr.bytes_inj.1 (Std.LawfulEqCmp.eq_of_compare h)]
  · intro h
    have hv : v = v' := by
      have := congrArg ServiceKey.ipVersion h
      split_ifs at this <;> exact this
    subst hv
    split_ifs at h ⊢ <;> obtain ⟨hvip, rfl, rfl, -⟩ := ServiceKey.mk.inj h
    · exact ⟨rfl, by rw [hipv4.1 hvip]; exact compare_eq_iff_eq.2 rfl, rfl, rfl⟩
    · exact ⟨rfl, by rw [hvip]; exact Std.ReflCmp.compare_self, rfl, rfl⟩

theorem ServiceKey.canonical_canonical (key : ServiceKey) :
    key.canonical.canonical = key.canonical := by
  by_cases h : key.ipVersion = 4
  · have hkey : key.canonical = { key with vip := .ofIpv4 key.vip.ipv4 } := if_pos h
    rw [hkey, canonical, if_pos h, Addr.ipv4_ofIpv4]
  · have hkey : key.canonical = key := if_neg h
    rw [hkey, hkey]

/-! ## The machine -/

/-- A call of a manager. -/
inductive ManagerOp
  | updateServiceBackends (key : ServiceKey) (backends : List Backend) (config : InstanceConfig)
  | removeService (key : ServiceKey)
  | periodicMaintenance

/-- The machine of a manager; it answers what the callback gets. An update that would leave the
    bounds of a permutation does nothing here: `InBounds` excludes it. -/
def managerMachine (xxh3 : Xxh3) :
    Machine ConsistentHashManager ManagerOp (List (ServiceKey × ChPublication)) where
  step
    | .updateServiceBackends key backends config => fun mgr =>
      match mgr.updateServiceBackends xxh3 key.canonical backends config with
      | none => ([], mgr)
      | some (mgr, p) => ([(key.canonical, p)], mgr)
    | .removeService key => fun mgr => ([], mgr.removeService key.canonical)
    | .periodicMaintenance => fun mgr => (mgr.periodicMaintenance.2, mgr.periodicMaintenance.1)

/-- `getInstance`. -/
def ConsistentHashManager.getInstance (mgr : ConsistentHashManager) (key : ServiceKey) :
    Option ConsistentHashInstance :=
  mgr.services.lookup key.canonical

namespace ManagerOp

/-- An update has a backend. -/
def Nonempty : ManagerOp → Prop
  | updateServiceBackends _ backends _ => backends ≠ []
  | removeService _ | periodicMaintenance => True

/-- An update stays in bounds. -/
def InBounds (xxh3 : Xxh3) (mgr : ConsistentHashManager) : ManagerOp → Prop
  | updateServiceBackends key backends config =>
    (mgr.updateServiceBackends xxh3 key.canonical backends config).isSome
  | removeService _ | periodicMaintenance => True

/-- It updates the service. -/
def updates (key : ServiceKey) : ManagerOp → Bool
  | updateServiceBackends key' _ _ => key'.cmp key = .eq
  | removeService _ | periodicMaintenance => false

/-- It removes the service. -/
def removes (key : ServiceKey) : ManagerOp → Bool
  | removeService key' => key'.cmp key = .eq
  | updateServiceBackends _ _ _ | periodicMaintenance => false

def maintains : ManagerOp → Bool
  | periodicMaintenance => true
  | updateServiceBackends _ _ _ | removeService _ => false

/-- The configuration of an update of the service. -/
def config? (key : ServiceKey) : ManagerOp → Option InstanceConfig
  | updateServiceBackends key' _ config => if key'.cmp key = .eq then some config else none
  | removeService _ | periodicMaintenance => none

end ManagerOp

/-- The configuration that the service is registered with after the calls: that of its first update
    since it was removed last. -/
def registration (key : ServiceKey) (ops : List ManagerOp) : Option InstanceConfig :=
  (ops.rtakeWhile fun op => !op.removes key).findSome? (·.config? key)

/-- The number of maintenances since the last update of the service. -/
def maintenancesSince (key : ServiceKey) (ops : List ManagerOp) : ℕ :=
  (ops.rtakeWhile fun op => !op.updates key).countP (·.maintains)

/-- The next maintenance is the one that the service is to be merged in. -/
def MergeDue (key : ServiceKey) (ops : List ManagerOp) : Prop :=
  ∃ config, registration key ops = some config ∧
    maintenancesSince key ops + 1 = max 1 config.mergeTimeoutTicks.toNat

section History

variable {ops : List ManagerOp} {op : ManagerOp}

theorem registration_concat (key : ServiceKey) (ops : List ManagerOp) (op : ManagerOp) :
    registration key (ops ++ [op]) =
      if op.removes key then none else (registration key ops).or (op.config? key) := by
  rw [registration, List.rtakeWhile_concat]
  by_cases h : op.removes key
  · simp [h]
  · simp [h, registration, List.findSome?_append]

theorem maintenancesSince_concat (key : ServiceKey) (ops : List ManagerOp) (op : ManagerOp) :
    maintenancesSince key (ops ++ [op]) =
      if op.updates key then 0 else maintenancesSince key ops + if op.maintains then 1 else 0 := by
  rw [maintenancesSince, List.rtakeWhile_concat]
  by_cases h : op.updates key
  · simp [h]
  · simp [h, maintenancesSince, List.countP_append, List.countP_singleton]

end History

/-! ## One instance -/

/-- The merge of an instance is due at the maintenance `max 1 mergeTimeoutTicks`; this one has seen
    `n` of them since its last update. -/
structure Aged (config : InstanceConfig) (n : ℕ) (inst : ConsistentHashInstance) : Prop where
  config_eq : inst.config = config
  needsMerge : inst.needsMerge = true ↔ n < max 1 config.mergeTimeoutTicks.toNat
  mergeTimer : inst.needsMerge = true → inst.mergeTimer.toNat = n

namespace Aged

theorem of_updateBackends (hne : backends ≠ [])
    (h : inst.updateBackends xxh3 backends = some inst') : Aged inst.config 0 inst' := by
  rw [ConsistentHashInstance.updateBackends, if_neg hne] at h
  obtain ⟨table, -, rfl⟩ := Option.map_eq_some_iff.1 h
  exact ⟨rfl, iff_of_true rfl (Nat.lt_of_lt_of_le Nat.one_pos (le_max_left _ _)), fun _ => rfl⟩

theorem due_iff (h : Aged config n inst) :
    inst.due = true ↔ n + 1 = max 1 config.mergeTimeoutTicks.toNat := by
  have hmax : max 1 config.mergeTimeoutTicks.toNat < 2 ^ 32 :=
    max_lt (by decide) config.mergeTimeoutTicks.toNat_lt
  rw [ConsistentHashInstance.due, Bool.and_eq_true, h.needsMerge, decide_eq_true_iff, h.config_eq,
    ge_iff_le, UInt32.le_iff_toNat_le]
  constructor
  · rintro ⟨hlt, hticks⟩
    rw [UInt32.toNat_add, h.mergeTimer (h.needsMerge.2 hlt), UInt32.toNat_one] at hticks
    omega
  · intro heq
    have hlt : n < max 1 config.mergeTimeoutTicks.toNat := by omega
    refine ⟨hlt, ?_⟩
    rw [UInt32.toNat_add, h.mergeTimer (h.needsMerge.2 hlt), UInt32.toNat_one]
    omega

end Aged

namespace ConsistentHashInstance

/-- A tick that is due merges. -/
theorem tickMergeTimer_of_due (h : inst.due = true) :
    inst.needsMerge = true ∧ inst.tickMergeTimer.2 = inst.merge := by
  rw [due, Bool.and_eq_true, decide_eq_true_iff] at h
  refine ⟨h.1, ?_⟩
  rw [tickMergeTimer, if_pos h.1]
  dsimp only
  rw [if_pos h.2, DualTables.merge_setTimer inst _ h.1]

/-- Another one counts, if a merge is pending. -/
theorem tickMergeTimer_of_not_due (h : inst.due = false) :
    inst.tickMergeTimer.2 =
      { inst with mergeTimer := if inst.needsMerge then inst.mergeTimer + 1 else inst.mergeTimer } := by
  rw [tickMergeTimer]
  by_cases hmerge : inst.needsMerge = true
  · rw [due, hmerge, Bool.true_and, decide_eq_false_iff_not] at h
    rw [if_pos hmerge, if_pos hmerge]
    dsimp only
    rw [if_neg h]
  · rw [if_neg hmerge, if_neg hmerge]

end ConsistentHashInstance

theorem Aged.tickMergeTimer (h : Aged config n inst) :
    Aged config (n + 1) inst.tickMergeTimer.2 := by
  cases hdue : inst.due with
  | true =>
    obtain ⟨hmerge, htick⟩ := inst.tickMergeTimer_of_due hdue
    have hn := h.due_iff.1 hdue
    rw [htick, ConsistentHashInstance.merge, if_pos hmerge]
    exact ⟨h.config_eq, iff_of_false Bool.false_ne_true (by omega),
      fun h => absurd h Bool.false_ne_true⟩
  | false =>
    have hn := mt h.due_iff.2 (Bool.eq_false_iff.1 hdue)
    have hmax : max 1 config.mergeTimeoutTicks.toNat < 2 ^ 32 :=
      max_lt (by decide) config.mergeTimeoutTicks.toNat_lt
    have hneeds := h.needsMerge
    rw [inst.tickMergeTimer_of_not_due hdue]
    refine ⟨h.config_eq, hneeds.trans (by omega), fun hmerge => ?_⟩
    have hlt := hneeds.1 hmerge
    change (if inst.needsMerge = true then inst.mergeTimer + 1 else inst.mergeTimer).toNat = n + 1
    rw [if_pos hmerge, UInt32.toNat_add, h.mergeTimer hmerge, UInt32.toNat_one]
    omega

/-! ## The instances of a manager -/

namespace ConsistentHashManager

/-- The loop of a maintenance ticks the instances it walks over. -/
theorem lookup_maintain {es : List (Sigma fun _ : ServiceKey => ConsistentHashInstance)}
    (hes : es.NodupKeys) (hmem : ∀ e ∈ es, mgr.services.lookup e.1 = some e.2) (key : ServiceKey) :
    (maintain es mgr).1.services.lookup key =
      ((es.dlookup key).map (·.tickMergeTimer.2)).or (mgr.services.lookup key) := by
  induction es generalizing mgr with
  | nil => rfl
  | cons e es ih =>
    obtain ⟨key', inst⟩ := e
    obtain ⟨hinst, hrest⟩ := List.forall_mem_cons.1 hmem
    have hnot := List.notMem_keys_of_nodupKeys_cons hes
    have hes' := List.nodupKeys_of_nodupKeys_cons hes
    have hne : ∀ e ∈ es, e.1 ≠ key' := fun e he => (List.ne_key.1 hnot e he).symm
    rw [maintain]
    by_cases hmerge : inst.needsMerge
    · rw [if_pos hmerge]
      refine (ih hes' fun e he => by rw [AList.lookup_insert_ne (hne e he), hrest e he]).trans ?_
      by_cases hkey : key = key'
      · subst hkey
        rw [List.dlookup_eq_none.2 hnot, AList.lookup_insert, List.dlookup_cons_eq]
        rfl
      · rw [AList.lookup_insert_ne hkey, List.dlookup_cons_ne es ⟨key', inst⟩ hkey]
    · rw [if_neg hmerge, ih hes' hrest]
      by_cases hkey : key = key'
      · subst hkey
        have htick : inst.tickMergeTimer.2 = inst := by
          rw [ConsistentHashInstance.tickMergeTimer, if_neg hmerge]
        rw [List.dlookup_eq_none.2 hnot, hinst, List.dlookup_cons_eq, Option.map_some, htick]
        rfl
      · rw [List.dlookup_cons_ne es ⟨key', inst⟩ hkey]

/-- A maintenance ticks all instances. -/
theorem lookup_periodicMaintenance (mgr : ConsistentHashManager) (key : ServiceKey) :
    mgr.periodicMaintenance.1.services.lookup key =
      (mgr.services.lookup key).map (·.tickMergeTimer.2) := by
  have hperm := List.mergeSort_perm mgr.services.entries fun e e' => (e.1.cmp e'.1).isLE
  have hnodup := (List.perm_nodupKeys hperm).2 mgr.services.nodupKeys
  rw [periodicMaintenance, lookup_maintain hnodup fun e he =>
    AList.mem_lookup_iff.2 (hperm.mem_iff.1 he), List.perm_dlookup key hnodup hperm, ← AList.lookup]
  cases mgr.services.lookup key <;> rfl

/-- The entry of a key in a list. -/
theorem filter_key {es : List (Sigma fun _ : ServiceKey => ConsistentHashInstance)}
    (hes : es.NodupKeys) (key : ServiceKey) :
    es.filter (·.1 = key) = ((es.dlookup key).map (Sigma.mk key)).toList := by
  induction es with
  | nil => rfl
  | cons e es ih =>
    obtain ⟨key', inst⟩ := e
    have hnot := List.notMem_keys_of_nodupKeys_cons hes
    specialize ih (List.nodupKeys_of_nodupKeys_cons hes)
    by_cases hkey : key = key'
    · subst hkey
      rw [List.dlookup_eq_none.2 hnot] at ih
      rw [List.filter_cons_of_pos (by simp), ih, List.dlookup_cons_eq]
      rfl
    · rw [List.filter_cons_of_neg (by simpa using Ne.symm hkey), ih,
        List.dlookup_cons_ne es ⟨key', inst⟩ hkey]

/-- What it publishes for a key. -/
theorem filter_periodicMaintenance (mgr : ConsistentHashManager) (key : ServiceKey) :
    mgr.periodicMaintenance.2.filter (·.1 = key) =
      (((mgr.services.lookup key).filter (·.due)).map
        fun inst => (key, inst.tickMergeTimer.2.publication)).toList := by
  have hperm := List.mergeSort_perm mgr.services.entries fun e e' => (e.1.cmp e'.1).isLE
  have hnodup := (List.perm_nodupKeys hperm).2 mgr.services.nodupKeys
  have hfilter := filter_key hnodup key
  rw [List.perm_dlookup key hnodup hperm, ← AList.lookup] at hfilter
  rw [periodicMaintenance_snd, dueInstances, List.filter_map, List.filter_filter]
  simp only [Function.comp_def, Bool.and_comm (decide _)]
  rw [← List.filter_filter, hfilter]
  cases mgr.services.lookup key with
  | none => rfl
  | some inst => cases hdue : inst.due <;> simp [hdue, Option.filter]

theorem getInstance_insert (services : AList fun _ : ServiceKey => ConsistentHashInstance)
    (inst : ConsistentHashInstance) (key' key : ServiceKey) :
    (⟨services.insert key'.canonical inst⟩ : ConsistentHashManager).getInstance key =
      if key'.cmp key = .eq then some inst
      else (⟨services⟩ : ConsistentHashManager).getInstance key := by
  rw [getInstance, getInstance]
  split_ifs with hkey
  · rw [← ServiceKey.cmp_eq_iff.1 hkey, AList.lookup_insert]
  · exact AList.lookup_insert_ne fun h => hkey (ServiceKey.cmp_eq_iff.2 h.symm)

theorem getInstance_removeService (mgr : ConsistentHashManager) (key' key : ServiceKey) :
    (mgr.removeService key'.canonical).getInstance key =
      if key'.cmp key = .eq then none else mgr.getInstance key := by
  rw [getInstance, getInstance, removeService]
  split_ifs with hkey
  · rw [← ServiceKey.cmp_eq_iff.1 hkey]
    exact AList.lookup_erase _ _
  · exact AList.lookup_erase_ne fun h => hkey (ServiceKey.cmp_eq_iff.2 h.symm)

end ConsistentHashManager

/-! ## Runs -/

/-- What holds of a manager after the calls `ops`. -/
structure ConsistentHashManager.After (ops : List ManagerOp) (mgr : ConsistentHashManager) :
    Prop where
  canonical : ∀ key ∈ mgr.services.keys, key.canonical = key
  config_eq : ∀ key, (mgr.getInstance key).map (·.config) = registration key ops
  aged : ∀ key inst, mgr.getInstance key = some inst →
    Aged inst.config (maintenancesSince key ops) inst

namespace ConsistentHashManager.After

variable {ops : List ManagerOp}

theorem nil : After [] ⟨∅⟩ where
  canonical := nofun
  config_eq _ := rfl
  aged := nofun

theorem update (h : mgr.After ops) (hne : backends ≠ [])
    (hu : ((mgr.services.lookup key.canonical).getD (.new config)).updateBackends xxh3 backends =
      some inst) :
    After (ops ++ [.updateServiceBackends key backends config])
      ⟨mgr.services.insert key.canonical inst⟩ := by
  have haged := Aged.of_updateBackends hne hu
  refine ⟨fun key' hmem => ?_, fun key' => ?_, fun key' inst' hinst => ?_⟩
  · rw [AList.keys_insert, List.mem_cons] at hmem
    rcases hmem with rfl | hmem
    · exact key.canonical_canonical
    · exact h.canonical key' (List.mem_of_mem_erase hmem)
  · rw [getInstance_insert, registration_concat, ManagerOp.removes, if_neg Bool.false_ne_true,
      ← h.config_eq, ManagerOp.config?]
    split_ifs with hkey
    · -- a service that is registered keeps its configuration
      rw [Option.map_some, haged.config_eq, getInstance, ← ServiceKey.cmp_eq_iff.1 hkey]
      cases mgr.services.lookup key.canonical <;> rfl
    · rw [Option.or_none]
  · rw [maintenancesSince_concat, ManagerOp.updates, ManagerOp.maintains]
    rw [getInstance_insert] at hinst
    split_ifs at hinst with hkey
    · obtain rfl := Option.some.inj hinst
      simpa [hkey, haged.config_eq] using haged
    · simpa [hkey] using h.aged key' inst' hinst

theorem removeService (h : mgr.After ops) (key : ServiceKey) :
    After (ops ++ [.removeService key]) (mgr.removeService key.canonical) := by
  refine ⟨fun key' hmem => ?_, fun key' => ?_, fun key' inst' hinst => ?_⟩
  · rw [ConsistentHashManager.removeService, AList.keys_erase] at hmem
    exact h.canonical key' (List.mem_of_mem_erase hmem)
  · rw [getInstance_removeService, registration_concat, ManagerOp.removes, ManagerOp.config?,
      Option.or_none, ← h.config_eq]
    simp only [decide_eq_true_eq]
    split_ifs <;> rfl
  · rw [maintenancesSince_concat, ManagerOp.updates, ManagerOp.maintains]
    rw [getInstance_removeService] at hinst
    split_ifs at hinst
    exact h.aged key' inst' hinst

theorem periodicMaintenance (h : mgr.After ops) :
    After (ops ++ [.periodicMaintenance]) mgr.periodicMaintenance.1 := by
  refine ⟨fun key' hmem => ?_, fun key' => ?_, fun key' inst' hinst => ?_⟩
  · rw [← AList.mem_keys, ← AList.lookup_isSome, lookup_periodicMaintenance, Option.isSome_map,
      AList.lookup_isSome] at hmem
    exact h.canonical key' hmem
  · rw [registration_concat, ManagerOp.removes, ManagerOp.config?, if_neg Bool.false_ne_true,
      Option.or_none, ← h.config_eq, getInstance, lookup_periodicMaintenance, ← getInstance]
    cases hold : mgr.getInstance key' with
    | none => rfl
    | some inst =>
      have hconfig := (h.aged key' inst hold).tickMergeTimer.config_eq
      rw [Option.map_some, Option.map_some, Option.map_some, hconfig]
  · rw [getInstance, lookup_periodicMaintenance, ← getInstance] at hinst
    obtain ⟨inst, hold, rfl⟩ := Option.map_eq_some_iff.1 hinst
    have haged := (h.aged key' inst hold).tickMergeTimer
    rw [haged.config_eq, maintenancesSince_concat]
    exact haged

/-- The instances that are due are those of the services that should be. -/
theorem mergeDue_iff (h : mgr.After ops) (key : ServiceKey) :
    MergeDue key ops ↔ ∃ inst, mgr.getInstance key = some inst ∧ inst.due = true := by
  rw [MergeDue, ← h.config_eq]
  constructor
  · rintro ⟨config, hconfig, hn⟩
    obtain ⟨inst, hinst, rfl⟩ := Option.map_eq_some_iff.1 hconfig
    exact ⟨inst, hinst, (h.aged key inst hinst).due_iff.2 hn⟩
  · rintro ⟨inst, hinst, hdue⟩
    exact ⟨inst.config, by rw [hinst, Option.map_some], (h.aged key inst hinst).due_iff.1 hdue⟩

/-- Of the canonical keys one alone compares equal to `key`. -/
theorem filter_cmp (h : mgr.After ops) (key : ServiceKey) :
    mgr.periodicMaintenance.2.filter (·.1.cmp key = .eq) =
      mgr.periodicMaintenance.2.filter (·.1 = key.canonical) := by
  refine List.filter_congr fun e he => ?_
  rw [periodicMaintenance_snd] at he
  obtain ⟨⟨key', inst⟩, hmem, rfl⟩ := List.mem_map.1 he
  have hkey : key' ∈ mgr.services.keys := List.mem_keys_of_mem
    ((List.mergeSort_perm _ _).mem_iff.1 (List.mem_of_mem_filter hmem))
  refine decide_eq_decide.2 ?_
  dsimp only
  rw [ServiceKey.cmp_eq_iff, h.canonical key' hkey]

end ConsistentHashManager.After

/-- It holds along the runs that stay in bounds. -/
theorem after_exec {ops : List ManagerOp} (hne : ∀ op ∈ ops, op.Nonempty)
    (h : (managerMachine xxh3).Each (ManagerOp.InBounds xxh3) ⟨∅⟩ ops) :
    ((managerMachine xxh3).exec ⟨∅⟩ ops).After ops := by
  induction ops using List.reverseRecOn with
  | nil => exact .nil
  | append_singleton ops op ih =>
    rw [List.forall_mem_append, List.forall_mem_singleton] at hne
    obtain ⟨hops, hop, -⟩ := Machine.each_append.1 h
    specialize ih hne.1 hops
    rw [Machine.exec_append]
    cases op with
    | updateServiceBackends key backends config =>
      obtain ⟨⟨mgr, p⟩, hu⟩ := Option.isSome_iff_exists.1 hop
      have hnext : (managerMachine xxh3).next (.updateServiceBackends key backends config)
          ((managerMachine xxh3).exec ⟨∅⟩ ops) = mgr := by
        rw [Machine.next]
        dsimp only [managerMachine] at hu ⊢
        rw [hu]
      obtain ⟨inst, hinst, he⟩ := Option.map_eq_some_iff.1 hu
      obtain ⟨rfl, -⟩ := Prod.mk.inj he
      rw [Machine.exec, Machine.exec, hnext]
      exact ih.update hne.2 hinst
    | removeService key => exact ih.removeService key
    | periodicMaintenance => exact ih.periodicMaintenance

variable {ops : List ManagerOp}

/-- With a prime number of slots, an update stays in bounds. -/
theorem inBounds_of_prime (hm : ((registration key ops).getD config).hashringSize.toNat.Prime)
    (h : mgr.After ops) (backends : List Backend) :
    (ManagerOp.updateServiceBackends key backends config).InBounds xxh3 mgr := by
  have hslots : ((mgr.services.lookup key.canonical).getD (.new config)).slots.Prime := by
    rw [← h.config_eq, ConsistentHashManager.getInstance] at hm
    cases hl : mgr.services.lookup key.canonical with
    | none =>
      rw [hl] at hm
      exact hm
    | some inst =>
      rw [hl] at hm
      exact hm
  rw [ManagerOp.InBounds, ConsistentHashManager.updateServiceBackends, Option.isSome_map,
    ConsistentHashInstance.updateBackends]
  split_ifs with hnil
  · rfl
  · obtain ⟨table, htable⟩ := maglevTable_isSome hslots xxh3 hnil
    exact (Option.isSome_map ..).trans (Option.isSome_iff_exists.2 ⟨table, htable⟩)

/-- When merges happen. After any calls whose updates have backends and stay in bounds, a
    maintenance merges a service exactly if it is registered and this is the maintenance
    `max 1 mergeTimeoutTicks` since its last update: the callback then gets it once, with the
    current table for both. Of another service no more than the timer changes, and the callback
    does not get it. -/
theorem merge_timing (xxh3 : Xxh3) (ops : List ManagerOp) (hne : ∀ op ∈ ops, op.Nonempty)
    (h : (managerMachine xxh3).Each (ManagerOp.InBounds xxh3) ⟨∅⟩ ops) (key : ServiceKey) :
    let mgr := (managerMachine xxh3).exec ⟨∅⟩ ops
    let mgr' := (managerMachine xxh3).next .periodicMaintenance mgr
    let published := ((managerMachine xxh3).out .periodicMaintenance mgr).filter
      (·.1.cmp key = .eq)
    (mgr.getInstance key).map (·.config) = registration key ops ∧
    (MergeDue key ops → ∃ inst, mgr.getInstance key = some inst ∧ inst.needsMerge = true ∧
      mgr'.getInstance key = some inst.merge ∧
      published = [(key.canonical, inst.merge.publication)] ∧
      inst.merge.publication.currLookup = inst.merge.publication.prevLookup) ∧
    (¬MergeDue key ops → published = [] ∧ ∃ ticks,
      mgr'.getInstance key = (mgr.getInstance key).map ({ · with mergeTimer := ticks })) := by
  have hafter := after_exec hne h
  generalize (managerMachine xxh3).exec ⟨∅⟩ ops = mgr at hafter
  have hnext : ((managerMachine xxh3).next .periodicMaintenance mgr).getInstance key =
      (mgr.getInstance key).map (·.tickMergeTimer.2) := mgr.lookup_periodicMaintenance key.canonical
  have hpublished : ((managerMachine xxh3).out .periodicMaintenance mgr).filter
      (·.1.cmp key = .eq) = (((mgr.getInstance key).filter (·.due)).map
        fun inst => (key.canonical, inst.tickMergeTimer.2.publication)).toList :=
    (hafter.filter_cmp key).trans (mgr.filter_periodicMaintenance key.canonical)
  have hdue := hafter.mergeDue_iff key
  dsimp only
  rw [hnext, hpublished]
  refine ⟨hafter.config_eq key, fun hd => ?_, fun hd => ?_⟩
  · obtain ⟨inst, hinst, hd⟩ := hdue.1 hd
    obtain ⟨hmerge, htick⟩ := inst.tickMergeTimer_of_due hd
    refine ⟨inst, hinst, hmerge, ?_, ?_, ?_⟩
    · rw [hinst, Option.map_some, htick]
    · rw [hinst, Option.filter, if_pos hd, Option.map_some, htick]
      rfl
    · rw [ConsistentHashInstance.merge, if_pos hmerge]
      rfl
  · cases hinst : mgr.getInstance key with
    | none => exact ⟨rfl, 0, rfl⟩
    | some inst =>
      have hd : inst.due = false := Bool.eq_false_iff.2 fun hd' => hd (hdue.2 ⟨inst, hinst, hd'⟩)
      refine ⟨?_, _, congrArg some (inst.tickMergeTimer_of_not_due hd)⟩
      rw [Option.filter, if_neg (Bool.eq_false_iff.1 hd)]
      rfl

/-- Two services with their own timeouts, the first one before its second maintenance. -/
def demoOps : List ManagerOp :=
  [.updateServiceBackends ⟨1, 80, IPPROTO_TCP, 4⟩ [.zero] { hashringSize := 7, mergeTimeoutTicks := 2 },
    .updateServiceBackends ⟨2, 80, IPPROTO_TCP, 4⟩ [.zero, .zero]
      { hashringSize := 7, mergeTimeoutTicks := 0 }, .periodicMaintenance]

/-- Its merge is due. -/
theorem merge_timing_second :
    ∃ inst, ((managerMachine fun _ _ => 0).exec ⟨∅⟩ demoOps).getInstance
        ⟨1, 80, IPPROTO_TCP, 4⟩ = some inst ∧ inst.needsMerge = true ∧
      ((managerMachine fun _ _ => 0).next .periodicMaintenance
        ((managerMachine fun _ _ => 0).exec ⟨∅⟩ demoOps)).getInstance
          ⟨1, 80, IPPROTO_TCP, 4⟩ = some inst.merge := by
  obtain ⟨-, hdue, -⟩ := merge_timing (fun _ _ => 0) demoOps (by simp [demoOps, ManagerOp.Nonempty])
    ⟨rfl, rfl, trivial, trivial⟩ ⟨1, 80, IPPROTO_TCP, 4⟩
  obtain ⟨inst, hinst, hmerge, hnext, -⟩ := hdue ⟨{ hashringSize := 7, mergeTimeoutTicks := 2 },
    rfl, rfl⟩
  exact ⟨inst, hinst, hmerge, hnext⟩

end L4Balancer
