import L4Balancer.Control.ConsistentHash
import L4Balancer.Machine

/-!
# The two tables of an instance

With a prime number of slots, the construction of a table stays in bounds
(`maglev_total`). The operations on an instance are a machine (`instanceMachine`); its
invariant (`DualTables`) says of the current table that it is the Maglev table of the
backends, and of the previous one that it is a current table too: that of the last
state in which no merge was pending (`dual_tables`).
-/

namespace L4Balancer

variable {xxh3 : Xxh3} {inst : ConsistentHashInstance} {backends : List Backend}

/-! ## Building a table -/

theorem generatePermutations_perm {m : ℕ} (hm : m.Prime) (xxh3 : Xxh3) (backends : List Backend) :
    ∀ row ∈ generatePermutations xxh3 m backends, row.Perm (List.range m) := by
  intro row hrow
  obtain ⟨b, -, rfl⟩ := List.mem_map.1 hrow
  have hpos : 0 < m - 1 := by have := hm.two_le; omega
  have hlt := Nat.mod_lt (hashBackend2 xxh3 b).toNat hpos
  exact Maglev.permutation_perm hm (Nat.succ_pos _) (by omega) _

theorem generatePermutations_full {m : ℕ} (hm : m.Prime) (xxh3 : Xxh3) (backends : List Backend) :
    Maglev.Full m (generatePermutations xxh3 m backends) := by
  intro row hrow pos
  rw [(generatePermutations_perm hm xxh3 backends row hrow).mem_iff, List.mem_range]

theorem length_generatePermutations (xxh3 : Xxh3) (m : ℕ) (backends : List Backend) :
    (generatePermutations xxh3 m backends).length = backends.length := List.length_map _

/-- The table of a list of backends. -/
abbrev maglevTable (xxh3 : Xxh3) (m : ℕ) (backends : List Backend) : Option (List ℤ) :=
  Maglev.populate m (generatePermutations xxh3 m backends)

theorem maglevTable_full {m : ℕ} {table : List ℤ} (h : maglevTable xxh3 m backends = some table) :
    table.length = m ∧ ∀ v ∈ table, 0 ≤ v ∧ v < backends.length := by
  have h := Maglev.populate_full h
  rwa [length_generatePermutations] at h

theorem maglevTable_isSome {m : ℕ} (hm : m.Prime) (xxh3 : Xxh3) (hne : backends ≠ []) :
    ∃ table, maglevTable xxh3 m backends = some table := by
  refine Option.isSome_iff_exists.1
    (Maglev.populate_isSome (generatePermutations_full hm xxh3 backends) ?_)
  rwa [generatePermutations, Ne, List.map_eq_nil_iff]

/-- The construction of a table is total and in bounds: with a prime number of slots, every
    preference list is a permutation of the slots, computed without overflow, the rounds end
    without reading past the end of a list, and every slot then has a backend. -/
theorem maglev_total (xxh3 : Xxh3) {m : ℕ} (hm : m.Prime) (hlt : m < 2 ^ 31)
    {backends : List Backend} (hne : backends ≠ []) :
    (generatePermutations xxh3 m backends).length = backends.length ∧
    (∀ row ∈ generatePermutations xxh3 m backends, row.Perm (List.range m)) ∧
    (∀ b ∈ backends, ∀ j < m, (hashBackend1 xxh3 b).toNat % m +
      j * ((hashBackend2 xxh3 b).toNat % (m - 1) + 1) < 2 ^ 64) ∧
    ∃ table, Maglev.populate m (generatePermutations xxh3 m backends) = some table ∧
      table.length = m ∧ ∀ v ∈ table, 0 ≤ v ∧ v < backends.length := by
  obtain ⟨table, htable⟩ := maglevTable_isSome hm xxh3 hne
  refine ⟨length_generatePermutations xxh3 m backends, generatePermutations_perm hm xxh3 backends,
    fun b _ j hj => ?_, table, htable, maglevTable_full htable⟩
  have hpos : 0 < m - 1 := by have := hm.two_le; omega
  have hoffset := Nat.mod_lt (hashBackend1 xxh3 b).toNat hm.pos
  have hskip := Nat.mod_lt (hashBackend2 xxh3 b).toNat hpos
  have hmul : j * ((hashBackend2 xxh3 b).toNat % (m - 1) + 1) ≤ 2 ^ 31 * 2 ^ 31 :=
    Nat.mul_le_mul (by omega) (by omega)
  omega

/-- Three backends and seven slots. -/
theorem maglev_total_seven :
    ∃ table, Maglev.populate 7 (generatePermutations (fun _ _ => 0) 7
        [.zero, .zero, .zero]) = some table ∧
      table.length = 7 ∧ ∀ v ∈ table, 0 ≤ v ∧ v < 3 :=
  (maglev_total (fun _ _ => 0) (m := 7) Nat.prime_seven (by decide) (by simp)).2.2.2

/-- The balance of a table. With a prime number `m` of slots, each of `n` backends has `m / n` of
    them, and the first `m % n` backends have one more, whatever their hashes. -/
theorem maglev_balanced (xxh3 : Xxh3) {m : ℕ} (hm : m.Prime) {backends : List Backend}
    (hne : backends ≠ []) :
    ∃ table, Maglev.populate m (generatePermutations xxh3 m backends) = some table ∧
      (∀ i < backends.length, table.count (i : ℤ) =
        m / backends.length + if i < m % backends.length then 1 else 0) ∧
      ∀ i < backends.length, ∀ j < backends.length,
        table.count (i : ℤ) ≤ table.count (j : ℤ) + 1 := by
  obtain ⟨table, htable⟩ := maglevTable_isSome hm xxh3 hne
  have hcount : ∀ i < backends.length, table.count (i : ℤ) =
      m / backends.length + if i < m % backends.length then 1 else 0 := by
    intro i hi
    rw [← length_generatePermutations xxh3 m] at hi ⊢
    exact Maglev.count_populate htable hi
  refine ⟨table, htable, hcount, fun i hi j hj => ?_⟩
  rw [hcount i hi, hcount j hj]
  split_ifs <;> omega

/-- Seven slots for three backends. -/
theorem maglev_balanced_seven :
    ∃ table, Maglev.populate 7 (generatePermutations (fun _ _ => 0) 7
        [.zero, .zero, .zero]) = some table ∧
      (∀ i < (3 : ℕ), table.count (i : ℤ) = 7 / 3 + if i < 7 % 3 then 1 else 0) ∧
      ∀ i < (3 : ℕ), ∀ j < (3 : ℕ), table.count (i : ℤ) ≤ table.count (j : ℤ) + 1 :=
  @maglev_balanced (fun _ _ => 0) 7 Nat.prime_seven [.zero, .zero, .zero] (by decide)

/-! ## Operations -/

/-- An operation on an instance. -/
inductive InstanceOp
  | updateBackends (backends : List Backend)
  | merge
  | tickMergeTimer
  | clear

/-- The machine of an instance; it answers whether the operation has stayed in bounds. -/
def instanceMachine (xxh3 : Xxh3) : Machine ConsistentHashInstance InstanceOp Bool where
  step
    | .updateBackends backends => fun inst =>
      match inst.updateBackends xxh3 backends with
      | none => (false, inst)
      | some inst => (true, inst)
    | .merge => fun inst => (true, inst.merge)
    | .tickMergeTimer => fun inst => (true, inst.tickMergeTimer.2)
    | .clear => fun inst => (true, inst.clear)

theorem step_updateBackends {inst' : ConsistentHashInstance}
    (h : inst.updateBackends xxh3 backends = some inst') :
    (instanceMachine xxh3).step (.updateBackends backends) inst = (true, inst') := by
  dsimp only [instanceMachine]
  rw [h]

theorem updateBackends_nil (xxh3 : Xxh3) (inst : ConsistentHashInstance) :
    inst.updateBackends xxh3 [] = some inst.clear := if_pos rfl

/-- What the operations keep of an instance with the configuration `config`. -/
structure DualTables (xxh3 : Xxh3) (config : InstanceConfig) (inst : ConsistentHashInstance) :
    Prop where
  config_eq : inst.config = config
  currLength : inst.currLookup.length = config.hashringSize.toNat
  prevLength : inst.prevLookup.length = config.hashringSize.toNat
  empty : inst.backends = [] →
    (∀ v ∈ inst.currLookup, v = -1) ∧ (∀ v ∈ inst.prevLookup, v = -1) ∧ inst.needsMerge = false
  table : inst.backends ≠ [] →
    maglevTable xxh3 config.hashringSize.toNat inst.backends = some inst.currLookup
  settled : inst.needsMerge = false → inst.prevLookup = inst.currLookup
  prevFull : (∀ v ∈ inst.prevLookup, v ≠ -1) ∨ ∀ v ∈ inst.prevLookup, v = -1
  timer : inst.mergeTimer.toNat < max 1 config.mergeTimeoutTicks.toNat

namespace DualTables

variable {config : InstanceConfig} {inst' : ConsistentHashInstance}

theorem new (xxh3 : Xxh3) (config : InstanceConfig) : DualTables xxh3 config (.new config) where
  config_eq := rfl
  currLength := List.length_replicate
  prevLength := List.length_replicate
  empty _ := ⟨fun _ => List.eq_of_mem_replicate, fun _ => List.eq_of_mem_replicate, rfl⟩
  table h := absurd rfl h
  settled _ := rfl
  prevFull := .inr fun _ => List.eq_of_mem_replicate
  timer := lt_of_lt_of_le Nat.one_pos (le_max_left _ _)

/-- The entries of the current table. -/
theorem entries (h : DualTables xxh3 config inst) (hne : inst.backends ≠ []) :
    ∀ v ∈ inst.currLookup, 0 ≤ v ∧ v < inst.backends.length :=
  (maglevTable_full (h.table hne)).2

theorem ne_neg_one (h : DualTables xxh3 config inst) (hne : inst.backends ≠ []) :
    ∀ v ∈ inst.currLookup, v ≠ -1 := fun v hv hneg => by
  have := (h.entries hne v hv).1
  omega

/-- The previous table of the next update: the choice by the first slot is one by the flag. -/
theorem newPrev_eq (h : DualTables xxh3 config inst) :
    inst.newPrev = if inst.needsMerge then inst.prevLookup else inst.currLookup := by
  rw [ConsistentHashInstance.newPrev]
  by_cases hmerge : inst.needsMerge
  · rw [if_neg fun h => h.2 hmerge, if_pos hmerge, if_pos hmerge]
  rw [if_neg hmerge, if_neg hmerge]
  split_ifs with hfirst
  · rfl
  · -- without a backend in the first slot the table is all free, like a fresh one
    rw [eq_comm, List.eq_replicate_iff, ConsistentHashInstance.slots, h.config_eq]
    refine ⟨h.currLength, fun v hv => ?_⟩
    have hslot : inst.currLookup[0]? = some (-1) := by
      by_contra hne
      exact hfirst ⟨hne, hmerge⟩
    by_contra hneg
    have hnil : inst.backends ≠ [] := fun hnil => hneg ((h.empty hnil).1 v hv)
    exact h.ne_neg_one hnil _ (List.mem_of_getElem? hslot) rfl

theorem clear (h : DualTables xxh3 config inst) : DualTables xxh3 config inst.clear where
  config_eq := h.config_eq
  currLength := by rw [ConsistentHashInstance.clear, List.length_map, h.currLength]
  prevLength := by rw [ConsistentHashInstance.clear, List.length_map, h.prevLength]
  empty _ := by simp [ConsistentHashInstance.clear]
  table hne := absurd rfl hne
  settled _ := by
    rw [ConsistentHashInstance.clear]
    dsimp only
    rw [List.map_const', List.map_const', h.currLength, h.prevLength]
  prevFull := .inr (by simp [ConsistentHashInstance.clear])
  timer := lt_of_lt_of_le Nat.one_pos (le_max_left _ _)

/-- What `updateBackends` does with a list that is not empty. -/
theorem updateBackends_eq (h : DualTables xxh3 config inst) (hne : backends ≠ [])
    (hu : inst.updateBackends xxh3 backends = some inst') :
    inst'.config = config ∧ inst'.backends = backends ∧
      maglevTable xxh3 config.hashringSize.toNat backends = some inst'.currLookup ∧
      inst'.prevLookup = (if inst.needsMerge then inst.prevLookup else inst.currLookup) ∧
      inst'.needsMerge = true ∧ inst'.mergeTimer = 0 := by
  rw [ConsistentHashInstance.updateBackends, if_neg hne] at hu
  obtain ⟨table, htable, rfl⟩ := Option.map_eq_some_iff.1 hu
  rw [ConsistentHashInstance.slots, h.config_eq] at htable
  exact ⟨h.config_eq, rfl, htable, h.newPrev_eq, rfl, rfl⟩

/-- It stays in bounds if the construction of the table does. -/
theorem updateBackends_of_table (h : DualTables xxh3 config inst) (hne : backends ≠ [])
    {table : List ℤ} (ht : maglevTable xxh3 config.hashringSize.toNat backends = some table) :
    ∃ inst', inst.updateBackends xxh3 backends = some inst' := by
  rw [ConsistentHashInstance.updateBackends, if_neg hne, ConsistentHashInstance.slots,
    h.config_eq]
  exact ⟨_, Option.map_eq_some_iff.2 ⟨table, ht, rfl⟩⟩

/-- With a prime number of slots it stays in bounds. -/
theorem updateBackends_isSome (h : DualTables xxh3 config inst)
    (hm : config.hashringSize.toNat.Prime) (backends : List Backend) :
    ∃ inst', inst.updateBackends xxh3 backends = some inst' := by
  by_cases hnil : backends = []
  · exact ⟨_, hnil ▸ updateBackends_nil xxh3 inst⟩
  · obtain ⟨table, htable⟩ := maglevTable_isSome hm xxh3 hnil
    exact h.updateBackends_of_table hnil htable

theorem updateBackends (h : DualTables xxh3 config inst)
    (hu : inst.updateBackends xxh3 backends = some inst') : DualTables xxh3 config inst' := by
  by_cases hnil : backends = []
  · rw [hnil, updateBackends_nil] at hu
    exact Option.some.inj hu ▸ h.clear
  obtain ⟨hconfig, hbackends, htable, hprev, hmerge, htimer⟩ := h.updateBackends_eq hnil hu
  constructor
  · exact hconfig
  · exact (maglevTable_full htable).1
  · rw [hprev]
    split_ifs
    · exact h.prevLength
    · exact h.currLength
  · exact fun h => absurd (hbackends.symm.trans h) hnil
  · rw [hbackends]
    exact fun _ => htable
  · exact fun hf => absurd (hmerge.symm.trans hf) (by simp)
  · rw [hprev]
    split_ifs
    · exact h.prevFull
    · by_cases hold : inst.backends = []
      · exact .inr (h.empty hold).1
      · exact .inl (h.ne_neg_one hold)
  · rw [htimer]
    exact lt_of_lt_of_le Nat.one_pos (le_max_left _ _)

theorem merge (h : DualTables xxh3 config inst) : DualTables xxh3 config inst.merge := by
  rw [ConsistentHashInstance.merge]
  split_ifs with hmerge
  · have hne : inst.backends ≠ [] := fun hnil => by
      rw [(h.empty hnil).2.2] at hmerge
      cases hmerge
    exact ⟨h.config_eq, h.currLength, h.currLength, fun hnil => absurd hnil hne, h.table,
      fun _ => rfl, .inl (h.ne_neg_one hne), lt_of_lt_of_le Nat.one_pos (le_max_left _ _)⟩
  · exact h

/-- Merging does not look at the timer. -/
theorem merge_setTimer (inst : ConsistentHashInstance) (ticks : UInt32) (h : inst.needsMerge) :
    ({ inst with mergeTimer := ticks } : ConsistentHashInstance).merge = inst.merge := by
  rw [ConsistentHashInstance.merge, ConsistentHashInstance.merge, if_pos h, if_pos h]

theorem tickMergeTimer (h : DualTables xxh3 config inst) :
    DualTables xxh3 config inst.tickMergeTimer.2 := by
  rw [ConsistentHashInstance.tickMergeTimer]
  split_ifs with hmerge
  · dsimp only
    split_ifs with hticks
    · rw [merge_setTimer inst _ hmerge]
      exact h.merge
    · refine ⟨h.config_eq, h.currLength, h.prevLength, h.empty, h.table, h.settled, h.prevFull, ?_⟩
      rw [h.config_eq, ge_iff_le, UInt32.le_iff_toNat_le, not_le] at hticks
      exact lt_of_lt_of_le hticks (le_max_right _ _)
  · exact h

/-- Every operation keeps the invariant. -/
theorem next (h : DualTables xxh3 config inst) (op : InstanceOp) :
    DualTables xxh3 config ((instanceMachine xxh3).next op inst) := by
  cases op with
  | updateBackends backends =>
    rw [Machine.next]
    cases hu : inst.updateBackends xxh3 backends with
    | none =>
      dsimp only [instanceMachine]
      rw [hu]
      exact h
    | some inst' =>
      rw [step_updateBackends hu]
      exact h.updateBackends hu
  | merge => exact h.merge
  | tickMergeTimer => exact h.tickMergeTimer
  | clear => exact h.clear

/-- With a prime number of slots, every operation stays in bounds. -/
theorem out (h : DualTables xxh3 config inst) (hm : config.hashringSize.toNat.Prime)
    (op : InstanceOp) : (instanceMachine xxh3).out op inst = true := by
  cases op with
  | updateBackends backends =>
    obtain ⟨inst', hu⟩ := h.updateBackends_isSome hm backends
    rw [Machine.out, step_updateBackends hu]
  | merge | tickMergeTimer | clear => rfl

end DualTables

/-! ## Histories -/

variable {config : InstanceConfig}

/-- An operation ends a merge, or leaves the previous table as it is; where none was pending, the
    current table becomes the previous one. -/
theorem prevLookup_next (h : DualTables xxh3 config inst) (op : InstanceOp) :
    ((instanceMachine xxh3).next op inst).needsMerge = true →
      ((instanceMachine xxh3).next op inst).prevLookup =
        if inst.needsMerge then inst.prevLookup else inst.currLookup := by
  intro hmerge
  cases op with
  | updateBackends backends =>
    rw [Machine.next] at hmerge ⊢
    cases hu : inst.updateBackends xxh3 backends with
    | none =>
      dsimp only [instanceMachine] at hmerge ⊢
      rw [hu] at hmerge ⊢
      exact (if_pos hmerge).symm
    | some inst' =>
      rw [step_updateBackends hu] at hmerge ⊢
      by_cases hnil : backends = []
      · rw [hnil, updateBackends_nil] at hu
        rw [← Option.some.inj hu] at hmerge
        cases hmerge
      · exact (h.updateBackends_eq hnil hu).2.2.2.1
  | merge =>
    have hnext : (instanceMachine xxh3).next .merge inst = inst.merge := rfl
    rw [hnext, ConsistentHashInstance.merge] at hmerge
    split_ifs at hmerge with hm'
    exact absurd hmerge hm'
  | tickMergeTimer =>
    have hnext : (instanceMachine xxh3).next .tickMergeTimer inst = inst.tickMergeTimer.2 := rfl
    rw [hnext, ConsistentHashInstance.tickMergeTimer] at hmerge ⊢
    split_ifs at hmerge ⊢ with hm'
    · dsimp only at hmerge ⊢
      split_ifs at hmerge ⊢
      · rw [DualTables.merge_setTimer inst _ hm', ConsistentHashInstance.merge, if_pos hm'] at hmerge
        cases hmerge
      · rfl
    · exact absurd hmerge hm'
  | clear => cases hmerge

theorem dualTables_exec (xxh3 : Xxh3) (config : InstanceConfig) (ops : List InstanceOp) :
    DualTables xxh3 config ((instanceMachine xxh3).exec (.new config) ops) :=
  Machine.exec_of_step (fun _ op h => h.next op) ops (.new xxh3 config)

/-- The previous table is the current table of the last state of the run in which no merge was
    pending. -/
theorem prevLookup_exec (xxh3 : Xxh3) (config : InstanceConfig) (ops : List InstanceOp) :
    ∃ pre post, ops = pre ++ post ∧
      ((instanceMachine xxh3).exec (.new config) pre).needsMerge = false ∧
      ((instanceMachine xxh3).exec (.new config) ops).prevLookup =
        ((instanceMachine xxh3).exec (.new config) pre).currLookup ∧
      ∀ mid, mid ≠ [] → mid <+: post →
        ((instanceMachine xxh3).exec (.new config) (pre ++ mid)).needsMerge = true := by
  induction ops using List.reverseRecOn with
  | nil => exact ⟨[], [], rfl, rfl, rfl, fun mid hne hp => absurd (List.prefix_nil.1 hp) hne⟩
  | append_singleton ops op ih =>
    have hs' := dualTables_exec xxh3 config (ops ++ [op])
    have hprev := prevLookup_next (dualTables_exec xxh3 config ops) op
    rw [Machine.exec_append] at hs'
    cases hmerge : ((instanceMachine xxh3).next op
        ((instanceMachine xxh3).exec (.new config) ops)).needsMerge with
    | false =>
      refine ⟨ops ++ [op], [], (List.append_nil _).symm, ?_, ?_, fun mid hne hp =>
        absurd (List.prefix_nil.1 hp) hne⟩
      · rw [Machine.exec_append]
        exact hmerge
      · rw [Machine.exec_append]
        exact hs'.settled hmerge
    | true =>
      specialize hprev hmerge
      -- the state before is the last one, or it has the same previous table
      cases hold : ((instanceMachine xxh3).exec (.new config) ops).needsMerge with
      | false =>
        rw [hold, if_neg Bool.false_ne_true] at hprev
        refine ⟨ops, [op], rfl, hold, by rw [Machine.exec_append]; exact hprev, ?_⟩
        intro mid hne hp
        obtain rfl : mid = [op] := by
          rcases List.prefix_cons_iff.1 hp with rfl | ⟨mid', rfl, hnil⟩
          · exact absurd rfl hne
          · rw [List.prefix_nil.1 hnil]
        rw [Machine.exec_append]
        exact hmerge
      | true =>
        obtain ⟨pre, post, rfl, hpre, hcurr, hpost⟩ := ih
        rw [hold, if_pos rfl, hcurr] at hprev
        refine ⟨pre, post ++ [op], List.append_assoc _ _ _, hpre, ?_, fun mid hne hp => ?_⟩
        · rw [Machine.exec_append]
          exact hprev
        · rcases List.prefix_concat_iff.1 hp with rfl | hp
          · rw [← List.append_assoc, Machine.exec_append]
            exact hmerge
          · exact hpost mid hne hp

/-- The dual tables. After any operations on a new instance with a prime number of slots, none of
    which has left the bounds: both tables have their length; without backends they are free and no
    merge is pending, with backends the current one is full; the previous table is the current one
    of the last state without a pending merge, full or free; and the timer has not run out. -/
theorem dual_tables (xxh3 : Xxh3) {config : InstanceConfig}
    (hm : config.hashringSize.toNat.Prime) (ops : List InstanceOp) :
    (∀ ok ∈ (instanceMachine xxh3).outs (.new config) ops, ok = true) ∧
    let inst := (instanceMachine xxh3).exec (.new config) ops
    inst.currLookup.length = config.hashringSize.toNat ∧
    inst.prevLookup.length = config.hashringSize.toNat ∧
    (inst.backends = [] → (∀ v ∈ inst.currLookup, v = -1) ∧ (∀ v ∈ inst.prevLookup, v = -1) ∧
      inst.needsMerge = false) ∧
    (inst.backends ≠ [] → ∀ v ∈ inst.currLookup, 0 ≤ v ∧ v < inst.backends.length) ∧
    (∃ pre post, ops = pre ++ post ∧
      ((instanceMachine xxh3).exec (.new config) pre).needsMerge = false ∧
      inst.prevLookup = ((instanceMachine xxh3).exec (.new config) pre).currLookup ∧
      ∀ mid, mid ≠ [] → mid <+: post →
        ((instanceMachine xxh3).exec (.new config) (pre ++ mid)).needsMerge = true) ∧
    (inst.needsMerge = false → inst.prevLookup = inst.currLookup) ∧
    ((∀ v ∈ inst.prevLookup, v ≠ -1) ∨ ∀ v ∈ inst.prevLookup, v = -1) ∧
    inst.mergeTimer.toNat < max 1 config.mergeTimeoutTicks.toNat := by
  have h := dualTables_exec xxh3 config ops
  refine ⟨?_, h.currLength, h.prevLength, h.empty, h.entries, prevLookup_exec xxh3 config ops,
    h.settled, h.prevFull, h.timer⟩
  exact Machine.outs_of_step (P := DualTables xxh3 config)
    (fun _ op h => ⟨h.out hm op, h.next op⟩) (.new xxh3 config)

/-- An update in the merge window of another one. -/
theorem dual_tables_seven :
    ((instanceMachine fun _ _ => 0).exec (.new { hashringSize := 7 })
      [.updateBackends [.zero], .tickMergeTimer, .updateBackends [.zero, .zero]]).prevLookup.length =
      7 :=
  (@dual_tables (fun _ _ => 0) { hashringSize := 7 } Nat.prime_seven
    [.updateBackends [.zero], .tickMergeTimer, .updateBackends [.zero, .zero]]).2.2.1

end L4Balancer
