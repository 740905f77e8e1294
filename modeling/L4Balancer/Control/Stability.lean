import L4Balancer.Control.Identity
import L4Balancer.Control.Written

/-!
# Stability tests

Four places tell whether the slot of a hash is stable. In the control plane, `lookup`
and `isStable` compare the two tables and take every slot for stable as long as there is
no previous table. In the kernel, `consistent_hash_is_stable` and the counting of
`consistent_hash_lookup` only compare, so that without a previous table no slot is stable
for them. The four agree exactly if there is one (`stability_agrees_iff`).
-/

namespace L4Balancer

open Bpf

variable {cpus : ℕ} {xxh3 : Xxh3} {config : InstanceConfig} {inst : ConsistentHashInstance}
  {m m₀ : Maps cpus} {keyHash : UInt32}

/-- `consistent_hash_lookup` in the current table counts the lookup in `stable_lookups`. -/
def CountsStable (keyHash : UInt32) (m : Maps cpus) : Prop :=
  ((consistentHashLookup keyHash false m).2.chStatsMap.lookup 0).map (·.stableLookups) ≠
    (m.chStatsMap.lookup 0).map (·.stableLookups)

instance (keyHash : UInt32) (m : Maps cpus) : Decidable (CountsStable keyHash m) :=
  inferInstanceAs (Decidable (_ ≠ _))

/-- The four tests give one answer for a hash. -/
def StabilityAgrees (inst : ConsistentHashInstance) (m : Maps cpus) (keyHash : UInt32) : Prop :=
  ∃ stable : Bool, (inst.lookup keyHash).map (·.stable) = some stable ∧
    inst.isStable keyHash = some stable ∧ consistentHashIsStable keyHash m = stable ∧
    decide (CountsStable keyHash m) = stable

/-! ## The tests on a slot -/

/-- The slot of a hash has the entry `curr` in the current table of an instance and `prev` in the
    previous one, and the maps have what the instance publishes. -/
structure SlotEntries (inst : ConsistentHashInstance) (m : Maps cpus) (keyHash : UInt32)
    (curr prev : ℤ) : Prop where
  backends : inst.backends ≠ []
  size : inst.config.hashringSize ≠ 0
  curr_eq : inst.currLookup[inst.slot keyHash]? = some curr
  prev_eq : inst.prevLookup[inst.slot keyHash]? = some prev
  nonneg : 0 ≤ curr
  written : ChWritten inst.publication m

namespace SlotEntries

variable {curr prev : ℤ}

theorem slot_lt (h : SlotEntries inst m keyHash curr prev) :
    inst.slot keyHash < inst.config.hashringSize.toNat := by
  have hpos : 0 < inst.config.hashringSize.toNat :=
    UInt32.lt_iff_toNat_lt.1 (UInt32.pos_iff_ne_zero.2 h.size)
  rw [ConsistentHashInstance.slot, UInt32.toNat_mod]
  exact Nat.mod_lt _ hpos

theorem lookup (h : SlotEntries inst m keyHash curr prev) :
    (inst.lookup keyHash).map (·.stable) = some (decide (prev = -1 ∨ curr = prev)) := by
  rw [ConsistentHashInstance.lookup_eq curr prev h.backends h.curr_eq h.prev_eq, Option.map_some]

theorem isStable (h : SlotEntries inst m keyHash curr prev) {first : ℤ}
    (hfirst : inst.prevLookup[0]? = some first) :
    inst.isStable keyHash = some (decide (first = -1 ∨ curr = prev)) := by
  rw [ConsistentHashInstance.isStable, hfirst, h.curr_eq, h.prev_eq]
  by_cases hnone : first = -1 <;> simp [hnone]

theorem chCurrLookup (h : SlotEntries inst m keyHash curr prev) :
    m.chCurrLookup.lookup (inst.slot keyHash) = some curr :=
  h.written.curr _ _ h.slot_lt h.curr_eq

theorem chPrevLookup (h : SlotEntries inst m keyHash curr prev) :
    m.chPrevLookup.lookup (inst.slot keyHash) = some prev :=
  h.written.prev _ _ h.slot_lt h.prev_eq

theorem consistentHashIsStable (h : SlotEntries inst m keyHash curr prev) :
    consistentHashIsStable keyHash m = decide (curr = prev) := by
  have hcurr := h.chCurrLookup
  have hprev := h.chPrevLookup
  rw [ConsistentHashInstance.slot] at hcurr hprev
  rw [L4Balancer.consistentHashIsStable, h.written.size]
  dsimp only [ConsistentHashInstance.publication]
  rw [if_neg h.size, hcurr, hprev]

theorem countsStable (h : SlotEntries inst m keyHash curr prev) :
    CountsStable keyHash m ↔ curr = prev := by
  have hcurr := h.chCurrLookup
  have hprev := h.chPrevLookup
  have hstats := m.chStatsMap.lookup_of_lt Nat.one_pos
  rw [ConsistentHashInstance.slot] at hcurr hprev
  rw [CountsStable, consistentHashLookup, h.written.size]
  dsimp only [ConsistentHashInstance.publication]
  rw [if_neg h.size, Maps.chLookup, if_neg Bool.false_ne_true, hcurr]
  dsimp only
  rw [if_neg (not_lt.2 h.nonneg), Maps.countLookup, hstats]
  dsimp only
  rw [if_neg Bool.false_ne_true, hprev, ArrayMap.lookup_put_self _ Nat.one_pos]
  -- counting up wraps around, but does not stay
  split_ifs with heq
  · simp [Option.some.inj heq]
  · simpa using fun h : curr = prev => heq (congrArg some h.symm)

end SlotEntries

/-! ## Reachable states -/

/-- The slot of a hash, in a state with backends whose tables have been published. -/
theorem DualTables.slotEntries (h : DualTables xxh3 config inst) (hsize : config.hashringSize ≠ 0)
    (hne : inst.backends ≠ []) (hw : ChWritten inst.publication m) (keyHash : UInt32) :
    ∃ curr prev, SlotEntries inst m keyHash curr prev := by
  have hsize' : inst.config.hashringSize ≠ 0 := h.config_eq ▸ hsize
  have hpos : 0 < config.hashringSize.toNat :=
    UInt32.lt_iff_toNat_lt.1 (UInt32.pos_iff_ne_zero.2 hsize)
  have hlt := L4Balancer.slot_lt h hpos keyHash
  have hcurr := List.getElem?_eq_getElem (h.currLength.symm ▸ hlt)
  have hprev := List.getElem?_eq_getElem (h.prevLength.symm ▸ hlt)
  exact ⟨_, _, hne, hsize', hcurr, hprev, (h.entries hne _ (List.mem_of_getElem? hcurr)).1, hw⟩

/-- The stability tests. In every reachable state of an instance with backends whose tables have
    been written to the maps, the four tests agree on a hash if and only if there is a previous
    table. -/
theorem stability_agrees_iff (xxh3 : Xxh3) (config : InstanceConfig)
    (hsize : config.hashringSize ≠ 0) (ops : List InstanceOp) (m₀ m : Maps cpus) :
    let inst := (instanceMachine xxh3).exec (.new config) ops
    inst.backends ≠ [] → updateChBpfMaps m₀ inst.publication.writes = (m, true) →
      ∀ keyHash, StabilityAgrees inst m keyHash ↔ inst.prevLookup[0]? ≠ some (-1) := by
  intro inst hne hw keyHash
  have h : DualTables xxh3 config inst := dualTables_exec xxh3 config ops
  obtain ⟨curr, prev, hslot⟩ :=
    h.slotEntries hsize hne (ChWritten.of_updateChBpfMaps hw) keyHash
  have hzero : 0 < inst.prevLookup.length :=
    (Nat.zero_le _).trans_lt (List.getElem?_eq_some_iff.1 hslot.prev_eq).1
  have hfirst := List.getElem?_eq_getElem hzero
  have hmem := List.mem_of_getElem? hslot.prev_eq
  have hlookup := hslot.lookup
  have hisStable := hslot.isStable hfirst
  constructor
  · -- a free previous table: the control plane says stable, the kernel does not
    rintro ⟨stable, hlookup', -, hkernel, -⟩ hnone
    rw [hfirst] at hnone
    have hall : ∀ v ∈ inst.prevLookup, v = -1 :=
      h.prevFull.resolve_left fun hfull =>
        hfull _ (List.getElem_mem hzero) (Option.some.inj hnone)
    have hnonneg := hslot.nonneg
    have hneg := hall prev hmem
    rw [hslot.consistentHashIsStable, decide_eq_false (by omega)] at hkernel
    rw [hlookup, decide_eq_true (.inl hneg), ← hkernel] at hlookup'
    exact absurd hlookup' (by simp)
  · intro hsome
    have hne₀ : inst.prevLookup[0] ≠ -1 := fun h => hsome (hfirst.trans (congrArg some h))
    have hfull : ∀ v ∈ inst.prevLookup, v ≠ -1 :=
      h.prevFull.resolve_right fun hall => hne₀ (hall _ (List.getElem_mem hzero))
    have hprev := hfull prev hmem
    refine ⟨decide (curr = prev), ?_, ?_, hslot.consistentHashIsStable, ?_⟩
    · rw [hlookup]
      simp [hprev]
    · rw [hisStable]
      simp [hne₀]
    · exact decide_eq_decide.2 hslot.countsStable

/-- With a previous table, also during a merge. -/
theorem stability_agrees_seven :
    StabilityAgrees
      ((instanceMachine constantXxh3).exec (.new { hashringSize := 7 })
        [.updateBackends [.zero], .merge, .updateBackends [.zero, .zero]])
      (updateChBpfMaps (.fresh 1) ((instanceMachine constantXxh3).exec (.new { hashringSize := 7 })
        [.updateBackends [.zero], .merge,
          .updateBackends [.zero, .zero]]).publication.writes).1 3 :=
  (stability_agrees_iff constantXxh3 { hashringSize := 7 } (by decide)
    [.updateBackends [.zero], .merge, .updateBackends [.zero, .zero]] (.fresh 1) _
    (by decide +kernel) (Prod.ext rfl (by decide +kernel)) 3).2 (by decide +kernel)

/-- After the first update, all slots are stable for the control plane, and none for the kernel. -/
theorem stability_first_update :
    ¬StabilityAgrees
      ((instanceMachine constantXxh3).exec (.new { hashringSize := 7 }) [.updateBackends [.zero]])
      (updateChBpfMaps (.fresh 1) ((instanceMachine constantXxh3).exec
        (.new { hashringSize := 7 }) [.updateBackends [.zero]]).publication.writes).1 0 := by
  rintro ⟨stable, hlookup, -, hkernel, -⟩
  have hfirst : (((instanceMachine constantXxh3).exec (.new { hashringSize := 7 })
      [.updateBackends [.zero]]).lookup 0).map (·.stable) = some true := by
    decide +kernel
  have hno : consistentHashIsStable 0
      (updateChBpfMaps (.fresh 1) ((instanceMachine constantXxh3).exec (.new { hashringSize := 7 })
        [.updateBackends [.zero]]).publication.writes).1 = false := by
    decide +kernel
  rw [hno] at hkernel
  rw [hfirst, ← hkernel] at hlookup
  exact absurd hlookup (by decide)

end L4Balancer
