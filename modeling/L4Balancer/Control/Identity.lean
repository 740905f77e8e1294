import L4Balancer.Control.Stable

/-!
# Tables and identities

The Maglev table of a list of backends depends on their endpoints only, not on their
weights, MAC addresses or active flags (`maglevTable_congr`), and an update leads to it
from every state of an instance. Without a pending merge, an update to a list with the
same endpoints therefore changes no slot, and every slot is stable after it
(`tables_of_identities`).
-/

namespace L4Balancer

variable {xxh3 : Xxh3} {config config' : InstanceConfig} {inst inst' : ConsistentHashInstance}
  {backends backends' : List Backend}

/-- What is hashed of a backend is its endpoint. -/
theorem Backend.SameEndpoint.hashInput {b b' : Backend} (h : b.SameEndpoint b') :
    b.hashInput = b'.hashInput := by
  obtain ⟨hversion, hport, hip⟩ := h
  rw [Backend.hashInput, Backend.hashInput, ← hversion, ← hport]
  by_cases h4 : b.ipVersion = 4
  · rw [if_pos h4] at hip
    rw [if_pos h4, if_pos h4, hip]
  · rw [if_neg h4] at hip
    rw [if_neg h4, if_neg h4, hip]

theorem generatePermutations_congr (h : List.Forall₂ Backend.SameEndpoint backends backends')
    (xxh3 : Xxh3) (m : ℕ) :
    generatePermutations xxh3 m backends = generatePermutations xxh3 m backends' := by
  induction h with
  | nil => rfl
  | cons hb _ ih =>
    rw [generatePermutations, List.map_cons, hashBackend1, hashBackend2, hb.hashInput]
    exact congrArg _ ih

/-- Lists with the same endpoints have one table. -/
theorem maglevTable_congr (h : List.Forall₂ Backend.SameEndpoint backends backends')
    (xxh3 : Xxh3) (m : ℕ) : maglevTable xxh3 m backends = maglevTable xxh3 m backends' := by
  rw [maglevTable, generatePermutations_congr h]

theorem ne_nil_of_forall₂ {α β : Type*} {R : α → β → Prop} {l : List α} {l' : List β}
    (h : List.Forall₂ R l l') (hne : l ≠ []) : l' ≠ [] := by
  rintro rfl
  exact hne (List.forall₂_nil_right_iff.1 h)

/-- Updates with the same endpoints lead to one table, from any two states. -/
theorem DualTables.updateBackends_congr (h : DualTables xxh3 config inst)
    (h' : DualTables xxh3 config' inst') (hsize : config.hashringSize = config'.hashringSize)
    (hm : config.hashringSize.toNat.Prime) (hne : backends ≠ [])
    (hsame : List.Forall₂ Backend.SameEndpoint backends backends') :
    ∃ next next', inst.updateBackends xxh3 backends = some next ∧
      inst'.updateBackends xxh3 backends' = some next' ∧ next.currLookup = next'.currLookup := by
  have hne' := ne_nil_of_forall₂ hsame hne
  obtain ⟨next, hu⟩ := h.updateBackends_isSome hm backends
  obtain ⟨next', hu'⟩ := h'.updateBackends_isSome (hsize ▸ hm) backends'
  obtain ⟨-, -, htable, -⟩ := h.updateBackends_eq hne hu
  obtain ⟨-, -, htable', -⟩ := h'.updateBackends_eq hne' hu'
  rw [maglevTable_congr hsame, hsize] at htable
  exact ⟨next, next', hu, hu', Option.some.inj (htable.symm.trans htable')⟩

theorem slot_lt (h : DualTables xxh3 config inst) (hpos : 0 < config.hashringSize.toNat)
    (keyHash : UInt32) : inst.slot keyHash < config.hashringSize.toNat := by
  rw [ConsistentHashInstance.slot, h.config_eq, UInt32.toNat_mod]
  exact Nat.mod_lt _ hpos

/-- Without a pending merge, an update with the same endpoints keeps the table, and every hash is
    stable after it. -/
theorem DualTables.updateBackends_same (h : DualTables xxh3 config inst)
    (hm : config.hashringSize.toNat.Prime) (hmerge : inst.needsMerge = false)
    (hne : inst.backends ≠ []) (hsame : List.Forall₂ Backend.SameEndpoint inst.backends backends) :
    ∃ next, inst.updateBackends xxh3 backends = some next ∧ next.currLookup = inst.currLookup ∧
      ∀ keyHash, ∃ r, next.lookup keyHash = some r ∧ r.stable = true := by
  have hne' := ne_nil_of_forall₂ hsame hne
  obtain ⟨next, hu⟩ := h.updateBackends_isSome hm backends
  have hnext := h.updateBackends hu
  obtain ⟨-, hbackends, htable, hprev, -⟩ := h.updateBackends_eq hne' hu
  rw [hmerge, if_neg Bool.false_ne_true] at hprev
  have hcurr : next.currLookup = inst.currLookup := by
    rw [← maglevTable_congr hsame] at htable
    exact Option.some.inj (htable.symm.trans (h.table hne))
  refine ⟨next, hu, hcurr, fun keyHash => ?_⟩
  have hlt : next.slot keyHash < next.currLookup.length := by
    rw [hnext.currLength]
    exact slot_lt hnext hm.pos keyHash
  have hslot := List.getElem?_eq_getElem hlt
  have hslot' : next.prevLookup[next.slot keyHash]? = some next.currLookup[next.slot keyHash] := by
    rw [hprev, ← hcurr, hslot]
  exact ⟨_, ConsistentHashInstance.lookup_eq _ _ (by rwa [hbackends]) hslot hslot', by simp⟩

/-- Tables depend on identities only. From any two states of instances with the same prime number
    of slots, updates to lists that agree position by position on address, port and IP version lead
    to the same table. Re-applying such a list to a state without a pending merge leaves the table
    as it is and makes every hash stable. -/
theorem tables_of_identities (xxh3 : Xxh3) {config config' : InstanceConfig}
    (hsize : config.hashringSize = config'.hashringSize) (hm : config.hashringSize.toNat.Prime)
    (ops ops' : List InstanceOp) :
    let inst := (instanceMachine xxh3).exec (.new config) ops
    let inst' := (instanceMachine xxh3).exec (.new config') ops'
    (∀ backends backends', backends ≠ [] →
      List.Forall₂ Backend.SameEndpoint backends backends' →
      ∃ next next', inst.updateBackends xxh3 backends = some next ∧
        inst'.updateBackends xxh3 backends' = some next' ∧
        next.currLookup = next'.currLookup) ∧
    (inst.needsMerge = false → inst.backends ≠ [] → ∀ backends,
      List.Forall₂ Backend.SameEndpoint inst.backends backends →
      ∃ next, inst.updateBackends xxh3 backends = some next ∧
        next.currLookup = inst.currLookup ∧
        ∀ keyHash, ∃ r, next.lookup keyHash = some r ∧ r.stable = true) := by
  have h := dualTables_exec xxh3 config ops
  have h' := dualTables_exec xxh3 config' ops'
  exact ⟨fun _ _ hne hsame => h.updateBackends_congr h' hsize hm hne hsame,
    fun hmerge hne _ hsame => h.updateBackends_same hm hmerge hne hsame⟩

/-- A backend gets another weight: the table after a merge stays. -/
theorem tables_of_identities_weight :
    (settledOn constantXxh3 { hashringSize := 7 } [.zero]).needsMerge = false ∧
    ∃ next, (settledOn constantXxh3 { hashringSize := 7 } [.zero]).updateBackends constantXxh3
        [{ Backend.zero with weight := 5 }] = some next ∧
      next.currLookup = (settledOn constantXxh3 { hashringSize := 7 } [.zero]).currLookup ∧
      ∃ r, next.lookup 3 = some r ∧ r.stable = true := by
  have hsettled := @settledOn_constant [.zero] { hashringSize := 7 } (by decide)
  have hsame : List.Forall₂ Backend.SameEndpoint
      (settledOn constantXxh3 { hashringSize := 7 } [.zero]).backends
      [{ Backend.zero with weight := 5 }] := by
    rw [hsettled.2.1]
    exact .cons (by decide) .nil
  have hne : (settledOn constantXxh3 { hashringSize := 7 } [.zero]).backends ≠ [] := by
    rw [hsettled.2.1]
    decide
  obtain ⟨next, hu, hcurr, hstable⟩ :=
    (@tables_of_identities constantXxh3 { hashringSize := 7 } { hashringSize := 7 } rfl
      Nat.prime_seven [.updateBackends [.zero], .merge] []).2 hsettled.1 hne _ hsame
  exact ⟨hsettled.1, next, hu, hcurr, hstable 3⟩

end L4Balancer
