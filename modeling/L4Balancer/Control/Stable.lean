import L4Balancer.Control.DualTable

/-!
# Stable slots

A slot counts as stable when both tables have the same entry there. The entries are
positions, in the old list of backends and in the new one, so that a stable slot keeps
its backend whatever the hash function is if and only if the lists agree at all the
positions that they both have and that are slots (`stable_keeps_iff`).
-/

namespace L4Balancer

variable {xxh3 : Xxh3} {config : InstanceConfig} {inst inst' : ConsistentHashInstance}
  {old new : List Backend}

/-- The same address, port and IP version, as `operator<=>` compares them. -/
def Backend.SameEndpoint (b b' : Backend) : Prop :=
  b.ipVersion = b'.ipVersion ∧ b.port = b'.port ∧
    if b.ipVersion = 4 then b.ip.ipv4 = b'.ip.ipv4 else b.ip = b'.ip

instance (b b' : Backend) : Decidable (b.SameEndpoint b') :=
  inferInstanceAs (Decidable (_ ∧ _ ∧ _))

/-- After an update to `new`, a stable slot has the backend that it had before. -/
def StableKeeps (xxh3 : Xxh3) (inst : ConsistentHashInstance) (new : List Backend) : Prop :=
  ∀ inst', inst.updateBackends xxh3 new = some inst' →
    ∀ keyHash r, inst'.lookup keyHash = some r → r.stable →
      ∃ i j b b', r.prev = some i ∧ r.curr = some j ∧ inst.backends[i.toNat]? = some b ∧
        new[j.toNat]? = some b' ∧ b.SameEndpoint b'

/-! ## Lists that agree -/

namespace ConsistentHashInstance

theorem toOpt_of_nonneg {v : ℤ} (h : 0 ≤ v) : toOpt v = some v := if_pos h

theorem lookup_eq {keyHash : UInt32} (curr prev : ℤ) (hne : inst.backends ≠ [])
    (hcurr : inst.currLookup[inst.slot keyHash]? = some curr)
    (hprev : inst.prevLookup[inst.slot keyHash]? = some prev) :
    inst.lookup keyHash = some ⟨prev = -1 ∨ curr = prev, toOpt curr, toOpt prev⟩ := by
  rw [lookup, if_neg hne, hcurr, hprev]
  rfl

end ConsistentHashInstance

open ConsistentHashInstance in
theorem stableKeeps_of_agree (h : DualTables xxh3 config inst) (hmerge : inst.needsMerge = false)
    (hold : inst.backends ≠ []) (hnew : new ≠ [])
    (hagree : ∀ (i : ℕ) (b b' : Backend), i < config.hashringSize.toNat →
      inst.backends[i]? = some b → new[i]? = some b' → b.SameEndpoint b') :
    StableKeeps xxh3 inst new := by
  intro inst' hu keyHash r hr hstable
  obtain ⟨-, hbackends, htable, hprev, -, -⟩ := h.updateBackends_eq hnew hu
  rw [hmerge, if_neg Bool.false_ne_true] at hprev
  rw [lookup, if_neg (by rwa [hbackends])] at hr
  obtain ⟨curr, hcurr, hr⟩ := Option.bind_eq_some_iff.1 hr
  obtain ⟨prev, hprevLookup, hr⟩ := Option.bind_eq_some_iff.1 hr
  obtain rfl := Option.some.inj hr
  rw [hprev] at hprevLookup
  have hcurr := List.mem_of_getElem? hcurr
  obtain ⟨hprev0, hprevlt⟩ := h.entries hold _ (List.mem_of_getElem? hprevLookup)
  obtain ⟨-, hcurrlt⟩ := (maglevTable_full htable).2 _ hcurr
  have hslots := Maglev.populate_lt htable _ hcurr
  obtain rfl : curr = prev := by
    refine (of_decide_eq_true hstable).resolve_left ?_
    omega
  have hlt : curr.toNat < inst.backends.length := by omega
  have hlt' : curr.toNat < new.length := by omega
  have hi : inst.backends[curr.toNat]? = some inst.backends[curr.toNat] :=
    List.getElem?_eq_getElem _
  have hj : new[curr.toNat]? = some new[curr.toNat] := List.getElem?_eq_getElem _
  exact ⟨curr, curr, _, _, toOpt_of_nonneg hprev0, toOpt_of_nonneg hprev0, hi, hj,
    hagree curr.toNat _ _ (by omega) hi hj⟩

/-! ## Lists that do not agree -/

/-- The instance that has settled on `old`. -/
def settledOn (xxh3 : Xxh3) (config : InstanceConfig) (old : List Backend) :
    ConsistentHashInstance :=
  (instanceMachine xxh3).exec (.new config) [.updateBackends old, .merge]

/-- A hash function that does not tell backends apart. -/
def constantXxh3 : Xxh3 := fun _ _ => 0

theorem generatePermutations_constant {m : ℕ} {row : List ℕ}
    (h : row ∈ generatePermutations constantXxh3 m new) : row = List.range m := by
  obtain ⟨b, -, rfl⟩ := List.mem_map.1 h
  have h₁ : (hashBackend1 constantXxh3 b).toNat = 0 := rfl
  have h₂ : (hashBackend2 constantXxh3 b).toNat = 0 := rfl
  rw [h₁, h₂, Nat.zero_mod, Nat.zero_mod, Maglev.permutation]
  refine (List.map_congr_left fun j hj => ?_).trans (List.map_id _)
  rw [Nat.zero_add, Nat.zero_add, Nat.mul_one, Nat.mod_eq_of_lt (List.mem_range.1 hj), id]

/-- With it, the first slots go to the backends in their order. -/
theorem maglevTable_constant {m : ℕ} (hnew : new ≠ []) : ∃ table,
    maglevTable constantXxh3 m new = some table ∧
      ∀ i, i < m → i < new.length → table[i]? = some (i : ℤ) := by
  have hfull : Maglev.Full m (generatePermutations constantXxh3 m new) := fun row hrow pos => by
    rw [generatePermutations_constant hrow, List.mem_range]
  obtain ⟨table, htable⟩ := Option.isSome_iff_exists.1 (Maglev.populate_isSome hfull
    (by rwa [generatePermutations, Ne, List.map_eq_nil_iff]))
  refine ⟨table, htable, fun i hi hlt => ?_⟩
  refine Maglev.populate_of_equal List.nodup_range List.length_range (fun pos => List.mem_range.1)
    (fun row hrow => generatePermutations_constant hrow) htable ?_ ?_
  · rwa [length_generatePermutations]
  · rw [List.getElem?_range hi]

theorem settledOn_constant (config : InstanceConfig) (hold : old ≠ []) :
    (settledOn constantXxh3 config old).needsMerge = false ∧
      (settledOn constantXxh3 config old).backends = old ∧
      ∀ i, i < config.hashringSize.toNat → i < old.length →
        (settledOn constantXxh3 config old).currLookup[i]? = some (i : ℤ) := by
  obtain ⟨table, htable, hslots⟩ := maglevTable_constant (m := config.hashringSize.toNat) hold
  have h := DualTables.new constantXxh3 config
  obtain ⟨inst₁, hu⟩ := h.updateBackends_of_table hold htable
  obtain ⟨-, hbackends, htable₁, -, hmerge, -⟩ := h.updateBackends_eq hold hu
  have hsettled : settledOn constantXxh3 config old = inst₁.merge := by
    rw [settledOn, Machine.exec, Machine.next, step_updateBackends hu]
    rfl
  rw [hsettled, ConsistentHashInstance.merge, if_pos hmerge]
  refine ⟨rfl, hbackends, ?_⟩
  rwa [← Option.some.inj (htable.symm.trans htable₁)]

/-- After an update from `old` to `new`, every position that both have is that of a stable slot. -/
theorem constant_stable (hnew : new ≠ []) {i : ℕ} (hi : i < config.hashringSize.toNat)
    (hlt : i < old.length) (hlt' : i < new.length) : ∃ inst',
    (settledOn constantXxh3 config old).updateBackends constantXxh3 new = some inst' ∧
      inst'.lookup (.ofNat i) = some ⟨true, some i, some i⟩ := by
  obtain ⟨hmerge, hbackends, hslots⟩ :=
    settledOn_constant config (List.ne_nil_of_length_pos (i.zero_le.trans_lt hlt))
  obtain ⟨table, htable, hslots'⟩ := maglevTable_constant (m := config.hashringSize.toNat) hnew
  have h : DualTables constantXxh3 config (settledOn constantXxh3 config old) :=
    dualTables_exec constantXxh3 config _
  obtain ⟨inst', hu⟩ := h.updateBackends_of_table hnew htable
  obtain ⟨hconfig, hbackends', htable', hprev, -, -⟩ := h.updateBackends_eq hnew hu
  rw [hmerge, if_neg Bool.false_ne_true] at hprev
  have hslot : inst'.slot (.ofNat i) = i := by
    rw [ConsistentHashInstance.slot, hconfig, UInt32.toNat_mod,
      UInt32.toNat_ofNat_of_lt' (hi.trans config.hashringSize.toNat_lt), Nat.mod_eq_of_lt hi]
  refine ⟨inst', hu, ?_⟩
  have hcurr : inst'.currLookup[i]? = some (i : ℤ) := by
    rw [← Option.some.inj (htable.symm.trans htable')]
    exact hslots' i hi hlt'
  rw [ConsistentHashInstance.lookup_eq i i (by rwa [hbackends'])
    (by rw [hslot, hcurr]) (by rw [hslot, hprev, hslots i hi hlt]),
    ConsistentHashInstance.toOpt_of_nonneg (Int.natCast_nonneg i)]
  simp

/-- Stable slots. Whatever the hash of backends, from every state of an instance without a pending
    merge, an update from the list `old` to the list `new` leaves the stable slots their backends
    if and only if the lists agree at every position that both have and that is a slot. -/
theorem stable_keeps_iff (config : InstanceConfig) (hold : old ≠ []) (hnew : new ≠ []) :
    (∀ (xxh3 : Xxh3) (ops : List InstanceOp),
      let inst := (instanceMachine xxh3).exec (.new config) ops
      inst.needsMerge = false → inst.backends = old → StableKeeps xxh3 inst new) ↔
    ∀ (i : ℕ) (b b' : Backend), i < config.hashringSize.toNat → old[i]? = some b →
      new[i]? = some b' → b.SameEndpoint b' := by
  constructor
  · intro hkeeps i b b' hi hb hb'
    obtain ⟨hlt, rfl⟩ := List.getElem?_eq_some_iff.1 hb
    obtain ⟨hlt', rfl⟩ := List.getElem?_eq_some_iff.1 hb'
    obtain ⟨hmerge, hbackends, -⟩ := settledOn_constant config hold
    obtain ⟨inst', hu, hlookup⟩ := constant_stable hnew hi hlt hlt'
    obtain ⟨i', j', b, b', hi', hj', hb, hb', hsame⟩ :=
      hkeeps constantXxh3 _ hmerge hbackends inst' hu _ _ hlookup rfl
    obtain rfl := Option.some.inj hi'
    obtain rfl := Option.some.inj hj'
    have hold' : (settledOn constantXxh3 config old).backends[(i : ℤ).toNat]? = some b := hb
    rw [hbackends, Int.toNat_natCast, List.getElem?_eq_getElem hlt] at hold'
    rw [Int.toNat_natCast, List.getElem?_eq_getElem hlt'] at hb'
    rwa [Option.some.inj hold', Option.some.inj hb']
  · intro hagree xxh3 ops inst hmerge hbackends
    exact stableKeeps_of_agree (dualTables_exec xxh3 config ops) hmerge (hbackends ▸ hold) hnew
      (hbackends ▸ hagree)

/-- A list and one more backend behind it. -/
theorem stable_keeps_append :
    StableKeeps (fun _ _ => 0)
      ((instanceMachine fun _ _ => 0).exec (.new {}) [.updateBackends [.zero], .merge])
      [.zero, .zero] :=
  (@stable_keeps_iff [.zero] [.zero, .zero] {} (by decide) (by decide)).2
    (fun i b b' _ hb hb' => by
      rw [List.mem_singleton.1 (List.mem_of_getElem? hb), List.eq_of_mem_replicate
        (n := 2) (List.mem_of_getElem? hb')]
      decide)
    (fun _ _ => 0) [.updateBackends [.zero], .merge] (settledOn_constant {} (by decide)).1
    (settledOn_constant {} (by decide)).2.1

/-- The only backend is replaced by another one: every slot counts as stable. -/
theorem stable_replaced :
    ¬StableKeeps constantXxh3 (settledOn constantXxh3 {} [{ Backend.zero with port := 80 }])
      [{ Backend.zero with port := 81 }] := by
  intro hkeeps
  obtain ⟨inst', hu, hlookup⟩ := @constant_stable {}
    [{ Backend.zero with port := 80 }] [{ Backend.zero with port := 81 }]
    (by decide) 0 (by decide) (by decide) (by decide)
  obtain ⟨i, j, b, b', hi, hj, hb, hb', hsame⟩ := hkeeps inst' hu _ _ hlookup rfl
  obtain rfl := Option.some.inj hi
  obtain rfl := Option.some.inj hj
  rw [(settledOn_constant {} (by decide)).2.1] at hb
  obtain rfl := Option.some.inj hb
  obtain rfl := Option.some.inj hb'
  exact absurd hsame (by decide)

end L4Balancer
