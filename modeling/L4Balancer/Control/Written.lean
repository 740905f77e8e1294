import L4Balancer.Control.Publish

/-!
# What a publication leaves in the maps

After `updateChBpfMaps` has returned true, the maps of consistent hash hold what it
was given (`ChWritten`): the size, the backends and both tables, each over what was
there before, so that entries behind the end of the new list are old ones.
-/

namespace L4Balancer

open Bpf

variable {cpus : ℕ} {m m' : Maps cpus} {p : ChPublication}

/-- The maps hold the publication. -/
structure ChWritten (p : ChPublication) (m : Maps cpus) : Prop where
  size : m.chConfig.lookup 0 = some p.hashringSize
  backends : ∀ (i : ℕ) (b : Backend), p.backends[i]? = some b → m.chBackends.lookup i = some b
  curr : ∀ (s : ℕ) (v : ℤ), s < p.hashringSize.toNat → p.currLookup[s]? = some v →
    m.chCurrLookup.lookup s = some v
  prev : ∀ (s : ℕ) (v : ℤ), s < p.hashringSize.toNat → p.prevLookup[s]? = some v →
    m.chPrevLookup.lookup s = some v

/-- The write whose result is not checked does not fail. -/
theorem Write.run_of_unchecked {w : Write} (h : w.unchecked) (m : Maps cpus) :
    (w.run m).isSome := by
  cases w with
  | chConfig i v =>
    obtain rfl : i = 1 := of_decide_eq_true h
    rfl
  | _ => cases h

theorem updateChBpfMaps_eq (m : Maps cpus) (ws : List Write) :
    updateChBpfMaps m ws = runWrites m ws := by
  induction ws generalizing m with
  | nil => rfl
  | cons w ws ih =>
    rw [updateChBpfMaps, runWrites]
    cases hw : w.run m with
    | none =>
      have hchecked : ¬w.unchecked := fun h => by simpa [hw] using w.run_of_unchecked h m
      exact if_neg hchecked
    | some m₁ => exact ih m₁

/-! ## The batches -/

theorem runWrites_chBackend {i : ℕ} {bs : List Backend}
    (h : runWrites m (writesFrom .chBackend i bs) = (m', true)) :
    ∃ a, m.chBackends.updateFrom i bs = some a ∧ m' = { m with chBackends := a } :=
  runWrites_array (·.chBackends) (fun m a => { m with chBackends := a })
    (fun _ _ _ => rfl) (fun _ _ => rfl) (fun _ _ _ => rfl) (fun _ => rfl) h

theorem runWrites_chCurrLookup {i : ℕ} {vs : List ℤ}
    (h : runWrites m (writesFrom .chCurrLookup i vs) = (m', true)) :
    ∃ a, m.chCurrLookup.updateFrom i vs = some a ∧ m' = { m with chCurrLookup := a } :=
  runWrites_array (·.chCurrLookup) (fun m a => { m with chCurrLookup := a })
    (fun _ _ _ => rfl) (fun _ _ => rfl) (fun _ _ _ => rfl) (fun _ => rfl) h

theorem runWrites_chPrevLookup {i : ℕ} {vs : List ℤ}
    (h : runWrites m (writesFrom .chPrevLookup i vs) = (m', true)) :
    ∃ a, m.chPrevLookup.updateFrom i vs = some a ∧ m' = { m with chPrevLookup := a } :=
  runWrites_array (·.chPrevLookup) (fun m a => { m with chPrevLookup := a })
    (fun _ _ _ => rfl) (fun _ _ => rfl) (fun _ _ _ => rfl) (fun _ => rfl) h

theorem runWrites_chConfig {v v' : UInt32}
    (h : runWrites m [.chConfig 0 v, .chConfig 1 v'] = (m', true)) :
    ∃ a, a.lookup 0 = some v ∧ m' = { m with chConfig := a } := by
  obtain ⟨m₁, h₁, h⟩ := runWrites_cons.1 h
  obtain ⟨m₂, h₂, h⟩ := runWrites_cons.1 h
  obtain ⟨rfl, -⟩ := Prod.mk.inj h
  rw [Write.run] at h₁ h₂
  obtain ⟨a₁, ha₁, rfl⟩ := Option.map_eq_some_iff.1 h₁
  obtain ⟨a₂, ha₂, rfl⟩ := Option.map_eq_some_iff.1 h₂
  refine ⟨a₂, ?_, rfl⟩
  rw [ArrayMap.lookup_of_update ha₂, if_neg Nat.zero_ne_one, ArrayMap.lookup_of_update ha₁,
    if_pos rfl]

/-- The entries after a batch from the beginning. -/
theorem lookup_of_batch {α : Type*} {n : ℕ} {a a' : ArrayMap α n} {vs : List α}
    (h : a.updateFrom 0 vs = some a') {i : ℕ} {v : α} (hv : vs[i]? = some v) :
    a'.lookup i = some v := by
  have hlt := (List.getElem?_eq_some_iff.1 hv).1
  rw [ArrayMap.lookup_updateFrom h, if_pos ⟨Nat.zero_le i, by omega⟩, Nat.sub_zero, hv]

/-- A publication that succeeds. -/
theorem ChWritten.of_updateChBpfMaps (h : updateChBpfMaps m p.writes = (m', true)) :
    ChWritten p m' := by
  rw [updateChBpfMaps_eq, ChPublication.writes] at h
  obtain ⟨m₃, h, hprev⟩ := runWrites_append.1 h
  obtain ⟨m₂, h, hcurr⟩ := runWrites_append.1 h
  obtain ⟨m₁, hconfig, hbackends⟩ := runWrites_append.1 h
  obtain ⟨a₁, hsize, rfl⟩ := runWrites_chConfig hconfig
  obtain ⟨a₂, ha₂, rfl⟩ := runWrites_chBackend hbackends
  obtain ⟨a₃, ha₃, rfl⟩ := runWrites_chCurrLookup hcurr
  obtain ⟨a₄, ha₄, rfl⟩ := runWrites_chPrevLookup hprev
  refine ⟨hsize, fun i b hb => lookup_of_batch ha₂ hb, fun s v hs hv => lookup_of_batch ha₃ ?_,
    fun s v hs hv => lookup_of_batch ha₄ ?_⟩
  · rwa [List.getElem?_take, if_pos hs]
  · rwa [List.getElem?_take, if_pos hs]

/-- A publication that fits the maps succeeds. -/
theorem ChPublication.writes_succeed (hbackends : p.backends.length ≤ 257)
    (hsize : p.hashringSize.toNat ≤ 65537) (m : Maps cpus) :
    (updateChBpfMaps m p.writes).2 = true := by
  have htake : ∀ vs : List ℤ, 0 + (vs.take p.hashringSize.toNat).length ≤ 65537 := fun vs => by
    rw [Nat.zero_add]
    exact (List.length_take_le _ vs).trans hsize
  rw [updateChBpfMaps_eq, writes]
  obtain ⟨m₁, h₁⟩ : ∃ m₁, runWrites m
      [.chConfig 0 p.hashringSize, .chConfig 1 (.ofNat p.backends.length)] = (m₁, true) := ⟨_, rfl⟩
  obtain ⟨m₂, h₂⟩ := runWrites_of_le .chBackend (·.chBackends)
    (fun m a => { m with chBackends := a }) (fun _ _ _ => rfl)
    (by rwa [Nat.zero_add]) m₁
  obtain ⟨m₃, h₃⟩ := runWrites_of_le .chCurrLookup (·.chCurrLookup)
    (fun m a => { m with chCurrLookup := a }) (fun _ _ _ => rfl) (htake p.currLookup) m₂
  obtain ⟨m₄, h₄⟩ := runWrites_of_le .chPrevLookup (·.chPrevLookup)
    (fun m a => { m with chPrevLookup := a }) (fun _ _ _ => rfl) (htake p.prevLookup) m₃
  have h : runWrites m _ = (m₄, true) := runWrites_append.2 ⟨m₃, runWrites_append.2
    ⟨m₂, runWrites_append.2 ⟨m₁, h₁, h₂⟩, h₃⟩, h₄⟩
  rw [h]

/-! ## Reading -/

/-- The kernel finds an entry of the current table. -/
theorem ChWritten.consistentHashLookup (h : ChWritten p m) (hsize : p.hashringSize ≠ 0)
    (keyHash : UInt32) (usePrev : Bool) {v : ℤ}
    (hv : (if usePrev then p.prevLookup else p.currLookup)[(keyHash % p.hashringSize).toNat]? =
      some v) : (L4Balancer.consistentHashLookup keyHash usePrev m).1 = if v < 0 then -1 else v := by
  have hpos : 0 < p.hashringSize.toNat :=
    UInt32.lt_iff_toNat_lt.1 (UInt32.pos_iff_ne_zero.2 hsize)
  have hlt : (keyHash % p.hashringSize).toNat < p.hashringSize.toNat := by
    rw [UInt32.toNat_mod]
    exact Nat.mod_lt _ hpos
  have hlookup : (m.chLookup usePrev).lookup (keyHash % p.hashringSize).toNat = some v := by
    rw [Maps.chLookup]
    split_ifs at hv ⊢
    · exact h.prev _ v hlt hv
    · exact h.curr _ v hlt hv
  rw [L4Balancer.consistentHashLookup, h.size]
  dsimp only
  rw [if_neg hsize, hlookup]
  dsimp only
  split_ifs <;> rfl

end L4Balancer
