import L4Balancer.Control.Invisible

/-!
# Publishing the tables of consistent hash

What packets see of the tables while `updateChBpfMaps` writes them. A slot of
`ch_curr_lookup` names an entry of `ch_backends`; `ChServes L` says that all the
entries that are named satisfy `L`. The backends are written before the slots, so
that a publication of backends with `L` keeps this at every moment (`SafeWrites.run`),
though for a while the slots are those of an older publication.
-/

namespace L4Balancer

open Bpf

variable {cpus : ℕ} {env : Env} {L : Backend → Prop} {D : Set ℕ} {m m' : Maps cpus} {w : Write}
  {ws : List Write}

/-! ## Addresses -/

/-- The backend has the address of the real, as the control plane compares addresses. -/
def BalancerReal.HasAddress (env : Env) (real : BalancerReal) (b : Backend) : Prop :=
  ∃ addr ∈ env.address real.ipVersion real.ip,
    if real.ipVersion = 4 then b.ip.ipv4 = addr.ipv4 ∧ b.ipVersion = 4
    else b.ip = addr ∧ b.ipVersion = 6

instance (real : BalancerReal) (b : Backend) : Decidable (real.HasAddress env b) :=
  Option.decidableExistsMem (env.address real.ipVersion real.ip)

theorem Translation.hasAddress {service : BalancerService} {real : BalancerReal} {b : Backend}
    (h : Translation env service real b) : real.HasAddress env b := by
  obtain ⟨⟨addr, haddr, hip⟩, -, -, -, -, hversion⟩ := h
  refine ⟨addr, haddr, ?_⟩
  rw [hversion, storedVersion]
  split_ifs at hip ⊢ <;> exact ⟨hip, rfl⟩

/-- The backends that consistent hash gets have the addresses of the enabled reals. -/
theorem BalancerService.mem_chBackends {service : BalancerService} {backends : List Backend}
    {b : Backend} (h : b ∈ service.chBackends env backends) :
    ∃ real ∈ service.reals, real.enabled ∧ real.HasAddress env b := by
  obtain ⟨real, hreal, h⟩ := List.mem_filterMap.1 h
  obtain ⟨hmem, henabled⟩ := List.mem_filter.1 hreal
  obtain ⟨addr, haddr, h⟩ := Option.bind_eq_some_iff.1 h
  refine ⟨real, hmem, henabled, addr, haddr, ?_⟩
  have hb := List.find?_some h
  split_ifs at hb ⊢ <;> simpa using hb

/-- Every backend that a slot of the current table names satisfies `L`. -/
def ChServes (L : Backend → Prop) (m : Maps cpus) : Prop :=
  ∀ slot v b, m.chCurrLookup.lookup slot = some v → 0 ≤ v →
    m.chBackends.lookup (UInt32.ofNat v.toNat).toNat = some b → L b

theorem ChServes.pick (h : ChServes L m) {keyHash idx : UInt32} {b : Backend}
    (hp : m.chPick keyHash = some (b, idx)) : L b := by
  obtain ⟨size, -, hp⟩ := Option.bind_eq_some_iff.1 hp
  split_ifs at hp
  obtain ⟨v, hv, hp⟩ := Option.bind_eq_some_iff.1 hp
  split_ifs at hp with hneg
  obtain ⟨b', hb', hp⟩ := Option.bind_eq_some_iff.1 hp
  split_ifs at hp
  obtain ⟨rfl, -⟩ := Prod.mk.inj (Option.some.inj hp)
  exact h _ v b' hv (not_lt.1 hneg) hb'

theorem ChServes.congr (h : ChServes L m) (hlookup : m'.chCurrLookup = m.chCurrLookup)
    (hbackends : m'.chBackends = m.chBackends) : ChServes L m' := by
  rwa [ChServes, hlookup, hbackends]

/-- The entries of `ch_backends` at the indices `D` satisfy `L`. -/
def ChGood (L : Backend → Prop) (D : Set ℕ) (m : Maps cpus) : Prop :=
  ∀ i ∈ D, ∃ b, m.chBackends.lookup i = some b ∧ L b

/-! ## Safe writes -/

/-- The write is safe when the entries at `D` satisfy `L`. -/
def Write.SafeIn (L : Backend → Prop) (D : Set ℕ) : Write → Prop
  | chConfig .. | chPrevLookup .. => True
  | chBackend _ b => L b
  | chCurrLookup _ v => v < 0 ∨ v.toNat ∈ D
  | _ => False

/-- The entries that satisfy `L` after the write. -/
def Write.adds (D : Set ℕ) : Write → Set ℕ
  | chBackend i _ => insert i D
  | _ => D

/-- The writes are safe one after the other. -/
def SafeWrites (L : Backend → Prop) : Set ℕ → List Write → Prop
  | _, [] => True
  | D, w :: ws => w.SafeIn L D ∧ SafeWrites L (w.adds D) ws

theorem Write.SafeIn.run (hw : w.SafeIn L D) (hgood : ChGood L D m) (hs : ChServes L m)
    (h : w.run m = some m') : ChGood L (w.adds D) m' ∧ ChServes L m' := by
  cases w with
  | chConfig | chPrevLookup =>
    obtain ⟨a, -, rfl⟩ := Option.map_eq_some_iff.1 h
    exact ⟨hgood, hs⟩
  | chBackend i b =>
    obtain ⟨a, ha, rfl⟩ := Option.map_eq_some_iff.1 h
    have hlookup := ArrayMap.lookup_of_update ha
    refine ⟨fun j hj => ?_, fun slot v b' hv h0 hb' => ?_⟩
    · dsimp only
      rw [hlookup]
      split_ifs with hji
      · exact ⟨b, rfl, hw⟩
      · exact hgood j ((Set.mem_insert_iff.1 hj).resolve_left hji)
    · dsimp only at hv hb'
      rw [hlookup] at hb'
      split_ifs at hb'
      · exact Option.some.inj hb' ▸ hw
      · exact hs slot v b' hv h0 hb'
  | chCurrLookup s v =>
    obtain ⟨a, ha, rfl⟩ := Option.map_eq_some_iff.1 h
    refine ⟨hgood, fun slot v' b hv' h0 hb => ?_⟩
    dsimp only at hv' hb
    rw [ArrayMap.lookup_of_update ha] at hv'
    split_ifs at hv'
    · obtain rfl := Option.some.inj hv'
      obtain ⟨b', hb', hL⟩ := hgood _ (hw.resolve_left (not_lt.2 h0))
      have hlt := ArrayMap.lt_of_lookup hb'
      rw [UInt32.toNat_ofNat_of_lt' (hlt.trans (by decide)), hb'] at hb
      exact Option.some.inj hb ▸ hL
    · exact hs slot v' b hv' h0 hb
  | _ => cases hw

/-- The other writes leave the tables alone. -/
theorem Write.tables_of_run (hw : w.isCh = false) (h : w.run m = some m') :
    m'.chCurrLookup = m.chCurrLookup ∧ m'.chBackends = m.chBackends := by
  cases w with
  | chConfig | chBackend | chCurrLookup | chPrevLookup => cases hw
  | deleteWrrState | deleteSession =>
    obtain rfl := Option.some.inj h
    exact ⟨rfl, rfl⟩
  | backend b i back =>
    have hf : (Write.backend b i back).Fills b := rfl
    obtain ⟨t, rfl⟩ := hf.withSets h
    exact ⟨rfl, rfl⟩
  | service b key info =>
    have hf : (Write.service b key info).Fills b := rfl
    obtain ⟨t, rfl⟩ := hf.withSets h
    exact ⟨rfl, rfl⟩
  | atomicIndex b =>
    rw [Write.run] at h
    obtain ⟨a, -, rfl⟩ := Option.map_eq_some_iff.1 h
    exact ⟨rfl, rfl⟩
  | rrIndex | backendStats | serviceStats =>
    obtain ⟨a, -, rfl⟩ := Option.map_eq_some_iff.1 h
    exact ⟨rfl, rfl⟩

/-! ## The writes of a publication -/

theorem SafeWrites.backends {i : ℕ} {bs : List Backend} (hbs : ∀ b ∈ bs, L b)
    (h : SafeWrites L (D ∪ Set.Ico i (i + bs.length)) ws) :
    SafeWrites L D (writesFrom .chBackend i bs ++ ws) := by
  induction bs generalizing i D with
  | nil => simpa [writesFrom] using h
  | cons b bs ih =>
    refine ⟨hbs b List.mem_cons_self, ih (fun b hb => hbs b (List.mem_cons_of_mem _ hb)) ?_⟩
    have hD : insert i D ∪ Set.Ico (i + 1) (i + 1 + bs.length) =
        D ∪ Set.Ico i (i + (b :: bs).length) := by
      ext j
      rw [Set.mem_union, Set.mem_insert_iff, Set.mem_union, Set.mem_Ico, Set.mem_Ico,
        List.length_cons, or_comm (a := j = i), or_assoc]
      exact or_congr_right (by omega)
    exact hD ▸ h

theorem SafeWrites.slots {i : ℕ} {vs : List ℤ} (hvs : ∀ v ∈ vs, v < 0 ∨ v.toNat ∈ D)
    (h : SafeWrites L D ws) : SafeWrites L D (writesFrom .chCurrLookup i vs ++ ws) := by
  induction vs generalizing i with
  | nil => exact h
  | cons v vs ih =>
    exact ⟨hvs v List.mem_cons_self, ih fun v hv => hvs v (List.mem_cons_of_mem _ hv)⟩

theorem SafeWrites.prevSlots (L : Backend → Prop) (D : Set ℕ) (i : ℕ) (vs : List ℤ) :
    SafeWrites L D (writesFrom .chPrevLookup i vs) := by
  induction vs generalizing i with
  | nil => trivial
  | cons v vs ih => exact ⟨trivial, ih _⟩

/-- A publication of backends that satisfy `L`, whose slots name them. -/
theorem ChPublication.safeWrites {p : ChPublication} (hb : ∀ b ∈ p.backends, L b)
    (hslots : ∀ v ∈ p.currLookup, v < 0 ∨ v.toNat < p.backends.length) :
    SafeWrites L ∅ p.writes := by
  rw [writes, List.append_assoc, List.append_assoc]
  refine ⟨trivial, trivial, .backends hb (.slots (fun v hv => ?_) (.prevSlots L _ 0 _))⟩
  refine (hslots v (List.mem_of_mem_take hv)).imp_right fun hlt => .inr ?_
  rw [Set.mem_Ico]
  omega

/-- What the manager hands on. -/
theorem ConsistentHashManager.publication_spec {xxh3 : Xxh3} {mgr mgr' : ConsistentHashManager}
    {key : ServiceKey} {backends : List Backend} {config : InstanceConfig} {p : ChPublication}
    (hne : backends ≠ [])
    (h : mgr.updateServiceBackends xxh3 key backends config = some (mgr', p)) :
    p.backends = backends ∧ ∃ inst : ConsistentHashInstance,
      inst = (mgr.services.lookup key).getD (.new config) ∧
      p.hashringSize = inst.config.hashringSize ∧
      Maglev.populate inst.slots (generatePermutations xxh3 inst.slots backends) =
        some p.currLookup := by
  obtain ⟨inst', hinst', he⟩ := Option.map_eq_some_iff.1 h
  rw [ConsistentHashInstance.updateBackends, if_neg hne] at hinst'
  obtain ⟨table, htable, rfl⟩ := Option.map_eq_some_iff.1 hinst'
  obtain ⟨-, rfl⟩ := Prod.mk.inj he
  exact ⟨rfl, _, rfl, rfl, htable⟩

theorem ConsistentHashManager.safeWrites {xxh3 : Xxh3} {mgr mgr' : ConsistentHashManager}
    {key : ServiceKey} {backends : List Backend} {config : InstanceConfig} {p : ChPublication}
    (hne : backends ≠ []) (hL : ∀ b ∈ backends, L b)
    (h : mgr.updateServiceBackends xxh3 key backends config = some (mgr', p)) :
    SafeWrites L ∅ p.writes := by
  obtain ⟨rfl, inst, -, -, htable⟩ := publication_spec hne h
  refine p.safeWrites hL fun v hv => ?_
  have := (Maglev.populate_full htable).2 v hv
  rw [generatePermutations, List.length_map] at this
  omega

end L4Balancer
