import Mathlib.Data.List.Find
import L4Balancer.Control.Kernel
import L4Balancer.Control.Reals

/-!
# The balancer in operation

The machine of the calls of the control plane, `ReloadConfig` and `ChPeriodicMaintenance`,
and of packets between them (`operation`). It keeps a record of what was loaded and
published: the last configuration that a reload has got into the maps of consistent hash,
whether a write of the last reload has failed, and the last publication.

A reload publishes the services of consistent hash that have an enabled real, in their
order: the last one of them stays (`getLast?_chPublications`). A maintenance publishes the
instances whose merge is due, in the order of their keys (`periodicMaintenance_snd`).
-/

namespace L4Balancer

open Bpf

variable {cpus : ℕ} {env : Env} {config : BaseConfig} {m m' m₁ m₂ : Maps cpus}
  {d d' d₁ d₂ : Dataplane cpus} {xxh3 : Xxh3} {key : ServiceKey} {p : ChPublication}
  {ps ps' : List (ServiceKey × ChPublication)}

/-! ## Publications -/

theorem publishAll_append (m : Maps cpus) :
    publishAll m (ps ++ ps') =
      ((publishAll (publishAll m ps).1 ps').1,
        (publishAll m ps).2 && (publishAll (publishAll m ps).1 ps').2) := by
  induction ps generalizing m with
  | nil => simp [publishAll]
  | cons e ps ih =>
    obtain ⟨key, p⟩ := e
    simp only [List.cons_append, publishAll, ih, Bool.and_assoc]

/-- The last publication stays. -/
theorem ChWritten.of_publishAll (h : (publishAll m ps).2 = true)
    (hlast : ps.getLast? = some (key, p)) : ChWritten p (publishAll m ps).1 := by
  obtain ⟨ps, rfl⟩ := List.getLast?_eq_some_iff.1 hlast
  rw [publishAll_append] at h ⊢
  simp only [publishAll, Bool.and_eq_true, Bool.and_true] at h ⊢
  exact .of_updateChBpfMaps (Prod.ext rfl h.2)

theorem ChFrame.of_publishAll (m : Maps cpus) (ps : List (ServiceKey × ChPublication)) :
    ChFrame m (publishAll m ps).1 := by
  induction ps generalizing m with
  | nil => exact .refl m
  | cons e ps ih =>
    obtain ⟨key, p⟩ := e
    exact (ChFrame.of_updateChBpfMaps p.isCh_of_mem).trans (ih _)

/-- A publication has the Maglev table of its backends. -/
structure ChPublication.IsTable (xxh3 : Xxh3) (p : ChPublication) : Prop where
  nonempty : p.backends ≠ []
  size : p.hashringSize = HASHRING_SMALL
  table : maglevTable xxh3 HASHRING_SMALL.toNat p.backends = some p.currLookup

/-- Publications that fit the maps succeed. -/
theorem publishAll_succeeds (h : ∀ e ∈ ps, e.2.IsTable xxh3 ∧ e.2.backends.length ≤ 257)
    (m : Maps cpus) : (publishAll m ps).2 = true := by
  induction ps generalizing m with
  | nil => rfl
  | cons e ps ih =>
    obtain ⟨key, p⟩ := e
    obtain ⟨⟨ht, hlen⟩, hps⟩ := List.forall_mem_cons.1 h
    simp only [publishAll, Bool.and_eq_true]
    refine ⟨p.writes_succeed hlen ?_ m, ih hps _⟩
    rw [ht.size, toNat_hashringSmall]

/-- The backends of a publication fit the map. -/
theorem ChWritten.length_le (h : ChWritten p m) : p.backends.length ≤ 257 := by
  by_contra hgt
  rw [not_le] at hgt
  have hb := h.backends 257 _ (List.getElem?_eq_getElem hgt)
  exact absurd (ArrayMap.lt_of_lookup hb) (lt_irrefl 257)

/-- What packets get after a publication: the backend that the table has for the hash, if it is
    active. -/
theorem ChWritten.chPick (h : ChWritten p m) (ht : p.IsTable xxh3) (keyHash : UInt32) :
    ∃ (i : ℕ) (b : Backend), p.currLookup[(keyHash % HASHRING_SMALL).toNat]? = some (i : ℤ) ∧
      p.backends[i]? = some b ∧
      m.chPick keyHash = if b.active = 0 then none else some (b, .ofNat i) := by
  obtain ⟨hlen, hentries⟩ := maglevTable_full ht.table
  have hlt : (keyHash % HASHRING_SMALL).toNat < p.currLookup.length := by
    rw [hlen, UInt32.toNat_mod]
    exact Nat.mod_lt _ (by decide)
  have hv := List.getElem?_eq_getElem hlt
  obtain ⟨h0, hvlt⟩ := hentries _ (List.getElem_mem hlt)
  generalize p.currLookup[(keyHash % HASHRING_SMALL).toNat] = v at hv h0 hvlt
  obtain ⟨i, rfl⟩ := Int.eq_ofNat_of_zero_le h0
  have hi : i < p.backends.length := by omega
  have hb := List.getElem?_eq_getElem hi
  have hlookup := h.backends i _ hb
  have hnat : (UInt32.ofNat i).toNat = i :=
    UInt32.toNat_ofNat_of_lt' ((ArrayMap.lt_of_lookup hlookup).trans (by decide))
  refine ⟨i, _, hv, hb, ?_⟩
  have hcurr := h.curr _ _ (by rw [ht.size, ← hlen]; exact hlt) hv
  rw [Maps.chPick, h.size, ht.size, Option.bind_some, if_neg (by decide), hcurr, Option.bind_some,
    if_neg (by omega), Int.toNat_natCast, hnat, hlookup, Option.bind_some]

/-- What packets get is a backend of the publication, with its index. -/
theorem ChWritten.getElem?_of_chPick (h : ChWritten p m) (ht : p.IsTable xxh3)
    {keyHash idx : UInt32} {b : Backend} (hpick : m.chPick keyHash = some (b, idx)) :
    p.backends[idx.toNat]? = some b := by
  obtain ⟨i, b', -, hb, he⟩ := h.chPick ht keyHash
  have hlt : i < 257 := ArrayMap.lt_of_lookup (h.backends i b' hb)
  rw [he] at hpick
  split_ifs at hpick
  obtain ⟨rfl, rfl⟩ := Prod.mk.inj (Option.some.inj hpick)
  rwa [UInt32.toNat_ofNat_of_lt' (hlt.trans (by decide))]

/-- The slot itself is a hash that leads to it. -/
theorem toNat_ofNat_mod_hashringSmall {slot : ℕ} (h : slot < 65537) :
    (UInt32.ofNat slot % HASHRING_SMALL).toNat = slot := by
  rw [UInt32.toNat_mod, UInt32.toNat_ofNat_of_lt' (h.trans (by decide)), toNat_hashringSmall,
    Nat.mod_eq_of_lt h]

/-- The table names the backends. -/
theorem ChPublication.IsTable.mem_currLookup_iff (ht : p.IsTable xxh3)
    (hlen : p.backends.length ≤ 257) {i : ℕ} : (i : ℤ) ∈ p.currLookup ↔ i < p.backends.length := by
  refine ⟨fun hmem => ?_, fun hi => ?_⟩
  · have := (maglevTable_full ht.table).2 _ hmem
    omega
  · have hle : (generatePermutations xxh3 HASHRING_SMALL.toNat p.backends).length ≤
        HASHRING_SMALL.toNat := by
      rw [length_generatePermutations, toNat_hashringSmall]
      exact hlen.trans (by decide)
    exact Maglev.mem_populate (generatePermutations_full prime_hashringSmall xxh3 p.backends)
      ht.table hle (by rwa [length_generatePermutations])

/-- Every backend of the publication has a hash. -/
theorem ChWritten.exists_hash (h : ChWritten p m) (ht : p.IsTable xxh3) {i : ℕ} {b : Backend}
    (hb : p.backends[i]? = some b) :
    ∃ keyHash, m.chPick keyHash = if b.active = 0 then none else some (b, .ofNat i) := by
  have hmem := (ht.mem_currLookup_iff h.length_le).2 (List.getElem?_eq_some_iff.1 hb).1
  obtain ⟨slot, hslot⟩ := List.mem_iff_getElem?.1 hmem
  have hlt : slot < 65537 := by
    rw [← toNat_hashringSmall, ← (maglevTable_full ht.table).1]
    exact (List.getElem?_eq_some_iff.1 hslot).1
  obtain ⟨i', b', hcurr, hb', he⟩ := h.chPick ht (.ofNat slot)
  rw [toNat_ofNat_mod_hashringSmall hlt] at hcurr
  obtain rfl : i = i' := by simpa using hslot.symm.trans hcurr
  obtain rfl := Option.some.inj (hb.symm.trans hb')
  exact ⟨_, he⟩

/-- They get every active one, for some hash. -/
theorem ChWritten.exists_chPick (h : ChWritten p m) (ht : p.IsTable xxh3) {i : ℕ} {b : Backend}
    (hb : p.backends[i]? = some b) (hactive : b.active ≠ 0) :
    ∃ keyHash, m.chPick keyHash = some (b, .ofNat i) := by
  obtain ⟨keyHash, he⟩ := h.exists_hash ht hb
  exact ⟨keyHash, he.trans (if_neg hactive)⟩

/-- They get a backend for every hash exactly if all of them are active. -/
theorem ChWritten.forall_isSome_iff (h : ChWritten p m) (ht : p.IsTable xxh3) :
    (∀ keyHash, (m.chPick keyHash).isSome) ↔ ∀ b ∈ p.backends, b.active ≠ 0 := by
  constructor
  · intro hpicks b hmem hactive
    obtain ⟨i, hb⟩ := List.mem_iff_getElem?.1 hmem
    obtain ⟨keyHash, he⟩ := h.exists_hash ht hb
    have hsome := hpicks keyHash
    rw [he, if_pos hactive] at hsome
    cases hsome
  · intro hactive keyHash
    obtain ⟨i, b, -, hb, he⟩ := h.chPick ht keyHash
    rw [he, if_neg (hactive b (List.mem_of_getElem? hb))]
    rfl

/-- What packets get are the active backends of the publication, with their indices. -/
theorem ChWritten.forall_chPick_iff (h : ChWritten p m) (ht : p.IsTable xxh3)
    {P : Backend → UInt32 → Prop} :
    (∀ keyHash b idx, m.chPick keyHash = some (b, idx) → P b idx) ↔
      ∀ (k : ℕ) (b : Backend), p.backends[k]? = some b → b.active ≠ 0 → P b (.ofNat k) := by
  constructor
  · intro hpicks k b hb hactive
    obtain ⟨keyHash, hpick⟩ := h.exists_chPick ht hb hactive
    exact hpicks keyHash b _ hpick
  · intro hbackends keyHash b idx hpick
    rw [← UInt32.ofNat_toNat (x := idx)]
    exact hbackends _ b (h.getElem?_of_chPick ht hpick) (Maps.chPick_spec hpick).2

/-! ## The manager -/

/-- The instances of the manager have backends, and their tables. -/
def ConsistentHashManager.Sound (xxh3 : Xxh3) (mgr : ConsistentHashManager) : Prop :=
  ∀ e ∈ mgr.services.entries, DualTables xxh3 {} e.2 ∧ e.2.backends ≠ []

namespace ConsistentHashManager.Sound

variable {mgr : ConsistentHashManager} {inst : ConsistentHashInstance} {backends : List Backend}

theorem empty (xxh3 : Xxh3) : (⟨∅⟩ : ConsistentHashManager).Sound xxh3 := fun _ he => by cases he

theorem insert (h : mgr.Sound xxh3) (ht : DualTables xxh3 {} inst) (hne : inst.backends ≠ [])
    (key : ServiceKey) : (⟨mgr.services.insert key inst⟩ : ConsistentHashManager).Sound xxh3 := by
  intro e he
  rw [AList.entries_insert, List.mem_cons] at he
  rcases he with rfl | he
  · exact ⟨ht, hne⟩
  · exact h e ((List.kerase_sublist _ _).subset he)

theorem removeService (h : mgr.Sound xxh3) (key : ServiceKey) :
    (mgr.removeService key).Sound xxh3 :=
  fun e he => h e ((List.kerase_sublist _ _).subset he)

theorem lookup (h : mgr.Sound xxh3) (hinst : mgr.services.lookup key = some inst) :
    DualTables xxh3 {} inst ∧ inst.backends ≠ [] :=
  h _ (AList.mem_lookup_iff.1 hinst)

/-- An update with a backend does what it should. -/
theorem updateServiceBackends (h : mgr.Sound xxh3) (key : ServiceKey) (hne : backends ≠ []) :
    ∃ inst, mgr.updateServiceBackends xxh3 key backends =
        some (⟨mgr.services.insert key inst⟩, inst.publication) ∧
      DualTables xxh3 {} inst ∧ inst.backends = backends ∧ inst.publication.IsTable xxh3 ∧
      inst.needsMerge = true ∧ inst.mergeTimer = 0 := by
  obtain ⟨old, hold, htables⟩ : ∃ old, (mgr.services.lookup key).getD (.new {}) = old ∧
      DualTables xxh3 {} old := by
    refine ⟨_, rfl, ?_⟩
    cases hl : mgr.services.lookup key with
    | none => exact .new xxh3 {}
    | some inst => exact (h.lookup hl).1
  obtain ⟨inst, hu⟩ := htables.updateBackends_isSome prime_hashringSmall backends
  obtain ⟨hconfig, hbackends, htable, -, hmerge, htimer⟩ := htables.updateBackends_eq hne hu
  refine ⟨inst, ?_, htables.updateBackends hu, hbackends, ⟨?_, ?_, ?_⟩, hmerge, htimer⟩
  · rw [ConsistentHashManager.updateServiceBackends, hold, hu]
    rfl
  · rwa [ConsistentHashInstance.publication, hbackends]
  · rw [ConsistentHashInstance.publication, hconfig]
  · rw [ConsistentHashInstance.publication, hbackends]
    exact htable

end ConsistentHashManager.Sound

/-! ## What a reload publishes -/

namespace Dataplane

variable (d : Dataplane cpus) {service : BalancerService} {services : List BalancerService}

/-- Consistent hash gets backends for the service. -/
def HasCh (env : Env) (service : BalancerService) : Prop :=
  service.type = .ch ∧ service.chBackends env d.xdp.backends ≠ []

instance : Decidable (d.HasCh env service) := inferInstanceAs (Decidable (_ ∧ _))

/-- What `updateCh` publishes for a service. -/
def chPublished (env : Env) (service : BalancerService) : List (ServiceKey × ChPublication) :=
  if d.HasCh env service then
    ((d.chPublication env service).map fun r => (service.chKey env, r.2)).toList
  else []

/-- What `updateCh` publishes for the services, one after the other. -/
def chPublications (env : Env) : Dataplane cpus → List BalancerService →
    List (ServiceKey × ChPublication)
  | _, [] => []
  | d, service :: services =>
    d.chPublished env service ++ chPublications env (d.updateCh env service) services

theorem updateCh_maps (env : Env) (service : BalancerService) :
    (d.updateCh env service).maps = (publishAll d.maps (d.chPublished env service)).1 := by
  rw [updateCh, chPublished]
  split_ifs with hch hnil hhas hhas hhas
  · exact absurd hnil hhas.2
  · rfl
  · cases d.chPublication env service <;> rfl
  · exact absurd ⟨hch, hnil⟩ hhas
  · exact absurd hhas.1 hch
  · rfl

theorem foldl_updateCh_maps (env : Env) (services : List BalancerService) (d : Dataplane cpus) :
    (services.foldl (·.updateCh env ·) d).maps =
      (publishAll d.maps (chPublications env d services)).1 := by
  induction services generalizing d with
  | nil => rfl
  | cons service services ih =>
    rw [List.foldl_cons, ih, chPublications, publishAll_append, updateCh_maps]

theorem updateCh_sound (h : d.chManager.Sound env.xxh3) (service : BalancerService) :
    (d.updateCh env service).chManager.Sound env.xxh3 := by
  rw [updateCh]
  split_ifs with hch hnil
  · exact h.removeService _
  · obtain ⟨inst, hu, ht, hb, -⟩ := h.updateServiceBackends (service.chKey env) hnil
    rw [chPublication, hu]
    exact h.insert ht (hb ▸ hnil) _
  · exact h

theorem foldl_updateCh_sound (services : List BalancerService) (d : Dataplane cpus)
    (h : d.chManager.Sound env.xxh3) :
    (services.foldl (·.updateCh env ·) d).chManager.Sound env.xxh3 := by
  induction services generalizing d with
  | nil => exact h
  | cons service services ih => exact ih _ (d.updateCh_sound h service)

theorem chPublished_eq (h : d.chManager.Sound env.xxh3) (hs : d.HasCh env service) :
    ∃ p, d.chPublished env service = [(service.chKey env, p)] ∧ p.IsTable env.xxh3 ∧
      p.backends = service.chBackends env d.xdp.backends := by
  obtain ⟨inst, hu, -, hb, hp, -⟩ := h.updateServiceBackends (service.chKey env) hs.2
  refine ⟨inst.publication, ?_, hp, hb⟩
  rw [chPublished, if_pos hs, chPublication, hu]
  rfl

/-- What is published for some services. -/
theorem of_mem_chPublications (h : d.chManager.Sound env.xxh3) {services : List BalancerService}
    {e : ServiceKey × ChPublication} (he : e ∈ chPublications env d services) :
    ∃ service ∈ services, d.HasCh env service ∧ e.2.IsTable env.xxh3 ∧
      e.2.backends = service.chBackends env d.xdp.backends := by
  induction services generalizing d with
  | nil => cases he
  | cons service services ih =>
    rcases List.mem_append.1 he with he | he
    · by_cases hhas : d.HasCh env service
      · obtain ⟨p, hpub, ht, hp⟩ := d.chPublished_eq h hhas
        rw [hpub] at he
        obtain rfl := List.mem_singleton.1 he
        exact ⟨service, List.mem_cons_self, hhas, ht, hp⟩
      · rw [chPublished, if_neg hhas] at he
        cases he
    · obtain ⟨s, hs, hhas, ht, hp⟩ := ih _ (d.updateCh_sound h service) he
      rw [(d.updateCh_frame env service).2.1] at hp
      refine ⟨s, List.mem_cons_of_mem _ hs, ?_, ht, hp⟩
      rwa [HasCh, (d.updateCh_frame env service).2.1] at hhas

theorem HasCh.congr {d' : Dataplane cpus} (h : d'.xdp = d.xdp) (service : BalancerService) :
    d'.HasCh env service ↔ d.HasCh env service := by
  rw [HasCh, HasCh, h]

/-- The last publication is that of the last service with consistent hash that has backends. -/
theorem getLast?_chPublications (h : d.chManager.Sound env.xxh3)
    (services : List BalancerService) :
    (services.reverse.find? fun s => d.HasCh env s) = none ∧ chPublications env d services = [] ∨
    ∃ service p, (services.reverse.find? fun s => d.HasCh env s) = some service ∧
      (chPublications env d services).getLast? = some (service.chKey env, p) ∧
      p.IsTable env.xxh3 ∧ p.backends = service.chBackends env d.xdp.backends := by
  -- from the first service on: it is the last to publish if no later one publishes
  induction services generalizing d with
  | nil => exact .inl ⟨rfl, rfl⟩
  | cons service services ih =>
    obtain ⟨-, hxdp, -⟩ := d.updateCh_frame env service
    have hcongr : (fun s => decide ((d.updateCh env service).HasCh env s)) =
        fun s => decide (d.HasCh env s) :=
      funext fun s => decide_eq_decide.2 (HasCh.congr d hxdp s)
    have ih := ih (d.updateCh env service) (d.updateCh_sound h service)
    rw [hcongr, hxdp] at ih
    rw [List.reverse_cons, List.find?_append, chPublications]
    rcases ih with ⟨hnone, hnil⟩ | ⟨s, p, hs, hlast, ht, hp⟩
    · rw [hnone, hnil, Option.none_or, List.append_nil]
      by_cases hhas : d.HasCh env service
      · obtain ⟨p, hpub, ht, hp⟩ := d.chPublished_eq h hhas
        exact .inr ⟨service, p, by simp [hhas], by rw [hpub]; rfl, ht, hp⟩
      · exact .inl ⟨by simp [hhas], if_neg hhas⟩
    · refine .inr ⟨s, p, by rw [hs, Option.some_or], ?_, ht, hp⟩
      rw [List.getLast?_append, hlast, Option.some_or]

end Dataplane

/-! ## What a maintenance publishes -/

/-- The next tick merges the instance. -/
def ConsistentHashInstance.due (inst : ConsistentHashInstance) : Bool :=
  inst.needsMerge && inst.mergeTimer + 1 ≥ inst.config.mergeTimeoutTicks

theorem ConsistentHashInstance.tickMergeTimer_fst (inst : ConsistentHashInstance) :
    inst.tickMergeTimer.1 = inst.due := by
  rw [tickMergeTimer, due]
  cases inst.needsMerge with
  | false => rfl
  | true =>
    rw [if_pos rfl, Bool.true_and]
    dsimp only
    split_ifs with hticks
    · exact (decide_eq_true hticks).symm
    · exact (decide_eq_false hticks).symm

namespace ConsistentHashManager

variable {mgr : ConsistentHashManager}
  {es : List (Sigma fun _ : ServiceKey => ConsistentHashInstance)}

/-- The instances that the next maintenance merges, in the order of their keys. -/
def dueInstances (mgr : ConsistentHashManager) :
    List (Sigma fun _ : ServiceKey => ConsistentHashInstance) :=
  (mgr.services.entries.mergeSort fun e e' => (e.1.cmp e'.1).isLE).filter (·.2.due)

theorem maintain_snd (es : List (Sigma fun _ : ServiceKey => ConsistentHashInstance))
    (mgr : ConsistentHashManager) : (maintain es mgr).2 =
      (es.filter (·.2.due)).map fun e => (e.1, e.2.tickMergeTimer.2.publication) := by
  induction es generalizing mgr with
  | nil => rfl
  | cons e es ih =>
    obtain ⟨key, inst⟩ := e
    rw [maintain, List.filter_cons]
    dsimp only
    rw [← inst.tickMergeTimer_fst]
    by_cases hmerge : inst.needsMerge
    · rw [if_pos hmerge]
      dsimp only
      rw [ih]
      split_ifs <;> rfl
    · have hfst : inst.tickMergeTimer.1 = false := by
        rw [ConsistentHashInstance.tickMergeTimer, if_neg hmerge]
      rw [if_neg hmerge, hfst, if_neg Bool.false_ne_true, ih]

/-- A maintenance publishes the instances that are due. -/
theorem periodicMaintenance_snd (mgr : ConsistentHashManager) : mgr.periodicMaintenance.2 =
    mgr.dueInstances.map fun e => (e.1, e.2.tickMergeTimer.2.publication) :=
  maintain_snd _ mgr

/-- How long the publications are. -/
theorem map_length_periodicMaintenance (mgr : ConsistentHashManager) :
    mgr.periodicMaintenance.2.map (·.2.backends.length) =
      mgr.dueInstances.map (·.2.backends.length) := by
  rw [periodicMaintenance_snd, List.map_map]
  exact List.map_congr_left fun e _ => congrArg List.length (backends_tickMergeTimer e.2)

namespace Sound

theorem tick {e : Sigma fun _ : ServiceKey => ConsistentHashInstance}
    (h : DualTables xxh3 {} e.2 ∧ e.2.backends ≠ []) :
    DualTables xxh3 {} e.2.tickMergeTimer.2 ∧ e.2.tickMergeTimer.2.backends ≠ [] :=
  ⟨h.1.tickMergeTimer, by rw [backends_tickMergeTimer]; exact h.2⟩

theorem maintain (h : mgr.Sound xxh3)
    (hes : ∀ e ∈ es, DualTables xxh3 {} e.2 ∧ e.2.backends ≠ []) :
    (ConsistentHashManager.maintain es mgr).1.Sound xxh3 := by
  induction es generalizing mgr with
  | nil => exact h
  | cons e es ih =>
    obtain ⟨key, inst⟩ := e
    rw [List.forall_mem_cons] at hes
    rw [ConsistentHashManager.maintain]
    split_ifs
    · exact ih (h.insert (tick hes.1).1 (tick hes.1).2 key) hes.2
    · exact ih h hes.2

theorem periodicMaintenance (h : mgr.Sound xxh3) : mgr.periodicMaintenance.1.Sound xxh3 :=
  h.maintain fun e he => h e ((List.mergeSort_perm _ _).subset he)

/-- What a maintenance publishes. -/
theorem isTable_of_mem (h : mgr.Sound xxh3) : ∀ e ∈ mgr.periodicMaintenance.2, e.2.IsTable xxh3 := by
  intro e he
  rw [periodicMaintenance_snd] at he
  obtain ⟨⟨key, inst⟩, hdue, rfl⟩ := List.mem_map.1 he
  have hmem : ⟨key, inst⟩ ∈ mgr.services.entries :=
    (List.mergeSort_perm _ _).subset (List.mem_of_mem_filter hdue)
  obtain ⟨ht, hne⟩ := tick (h _ hmem)
  refine ⟨hne, ?_, ht.table hne⟩
  rw [ConsistentHashInstance.publication, ht.config_eq]

/-- What it publishes last. -/
theorem getLast?_periodicMaintenance (h : mgr.Sound xxh3) :
    mgr.dueInstances.getLast? = none ∧ mgr.periodicMaintenance.2 = [] ∨
    ∃ key inst p, mgr.dueInstances.getLast? = some ⟨key, inst⟩ ∧
      mgr.periodicMaintenance.2.getLast? = some (key, p) ∧ p.IsTable xxh3 ∧
      p.backends = inst.backends := by
  cases hlast : mgr.dueInstances.getLast? with
  | none =>
    rw [periodicMaintenance_snd]
    exact .inl ⟨rfl, by rw [List.getLast?_eq_none_iff.1 hlast, List.map_nil]⟩
  | some e =>
    obtain ⟨key, inst⟩ := e
    have hpub : mgr.periodicMaintenance.2.getLast? =
        some (key, inst.tickMergeTimer.2.publication) := by
      rw [periodicMaintenance_snd, List.getLast?_map, hlast, Option.map_some]
    exact .inr ⟨key, inst, _, rfl, hpub, h.isTable_of_mem _ (List.mem_of_getLast? hpub),
      backends_tickMergeTimer inst⟩

end Sound

end ConsistentHashManager

/-! ## The machine -/

/-- The dataplane, with a record of what was loaded and published. -/
structure Operation (cpus : ℕ) where
  dataplane : Dataplane cpus
  /-- The configuration of the last reload that got to the update of consistent hash. -/
  loaded : Option BaseConfig
  /-- No write of the last reload up to the statistics has failed. -/
  intact : Bool
  /-- The last publication, with the key of its service. -/
  published : Option (ServiceKey × ChPublication)

/-- The maps of the dataplane. -/
abbrev Operation.maps (s : Operation cpus) : Maps cpus := s.dataplane.maps

/-- Before the first reload. -/
def Operation.fresh (cpus : ℕ) : Operation cpus := ⟨.fresh cpus, none, false, none⟩

/-- A call of the control plane, or a packet. -/
inductive Action (cpus : ℕ)
  | reload (config : BaseConfig)
  | maintain
  | packet (c : Call cpus)

/-- A reload loads a configuration with at most one service of consistent hash. -/
def Action.OneCh : Action cpus → Prop
  | reload config => config.OneCh
  | _ => True

namespace Operation

variable (s : Operation cpus)

/-- `ReloadConfig`. -/
def reload (env : Env) (config : BaseConfig) : Bool × Operation cpus :=
  match s.dataplane.publish env config >>= Dataplane.resetCursors with
  | .error (_, d) => (true, { s with dataplane := d, intact := false })
  | .ok d =>
    let ps := d.chPublications env d.currConfig.services
    let ok := (publishAll d.maps ps).2
    (ok, ⟨(d.updateAllCh env).clearSessions.resetStats.dataplane, some config, ok,
      ps.getLast?.or s.published⟩)

/-- `ChPeriodicMaintenance`. -/
def maintain : Bool × Operation cpus :=
  let (manager, ps) := s.dataplane.chManager.periodicMaintenance
  let (m, ok) := publishAll s.maps ps
  (ok, ⟨{ s.dataplane with chManager := manager, maps := m }, s.loaded, s.intact,
    ps.getLast?.or s.published⟩)

end Operation

/-- The machine of the control plane and of packets; it answers whether all callbacks of the step
    have returned true. -/
def operation (cpus : ℕ) (env : Env) : Machine (Operation cpus) (Action cpus) Bool where
  step
    | .reload config => fun s => s.reload env config
    | .maintain => Operation.maintain
    | .packet c => fun s =>
      (true, { s with dataplane := { s.dataplane with maps := (finder cpus).next c s.maps } })

/-! ## Parts of a reload, successful or not -/

namespace Outcome

theorem dataplane_write (d : Dataplane cpus) (ws : List Write) (error : String → String) :
    (d.write ws error).dataplane = { d with maps := (runWrites d.maps ws).1 } := by
  rw [Dataplane.write]
  rcases runWrites d.maps ws with ⟨m, _ | _⟩ <;> rfl

/-- What every part keeps, a sequence of them keeps. -/
theorem dataplane_bind {R : Dataplane cpus → Dataplane cpus → Prop}
    (htrans : ∀ d d₁ d₂, R d d₁ → R d₁ d₂ → R d d₂) {x : Outcome cpus}
    {f : Dataplane cpus → Outcome cpus} (hx : R d x.dataplane) (hf : ∀ d, R d (f d).dataplane) :
    R d (dataplane (x >>= f)) := by
  cases x with
  | error e => exact hx
  | ok d₁ => exact htrans _ _ _ hx (hf d₁)

theorem dataplane_foldlM {α : Type} {R : Dataplane cpus → Dataplane cpus → Prop}
    (hrefl : ∀ d, R d d) (htrans : ∀ d d₁ d₂, R d d₁ → R d₁ d₂ → R d d₂)
    {f : Dataplane cpus → α → Outcome cpus} (hf : ∀ d a, R d (f d a).dataplane) (as : List α)
    (d : Dataplane cpus) : R d (dataplane (as.foldlM f d)) := by
  induction as generalizing d with
  | nil => exact hrefl d
  | cons a as ih =>
    rw [List.foldlM_cons]
    exact dataplane_bind htrans (hf d a) ih

/-- What the batches of publishing keep, from the dataplane with the settings on. -/
theorem dataplane_publish {R : Dataplane cpus → Dataplane cpus → Prop}
    (htrans : ∀ d d₁ d₂, R d d₁ → R d₁ d₂ → R d d₂)
    (hwrite : ∀ (d : Dataplane cpus) (ws : List Write) (error : String → String),
      (∀ w ∈ ws, w.publishes) → R d (d.write ws error).dataplane)
    {xdp : XdpConfig} (hload : config.load env = (xdp, none)) (d : Dataplane cpus) :
    R { Dataplane.updateDdosCfg { d with currConfig := config, xdp := xdp } config.ddosConf with
        isFirstRun := false } (d.publish env config).dataplane := by
  rw [Dataplane.publish, hload]
  dsimp only
  generalize Dataplane.updateDdosCfg { d with currConfig := config, xdp := xdp } config.ddosConf = d₀
  have hws : ∀ w ∈ xdp.publishWrites (1 - d₀.currentIndex), w.publishes :=
    fun w => XdpConfig.publishes_of_mem
  rw [XdpConfig.publishWrites, List.forall_mem_append, List.forall_mem_append] at hws
  refine dataplane_bind htrans (hwrite _ _ _ hws.1.1) fun d₁ => ?_
  exact dataplane_bind htrans (hwrite d₁ _ _ hws.1.2) fun d₂ => hwrite d₂ _ _ hws.2

end Outcome

/-- The maps of consistent hash are the same. -/
structure SameCh (m m' : Maps cpus) : Prop where
  config : m'.chConfig = m.chConfig
  backends : m'.chBackends = m.chBackends
  curr : m'.chCurrLookup = m.chCurrLookup
  prev : m'.chPrevLookup = m.chPrevLookup

namespace SameCh

theorem refl (m : Maps cpus) : SameCh m m := ⟨rfl, rfl, rfl, rfl⟩

theorem trans (h : SameCh m m₁) (h' : SameCh m₁ m₂) : SameCh m m₂ :=
  ⟨h'.config.trans h.config, h'.backends.trans h.backends, h'.curr.trans h.curr,
    h'.prev.trans h.prev⟩

theorem of_tables (h : m'.tables = m.tables) : SameCh m m' :=
  ⟨Maps.chConfig_congr h, Maps.chBackends_congr h, Maps.chCurrLookup_congr h, congrArg (·.7) h⟩

theorem of_run {w : Write} (h : w.run m = some m') (hw : w.isCh = false) : SameCh m m' := by
  cases w with
  | chConfig | chBackend | chCurrLookup | chPrevLookup => cases hw
  | backend buffer | service buffer =>
    obtain ⟨a, -, rfl⟩ := Option.map_eq_some_iff.1 h
    fin_cases buffer <;> exact ⟨rfl, rfl, rfl, rfl⟩
  | deleteWrrState | deleteSession =>
    obtain rfl := Option.some.inj h
    exact ⟨rfl, rfl, rfl, rfl⟩
  | atomicIndex | rrIndex | backendStats | serviceStats =>
    rw [Write.run] at h
    obtain ⟨a, -, rfl⟩ := Option.map_eq_some_iff.1 h
    exact ⟨rfl, rfl, rfl, rfl⟩

theorem of_runWrites {ws : List Write} (hws : ∀ w ∈ ws, w.isCh = false) (m : Maps cpus) :
    SameCh m (runWrites m ws).1 :=
  rel_runWrites refl (fun _ _ _ h h' => h.trans h') (fun w hw _ _ h => of_run h (hws w hw)) m

theorem chPick (h : SameCh m m') (keyHash : UInt32) : m'.chPick keyHash = m.chPick keyHash := by
  rw [Maps.chPick, h.config, h.curr, h.backends, Maps.chPick]

theorem written (h : SameCh m m') (hp : ChWritten p m) : ChWritten p m' := by
  refine ⟨?_, fun i b hb => ?_, fun s v hs hv => ?_, fun s v hs hv => ?_⟩
  · rw [h.config, hp.size]
  · rw [h.backends, hp.backends i b hb]
  · rw [h.curr, hp.curr s v hs hv]
  · rw [h.prev, hp.prev s v hs hv]

end SameCh

/-- `d'` has the manager of `d`, and the maps of consistent hash. -/
def KeepsCh (d d' : Dataplane cpus) : Prop := d'.chManager = d.chManager ∧ SameCh d.maps d'.maps

namespace KeepsCh

theorem refl (d : Dataplane cpus) : KeepsCh d d := ⟨rfl, .refl _⟩

theorem trans (d d₁ d₂ : Dataplane cpus) (h : KeepsCh d d₁) (h' : KeepsCh d₁ d₂) : KeepsCh d d₂ :=
  ⟨h'.1.trans h.1, h.2.trans h'.2⟩

theorem write {ws : List Write} (hws : ∀ w ∈ ws, w.isCh = false) (d : Dataplane cpus)
    (error : String → String) : KeepsCh d (d.write ws error).dataplane := by
  rw [Outcome.dataplane_write]
  exact ⟨rfl, .of_runWrites hws d.maps⟩

theorem publish (d : Dataplane cpus) (env : Env) (config : BaseConfig) :
    KeepsCh d (d.publish env config).dataplane := by
  -- the batches up to the flip have no write of consistent hash
  have hbatch : ∀ w : Write, w.publishes → w.isCh = false := fun w hpub => by
    cases w <;> first | rfl | cases hpub
  rcases hload : config.load env with ⟨xdp, _ | e⟩
  · refine trans _ _ _ ?_ (Outcome.dataplane_publish trans
      (fun d ws error hws => write (fun w hw => hbatch w (hws w hw)) d error) hload d)
    cases config.ddosConf <;> exact ⟨rfl, .refl _⟩
  · rw [Dataplane.publish, hload]
    exact ⟨rfl, .refl _⟩

theorem resetCursors (d : Dataplane cpus) : KeepsCh d d.resetCursors.dataplane := by
  have hws : ∀ w ∈ d.xdp.rrWrites, w.isCh = false := by
    intro w hw
    obtain ⟨key, -, rfl⟩ := List.mem_map.1 hw
    rfl
  rw [Dataplane.resetCursors]
  exact Outcome.dataplane_bind trans (write hws _ _) fun d₁ => ⟨rfl, rfl, rfl, rfl, rfl⟩

end KeepsCh

/-- `d'` is `d` but for the statistics. -/
def OnlyStats (d d' : Dataplane cpus) : Prop :=
  ∃ a b, d' = { d with maps :=
    { d.maps with backendsPacketsStats := a, servicesPacketsStats := b } }

namespace OnlyStats

theorem refl (d : Dataplane cpus) : OnlyStats d d := ⟨_, _, rfl⟩

theorem trans (d d₁ d₂ : Dataplane cpus) (h : OnlyStats d d₁) (h' : OnlyStats d₁ d₂) :
    OnlyStats d d₂ := by
  obtain ⟨a, b, rfl⟩ := h
  obtain ⟨a', b', rfl⟩ := h'
  exact ⟨a', b', rfl⟩

theorem write {w : Write} (hw : (∃ i, w = .backendStats i) ∨ ∃ key, w = .serviceStats key)
    (d : Dataplane cpus) (error : String → String) :
    OnlyStats d (d.write [w] error).dataplane := by
  rw [Outcome.dataplane_write, runWrites]
  cases hrun : w.run d.maps with
  | none => exact refl d
  | some m =>
    rcases hw with ⟨i, rfl⟩ | ⟨key, rfl⟩ <;>
    · obtain ⟨a, -, rfl⟩ := Option.map_eq_some_iff.1 hrun
      exact ⟨_, _, rfl⟩

theorem resetStats (d : Dataplane cpus) : OnlyStats d d.resetStats.dataplane := by
  rw [Dataplane.resetStats]
  refine Outcome.dataplane_bind trans ?_ fun d₁ => ?_
  · exact Outcome.dataplane_foldlM refl trans (fun d i => write (.inl ⟨i, rfl⟩) d _) _ d
  · exact Outcome.dataplane_foldlM refl trans (fun d key => write (.inr ⟨key, rfl⟩) d _) _ d₁

theorem loaded (h : OnlyStats d d') (hl : Loaded env config d) : Loaded env config d' := by
  obtain ⟨a, b, rfl⟩ := h
  obtain ⟨buffer, m₀, hpub⟩ := hl.published
  exact ⟨hl.load, ⟨buffer, m₀, hpub.congr ⟨fun _ => rfl, fun _ => rfl, rfl⟩⟩, hl.rr, hl.wrr,
    hl.sessions⟩

theorem keepsCh (h : OnlyStats d d') : KeepsCh d d' := by
  obtain ⟨a, b, rfl⟩ := h
  exact ⟨rfl, rfl, rfl, rfl, rfl⟩

end OnlyStats

/-! ## Steps -/

/-- The dataplane before the update of consistent hash. -/
theorem Dataplane.prepare_eq_ok (h : d.publish env config >>= resetCursors = .ok d') :
    config.load env = (d'.xdp, none) ∧ d'.currConfig = config ∧ d'.chManager = d.chManager := by
  obtain ⟨d₁, hpub, hreset⟩ := bind_eq_ok h
  obtain ⟨hload, hcurr, hmanager, -⟩ := publish_eq_ok hpub
  obtain ⟨-, rr, rfl⟩ := resetCursors_eq_ok hreset
  exact ⟨hload, hcurr, hmanager⟩

/-- The services of consistent hash that have backends are those that have an enabled real. -/
theorem find?_hasCh (h : config.load env = (d.xdp, none)) :
    (config.services.reverse.find? fun s => d.HasCh env s) = config.lastCh := by
  refine List.find?_congr fun service hs => decide_eq_decide.2 (and_congr_right fun _ => not_congr ?_)
  exact chBackends_eq_nil h (List.mem_reverse.1 hs)

namespace Operation

variable {s s' : Operation cpus}

/-- The dataplane after a reload is the one that `reloadConfig` leaves. -/
theorem reload_dataplane (s : Operation cpus) (env : Env) (config : BaseConfig) :
    (s.reload env config).2.dataplane = Outcome.dataplane (s.dataplane.reloadConfig env config) := by
  rw [reload, Dataplane.reloadConfig]
  cases s.dataplane.publish env config with
  | error e => rfl
  | ok d =>
    rw [Dataplane.ok_bind, Dataplane.ok_bind, Dataplane.switch]
    cases d.resetCursors <;> rfl

/-- A reload that has returned before the update of consistent hash. -/
structure Failed (s s' : Operation cpus) : Prop where
  keeps : KeepsCh s.dataplane s'.dataplane
  loaded : s'.loaded = s.loaded
  intact : s'.intact = false
  published : s'.published = s.published

/-- A reload that has updated consistent hash. -/
structure Reloaded (env : Env) (config : BaseConfig) (s s' : Operation cpus) : Prop where
  loaded : s'.loaded = some config
  dataplane : Loaded env config s'.dataplane
  sound : s'.dataplane.chManager.Sound env.xxh3
  /-- No service has an enabled real, or the last one that has stays in the maps. -/
  tables : config.lastCh = none ∧ SameCh s.maps s'.maps ∧ s'.published = s.published ∨
    ∃ service p, config.lastCh = some service ∧ s'.published = some (service.chKey env, p) ∧
      p.IsTable env.xxh3 ∧ p.backends = service.chBackends env s'.dataplane.xdp.backends ∧
      (s'.intact → ChWritten p s'.maps)

theorem reload_cases (h : s.dataplane.chManager.Sound env.xxh3) (config : BaseConfig) :
    Failed s (s.reload env config).2 ∨
      Reloaded env config s (s.reload env config).2 ∧
        (s.reload env config).2.intact = (s.reload env config).1 := by
  rw [reload]
  have hkeeps : KeepsCh s.dataplane
      (Outcome.dataplane (s.dataplane.publish env config >>= Dataplane.resetCursors)) :=
    Outcome.dataplane_bind KeepsCh.trans (.publish _ _ _) KeepsCh.resetCursors
  cases hd : s.dataplane.publish env config >>= Dataplane.resetCursors with
  | error e =>
    rw [hd] at hkeeps
    exact .inl ⟨hkeeps, rfl, rfl, rfl⟩
  | ok d =>
    rw [hd] at hkeeps
    refine .inr ⟨?_, rfl⟩
    obtain ⟨hload, hconfig, -⟩ := Dataplane.prepare_eq_ok hd
    obtain ⟨d₁, hpub, hreset⟩ := Dataplane.bind_eq_ok hd
    have hswitch : d₁.switch env = .ok (d.updateAllCh env).clearSessions :=
      Dataplane.switch_of_resetCursors hreset
    have hloaded := Loaded.of_reload hpub hswitch
    have hstats := OnlyStats.resetStats (d.updateAllCh env).clearSessions
    have hsound : d.chManager.Sound env.xxh3 := hkeeps.1.symm ▸ h
    -- the maps of consistent hash after the update are not touched any more
    have hmaps : (d.updateAllCh env).maps =
        (publishAll d.maps (d.chPublications env config.services)).1 := by
      rw [Dataplane.updateAllCh, hconfig, Dataplane.foldl_updateCh_maps]
    have hch : SameCh (publishAll d.maps (d.chPublications env config.services)).1
        (d.updateAllCh env).clearSessions.resetStats.dataplane.maps := by
      rw [← hmaps]
      have hclear : SameCh (d.updateAllCh env).maps (d.updateAllCh env).clearSessions.maps :=
        ⟨rfl, rfl, rfl, rfl⟩
      exact hclear.trans hstats.keepsCh.2
    have hxdp : (d.updateAllCh env).clearSessions.xdp = d.xdp :=
      (Dataplane.foldl_updateCh_frame d env _).2.1
    have hstatsXdp : (d.updateAllCh env).clearSessions.resetStats.dataplane.xdp = d.xdp := by
      obtain ⟨a, b, he⟩ := hstats
      rw [he, ← hxdp]
    refine ⟨rfl, hstats.loaded hloaded, ?_, ?_⟩
    · rw [hstats.keepsCh.1]
      exact Dataplane.foldl_updateCh_sound _ d hsound
    · dsimp only
      rw [hconfig, hstatsXdp, ← find?_hasCh hload]
      rcases d.getLast?_chPublications hsound config.services with
        ⟨hnone, hnil⟩ | ⟨service, p, hs, hlast, ht, hp⟩
      · rw [hnil] at hch ⊢
        exact .inl ⟨hnone, hkeeps.2.trans hch, rfl⟩
      · refine .inr ⟨service, p, hs, by rw [hlast, Option.some_or], ht, hp, fun hok => ?_⟩
        exact hch.written (.of_publishAll hok hlast)

/-- A reload none of whose writes has failed. -/
theorem reloaded_of_intact (h : s.dataplane.chManager.Sound env.xxh3)
    (hok : (s.reload env config).2.intact) : Reloaded env config s (s.reload env config).2 := by
  rcases reload_cases h config with hf | ⟨hr, -⟩
  · exact absurd (hf.intact.symm.trans hok) Bool.false_ne_true
  · exact hr

/-- A reload whose lists fit the maps succeeds if its writes before the update of consistent hash
    do. -/
theorem reload_intact (h : s.dataplane.chManager.Sound env.xxh3)
    (hfits : ∀ service ∈ config.services, service.LiveCh → service.reals.length ≤ 257)
    (hok : Except.isOk (s.dataplane.publish env config >>= Dataplane.resetCursors)) :
    (s.reload env config).2.intact = true := by
  have hd := Outcome.eq_ok hok
  generalize Outcome.dataplane _ = d at hd
  obtain ⟨hload, hconfig, hmanager⟩ := Dataplane.prepare_eq_ok hd
  have hsound : d.chManager.Sound env.xxh3 := hmanager.symm ▸ h
  have hps : ∀ e ∈ d.chPublications env config.services,
      e.2.IsTable env.xxh3 ∧ e.2.backends.length ≤ 257 := fun e he => by
    obtain ⟨service, hmem, hhas, ht, hp⟩ := d.of_mem_chPublications hsound he
    have hlive : service.LiveCh := ⟨hhas.1, mt (chBackends_eq_nil hload hmem).2 hhas.2⟩
    refine ⟨ht, ?_⟩
    rw [hp, ← (chBackends_reals hload hmem).length_eq]
    exact service.length_enabledReals_le.trans (hfits service hmem hlive)
  rw [reload, hd]
  dsimp only
  rw [hconfig]
  exact publishAll_succeeds hps d.maps

/-- What a maintenance does. -/
structure Maintained (xxh3 : Xxh3) (s s' : Operation cpus) (ok : Bool) : Prop where
  loaded : s'.loaded = s.loaded
  intact : s'.intact = s.intact
  sound : s'.dataplane.chManager.Sound xxh3
  maps : s'.maps = (publishAll s.maps s.dataplane.chManager.periodicMaintenance.2).1
  /-- Nothing is due, or the last instance that is due stays in the maps if the writes succeed. -/
  tables : s.dataplane.chManager.dueInstances.getLast? = none ∧ s'.maps = s.maps ∧
      s'.published = s.published ∨
    ∃ key inst p, s.dataplane.chManager.dueInstances.getLast? = some ⟨key, inst⟩ ∧
      s'.published = some (key, p) ∧ p.IsTable xxh3 ∧ p.backends = inst.backends ∧
      (ok → ChWritten p s'.maps)

theorem maintain_spec (h : s.dataplane.chManager.Sound xxh3) :
    Maintained xxh3 s s.maintain.2 s.maintain.1 := by
  rw [maintain]
  refine ⟨rfl, rfl, h.periodicMaintenance, rfl, ?_⟩
  rcases h.getLast?_periodicMaintenance with
    ⟨hnone, hnil⟩ | ⟨key, inst, p, hdue, hlast, ht, hp⟩
  · refine .inl ⟨hnone, ?_, ?_⟩ <;> dsimp only <;> rw [hnil] <;> rfl
  · refine .inr ⟨key, inst, p, hdue, ?_, ht, hp, fun hok => .of_publishAll hok hlast⟩
    dsimp only
    rw [hlast, Option.some_or]

end Operation

end L4Balancer
