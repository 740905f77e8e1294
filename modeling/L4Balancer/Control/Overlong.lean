import L4Balancer.Control.Operation

/-!
# Publications that do not fit

`ch_backends` has 257 entries. A publication with more backends writes the size of the ring
and the first 257 backends, and ends there: the table stays that of an older publication
(`Cut`). So after a maintenance the backends are those of the last publication, and the
table names as many of them as the last publication that fits has (`Maps.NamesAfter`).
-/

namespace L4Balancer

open Bpf

variable {cpus : ℕ} {m m' m₁ : Maps cpus} {xxh3 : Xxh3} {key : ServiceKey} {p : ChPublication}
  {ps : List (ServiceKey × ChPublication)} {ws : List Write} {i : ℕ}

/-! ## One publication -/

/-- Writes that succeed are followed by the next ones. -/
theorem runWrites_append_of (h : runWrites m ws = (m₁, true)) (ws' : List Write) :
    runWrites m (ws ++ ws') = runWrites m₁ ws' := by
  induction ws generalizing m with
  | nil =>
    obtain ⟨rfl, -⟩ := Prod.mk.inj h
    rfl
  | cons w ws ih =>
    obtain ⟨m₂, hrun, h⟩ := runWrites_cons.1 h
    rw [List.cons_append, runWrites, hrun]
    exact ih h

theorem writesFrom_append {α : Type*} (write : ℕ → α → Write) (i : ℕ) (as as' : List α) :
    writesFrom write i (as ++ as') =
      writesFrom write i as ++ writesFrom write (i + as.length) as' := by
  induction as generalizing i with
  | nil => rfl
  | cons a as ih =>
    rw [List.cons_append, writesFrom, ih, List.length_cons, Nat.add_right_comm, Nat.add_assoc]
    rfl

/-- `m'` is `m` with the beginning of a publication: the size and the backends, as many as fit. -/
structure Cut (p : ChPublication) (m m' : Maps cpus) : Prop where
  size : m'.chConfig.lookup 0 = some p.hashringSize
  backends : ∀ i < 257, m'.chBackends.lookup i = p.backends[i]?
  curr : m'.chCurrLookup = m.chCurrLookup

/-- A publication that fits succeeds. -/
theorem ChPublication.IsTable.written (ht : p.IsTable xxh3) (hfits : p.backends.length ≤ 257)
    (m : Maps cpus) : ChWritten p (updateChBpfMaps m p.writes).1 := by
  refine .of_updateChBpfMaps (Prod.ext rfl (p.writes_succeed hfits ?_ m))
  rw [ht.size, toNat_hashringSmall]

/-- A publication that does not fit ends after the backend 256. -/
theorem Cut.of_updateChBpfMaps (hlong : 257 < p.backends.length) (m : Maps cpus) :
    Cut p m (updateChBpfMaps m p.writes).1 := by
  obtain ⟨b, rest, hrest⟩ : ∃ b rest, p.backends.drop 257 = b :: rest := by
    refine List.exists_cons_of_ne_nil fun hnil => ?_
    have := List.drop_eq_nil_iff.1 hnil
    omega
  have hlen : (p.backends.take 257).length = 257 := List.length_take_of_le hlong.le
  have hwrites : writesFrom .chBackend 0 p.backends =
      writesFrom .chBackend 0 (p.backends.take 257) ++
        .chBackend 257 b :: writesFrom .chBackend 258 rest := by
    conv_lhs => rw [← List.take_append_drop 257 p.backends]
    rw [writesFrom_append, hlen, hrest]
    rfl
  obtain ⟨m₁, h₁⟩ : ∃ m₁, runWrites m
      [.chConfig 0 p.hashringSize, .chConfig 1 (.ofNat p.backends.length)] = (m₁, true) := ⟨_, rfl⟩
  obtain ⟨m₂, h₂⟩ := runWrites_of_le .chBackend (·.chBackends)
    (fun m a => { m with chBackends := a }) (fun _ _ _ => rfl)
    (by rw [Nat.zero_add, hlen]) m₁
  have hfails : (Write.chBackend 257 b).run m₂ = none := by
    rw [Write.run, ArrayMap.update, dif_neg (lt_irrefl 257), Option.map_none]
  have hcut : updateChBpfMaps m p.writes = (m₂, false) := by
    rw [updateChBpfMaps_eq, ChPublication.writes, hwrites, List.append_assoc, List.append_assoc,
      runWrites_append_of h₁, List.append_assoc, runWrites_append_of h₂, List.cons_append, runWrites,
      hfails]
  rw [hcut]
  obtain ⟨a₁, hsize, rfl⟩ := runWrites_chConfig h₁
  obtain ⟨a₂, ha₂, rfl⟩ := runWrites_chBackend h₂
  refine ⟨hsize, fun i hi => ?_, rfl⟩
  have hlookup := ArrayMap.lookup_updateFrom ha₂ i
  rwa [if_pos ⟨Nat.zero_le i, by omega⟩, Nat.sub_zero, List.getElem?_take, if_pos hi] at hlookup

/-! ## What the table names -/

/-- A slot of the current table names the entry `i` of `ch_backends`. -/
def Maps.ChNames (m : Maps cpus) (i : ℕ) : Prop :=
  ∃ slot v, m.chCurrLookup.lookup slot = some v ∧ 0 ≤ v ∧ (UInt32.ofNat v.toNat).toNat = i

/-- What packets get are the active backends that the table names. -/
theorem Maps.forall_chPick_iff (hsize : m.chConfig.lookup 0 = some HASHRING_SMALL)
    {P : Backend → Prop} :
    (∀ keyHash b idx, m.chPick keyHash = some (b, idx) → P b) ↔
      ∀ i b, m.ChNames i → m.chBackends.lookup i = some b → b.active ≠ 0 → P b := by
  constructor
  · rintro h i b ⟨slot, v, hv, h0, rfl⟩ hb hactive
    refine h (.ofNat slot) b (.ofNat v.toNat) ?_
    rw [chPick, hsize, Option.bind_some, if_neg (by decide),
      toNat_ofNat_mod_hashringSmall (ArrayMap.lt_of_lookup hv), hv, Option.bind_some,
      if_neg (not_lt.2 h0), hb, Option.bind_some, if_neg hactive]
  · intro h keyHash b idx hpick
    obtain ⟨hb, hactive⟩ := chPick_spec hpick
    obtain ⟨size, -, hpick⟩ := Option.bind_eq_some_iff.1 hpick
    split_ifs at hpick
    obtain ⟨v, hv, hpick⟩ := Option.bind_eq_some_iff.1 hpick
    split_ifs at hpick with hneg
    obtain ⟨b', -, hpick⟩ := Option.bind_eq_some_iff.1 hpick
    split_ifs at hpick
    obtain ⟨-, rfl⟩ := Prod.mk.inj (Option.some.inj hpick)
    exact h _ b ⟨_, v, hv, not_lt.1 hneg, rfl⟩ hb hactive

/-- After a publication that fits, the table names its backends. -/
theorem ChWritten.chNames_iff (h : ChWritten p m) (ht : p.IsTable xxh3) :
    m.ChNames i ↔ i < p.backends.length := by
  obtain ⟨hlen, hentries⟩ := maglevTable_full ht.table
  have hslots : ∀ (slot : ℕ) (v : ℤ), m.chCurrLookup.lookup slot = some v ↔
      p.currLookup[slot]? = some v := by
    intro slot v
    by_cases hlt : slot < 65537
    · have hv := List.getElem?_eq_getElem (hlen.symm ▸ hlt : slot < p.currLookup.length)
      rw [h.curr slot _ (by rwa [ht.size]) hv, hv]
    · rw [ArrayMap.lookup, dif_neg hlt, List.getElem?_eq_none (by rw [hlen]; exact not_lt.1 hlt)]
  constructor
  · rintro ⟨slot, v, hv, h0, rfl⟩
    obtain ⟨-, hlt⟩ := hentries v (List.mem_of_getElem? ((hslots slot v).1 hv))
    have hle := h.length_le
    rw [UInt32.toNat_ofNat_of_lt' (show v.toNat < 2 ^ 32 by omega)]
    omega
  · intro hi
    obtain ⟨slot, hslot⟩ := List.mem_iff_getElem?.1 ((ht.mem_currLookup_iff h.length_le).2 hi)
    refine ⟨slot, i, (hslots slot i).2 hslot, Int.natCast_nonneg i, ?_⟩
    have hle := h.length_le
    rw [Int.toNat_natCast, UInt32.toNat_ofNat_of_lt' (show i < 2 ^ 32 by omega)]

/-! ## The publications of a maintenance -/

/-- The table names the entry `i` after publications of these lengths. -/
def Maps.NamesAfter (m : Maps cpus) (lengths : List ℕ) (i : ℕ) : Prop :=
  match (lengths.filter (· ≤ 257)).getLast? with
  | some n => i < n
  | none => m.ChNames i

theorem Maps.namesAfter_concat (m : Maps cpus) (lengths : List ℕ) (n i : ℕ) :
    m.NamesAfter (lengths ++ [n]) i ↔ if n ≤ 257 then i < n else m.NamesAfter lengths i := by
  rw [NamesAfter, List.filter_append, NamesAfter]
  by_cases hfits : n ≤ 257 <;> simp [hfits]

/-- A publication leaves its own table, or the old one if it does not fit. -/
theorem chNames_publishAll (h : ∀ e ∈ ps, e.2.IsTable xxh3) (m : Maps cpus) (i : ℕ) :
    (publishAll m ps).1.ChNames i ↔ m.NamesAfter (ps.map (·.2.backends.length)) i := by
  induction ps using List.reverseRecOn with
  | nil => rfl
  | append_singleton ps e ih =>
    obtain ⟨key, p⟩ := e
    obtain ⟨hps, ht⟩ := List.forall_mem_append.1 h
    specialize ht _ List.mem_cons_self
    specialize ih hps
    rw [publishAll_append, List.map_append, List.map_singleton, Maps.namesAfter_concat]
    dsimp only [publishAll]
    split_ifs with hfits
    · exact (ht.written hfits _).chNames_iff ht
    · rw [Maps.ChNames, (Cut.of_updateChBpfMaps (not_le.1 hfits) _).curr]
      exact ih

/-- What packets get after some publications: the active backends of the last one that the table
    names. -/
theorem forall_chPick_publishAll_iff (h : ∀ e ∈ ps, e.2.IsTable xxh3)
    (hlast : ps.getLast? = some (key, p)) (m : Maps cpus) {P : Backend → Prop} :
    (∀ keyHash b idx, (publishAll m ps).1.chPick keyHash = some (b, idx) → P b) ↔
      ∀ (i : ℕ) (b : Backend), p.backends[i]? = some b → i < 257 →
        m.NamesAfter (ps.map (·.2.backends.length)) i → b.active ≠ 0 → P b := by
  have ht : p.IsTable xxh3 := h _ (List.mem_of_getLast? hlast)
  simp only [← chNames_publishAll h m]
  obtain ⟨ps, rfl⟩ := List.getLast?_eq_some_iff.1 hlast
  have hmaps : (publishAll m (ps ++ [(key, p)])).1 =
      (updateChBpfMaps (publishAll m ps).1 p.writes).1 := by
    rw [publishAll_append]
    rfl
  rw [hmaps]
  generalize (publishAll m ps).1 = m₀
  obtain ⟨hsize, hbackends⟩ :
      (updateChBpfMaps m₀ p.writes).1.chConfig.lookup 0 = some HASHRING_SMALL ∧
      ∀ i, (updateChBpfMaps m₀ p.writes).1.ChNames i → i < 257 →
        (updateChBpfMaps m₀ p.writes).1.chBackends.lookup i = p.backends[i]? := by
    by_cases hfits : p.backends.length ≤ 257
    · have hw := ht.written hfits m₀
      refine ⟨by rw [hw.size, ht.size], fun i hi _ => ?_⟩
      have hb := List.getElem?_eq_getElem ((hw.chNames_iff ht).1 hi)
      rw [hw.backends i _ hb, hb]
    · have hcut := Cut.of_updateChBpfMaps (not_le.1 hfits) m₀
      exact ⟨by rw [hcut.size, ht.size], fun i _ hi => hcut.backends i hi⟩
  rw [Maps.forall_chPick_iff hsize]
  constructor
  · intro hall i b hb hi hnames
    exact hall i b hnames ((hbackends i hnames hi).trans hb)
  · intro hall i b hnames hb
    have hi := ArrayMap.lt_of_lookup hb
    exact hall i b ((hbackends i hnames hi).symm.trans hb) hi hnames

end L4Balancer
