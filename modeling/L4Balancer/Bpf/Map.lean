import Mathlib.Data.List.AList
import Mathlib.Data.Fintype.BigOperators

/-!
# Maps

The maps a kernel program and its controller share: *hash* maps, of a bounded
number of entries, *array* maps, whose entries always exist, and *per-CPU*
arrays, with one copy of every entry for each CPU.

An update of a hash map fails (`HashMap.update`) only if it would add an entry
to a full map; an update of an array (`ArrayMap.update`) only if the index is
out of its range. A program that ignores the result of an update goes on with
the old map (`put`). Writing through the pointer that a lookup returned is a
`put` too: the key has an entry, so that it succeeds.

* `HashMap.lookup_put`: what an update leaves at each key;
* `HashMap.count_put`, `HashMap.count_delete`: how many values satisfy a
  predicate after an update or a deletion, stated as a balance (what goes and
  what comes), so that linear arithmetic closes the rest;
* `HashMap.updateAll`: a batch of updates, which stops at the first failure, but has none
  if there is room for its keys (`HashMap.exists_updateAll`);
* `PerCpuArray.fillAll`: a batch of writes of one value to the copies of all CPUs.
-/

namespace Bpf

variable {κ ν : Type*}

/-! ## Hash maps -/

/-- A hash map of at most `cap` entries. -/
structure HashMap (κ ν : Type*) (cap : ℕ) where
  /-- The entries, in the order in which the map hands out its keys. -/
  table : AList fun _ : κ => ν
  size_le : table.entries.length ≤ cap

namespace HashMap

variable {cap : ℕ}

/-- The map without entries. -/
def empty : HashMap κ ν cap := ⟨∅, Nat.zero_le _⟩

/-- The number of entries. -/
def size (m : HashMap κ ν cap) : ℕ := m.table.entries.length

/-- The keys, first the one the map hands out first. -/
def keys (m : HashMap κ ν cap) : List κ := m.table.keys

/-- The number of entries whose value satisfies `p`. -/
def count (p : ν → Bool) (m : HashMap κ ν cap) : ℕ := m.table.entries.countP fun e => p e.2

theorem length_keys (m : HashMap κ ν cap) : m.keys.length = m.size := List.length_map _

theorem ext {m m' : HashMap κ ν cap} (h : m.table = m'.table) : m = m' := by
  cases m; cases m'; congr

@[simp] theorem size_empty : (empty : HashMap κ ν cap).size = 0 := rfl

theorem count_le_size (p : ν → Bool) (m : HashMap κ ν cap) : m.count p ≤ m.size :=
  List.countP_le_length

@[simp] theorem count_empty (p : ν → Bool) : (empty : HashMap κ ν cap).count p = 0 := rfl

variable [DecidableEq κ]

/-- The value of a key. -/
def lookup (m : HashMap κ ν cap) (k : κ) : Option ν := m.table.lookup k

/-- Deleting a key; nothing changes if it has no entry. -/
def delete (m : HashMap κ ν cap) (k : κ) : HashMap κ ν cap :=
  ⟨m.table.erase k, (List.kerase_sublist k _).length_le.trans m.size_le⟩

/-- Adding an entry or replacing it; `none` if the map is full and the key is new. -/
def update (m : HashMap κ ν cap) (k : κ) (v : ν) : Option (HashMap κ ν cap) :=
  if h : (m.table.insert k v).entries.length ≤ cap then some ⟨m.table.insert k v, h⟩ else none

/-- An update whose result is ignored. -/
def put (m : HashMap κ ν cap) (k : κ) (v : ν) : HashMap κ ν cap := (m.update k v).getD m

/-- The map has room for the key: it has an entry, or the map is not full. -/
def HasRoom (m : HashMap κ ν cap) (k : κ) : Prop := (m.lookup k).isSome ∨ m.size < cap

instance (m : HashMap κ ν cap) (k : κ) : Decidable (m.HasRoom k) :=
  inferInstanceAs (Decidable (_ ∨ _))

@[simp] theorem lookup_empty (k : κ) : (empty : HashMap κ ν cap).lookup k = none := rfl

theorem mem_keys {m : HashMap κ ν cap} {k : κ} : k ∈ m.keys ↔ (m.lookup k).isSome :=
  AList.mem_keys.symm.trans AList.lookup_isSome.symm

section Subset

variable {ν' : Type*} {cap' : ℕ} {m : HashMap κ ν cap} {m' : HashMap κ ν' cap'}

theorem keys_subset (h : ∀ k, (m.lookup k).isSome → (m'.lookup k).isSome) : m.keys ⊆ m'.keys :=
  fun k hk => mem_keys.2 (h k (mem_keys.1 hk))

/-- A map with fewer keys has fewer entries. -/
theorem size_le_of_lookup (h : ∀ k, (m.lookup k).isSome → (m'.lookup k).isSome) :
    m.size ≤ m'.size := by
  rw [← length_keys, ← length_keys]
  exact (List.subperm_of_subset m.table.keys_nodup (keys_subset h)).length_le

/-- A map has room for the keys of another one that is not larger, if it has no others. -/
theorem hasRoom_of_lookup (h : ∀ k, (m.lookup k).isSome → (m'.lookup k).isSome) (hcap : cap' ≤ cap)
    {k : κ} (hk : (m'.lookup k).isSome) : m.HasRoom k := by
  refine or_iff_not_imp_left.2 fun hnew => ?_
  have hnodup : (k :: m.keys).Nodup :=
    List.nodup_cons.2 ⟨fun hmem => hnew (mem_keys.1 hmem), m.table.keys_nodup⟩
  have hsub : k :: m.keys ⊆ m'.keys := List.cons_subset.2 ⟨mem_keys.2 hk, keys_subset h⟩
  have hlen := (List.subperm_of_subset hnodup hsub).length_le
  rw [List.length_cons, length_keys, length_keys] at hlen
  exact hlen.trans (m'.size_le.trans hcap)

end Subset

theorem length_insert (m : HashMap κ ν cap) (k : κ) (v : ν) :
    (m.table.insert k v).entries.length = if (m.lookup k).isSome then m.size else m.size + 1 := by
  have h : (m.table.insert k v).entries.length = (m.table.insert k v).keys.length := by
    simp [AList.keys, List.keys]
  rw [h, AList.keys_insert, List.length_cons, List.length_erase]
  have hk : (m.table.keys.contains k) = (m.lookup k).isSome := by
    rw [Bool.eq_iff_iff, List.contains_iff_mem, ← mem_keys, keys]
  have hs : m.table.keys.length = m.size := by simp [AList.keys, List.keys, size]
  split_ifs with h₁ h₂ h₂
  · have : 0 < m.table.keys.length := List.length_pos_of_mem h₁
    omega
  · rw [← hk, List.contains_iff_mem] at h₂; exact absurd h₁ h₂
  · rw [← hk, List.contains_iff_mem] at h₂; exact absurd h₂ h₁
  · omega

theorem update_eq_some {m : HashMap κ ν cap} {k : κ} {v : ν} (h : m.HasRoom k) :
    ∃ m', m.update k v = some m' ∧ m'.table = m.table.insert k v := by
  have hle : (m.table.insert k v).entries.length ≤ cap := by
    have := m.size_le
    rw [length_insert]
    rcases h with h | h
    · rw [if_pos h]; exact this
    · split_ifs <;> omega
  exact ⟨⟨m.table.insert k v, hle⟩, by rw [update, dif_pos hle], rfl⟩

theorem table_of_update {m m' : HashMap κ ν cap} {k : κ} {v : ν} (h : m.update k v = some m') :
    m'.table = m.table.insert k v := by
  unfold update at h
  split_ifs at h
  rw [← Option.some.inj h]

theorem lookup_of_update {m m' : HashMap κ ν cap} {k : κ} {v : ν} (h : m.update k v = some m')
    (k' : κ) : m'.lookup k' = if k' = k then some v else m.lookup k' := by
  rw [lookup, table_of_update h]
  split_ifs with hk
  · rw [hk, AList.lookup_insert]
  · exact AList.lookup_insert_ne hk

theorem mem_keys_of_update {m m' : HashMap κ ν cap} {k : κ} {v : ν} (h : m.update k v = some m')
    (k' : κ) : k' ∈ m'.keys ↔ k' = k ∨ k' ∈ m.keys := by
  rw [mem_keys, lookup_of_update h, mem_keys]
  split_ifs with hk <;> simp [hk]

theorem put_eq_or {m : HashMap κ ν cap} {k : κ} (v : ν) :
    m.put k v = m ∨ m.update k v = some (m.put k v) := by
  unfold put
  cases h : m.update k v with
  | none => exact .inl rfl
  | some m' => exact .inr rfl

theorem hasRoom_of_update {m m' : HashMap κ ν cap} {k : κ} {v : ν} (h : m.update k v = some m') :
    m.HasRoom k := by
  unfold update at h
  split_ifs at h with hle
  rw [length_insert] at hle
  refine or_iff_not_imp_left.2 fun hnew => ?_
  rwa [if_neg hnew] at hle

/-- A full map does not take a new key. -/
theorem put_of_not_hasRoom {m : HashMap κ ν cap} {k : κ} {v : ν} (h : ¬m.HasRoom k) :
    m.put k v = m :=
  (put_eq_or v).resolve_right fun hm => h (hasRoom_of_update hm)

theorem lookup_put {m : HashMap κ ν cap} {k : κ} {v : ν} (h : m.HasRoom k) (k' : κ) :
    (m.put k v).lookup k' = if k' = k then some v else m.lookup k' := by
  obtain ⟨m', hm, -⟩ := update_eq_some (v := v) h
  rw [put, hm]
  exact lookup_of_update hm k'

theorem lookup_put_ne {m : HashMap κ ν cap} {k k' : κ} (v : ν) (h : k' ≠ k) :
    (m.put k v).lookup k' = m.lookup k' := by
  rcases put_eq_or (m := m) (k := k) v with hp | hp
  · rw [hp]
  · rw [lookup_of_update hp, if_neg h]

theorem lookup_put_or (m : HashMap κ ν cap) (k k' : κ) (v : ν) :
    (m.put k v).lookup k' = m.lookup k' ∨ k' = k ∧ (m.put k v).lookup k' = some v := by
  rcases put_eq_or (m := m) (k := k) v with hp | hp
  · exact .inl (by rw [hp])
  · rw [lookup_of_update hp]
    split_ifs with hk
    · exact .inr ⟨hk, rfl⟩
    · exact .inl rfl

theorem lookup_delete (m : HashMap κ ν cap) (k k' : κ) :
    (m.delete k).lookup k' = if k' = k then none else m.lookup k' := by
  split_ifs with hk
  · rw [hk]; exact AList.lookup_erase k m.table
  · exact AList.lookup_erase_ne hk

theorem size_delete_le (m : HashMap κ ν cap) (k : κ) : (m.delete k).size ≤ m.size :=
  (List.kerase_sublist k _).length_le

/-- What a deletion takes away from a count. -/
theorem count_delete (p : ν → Bool) (m : HashMap κ ν cap) (k : κ) :
    (m.delete k).count p + (m.lookup k).elim 0 (fun v => (p v).toNat) = m.count p := by
  have key : ∀ l : List (Σ _ : κ, ν), (List.kerase k l).countP (fun e => p e.2) +
      (l.dlookup k).elim 0 (fun v => (p v).toNat) = l.countP fun e => p e.2 := by
    intro l
    induction l with
    | nil => rfl
    | cons e l ih =>
      obtain ⟨k₁, v₁⟩ := e
      by_cases hk : k₁ = k
      · subst hk
        have hk : List.kerase k₁ (⟨k₁, v₁⟩ :: l) = l := List.kerase_cons_eq rfl
        rw [hk, List.dlookup_cons_eq, List.countP_cons]
        cases h : p v₁ <;> simp [h]
      · rw [List.kerase_cons_ne (Ne.symm hk), List.dlookup_cons_ne _ _ (Ne.symm hk),
          List.countP_cons, List.countP_cons, ← ih]
        omega
  exact key m.table.entries

theorem size_delete (m : HashMap κ ν cap) (k : κ) :
    (m.delete k).size + (m.lookup k).isSome.toNat = m.size := by
  have h := count_delete (fun _ => true) m k
  simp only [count, List.countP_true] at h
  cases hk : m.lookup k <;> rw [hk] at h <;> exact h

/-- A deletion makes no room for the key that had none, and takes none away. -/
theorem hasRoom_delete (m : HashMap κ ν cap) (k : κ) : (m.delete k).HasRoom k ↔ m.HasRoom k := by
  have hsize := m.size_delete k
  have hle := m.size_le
  rw [HasRoom, HasRoom, lookup_delete, if_pos rfl]
  cases hk : m.lookup k with
  | none =>
    rw [hk] at hsize
    rw [← hsize]
    rfl
  | some v =>
    rw [hk] at hsize
    refine iff_of_true (.inr ?_) (.inl rfl)
    change _ + 1 = _ at hsize
    change m.size ≤ cap at hle
    omega

theorem count_of_update (p : ν → Bool) {m m' : HashMap κ ν cap} {k : κ} {v : ν}
    (h : m.update k v = some m') :
    m'.count p + (m.lookup k).elim 0 (fun w => (p w).toNat) = m.count p + (p v).toNat := by
  have hd := count_delete p m k
  have : m'.count p = (m.delete k).count p + (p v).toNat := by
    rw [count, table_of_update h, AList.entries_insert]
    simp only [List.countP_cons]
    cases p v <;> rfl
  omega

/-- What an update adds to a count, and what it takes away with the value it replaces. -/
theorem count_put (p : ν → Bool) {m : HashMap κ ν cap} {k : κ} (v : ν) (h : m.HasRoom k) :
    (m.put k v).count p + (m.lookup k).elim 0 (fun w => (p w).toNat) =
      m.count p + (p v).toNat := by
  obtain ⟨m', hm, -⟩ := update_eq_some (v := v) h
  rw [put, hm]
  exact count_of_update p hm

/-! ### Batches -/

/-- A batch of updates, in order; it stops at the first that fails. -/
def updateAll (m : HashMap κ ν cap) : List (κ × ν) → Option (HashMap κ ν cap)
  | [] => some m
  | (k, v) :: es => (m.update k v).bind fun m => m.updateAll es

/-- The value a batch leaves at a key: the last one it gives it, or the old one. -/
theorem lookup_updateAll {m m' : HashMap κ ν cap} {es : List (κ × ν)}
    (h : m.updateAll es = some m') (k : κ) :
    m'.lookup k = ((es.reverse.find? fun e => e.1 = k).map Prod.snd).or (m.lookup k) := by
  induction es generalizing m with
  | nil => rw [← Option.some.inj h]; rfl
  | cons e es ih =>
    obtain ⟨k₁, v₁⟩ := e
    obtain ⟨m₁, h₁, h₂⟩ := Option.bind_eq_some_iff.1 h
    rw [ih h₂, lookup_of_update h₁, List.reverse_cons, List.find?_append]
    cases es.reverse.find? fun e => e.1 = k with
    | some e => rfl
    | none =>
      by_cases hk : k = k₁
      · subst hk; simp
      · simp [hk, Ne.symm hk]

theorem mem_keys_updateAll {m m' : HashMap κ ν cap} {es : List (κ × ν)}
    (h : m.updateAll es = some m') (k : κ) :
    k ∈ m'.keys ↔ k ∈ es.map Prod.fst ∨ k ∈ m.keys := by
  induction es generalizing m with
  | nil => rw [← Option.some.inj h]; simp
  | cons e es ih =>
    obtain ⟨m₁, h₁, h₂⟩ := Option.bind_eq_some_iff.1 h
    rw [ih h₂, mem_keys_of_update h₁, List.map_cons, List.mem_cons]
    tauto

/-- A key of a batch gets a value that the batch gives it. -/
theorem exists_of_updateAll {m m' : HashMap κ ν cap} {es : List (κ × ν)}
    (h : m.updateAll es = some m') {k : κ} (hk : k ∈ es.map Prod.fst) :
    ∃ v, (k, v) ∈ es ∧ m'.lookup k = some v := by
  rw [lookup_updateAll h]
  cases hf : es.reverse.find? fun e => e.1 = k with
  | none =>
    obtain ⟨e, he, rfl⟩ := List.mem_map.1 hk
    exact absurd (List.find?_eq_none.1 hf e (List.mem_reverse.2 he)) (by simp)
  | some e =>
    obtain ⟨k', v⟩ := e
    obtain rfl : k' = k := by simpa using List.find?_some hf
    exact ⟨v, List.mem_reverse.1 (List.mem_of_find?_eq_some hf), rfl⟩

/-- The map has room for the keys: with an entry for each that is new, it is not too large. -/
def HasRoomFor (m : HashMap κ ν cap) (ks : List κ) : Prop :=
  m.size + (ks.filter fun k => (m.lookup k).isNone).length ≤ cap

instance (m : HashMap κ ν cap) (ks : List κ) : Decidable (m.HasRoomFor ks) :=
  inferInstanceAs (Decidable (_ ≤ _))

theorem size_of_update {m m' : HashMap κ ν cap} {k : κ} {v : ν} (h : m.update k v = some m') :
    m'.size = if (m.lookup k).isSome then m.size else m.size + 1 := by
  rw [size, table_of_update h, length_insert]

/-- The room that is left after an update is enough for the rest of the batch. -/
theorem HasRoomFor.of_update {m m' : HashMap κ ν cap} {k : κ} {ks : List κ} {v : ν}
    (h : m.HasRoomFor (k :: ks)) (hm : m.update k v = some m') : m'.HasRoomFor ks := by
  have hsub : (ks.filter fun k => (m'.lookup k).isNone).Sublist
      (ks.filter fun k => (m.lookup k).isNone) := by
    refine List.monotone_filter_right ks fun k' hk' => ?_
    rw [lookup_of_update hm] at hk'
    split_ifs at hk' with he
    · cases hk'
    · exact hk'
  have hle := hsub.length_le
  rw [HasRoomFor, List.filter_cons] at h
  rw [HasRoomFor, size_of_update hm]
  cases hk : m.lookup k with
  | none =>
    simp only [hk, Option.isNone_none, if_true, List.length_cons] at h
    simp only [Option.isSome_none, Bool.false_eq_true, if_false]
    omega
  | some w =>
    simp only [hk, Option.isNone_some, Bool.false_eq_true, if_false] at h
    simp only [Option.isSome_some, if_true]
    omega

/-- A batch for which there is room succeeds. -/
theorem exists_updateAll {m : HashMap κ ν cap} {es : List (κ × ν)}
    (h : m.HasRoomFor (es.map Prod.fst)) : ∃ m', m.updateAll es = some m' := by
  induction es generalizing m with
  | nil => exact ⟨m, rfl⟩
  | cons e es ih =>
    obtain ⟨k, v⟩ := e
    have hroom : m.HasRoom k := by
      cases hk : m.lookup k with
      | some w => exact .inl (by rw [hk]; rfl)
      | none =>
        rw [HasRoomFor, List.map_cons, List.filter_cons_of_pos (by rw [hk]; rfl),
          List.length_cons] at h
        exact .inr (by omega)
    obtain ⟨m₁, h₁, -⟩ := update_eq_some (v := v) hroom
    obtain ⟨m', h'⟩ := ih (h.of_update h₁)
    exact ⟨m', by rw [updateAll, h₁, Option.bind_some, h']⟩

/-- With distinct keys, there are not more of them than the map may hold. -/
theorem length_le_of_updateAll {m m' : HashMap κ ν cap} {es : List (κ × ν)}
    (h : m.updateAll es = some m') (hn : (es.map Prod.fst).Nodup) : es.length ≤ cap := by
  have hsub : es.map Prod.fst ⊆ m'.keys := fun k hk => (mem_keys_updateAll h k).2 (.inl hk)
  have hle := (hn.subperm hsub).length_le
  have hkeys : m'.keys.length = m'.table.entries.length := List.length_map _
  rw [List.length_map, hkeys] at hle
  exact hle.trans m'.size_le

end HashMap

/-! ## Arrays -/

/-- An array map of `n` entries, all of which exist. -/
structure ArrayMap (ν : Type*) (n : ℕ) where
  get : Fin n → ν

namespace ArrayMap

variable {n : ℕ}

/-- The array with the same value everywhere. -/
def const (v : ν) : ArrayMap ν n := ⟨fun _ => v⟩

/-- The entry at an index; there is none past the end. -/
def lookup (a : ArrayMap ν n) (i : ℕ) : Option ν :=
  if h : i < n then some (a.get ⟨i, h⟩) else none

/-- Writing an entry; `none` past the end. -/
def update (a : ArrayMap ν n) (i : ℕ) (v : ν) : Option (ArrayMap ν n) :=
  if h : i < n then some ⟨Function.update a.get ⟨i, h⟩ v⟩ else none

/-- An update whose result is ignored. -/
def put (a : ArrayMap ν n) (i : ℕ) (v : ν) : ArrayMap ν n := (a.update i v).getD a

theorem lookup_of_lt (a : ArrayMap ν n) {i : ℕ} (h : i < n) : a.lookup i = some (a.get ⟨i, h⟩) :=
  dif_pos h

theorem lookup_isSome {a : ArrayMap ν n} {i : ℕ} : (a.lookup i).isSome ↔ i < n := by
  unfold lookup
  split_ifs with h <;> simp [h]

theorem lt_of_lookup {a : ArrayMap ν n} {i : ℕ} {v : ν} (h : a.lookup i = some v) : i < n :=
  lookup_isSome.1 (Option.isSome_of_eq_some h)

@[simp] theorem lookup_const (v : ν) (i : ℕ) :
    (const v : ArrayMap ν n).lookup i = if i < n then some v else none := by
  unfold lookup
  split_ifs <;> rfl

theorem put_eq_self_iff {a : ArrayMap ν n} {i : ℕ} {v : ν} (h : i < n) :
    a.put i v = a ↔ a.get ⟨i, h⟩ = v := by
  obtain ⟨get⟩ := a
  rw [put, update, dif_pos h, Option.getD_some, mk.injEq, Function.update_eq_self_iff, eq_comm]

theorem lookup_put_self (a : ArrayMap ν n) {i : ℕ} (h : i < n) (v : ν) :
    (a.put i v).lookup i = some v := by
  rw [put, update, dif_pos h, Option.getD_some, lookup_of_lt _ h]
  exact congrArg some (Function.update_self _ _ _)

theorem lt_of_update {a a' : ArrayMap ν n} {i : ℕ} {v : ν} (h : a.update i v = some a') :
    i < n := by
  unfold update at h
  split_ifs at h with hi
  exact hi

theorem lookup_of_update {a a' : ArrayMap ν n} {i : ℕ} {v : ν} (h : a.update i v = some a')
    (j : ℕ) : a'.lookup j = if j = i then some v else a.lookup j := by
  unfold update at h
  split_ifs at h with hi
  rw [← Option.some.inj h]
  unfold lookup
  by_cases hj : j = i
  · subst hj; simp [hi]
  · have hne : ∀ hn : j < n, (⟨j, hn⟩ : Fin n) ≠ ⟨i, hi⟩ := fun _ he => hj (congrArg Fin.val he)
    simp [hj, hne]

/-- A batch of writes at the indices `i`, `i + 1`, …; it stops at the first that fails. -/
def updateFrom (a : ArrayMap ν n) (i : ℕ) : List ν → Option (ArrayMap ν n)
  | [] => some a
  | v :: vs => (a.update i v).bind fun a => a.updateFrom (i + 1) vs

theorem lookup_updateFrom {a a' : ArrayMap ν n} {i : ℕ} {vs : List ν}
    (h : a.updateFrom i vs = some a') (j : ℕ) :
    a'.lookup j = if i ≤ j ∧ j < i + vs.length then vs[j - i]? else a.lookup j := by
  induction vs generalizing a i with
  | nil =>
    rw [← Option.some.inj h, if_neg]
    rw [List.length_nil]; omega
  | cons v vs ih =>
    obtain ⟨a₁, h₁, h₂⟩ := Option.bind_eq_some_iff.1 h
    rw [ih h₂, lookup_of_update h₁, List.length_cons]
    rcases Nat.lt_trichotomy j i with hj | hj | hj
    · rw [if_neg (by omega), if_neg (by omega), if_neg (by omega)]
    · subst hj; simp
    · obtain ⟨d, rfl⟩ := Nat.exists_eq_add_of_lt hj
      have hd : i + d + 1 - i = (i + d + 1 - (i + 1)) + 1 := by omega
      rw [hd, List.getElem?_cons_succ]
      split_ifs <;> first | rfl | omega

theorem length_le_of_updateFrom {a a' : ArrayMap ν n} {i : ℕ} {vs : List ν}
    (h : a.updateFrom i vs = some a') (hi : i ≤ n) : i + vs.length ≤ n := by
  induction vs generalizing a i with
  | nil => exact hi
  | cons v vs ih =>
    obtain ⟨a₁, h₁, h₂⟩ := Option.bind_eq_some_iff.1 h
    have := ih h₂ (lt_of_update h₁)
    rw [List.length_cons]; omega

end ArrayMap

/-! ## Per-CPU arrays -/

/-- An array map of `n` entries with a copy of each for every one of `cpus` CPUs. -/
structure PerCpuArray (ν : Type*) (cpus n : ℕ) where
  get : Fin cpus → Fin n → ν

namespace PerCpuArray

variable {cpus n : ℕ}

/-- The array with the same value everywhere. -/
def const (v : ν) : PerCpuArray ν cpus n := ⟨fun _ _ => v⟩

/-- Changing the copy of an entry of one CPU through the pointer a lookup returned; a lookup
    past the end returns none. -/
def modify (a : PerCpuArray ν cpus n) (cpu : Fin cpus) (i : ℕ) (f : ν → ν) :
    PerCpuArray ν cpus n :=
  if h : i < n then
    ⟨Function.update a.get cpu (Function.update (a.get cpu) ⟨i, h⟩ (f (a.get cpu ⟨i, h⟩)))⟩
  else a

/-- Writing the copies of all CPUs; `none` past the end. -/
def updateAllCpus (a : PerCpuArray ν cpus n) (i : ℕ) (v : Fin cpus → ν) :
    Option (PerCpuArray ν cpus n) :=
  if h : i < n then some ⟨fun cpu => Function.update (a.get cpu) ⟨i, h⟩ (v cpu)⟩ else none

/-- Writing one value to the copies of all CPUs, at one index after the other. -/
def fillAll (a : PerCpuArray ν cpus n) (v : ν) : List ℕ → Option (PerCpuArray ν cpus n)
  | [] => some a
  | i :: is => (a.updateAllCpus i fun _ => v).bind fun a => a.fillAll v is

/-- A change of the copy of one CPU. -/
theorem get_modify (a : PerCpuArray ν cpus n) (cpu c : Fin cpus) (i : ℕ) (f : ν → ν) (j : Fin n) :
    (a.modify cpu i f).get c j = if c = cpu ∧ i = j then f (a.get c j) else a.get c j := by
  rw [modify]
  split_ifs with hi hcj hcj
  · obtain ⟨rfl, rfl⟩ := hcj
    simp
  · by_cases hc : c = cpu
    · subst hc
      have hne : j ≠ ⟨i, hi⟩ := fun hj => hcj ⟨rfl, (congrArg Fin.val hj).symm⟩
      simp [hne]
    · simp [hc]
  · exact absurd (hcj.2 ▸ j.isLt) hi
  · rfl

theorem lt_of_updateAllCpus {a a' : PerCpuArray ν cpus n} {i : ℕ} {v : Fin cpus → ν}
    (h : a.updateAllCpus i v = some a') : i < n := by
  rw [updateAllCpus] at h
  split_ifs at h with hi
  exact hi

theorem get_of_updateAllCpus {a a' : PerCpuArray ν cpus n} {i : ℕ} {v : Fin cpus → ν}
    (h : a.updateAllCpus i v = some a') (cpu : Fin cpus) (j : Fin n) :
    a'.get cpu j = if ↑j = i then v cpu else a.get cpu j := by
  rw [updateAllCpus] at h
  split_ifs at h with hi
  rw [← Option.some.inj h]
  by_cases hj : (j : ℕ) = i
  · subst hj
    simp
  · have hne : j ≠ ⟨i, hi⟩ := fun he => hj (congrArg Fin.val he)
    simp [hj, hne]

/-- The indices of a batch that succeeds are in the range. -/
theorem fillAll_isSome {a : PerCpuArray ν cpus n} {v : ν} {is : List ℕ} :
    (a.fillAll v is).isSome ↔ ∀ i ∈ is, i < n := by
  induction is generalizing a with
  | nil => simp [fillAll]
  | cons i is ih =>
    rw [fillAll, List.forall_mem_cons]
    cases h : a.updateAllCpus i fun _ => v with
    | none =>
      have hi : ¬i < n := fun hi => by simp [updateAllCpus, hi] at h
      simp [hi]
    | some a₁ => rw [Option.bind_some, ih, and_iff_right (lt_of_updateAllCpus h)]

theorem get_fillAll {a a' : PerCpuArray ν cpus n} {v : ν} {is : List ℕ}
    (h : a.fillAll v is = some a') (cpu : Fin cpus) (j : Fin n) :
    a'.get cpu j = if ↑j ∈ is then v else a.get cpu j := by
  induction is generalizing a with
  | nil =>
    rw [← Option.some.inj h]
    simp
  | cons i is ih =>
    obtain ⟨a₁, h₁, h₂⟩ := Option.bind_eq_some_iff.1 h
    rw [ih h₂, get_of_updateAllCpus h₁]
    by_cases hi : (j : ℕ) = i <;> simp [hi]

variable {M : Type*} [AddCommGroup M]

/-- The sum of a field over the copies of all CPUs. -/
def total (a : PerCpuArray ν cpus n) (field : ν → M) (i : Fin n) : M :=
  ∑ cpu, field (a.get cpu i)

@[simp] theorem total_const (v : ν) (field : ν → M) (i : Fin n) :
    (const v : PerCpuArray ν cpus n).total field i = cpus • field v := by
  simp [total, const]

/-- A change of one copy changes the total by as much. -/
theorem total_modify (a : PerCpuArray ν cpus n) (cpu : Fin cpus) (j : ℕ) (f : ν → ν)
    (field : ν → M) {d : M} (hd : ∀ v, field (f v) = field v + d) (i : Fin n) :
    (a.modify cpu j f).total field i = a.total field i + if j = i then d else 0 := by
  have hget : ∀ c, field ((a.modify cpu j f).get c i) =
      field (a.get c i) + if c = cpu then if j = i then d else 0 else 0 := fun c => by
    rw [get_modify]
    by_cases hc : c = cpu <;> by_cases hj : j = i <;> simp [hc, hj, hd]
  simp only [total, hget, Finset.sum_add_distrib, Finset.sum_ite_eq', Finset.mem_univ, if_true]

end PerCpuArray

end Bpf
