import L4Balancer.Bpf.Map

/-!
# Draining a map

A controller empties a hash map by asking for its first key and deleting it, until there is none.
Each deletion of the first key takes an entry away (`size_delete_head?`), and a map without a first
key is empty (`eq_empty_of_head?`). Others may add entries in between: one that stores at most one
new key adds at most one entry (`size_le_succ`).
-/

namespace Bpf.HashMap

variable {κ ν : Type*} {cap : ℕ} {m m' : HashMap κ ν cap} {k : κ}

theorem eq_empty_of_head? (h : m.keys.head? = none) : m = .empty := by
  refine ext (AList.ext ?_)
  have hlen : m.table.entries.length = 0 := by
    rw [← size, ← length_keys, List.head?_eq_none_iff.1 h, List.length_nil]
  rw [List.length_eq_zero_iff.1 hlen]
  rfl

variable [DecidableEq κ]

theorem lookup_isSome_of_head? (h : m.keys.head? = some k) : (m.lookup k).isSome :=
  mem_keys.1 (List.mem_of_mem_head? h)

/-- The first key is deleted with its entry. -/
theorem size_delete_head? (h : m.keys.head? = some k) : (m.delete k).size + 1 = m.size := by
  rw [← size_delete m k, lookup_isSome_of_head? h]
  rfl

/-- A map with at most one key more has at most one entry more. -/
theorem size_le_succ (h : ∀ k', k' ≠ k → (m'.lookup k').isSome → (m.lookup k').isSome) :
    m'.size ≤ m.size + 1 := by
  have hsub : m'.keys ⊆ k :: m.keys := fun k' hk' => by
    by_cases he : k' = k
    · rw [he]
      exact List.mem_cons_self
    · exact List.mem_cons_of_mem _ (mem_keys.2 (h k' he (mem_keys.1 hk')))
  have hlen : m'.keys.length ≤ (k :: m.keys).length :=
    (List.subperm_of_subset m'.table.keys_nodup hsub).length_le
  rwa [List.length_cons, length_keys, length_keys] at hlen

end Bpf.HashMap
