import Mathlib.Data.List.Perm.Basic
import Std.Data.TreeMap.Lemmas

/-!
# Collecting into ordered maps

An ordered map that a list of entries is put into, one after the other, so that a later
entry replaces an earlier one of the same key (`Std.TreeMap.insertMany`). Keys are the
same if the order of the map says so, which is coarser than equality in general.

* No entry comes from nowhere (`mem_of_mem_toList_ofList`).
* A key all of whose entries agree has their value (`getElem?_ofList_of_agree`).
* Entries of different keys are all there, in some order (`toList_ofList_perm`).
-/

namespace Std.TreeMap

variable {κ ν : Type*} {cmp : κ → κ → Ordering} [TransCmp cmp] {t : TreeMap κ ν cmp}
  {l : List (κ × ν)} {k : κ} {v : ν}

/-- The entries after an insertion: the inserted one, and those of the other keys. -/
theorem toList_insert_perm_filter : (t.insert k v).toList.Perm
    ((k, v) :: t.toList.filter fun e => cmp k e.1 ≠ .eq) := by
  let : BEq κ := ⟨fun a b => cmp a b = .eq⟩
  have : LawfulBEqCmp cmp := ⟨decide_eq_true_iff.symm⟩
  have hkey : (fun e : κ × ν => decide ¬(k == e.1) = true) = fun e => decide (cmp k e.1 ≠ .eq) :=
    funext fun e => decide_eq_decide.2 (not_congr decide_eq_true_iff)
  exact hkey ▸ toList_insert_perm

theorem mem_of_mem_toList {e : κ × ν} (h : e ∈ t.toList) : e.1 ∈ t := by
  rw [mem_iff_isSome_getElem?, (mem_toList_iff_getKey?_eq_some_and_getElem?_eq_some.1 h).2]
  rfl

theorem mem_of_mem_toList_insertMany {e : κ × ν} (h : e ∈ (t.insertMany l).toList) :
    e ∈ l ∨ e ∈ t.toList := by
  induction l generalizing t with
  | nil => exact .inr (by simpa using h)
  | cons e' l ih =>
    rw [insertMany_cons] at h
    rcases ih h with h | h
    · exact .inl (List.mem_cons_of_mem _ h)
    · rcases List.mem_cons.1 (toList_insert_perm_filter.mem_iff.1 h) with rfl | h
      · exact .inl List.mem_cons_self
      · exact .inr (List.mem_filter.1 h).1

theorem getElem?_insertMany_of_agree (h : ∀ e ∈ l, cmp e.1 k = .eq → e.2 = v)
    (hex : t[k]? = some v ∨ ∃ e ∈ l, cmp e.1 k = .eq) : (t.insertMany l)[k]? = some v := by
  induction l generalizing t with
  | nil => simpa using hex
  | cons e l ih =>
    rw [insertMany_cons]
    rw [List.forall_mem_cons] at h
    refine ih h.2 ?_
    rw [getElem?_insert]
    split_ifs with he
    · exact .inl (congrArg some (h.1 he))
    · rcases hex with hex | ⟨e', he', hk⟩
      · exact .inl hex
      · rcases List.mem_cons.1 he' with rfl | he'
        · exact absurd hk he
        · exact .inr ⟨e', he', hk⟩

theorem getElem?_insertMany_of_ne (h : ∀ e ∈ l, cmp e.1 k ≠ .eq) :
    (t.insertMany l)[k]? = t[k]? := by
  induction l generalizing t with
  | nil => simp
  | cons e l ih =>
    rw [List.forall_mem_cons] at h
    rw [insertMany_cons, ih h.2, getElem?_insert, if_neg h.1]

theorem toList_insertMany_perm (hl : l.Pairwise fun e e' => cmp e.1 e'.1 ≠ .eq)
    (ht : ∀ e ∈ l, e.1 ∉ t) : (t.insertMany l).toList.Perm (l ++ t.toList) := by
  induction l generalizing t with
  | nil => simp
  | cons e l ih =>
    rw [List.pairwise_cons] at hl
    rw [List.forall_mem_cons] at ht
    rw [insertMany_cons]
    refine (ih hl.2 fun e' he' hmem => ?_).trans ?_
    · rcases mem_insert.1 hmem with heq | hmem
      · exact hl.1 e' he' heq
      · exact ht.2 e' he' hmem
    · have hfilter : t.toList.filter (fun e' => cmp e.1 e'.1 ≠ .eq) = t.toList :=
        List.filter_eq_self.2 fun e' he' => decide_eq_true fun heq =>
          ht.1 ((mem_congr heq).2 (mem_of_mem_toList he'))
      have hinsert := toList_insert_perm_filter (t := t) (k := e.1) (v := e.2)
      rw [hfilter] at hinsert
      exact (hinsert.append_left l).trans List.perm_middle

/-! ## Maps of lists -/

omit [TransCmp cmp] in
theorem toList_emptyc : (∅ : TreeMap κ ν cmp).toList = [] :=
  List.length_eq_zero_iff.1 (length_toList.trans size_emptyc)

theorem mem_of_mem_toList_ofList {e : κ × ν} (h : e ∈ (ofList l cmp).toList) : e ∈ l := by
  rw [ofList_eq_insertMany_empty] at h
  exact (mem_of_mem_toList_insertMany h).resolve_right (by simp [toList_emptyc])

theorem getElem?_ofList_of_agree (h : ∀ e ∈ l, cmp e.1 k = .eq → e.2 = v)
    (hex : ∃ e ∈ l, cmp e.1 k = .eq) : (ofList l cmp)[k]? = some v := by
  rw [ofList_eq_insertMany_empty]
  exact getElem?_insertMany_of_agree h (.inr hex)

theorem getElem?_ofList_of_ne (h : ∀ e ∈ l, cmp e.1 k ≠ .eq) : (ofList l cmp)[k]? = none := by
  rw [ofList_eq_insertMany_empty, getElem?_insertMany_of_ne h, getElem?_emptyc]

theorem toList_ofList_perm (hl : l.Pairwise fun e e' => cmp e.1 e'.1 ≠ .eq) :
    (ofList l cmp).toList.Perm l := by
  rw [ofList_eq_insertMany_empty]
  simpa [toList_emptyc] using toList_insertMany_perm (t := ∅) hl (by simp)

end Std.TreeMap
