import Mathlib.Data.List.Forall2

/-!
# Comparing ranges

`std::equal` with three iterators (`equal`): a range is compared with what begins at the third
iterator, of which it is not told the end. If the second range is shorter and they do not differ
before its end, the comparison reads past it (`none`). A comparison of elements may do so, too.

* The comparison succeeds exactly if the elements of the first range are equal to the first ones
  of the second (`equal_eq_true_iff`).
* It fails exactly if two elements differ before anything is read past an end
  (`equal_eq_false_of`, `exists_of_equal_eq_false`).
* It inherits reflexivity and transitivity from the elements (`equal_refl`, `equal_trans`). That it
  is symmetric it can not inherit: of two ranges one may be longer.
-/

namespace Compare

variable {α β γ : Type*}

/-- `std::equal`; `none` if something is read past an end. -/
def equal (eq : α → β → Option Bool) : List α → List β → Option Bool
  | [], _ => some true
  | _ :: _, [] => none
  | a :: as, b :: bs =>
    match eq a b with
    | none => none
    | some false => some false
    | some true => equal eq as bs

variable {eq : α → β → Option Bool} {as : List α} {bs : List β}

theorem equal_cons_of_eq_true {a : α} {b : β} (h : eq a b = some true) :
    equal eq (a :: as) (b :: bs) = equal eq as bs := by
  rw [equal, h]

theorem equal_eq_true_iff : equal eq as bs = some true ↔
    List.Forall₂ (fun a b => eq a b = some true) as (bs.take as.length) := by
  induction as generalizing bs with
  | nil => simp [equal]
  | cons a as ih =>
    cases bs with
    | nil => simp [equal]
    | cons b bs =>
      rw [equal, List.length_cons, List.take_succ_cons, List.forall₂_cons, ← ih]
      rcases eq a b with _ | _ | _ <;> simp

theorem equal_eq_true_iff_of_length_eq (hlength : as.length = bs.length) :
    equal eq as bs = some true ↔ List.Forall₂ (fun a b => eq a b = some true) as bs := by
  rw [equal_eq_true_iff, hlength, List.take_length]

theorem length_le_of_equal (h : equal eq as bs = some true) : as.length ≤ bs.length := by
  have := (equal_eq_true_iff.mp h).length_eq
  rw [List.length_take] at this
  omega

/-- Nothing is read past an end if the second range is long enough. -/
theorem equal_ne_none
    (h : List.Forall₂ (fun a b => eq a b ≠ none) as (bs.take as.length)) :
    equal eq as bs ≠ none := by
  induction as generalizing bs with
  | nil => simp [equal]
  | cons a as ih =>
    cases bs with
    | nil => simp at h
    | cons b bs =>
      rw [List.length_cons, List.take_succ_cons, List.forall₂_cons] at h
      rw [equal]
      split
      · exact absurd ‹_› h.1
      · simp
      · exact ih h.2

theorem equal_eq_false_of {i : ℕ} {a : α} {b : β} (ha : a ∈ as[i]?) (hb : b ∈ bs[i]?)
    (h : eq a b = some false)
    (hbefore : ∀ j < i, ∀ a ∈ as[j]?, ∀ b ∈ bs[j]?, eq a b ≠ none) :
    equal eq as bs = some false := by
  induction i generalizing as bs with
  | zero =>
    cases as <;> cases bs <;> simp_all [equal]
  | succ i ih =>
    cases as with
    | nil => simp at ha
    | cons a₀ as =>
      cases bs with
      | nil => simp at hb
      | cons b₀ bs =>
        have hne : eq a₀ b₀ ≠ none := hbefore 0 (by omega) a₀ rfl b₀ rfl
        rw [equal]
        split
        · exact absurd ‹_› hne
        · rfl
        · exact ih ha hb fun j hj => hbefore (j + 1) (by omega)

theorem exists_of_equal_eq_false (h : equal eq as bs = some false) :
    ∃ i : ℕ, (∃ a ∈ as[i]?, ∃ b ∈ bs[i]?, eq a b = some false) ∧
      ∀ j < i, ∀ a ∈ as[j]?, ∀ b ∈ bs[j]?, eq a b = some true := by
  induction as generalizing bs with
  | nil => simp [equal] at h
  | cons a as ih =>
    cases bs with
    | nil => simp [equal] at h
    | cons b bs =>
      rw [equal] at h
      split at h
      · simp at h
      · exact ⟨0, ⟨a, rfl, b, rfl, ‹_›⟩, by simp⟩
      · obtain ⟨i, hi, hbefore⟩ := ih h
        refine ⟨i + 1, hi, fun j hj => ?_⟩
        cases j with
        | zero => rintro _ ⟨⟩ _ ⟨⟩; assumption
        | succ j => exact hbefore j (by omega)

theorem equal_refl {eq : α → α → Option Bool} (hrefl : ∀ a, eq a a = some true) (as : List α) :
    equal eq as as = some true :=
  (equal_eq_true_iff_of_length_eq rfl).mpr (List.forall₂_same.mpr fun a _ => hrefl a)

theorem equal_trans {eq' : β → γ → Option Bool} {eq'' : α → γ → Option Bool}
    (htrans : ∀ a b c, eq a b = some true → eq' b c = some true → eq'' a c = some true)
    {cs : List γ} (h : equal eq as bs = some true) (h' : equal eq' bs cs = some true) :
    equal eq'' as cs = some true := by
  induction as generalizing bs cs with
  | nil => rfl
  | cons a as ih =>
    rw [equal_eq_true_iff] at h h'
    cases bs with
    | nil => simp at h
    | cons b bs =>
      cases cs with
      | nil => simp at h'
      | cons c cs =>
        rw [List.length_cons, List.take_succ_cons, List.forall₂_cons, ← equal_eq_true_iff] at h h'
        rw [equal_cons_of_eq_true (htrans a b c h.1 h'.1)]
        exact ih h.2 h'.2

end Compare
