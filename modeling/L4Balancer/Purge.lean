import L4Balancer.Machine

/-!
# Runs without some of their inputs

Whether the answers to some inputs of a machine depend on the others: the run of all inputs
goes next to the run of those that satisfy `p` (`Machine.beside`). The answers are the same in
both if the two states stay related (`outsTo_filter`): the inputs of `p` take related states to
related ones with the same answer, and the other inputs, made in the first state only, leave it
related to the second one.
-/

variable {σ ι ο : Type*}

namespace Machine

variable (M : Machine σ ι ο)

/-- The machine next to itself; the second one gets the inputs of `p` only. -/
def beside (p : ι → Bool) : Machine (σ × σ) ι ο where
  step e s := (M.out e s.1, M.next e s.1, if p e then M.next e s.2 else s.2)

/-- The answers of a run to the inputs of `q`. -/
def outsTo (q : ι → Bool) (s : σ) : List ι → List ο
  | [] => []
  | e :: es => if q e then M.out e s :: outsTo q (M.next e s) es else outsTo q (M.next e s) es

variable {M} {p q : ι → Bool} {R : σ → σ → Prop} {Q : σ × σ → ι → Prop}

theorem next_beside_pos {e : ι} (h : p e) (s s' : σ) :
    (M.beside p).next e (s, s') = (M.next e s, M.next e s') :=
  congrArg (Prod.mk _) (if_pos h)

theorem next_beside_neg {e : ι} (h : ¬p e) (s s' : σ) :
    (M.beside p).next e (s, s') = (M.next e s, s') :=
  congrArg (Prod.mk _) (if_neg h)

/-- If the steps that satisfy `Q` keep the states related, in a run of such steps the answers to the
    inputs of `q` do not depend on the inputs outside `p`. -/
theorem outsTo_filter {es : List ι} (hqp : ∀ e ∈ es, q e → p e)
    (hkeep : ∀ e ∈ es, ∀ s s', p e → R s s' → Q (s, s') e →
      M.out e s' = M.out e s ∧ R (M.next e s) (M.next e s'))
    (hskip : ∀ e ∈ es, ∀ s s', ¬p e → R s s' → Q (s, s') e → R (M.next e s) s') {s s' : σ}
    (h : R s s') (hes : (M.beside p).Each Q (s, s') es) :
    M.outsTo q s es = M.outsTo q s' (es.filter p) := by
  induction es generalizing s s' with
  | nil => rfl
  | cons e es ih =>
    rw [List.forall_mem_cons] at hqp hkeep hskip
    obtain ⟨hQ, hes⟩ := hes
    by_cases hp : p e
    · obtain ⟨hout, hnext⟩ := hkeep.1 s s' hp h hQ
      rw [next_beside_pos hp] at hes
      rw [List.filter_cons_of_pos hp, outsTo, outsTo, hout, ih hqp.2 hkeep.2 hskip.2 hnext hes]
    · rw [next_beside_neg hp] at hes
      rw [List.filter_cons_of_neg hp, outsTo, if_neg fun hq => hp (hqp.1 hq)]
      exact ih hqp.2 hkeep.2 hskip.2 (hskip.1 s s' hp h hQ) hes

end Machine
