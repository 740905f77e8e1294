import Mathlib.Algebra.Ring.Nat
import L4Balancer.Machine

/-!
# Progress

A machine that works off what it has to do, while other inputs come in between. A *rank* bounds
the work that is left: an input that does `work` takes as much from it, and any input may add its
`gain` to it. Then a run whose work exceeds its rank with all its gains has come to a last answer
(`exists_out_of_rank`).
-/

variable {σ ι ο : Type*} {M : Machine σ ι ο} {I : σ → Prop} {Done : ο → Prop} {rank : σ → ℕ}
  {work gain : ι → ℕ}

namespace Machine

theorem exists_out_of_rank
    (hstep : ∀ s e, I s → Done (M.out e s) ∨
      I (M.next e s) ∧ rank (M.next e s) + work e ≤ rank s + gain e)
    {es : List ι} {s : σ} (hs : I s) (hes : rank s + (es.map gain).sum < (es.map work).sum) :
    ∃ o ∈ M.outs s es, Done o := by
  induction es generalizing s with
  | nil => exact absurd hes (Nat.not_lt_zero _)
  | cons e es ih =>
    rw [outs]
    rcases hstep s e hs with hdone | ⟨hnext, hrank⟩
    · exact ⟨_, List.mem_cons_self, hdone⟩
    · rw [List.map_cons, List.map_cons, List.sum_cons, List.sum_cons] at hes
      obtain ⟨o, ho, hdone⟩ := ih hnext (by omega)
      exact ⟨o, List.mem_cons_of_mem _ ho, hdone⟩

end Machine
