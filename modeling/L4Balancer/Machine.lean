import Mathlib.Data.List.Basic

/-!
# Machines

A machine answers every input with an output and a next state. Its runs are
lists of inputs: `exec` is the state at the end of a run, `trace` its steps,
each the state before it and its input.

* `Always P s es`: `P` holds in every state of the run of `es` from `s`, the
  first and the last one included;
* `Each Q s es`: every step of the run satisfies `Q`.

The rules: an invariant of the steps is one of the runs (`always_of_step`); a
property that a step keeps exactly when the step satisfies `Q` holds
along the run exactly when every step does (`always_iff_each`); a machine that
another one is mapped to, states and inputs, follows it (`run_map`).
-/

variable {σ τ ι κ ο : Type*}

/-- A deterministic machine with states `σ`, inputs `ι` and outputs `ο`. -/
structure Machine (σ ι ο : Type*) where
  step : ι → σ → ο × σ

namespace Machine

variable (M : Machine σ ι ο)

/-- The answer to an input. -/
def out (e : ι) (s : σ) : ο := (M.step e s).1

/-- The state after an input. -/
def next (e : ι) (s : σ) : σ := (M.step e s).2

/-- The state after a run. -/
def exec (s : σ) : List ι → σ
  | [] => s
  | e :: es => exec (M.next e s) es

/-- The steps of a run. -/
def trace (s : σ) : List ι → List (σ × ι)
  | [] => []
  | e :: es => (s, e) :: trace (M.next e s) es

/-- The answers of a run. -/
def outs (s : σ) : List ι → List ο
  | [] => []
  | e :: es => M.out e s :: outs (M.next e s) es

/-- `P` holds in every state of the run. -/
def Always (P : σ → Prop) (s : σ) : List ι → Prop
  | [] => P s
  | e :: es => P s ∧ Always P (M.next e s) es

/-- Every step of the run satisfies `Q`. -/
def Each (Q : σ → ι → Prop) (s : σ) : List ι → Prop
  | [] => True
  | e :: es => Q s e ∧ Each Q (M.next e s) es

instance decidableAlways {P : σ → Prop} [DecidablePred P] :
    ∀ (s : σ) (es : List ι), Decidable (M.Always P s es)
  | s, [] => inferInstanceAs (Decidable (P s))
  | s, e :: es =>
    have := decidableAlways (P := P) (M.next e s) es
    inferInstanceAs (Decidable (_ ∧ _))

instance decidableEach {Q : σ → ι → Prop} [∀ s e, Decidable (Q s e)] :
    ∀ (s : σ) (es : List ι), Decidable (M.Each Q s es)
  | _, [] => inferInstanceAs (Decidable True)
  | s, e :: es =>
    have := decidableEach (Q := Q) (M.next e s) es
    inferInstanceAs (Decidable (_ ∧ _))

variable {M} {P : σ → Prop} {Q : σ → ι → Prop} {s : σ}

@[simp] theorem exec_append (es es' : List ι) :
    M.exec s (es ++ es') = M.exec (M.exec s es) es' := by
  induction es generalizing s with
  | nil => rfl
  | cons e es ih => exact ih

@[simp] theorem trace_append (es es' : List ι) :
    M.trace s (es ++ es') = M.trace s es ++ M.trace (M.exec s es) es' := by
  induction es generalizing s with
  | nil => rfl
  | cons e es ih => exact congrArg _ ih

theorem each_append {es es' : List ι} :
    M.Each Q s (es ++ es') ↔ M.Each Q s es ∧ M.Each Q (M.exec s es) es' := by
  induction es generalizing s with
  | nil => simp [Each, exec]
  | cons e es ih => simp only [List.cons_append, Each, exec, ih, and_assoc]

/-- The inputs of the steps of a run are its inputs. -/
theorem map_snd_trace (M : Machine σ ι ο) (s : σ) (es : List ι) :
    (M.trace s es).map Prod.snd = es := by
  induction es generalizing s with
  | nil => rfl
  | cons e es ih => rw [trace, List.map_cons, ih]

/-- The steps of a run are its inputs, each at the state the inputs before it lead to. -/
theorem mem_trace {es : List ι} {x : σ × ι} :
    x ∈ M.trace s es ↔ ∃ pre post, es = pre ++ x.2 :: post ∧ x.1 = M.exec s pre := by
  induction es generalizing s with
  | nil => simp [trace]
  | cons e es ih =>
    rw [trace, List.mem_cons, ih]
    constructor
    · rintro (rfl | ⟨pre, post, he, hs⟩)
      · exact ⟨[], es, rfl, rfl⟩
      · exact ⟨e :: pre, post, by rw [he, List.cons_append], hs⟩
    · rintro ⟨pre, post, he, hs⟩
      cases pre with
      | nil =>
        obtain ⟨rfl, -⟩ := List.cons.inj he
        exact .inl (Prod.ext hs rfl)
      | cons e' pre =>
        obtain ⟨rfl, he'⟩ := List.cons.inj he
        exact .inr ⟨pre, post, he', hs⟩

theorem each_iff {es : List ι} : M.Each Q s es ↔ ∀ x ∈ M.trace s es, Q x.1 x.2 := by
  induction es generalizing s with
  | nil => simp [Each, trace]
  | cons e es ih => simp [Each, trace, ih]

theorem Each.mono {Q' : σ → ι → Prop} {es : List ι} (h : M.Each Q s es)
    (hQ : ∀ s e, Q s e → Q' s e) : M.Each Q' s es :=
  each_iff.2 fun x hx => hQ _ _ (each_iff.1 h x hx)

theorem Always.exec {es : List ι} (h : M.Always P s es) : P (M.exec s es) := by
  induction es generalizing s with
  | nil => exact h
  | cons e es ih => exact ih h.2

theorem Always.head {es : List ι} (h : M.Always P s es) : P s := by
  cases es with
  | nil => exact h
  | cons e es => exact h.1

/-- What the steps satisfying `Q` keep, a run of such steps keeps. -/
theorem always_of_step (hstep : ∀ s e, P s → Q s e → P (M.next e s)) {es : List ι} (hs : P s)
    (hes : M.Each Q s es) : M.Always P s es := by
  induction es generalizing s with
  | nil => exact hs
  | cons e es ih => exact ⟨hs, ih (hstep s e hs hes.1) hes.2⟩

theorem exec_of_step (hstep : ∀ s e, P s → P (M.next e s)) (es : List ι) (hs : P s) :
    P (M.exec s es) := by
  induction es generalizing s with
  | nil => exact hs
  | cons e es ih => exact ih (hstep s e hs)

/-- What the inputs of a run keep, the run keeps. -/
theorem exec_of_mem {es : List ι} (hstep : ∀ e ∈ es, ∀ s, P s → P (M.next e s)) (hs : P s) :
    P (M.exec s es) := by
  induction es generalizing s with
  | nil => exact hs
  | cons e es ih =>
    rw [List.forall_mem_cons] at hstep
    exact ih hstep.2 (hstep.1 s hs)

/-- What the steps keep, with answers that satisfy `A` as long as it holds. -/
theorem outs_of_step {A : ο → Prop} (hstep : ∀ s e, P s → A (M.out e s) ∧ P (M.next e s))
    {es : List ι} (hs : P s) : ∀ o ∈ M.outs s es, A o := by
  induction es generalizing s with
  | nil => intro o ho; cases ho
  | cons e es ih =>
    rw [outs, List.forall_mem_cons]
    exact ⟨(hstep s e hs).1, ih (hstep s e hs).2⟩

/-- If a step keeps `P` exactly when it satisfies `Q`, as long as the invariant `I` holds and the
    steps satisfy `G`, then `P` holds all along a run of such steps exactly when every step
    satisfies `Q`. -/
theorem always_iff_each {I : σ → Prop} {G : σ → ι → Prop}
    (hI : ∀ s e, I s → G s e → I (M.next e s))
    (hP : ∀ s e, I s → G s e → P s → (P (M.next e s) ↔ Q s e)) {es : List ι} (hIs : I s)
    (hPs : P s) (hG : M.Each G s es) : M.Always P s es ↔ M.Each Q s es := by
  induction es generalizing s with
  | nil => exact iff_of_true hPs trivial
  | cons e es ih =>
    constructor
    · rintro ⟨-, h⟩
      exact ⟨(hP s e hIs hG.1 hPs).1 h.head, (ih (hI s e hIs hG.1) h.head hG.2).1 h⟩
    · rintro ⟨hQ, h⟩
      have hP' := (hP s e hIs hG.1 hPs).2 hQ
      exact ⟨hPs, (ih (hI s e hIs hG.1) hP' hG.2).2 h⟩

/-- Two properties of steps that agree as long as the invariant `I` holds. -/
theorem each_congr {I : σ → Prop} {Q' : σ → ι → Prop} (hI : ∀ s e, I s → I (M.next e s))
    (hQ : ∀ s e, I s → (Q s e ↔ Q' s e)) {es : List ι} (hs : I s) :
    M.Each Q s es ↔ M.Each Q' s es := by
  induction es generalizing s with
  | nil => exact Iff.rfl
  | cons e es ih => exact and_congr (hQ s e hs) (ih (hI s e hs))

/-- A machine `N` that follows `M`, as long as the invariant `P` holds and the steps satisfy `Q`,
    follows it along any run of such steps. -/
theorem run_map_of {N : Machine τ κ ο} {f : σ → τ} {g : ι → κ}
    (hstep : ∀ e s, P s → Q s e → N.step (g e) (f s) = Prod.map id f (M.step e s) ∧ P (M.next e s))
    {es : List ι} (hs : P s) (hes : M.Each Q s es) :
    N.outs (f s) (es.map g) = M.outs s es ∧ N.exec (f s) (es.map g) = f (M.exec s es) := by
  induction es generalizing s with
  | nil => exact ⟨rfl, rfl⟩
  | cons e es ih =>
    obtain ⟨h, hP⟩ := hstep e s hs hes.1
    have hout : N.out (g e) (f s) = M.out e s := congrArg Prod.fst h
    have hnext : N.next (g e) (f s) = f (M.next e s) := congrArg Prod.snd h
    obtain ⟨houts, hexec⟩ := ih hP hes.2
    rw [List.map_cons, outs, outs, exec, exec, hout, hnext]
    exact ⟨congrArg _ houts, hexec⟩

/-- A machine `N` that follows `M`, step by step, follows it along any run. -/
theorem run_map {N : Machine τ κ ο} {f : σ → τ} {g : ι → κ}
    (h : ∀ e s, N.step (g e) (f s) = Prod.map id f (M.step e s)) (s : σ) (es : List ι) :
    N.outs (f s) (es.map g) = M.outs s es ∧ N.exec (f s) (es.map g) = f (M.exec s es) :=
  run_map_of (P := fun _ => True) (Q := fun _ _ => True) (fun e s _ _ => ⟨h e s, trivial⟩) trivial
    (each_iff.2 fun _ _ => trivial)

end Machine
