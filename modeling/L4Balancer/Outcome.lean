import Mathlib.Data.List.Forall2

/-!
# Outcomes

What a computation that may fail ends with: `Ends E Q r` says that it ends with a value that
satisfies `Q` or with an error that satisfies `E`. The rules take it through the steps of a
computation, from the last one to the first (`ends_bind`). With `E` false it is success
(`ends_success`).
-/

universe u v

variable {ε : Type u} {α β : Type v} {E : ε → Prop} {Q : α → Prop} {R : β → Prop} {P : Prop}

/-- The computation ends with a value that satisfies `Q` or with an error that satisfies `E`. -/
def Ends (E : ε → Prop) (Q : α → Prop) : Except ε α → Prop
  | .ok a => Q a
  | .error e => E e

@[simp] theorem ends_ok {a : α} : Ends E Q (.ok a) ↔ Q a := Iff.rfl

@[simp] theorem ends_error {e : ε} : Ends E Q (.error e) ↔ E e := Iff.rfl

@[simp] theorem ends_pure {a : α} : Ends E Q (pure a) ↔ Q a := Iff.rfl

@[simp] theorem ends_throw {e : ε} : Ends E Q (throw e) ↔ E e := Iff.rfl

@[simp] theorem ends_bind {x : Except ε α} {f : α → Except ε β} :
    Ends E R (x >>= f) ↔ Ends E (fun a => Ends E R (f a)) x := by
  cases x <;> rfl

@[simp] theorem ends_map {x : Except ε α} {f : α → β} :
    Ends E R (f <$> x) ↔ Ends E (fun a => R (f a)) x := by
  cases x <;> rfl

@[simp] theorem ends_exceptMap {x : Except ε α} {f : α → β} :
    Ends E R (x.map f) ↔ Ends E (fun a => R (f a)) x := by
  cases x <;> rfl

theorem ends_ite [Decidable P] {x y : Except ε α} :
    Ends E Q (if P then x else y) ↔ (P → Ends E Q x) ∧ (¬P → Ends E Q y) := by
  split_ifs with h <;> simp [h]

/-- Success, with what is known of the value. -/
theorem ends_success {r : Except ε α} : Ends (fun _ => False) Q r ↔ ∃ a, r = .ok a ∧ Q a := by
  cases r <;> simp

theorem eq_ok_iff {r : Except ε α} {a : α} : r = .ok a ↔ Ends (fun _ => False) (· = a) r := by
  cases r <;> simp

theorem ends_mapM_cons {f : α → Except ε β} {a : α} {as : List α} {R : List β → Prop} :
    Ends E R ((a :: as).mapM f) ↔
      Ends E (fun b => Ends E (fun bs => R (b :: bs)) (as.mapM f)) (f a) := by
  rw [List.mapM_cons]
  simp only [ends_bind, ends_pure]

/-- One after the other, each with what follows if it succeeds. -/
theorem ends_mapM {f : α → Except ε β} {G : α → Prop}
    (hf : ∀ a P, Ends E (fun _ => P) (f a) ↔ G a ∧ P) {as : List α} :
    Ends E (fun _ => P) (as.mapM f) ↔ (∀ a ∈ as, G a) ∧ P := by
  induction as with
  | nil => simp
  | cons a as ih => rw [ends_mapM_cons, hf, ih, List.forall_mem_cons, and_assoc]

/-- Each with its result. -/
theorem forall₂_of_mapM {f : α → Except ε β} {as : List α} {bs : List β} (h : as.mapM f = .ok bs) :
    List.Forall₂ (fun a b => f a = .ok b) as bs := by
  induction as generalizing bs with
  | nil =>
    obtain rfl := Except.ok.inj h
    exact .nil
  | cons a as ih =>
    rw [eq_ok_iff, ends_mapM_cons] at h
    simp only [ends_success] at h
    obtain ⟨b, hb, bs, hbs, rfl⟩ := h
    exact .cons hb (ih hbs)

theorem mapM_of_forall₂ {f : α → Except ε β} {as : List α} {bs : List β}
    (h : List.Forall₂ (fun a b => f a = .ok b) as bs) : as.mapM f = .ok bs := by
  induction h with
  | nil => rfl
  | cons hab _ ih =>
    rw [List.mapM_cons, hab, ih]
    rfl

/-- A reader takes what a writer wrote to what is read of it, element by element. -/
theorem mapM_map_ok {γ : Type} {f : α → Except ε β} {g : γ → α} {h : γ → β} {cs : List γ}
    (hfg : ∀ c ∈ cs, f (g c) = .ok (h c)) : (cs.map g).mapM f = .ok (cs.map h) := by
  refine mapM_of_forall₂ ?_
  rw [List.forall₂_map_left_iff, List.forall₂_map_right_iff, List.forall₂_same]
  exact hfg
