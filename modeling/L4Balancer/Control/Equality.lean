import L4Balancer.Compare
import L4Balancer.Control.Config

/-!
# Equality of configurations

The operators `==` of `baseconfig.h` compare the reals of a service, and the services of a
configuration, by `std::equal` with three iterators (`Compare.equal`), and nothing compares the
lengths first. A configuration is equal to itself, and equality is transitive
(`BaseConfig.equal_refl`, `BaseConfig.equal_trans`). But a configuration without services is equal
to every other one, and comparing one with services to it reads past the end.

So the laws of an equivalence hold of two configurations exactly if they have the same shape, or
differ before a list of the second one ends (`BaseConfig.compares_iff`, `BaseConfig.laws_iff`).
-/

namespace L4Balancer

open Compare

/-! ## The operators -/

namespace BalancerReal

/-- `BalancerReal::operator==`. -/
def equal (a b : BalancerReal) : Bool :=
  a.ip == b.ip && a.weight == b.weight && b.port == a.port

/-- The fields that are compared. -/
def compared (real : BalancerReal) : String × UInt8 × UInt32 :=
  (real.ip, real.weight, real.port)

theorem equal_iff (a b : BalancerReal) : a.equal b = true ↔ a.compared = b.compared := by
  simp only [equal, compared, Bool.and_eq_true, beq_iff_eq, Prod.mk.injEq, and_assoc,
    eq_comm (a := b.port)]

theorem equal_eq_false_iff (a b : BalancerReal) : a.equal b = false ↔ a.compared ≠ b.compared := by
  rw [ne_eq, ← equal_iff, Bool.not_eq_true]

end BalancerReal

namespace BalancerService

/-- The reals of the services, by `std::equal`. -/
def realsEqual (a b : BalancerService) : Option Bool :=
  Compare.equal (fun real real' => some (real.equal real')) a.reals b.reals

/-- `BalancerService::operator==`; `none` if it reads past the end of the other reals. -/
def equal (a b : BalancerService) : Option Bool := do
  let reals ← a.realsEqual b
  return reals && a.name == b.name && a.vip == b.vip && a.protocol == b.protocol &&
    a.port == b.port && a.type == b.type

/-- The fields that are compared, but for the reals. -/
def compared (service : BalancerService) : String × String × String × UInt32 × BalancerType :=
  (service.name, service.vip, service.protocol, service.port, service.type)

/-- The services agree on all that is compared. -/
def Same (a b : BalancerService) : Prop :=
  a.reals.map (·.compared) = b.reals.map (·.compared) ∧ a.compared = b.compared

/-- The services differ before the reals of the second one end. -/
def Differs (a b : BalancerService) : Prop :=
  (∃ i : ℕ, ∃ real ∈ a.reals[i]?, ∃ real' ∈ b.reals[i]?, real.compared ≠ real'.compared) ∨
    a.reals.length ≤ b.reals.length ∧ a.compared ≠ b.compared

/-! ## Services -/

variable {a b c : BalancerService}

theorem realsEqual_iff : a.realsEqual b = some true ↔
    a.reals.map (·.compared) <+: b.reals.map (·.compared) := by
  rw [realsEqual, equal_eq_true_iff, List.prefix_iff_eq_take, List.length_map, ← List.map_take,
    ← List.forall₂_eq_eq_eq, List.forall₂_map_left_iff, List.forall₂_map_right_iff]
  simp only [Option.some.injEq, BalancerReal.equal_iff]

theorem realsEqual_eq_false_iff : a.realsEqual b = some false ↔
    ∃ i : ℕ, ∃ real ∈ a.reals[i]?, ∃ real' ∈ b.reals[i]?, real.compared ≠ real'.compared := by
  constructor
  · intro h
    obtain ⟨i, ⟨real, hreal, real', hreal', hne⟩, -⟩ := exists_of_equal_eq_false h
    rw [Option.some.injEq, BalancerReal.equal_eq_false_iff] at hne
    exact ⟨i, real, hreal, real', hreal', hne⟩
  · rintro ⟨i, real, hreal, real', hreal', hne⟩
    refine equal_eq_false_of hreal hreal' ?_ (by simp)
    rw [(BalancerReal.equal_eq_false_iff _ _).mpr hne]

theorem realsEqual_ne_none (h : a.reals.length ≤ b.reals.length) : a.realsEqual b ≠ none :=
  equal_ne_none (List.forall₂_of_length_eq_of_get (by simpa using h) (by simp))

/-- If the reals are compared within bounds, so are the services. -/
theorem equal_of_realsEqual {reals : Bool} (h : a.realsEqual b = some reals) :
    a.equal b = some (reals && decide (a.compared = b.compared)) := by
  simp [equal, h, compared, Bool.and_assoc, beq_eq_decide]

theorem equal_eq_true_iff : a.equal b = some true ↔
    a.reals.map (·.compared) <+: b.reals.map (·.compared) ∧ a.compared = b.compared := by
  rw [← realsEqual_iff]
  cases h : a.realsEqual b with
  | none => simp [equal, h]
  | some reals => simp [equal_of_realsEqual h]

theorem equal_eq_false_iff : a.equal b = some false ↔ a.Differs b := by
  rw [Differs, ← realsEqual_eq_false_iff]
  cases h : a.realsEqual b with
  | none =>
    have hlong : ¬ a.reals.length ≤ b.reals.length := fun hle => realsEqual_ne_none hle h
    simp [equal, h, hlong]
  | some reals =>
    cases reals with
    | false => simp [equal_of_realsEqual h]
    | true =>
      have hle : a.reals.length ≤ b.reals.length := length_le_of_equal h
      simp [equal_of_realsEqual h, hle]

theorem length_le_of_equal_eq_true (h : a.equal b = some true) :
    a.reals.length ≤ b.reals.length := by
  simpa using (equal_eq_true_iff.mp h).1.length_le

theorem equal_ne_none_of_length_le (h : a.reals.length ≤ b.reals.length) : a.equal b ≠ none := by
  obtain ⟨reals, hreals⟩ := Option.ne_none_iff_exists'.mp (realsEqual_ne_none h)
  simp [equal_of_realsEqual hreals]

theorem equal_iff_same (h : a.reals.length = b.reals.length) :
    a.equal b = some true ↔ a.Same b := by
  rw [equal_eq_true_iff, Same]
  refine and_congr_left' ⟨fun hfirst => ?_, fun heq => heq ▸ List.prefix_rfl⟩
  exact hfirst.eq_of_length (by simpa using h)

theorem Same.symm (h : a.Same b) : b.Same a :=
  ⟨h.1.symm, h.2.symm⟩

theorem equal_refl (a : BalancerService) : a.equal a = some true :=
  (equal_iff_same rfl).mpr ⟨rfl, rfl⟩

theorem equal_trans (h : a.equal b = some true) (h' : b.equal c = some true) :
    a.equal c = some true := by
  rw [equal_eq_true_iff] at h h' ⊢
  exact ⟨h.1.trans h'.1, h.2.trans h'.2⟩

end BalancerService

namespace BaseConfig

/-- `BaseConfig::operator==`; `none` if it reads past the end of a list of the other. -/
def equal (a b : BaseConfig) : Option Bool :=
  Compare.equal BalancerService.equal a.services b.services

/-- As many services, and in each as many reals. -/
def SameShape (a b : BaseConfig) : Prop :=
  List.Forall₂ (fun service service' => service.reals.length = service'.reals.length)
    a.services b.services

/-- The same services, as far as they are compared. -/
def SameServices (a b : BaseConfig) : Prop :=
  List.Forall₂ BalancerService.Same a.services b.services

/-- Services in the same place differ, and before them no service has more reals than that in its
    place. -/
def Differs (a b : BaseConfig) : Prop :=
  ∃ i : ℕ, (∃ service ∈ a.services[i]?, ∃ service' ∈ b.services[i]?, service.Differs service') ∧
    ∀ j < i, ∀ service ∈ a.services[j]?, ∀ service' ∈ b.services[j]?,
      service.reals.length ≤ service'.reals.length

/-- The configurations have the same shape, or differ before a list of the second one ends. -/
def Comparable (a b : BaseConfig) : Prop :=
  a.SameShape b ∨ a.Differs b

end BaseConfig

/-- `ConfigManager::Equal`. -/
def managerEqual (currConfig : Option BaseConfig) (conf : BaseConfig) : Option Bool :=
  match currConfig with
  | none => some false
  | some config => config.equal conf

/-- The laws of `a == b`: it reads nothing past an end, and if it is true, then so is `b == a`, the
    configurations have the same shape, and a manager whose configuration is `a` is equal only to a
    configuration with the same services. -/
structure BaseConfig.Compares (a b : BaseConfig) : Prop where
  inBounds : a.equal b ≠ none
  symm : a.equal b = some true → b.equal a = some true
  shape : a.equal b = some true → a.SameShape b
  manager : managerEqual (some a) b = some true → a.SameServices b

/-- The laws of an equivalence. -/
structure BaseConfig.Laws (a b c : BaseConfig) : Prop where
  refl : a.equal a = some true
  trans : a.equal b = some true → b.equal c = some true → a.equal c = some true
  first : a.Compares b
  second : b.Compares c
  both : a.Compares c

/-! ## Configurations -/

namespace BaseConfig

variable {a b c : BaseConfig}

theorem equal_refl (a : BaseConfig) : a.equal a = some true :=
  Compare.equal_refl BalancerService.equal_refl a.services

theorem equal_trans (h : a.equal b = some true) (h' : b.equal c = some true) :
    a.equal c = some true := by
  refine Compare.equal_trans ?_ h h'
  exact fun _ _ _ => BalancerService.equal_trans

theorem equal_eq_false_iff : a.equal b = some false ↔ a.Differs b := by
  constructor
  · intro h
    obtain ⟨i, ⟨service, hservice, service', hservice', hne⟩, hbefore⟩ := exists_of_equal_eq_false h
    exact ⟨i, ⟨service, hservice, service', hservice', BalancerService.equal_eq_false_iff.mp hne⟩,
      fun j hj s hs t ht => BalancerService.length_le_of_equal_eq_true (hbefore j hj s hs t ht)⟩
  · rintro ⟨i, ⟨service, hservice, service', hservice', hdiffers⟩, hbefore⟩
    exact equal_eq_false_of hservice hservice' (BalancerService.equal_eq_false_iff.mpr hdiffers)
      fun j hj s hs t ht => BalancerService.equal_ne_none_of_length_le (hbefore j hj s hs t ht)

theorem SameShape.symm (h : a.SameShape b) : b.SameShape a :=
  (h.imp fun _ _ => Eq.symm).flip

theorem SameServices.symm (h : a.SameServices b) : b.SameServices a :=
  (h.imp fun _ _ => BalancerService.Same.symm).flip

theorem SameShape.equal_ne_none (h : a.SameShape b) : a.equal b ≠ none := by
  refine Compare.equal_ne_none ?_
  rw [h.length_eq, List.take_length]
  exact h.imp fun _ _ hlength => BalancerService.equal_ne_none_of_length_le hlength.le

/-- Of configurations of the same shape the comparison is that of their services. -/
theorem SameShape.equal_iff (h : a.SameShape b) : a.equal b = some true ↔ a.SameServices b :=
  (equal_eq_true_iff_of_length_eq h.length_eq).trans
    ⟨h.mp fun _ _ hlength => (BalancerService.equal_iff_same hlength).mp,
      h.mp fun _ _ hlength => (BalancerService.equal_iff_same hlength).mpr⟩

theorem SameShape.compares (h : a.SameShape b) : a.Compares b where
  inBounds := h.equal_ne_none
  symm htrue := h.symm.equal_iff.mpr (h.equal_iff.mp htrue).symm
  shape _ := h
  manager := h.equal_iff.mp

theorem Differs.compares (h : a.Differs b) : a.Compares b := by
  have hfalse : a.equal b = some false := equal_eq_false_iff.mpr h
  constructor <;> simp [hfalse, managerEqual]

/-- Two configurations can be compared exactly if they are comparable. -/
theorem compares_iff : a.Compares b ↔ a.Comparable b := by
  refine ⟨fun h => ?_, fun h => h.elim SameShape.compares Differs.compares⟩
  cases hequal : a.equal b with
  | none => exact absurd hequal h.inBounds
  | some equal =>
    cases equal with
    | true => exact .inl (h.shape hequal)
    | false => exact .inr (equal_eq_false_iff.mp hequal)

/-- Equality is an equivalence among comparable configurations. For all configurations `a`, `b` and
    `c`: the laws of an equivalence hold of them exactly if each is comparable with those after
    it. -/
theorem laws_iff (a b c : BaseConfig) :
    Laws a b c ↔ a.Comparable b ∧ b.Comparable c ∧ a.Comparable c := by
  simp only [← compares_iff]
  exact ⟨fun h => ⟨h.first, h.second, h.both⟩,
    fun ⟨first, second, both⟩ => ⟨equal_refl a, equal_trans, first, second, both⟩⟩

def demoWeb : BaseConfig where
  services := [
    { reals := [{ ip := "10.0.1.1", enabled := true, port := 80 }]
      name := "web", vip := "10.0.0.1", protocol := "tcp", port := 80, type := .rr }]

/-- No services are equal to one, which can not be compared with them. -/
theorem demoWeb_not_laws : ¬ Laws { services := [] } demoWeb demoWeb := by
  intro h
  have hsymm : demoWeb.equal { services := [] } = some true := h.first.symm rfl
  have hpast : demoWeb.equal { services := [] } = none := rfl
  simp [hpast] at hsymm

end BaseConfig

end L4Balancer
