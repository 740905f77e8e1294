import L4Balancer.Control.Dataplane
import L4Balancer.Control.Layout
import L4Balancer.Xdp.Frame

/-!
# Publishing

What the writes of a reload up to its flip make of the two buffers (`Published`):
the buffer that is not active gets the batches of backends and services, upserted
over what it held, and becomes the active one; the other one is left alone.

Packets and the writes after the flip leave both buffers alone (`SameBuffers`).
-/

namespace L4Balancer

open Bpf

variable {cpus : ℕ} {m m' m₁ m₂ : Maps cpus}

namespace Maps

theorem servicesAt_setServices (m : Maps cpus) (b b' : Fin 2)
    (s : HashMap ServiceKey ServiceInfo 256) :
    (m.setServices b s).servicesAt b' = if b' = b then s else m.servicesAt b' := by
  fin_cases b <;> fin_cases b' <;> rfl

theorem servicesAt_setBackends (m : Maps cpus) (b b' : Fin 2) (a : ArrayMap Backend 1024) :
    (m.setBackends b a).servicesAt b' = m.servicesAt b' := by
  fin_cases b <;> rfl

theorem backendsAt_setBackends (m : Maps cpus) (b b' : Fin 2) (a : ArrayMap Backend 1024) :
    (m.setBackends b a).backendsAt b' = if b' = b then a else m.backendsAt b' := by
  fin_cases b <;> fin_cases b' <;> rfl

theorem backendsAt_setServices (m : Maps cpus) (b b' : Fin 2)
    (s : HashMap ServiceKey ServiceInfo 256) :
    (m.setServices b s).backendsAt b' = m.backendsAt b' := by
  fin_cases b <;> rfl

theorem atomicIndex_setServices (m : Maps cpus) (b : Fin 2)
    (s : HashMap ServiceKey ServiceInfo 256) : (m.setServices b s).atomicIndex = m.atomicIndex := by
  fin_cases b <;> rfl

theorem atomicIndex_setBackends (m : Maps cpus) (b : Fin 2) (a : ArrayMap Backend 1024) :
    (m.setBackends b a).atomicIndex = m.atomicIndex := by
  fin_cases b <;> rfl

end Maps

/-! ## Frames -/

/-- `m'` has the buffers of `m`, and the same of them is active. -/
structure SameBuffers (m m' : Maps cpus) : Prop where
  services : ∀ b, m'.servicesAt b = m.servicesAt b
  backends : ∀ b, m'.backendsAt b = m.backendsAt b
  atomicIndex : m'.atomicIndex = m.atomicIndex

namespace SameBuffers

theorem refl (m : Maps cpus) : SameBuffers m m := ⟨fun _ => rfl, fun _ => rfl, rfl⟩

theorem trans (h : SameBuffers m m₁) (h' : SameBuffers m₁ m₂) : SameBuffers m m₂ where
  services b := (h'.services b).trans (h.services b)
  backends b := (h'.backends b).trans (h.backends b)
  atomicIndex := h'.atomicIndex.trans h.atomicIndex

theorem of_tables (h : m'.tables = m.tables) : SameBuffers m m' :=
  ⟨Maps.servicesAt_congr h, Maps.backendsAt_congr h, Maps.atomicIndex_congr h⟩

theorem activeBuffer (h : SameBuffers m m') : m'.activeBuffer = m.activeBuffer := by
  rw [Maps.activeBuffer, h.atomicIndex, Maps.activeBuffer]

theorem activeServices (h : SameBuffers m m') : m'.activeServices = m.activeServices := by
  rw [Maps.activeServices, h.activeBuffer, h.services, Maps.activeServices]

theorem activeBackends (h : SameBuffers m m') : m'.activeBackends = m.activeBackends := by
  rw [Maps.activeBackends, h.activeBuffer, h.backends, Maps.activeBackends]

end SameBuffers

/-- The writes up to the flip. -/
def Write.publishes : Write → Bool
  | backend .. | service .. | atomicIndex .. => true
  | _ => false

/-- The writes to the maps of consistent hash. -/
def Write.isCh : Write → Bool
  | chConfig .. | chBackend .. | chCurrLookup .. | chPrevLookup .. => true
  | _ => false

theorem Write.publishes_of_isCh {w : Write} (h : w.isCh) : w.publishes = false := by
  cases w <;> first | rfl | cases h

theorem mem_writesFrom {α : Type*} {write : ℕ → α → Write} {i : ℕ} {as : List α} {w : Write}
    (h : w ∈ writesFrom write i as) : ∃ j a, w = write j a := by
  induction as generalizing i with
  | nil => cases h
  | cons a as ih =>
    rcases List.mem_cons.1 h with rfl | h
    · exact ⟨i, a, rfl⟩
    · exact ih h

theorem ChPublication.isCh_of_mem (p : ChPublication) : ∀ w ∈ p.writes, w.isCh := by
  intro w hw
  simp only [writes, List.mem_append, List.mem_cons, List.not_mem_nil, or_false] at hw
  rcases hw with (((rfl | rfl) | hw) | hw) | hw
  · rfl
  · rfl
  all_goals
    obtain ⟨j, a, rfl⟩ := mem_writesFrom hw
    rfl

/-- The other writes leave the buffers alone. -/
theorem SameBuffers.of_run {w : Write} (h : w.run m = some m') (hw : w.publishes = false) :
    SameBuffers m m' := by
  cases w with
  | backend | service | atomicIndex => exact absurd hw (by simp [Write.publishes])
  | deleteWrrState | deleteSession =>
    obtain rfl := Option.some.inj h
    exact ⟨fun _ => rfl, fun _ => rfl, rfl⟩
  | rrIndex | chConfig | chBackend | chCurrLookup | chPrevLookup | backendStats | serviceStats =>
    obtain ⟨a, -, rfl⟩ := Option.map_eq_some_iff.1 h
    exact ⟨fun _ => rfl, fun _ => rfl, rfl⟩

/-- What the writes up to the flip do depends on the buffers only. -/
theorem SameBuffers.run {w : Write} (hs : SameBuffers m₁ m₂) (hw : w.publishes)
    (h : w.run m₁ = some m) : ∃ m', w.run m₂ = some m' ∧ SameBuffers m m' := by
  cases w with
  | backend buffer i b =>
    obtain ⟨a, ha, rfl⟩ := Option.map_eq_some_iff.1 h
    refine ⟨m₂.setBackends buffer a, ?_, fun b' => ?_, fun b' => ?_, ?_⟩
    · rw [Write.run, hs.backends, ha, Option.map_some]
    · simp only [Maps.servicesAt_setBackends, hs.services]
    · simp only [Maps.backendsAt_setBackends, hs.backends]
    · simp only [Maps.atomicIndex_setBackends, hs.atomicIndex]
  | service buffer key info =>
    obtain ⟨a, ha, rfl⟩ := Option.map_eq_some_iff.1 h
    refine ⟨m₂.setServices buffer a, ?_, fun b' => ?_, fun b' => ?_, ?_⟩
    · rw [Write.run, hs.services, ha, Option.map_some]
    · simp only [Maps.servicesAt_setServices, hs.services]
    · simp only [Maps.backendsAt_setServices, hs.backends]
    · simp only [Maps.atomicIndex_setServices, hs.atomicIndex]
  | atomicIndex buffer =>
    rw [Write.run] at h
    obtain ⟨a, ha, rfl⟩ := Option.map_eq_some_iff.1 h
    refine ⟨{ m₂ with atomicIndex := a }, ?_, hs.services, hs.backends, rfl⟩
    rw [Write.run, hs.atomicIndex, ha, Option.map_some]
  | _ => cases hw

/-! ## Runs of writes -/

theorem runWrites_cons {w : Write} {ws : List Write} :
    runWrites m (w :: ws) = (m', true) ↔ ∃ m₁, w.run m = some m₁ ∧ runWrites m₁ ws = (m', true) := by
  rw [runWrites]
  cases w.run m <;> simp

theorem runWrites_append {ws ws' : List Write} :
    runWrites m (ws ++ ws') = (m', true) ↔
      ∃ m₁, runWrites m ws = (m₁, true) ∧ runWrites m₁ ws' = (m', true) := by
  induction ws generalizing m with
  | nil => simp [runWrites]
  | cons w ws ih => simp only [List.cons_append, runWrites_cons, ih]; tauto

/-- What every write of a batch keeps, the batch keeps, however far it gets. -/
theorem rel_runWrites {R : Maps cpus → Maps cpus → Prop} (hrefl : ∀ m, R m m)
    (htrans : ∀ m m₁ m₂, R m m₁ → R m₁ m₂ → R m m₂) {ws : List Write}
    (hws : ∀ w ∈ ws, ∀ m m', w.run m = some m' → R m m') (m : Maps cpus) :
    R m (runWrites m ws).1 := by
  induction ws generalizing m with
  | nil => exact hrefl m
  | cons w ws ih =>
    rw [List.forall_mem_cons] at hws
    rw [runWrites]
    cases hw : w.run m with
    | none => exact hrefl m
    | some m₁ => exact htrans _ _ _ (hws.1 m m₁ hw) (ih hws.2 m₁)

/-- A batch of writes to an array: `get` and `set` are the ways to the array in the maps. -/
theorem runWrites_array {α : Type*} {n : ℕ} {write : ℕ → α → Write}
    (get : Maps cpus → ArrayMap α n) (set : Maps cpus → ArrayMap α n → Maps cpus)
    (hrun : ∀ m i a, (write i a).run m = ((get m).update i a).map (set m))
    (hget : ∀ m a, get (set m a) = a) (hset : ∀ m a a', set (set m a) a' = set m a')
    (hself : ∀ m, set m (get m) = m) {i : ℕ} {as : List α}
    (h : runWrites m (writesFrom write i as) = (m', true)) :
    ∃ a, (get m).updateFrom i as = some a ∧ m' = set m a := by
  induction as generalizing m i with
  | nil =>
    obtain ⟨rfl, -⟩ := Prod.mk.inj h
    exact ⟨_, rfl, (hself m).symm⟩
  | cons v as ih =>
    obtain ⟨m₁, h₁, h₂⟩ := runWrites_cons.1 h
    rw [hrun] at h₁
    obtain ⟨a₁, ha₁, rfl⟩ := Option.map_eq_some_iff.1 h₁
    obtain ⟨a, ha, rfl⟩ := ih h₂
    rw [hget] at ha
    exact ⟨a, by rw [ArrayMap.updateFrom, ha₁, Option.bind_some, ha], hset m a₁ a⟩

/-- A batch of writes that fits. -/
theorem runWrites_of_le {α : Type*} {n : ℕ} (write : ℕ → α → Write)
    (get : Maps cpus → ArrayMap α n) (set : Maps cpus → ArrayMap α n → Maps cpus)
    (hrun : ∀ m i a, (write i a).run m = ((get m).update i a).map (set m)) {i : ℕ} {as : List α}
    (h : i + as.length ≤ n) (m : Maps cpus) :
    ∃ m', runWrites m (writesFrom write i as) = (m', true) := by
  induction as generalizing m i with
  | nil => exact ⟨m, rfl⟩
  | cons v as ih =>
    rw [List.length_cons] at h
    have hi : i < n := by omega
    obtain ⟨a, ha⟩ : ∃ a, (get m).update i v = some a := ⟨_, dif_pos hi⟩
    obtain ⟨m', hm'⟩ := ih (i := i + 1) (by omega) (set m a)
    exact ⟨m', runWrites_cons.2 ⟨set m a, by rw [hrun, ha, Option.map_some], hm'⟩⟩

theorem runWrites_backends {b : Fin 2} {i : ℕ} {bs : List Backend}
    (h : runWrites m (writesFrom (.backend b) i bs) = (m', true)) :
    ∃ a, (m.backendsAt b).updateFrom i bs = some a ∧ m' = m.setBackends b a := by
  refine runWrites_array (·.backendsAt b) (·.setBackends b ·) (fun _ _ _ => rfl)
    (fun m a => ?_) (fun m a a' => ?_) (fun m => ?_) h
  · rw [Maps.backendsAt_setBackends, if_pos rfl]
  · fin_cases b <;> rfl
  · fin_cases b <;> rfl

theorem runWrites_services {b : Fin 2} {es : List (ServiceKey × ServiceInfo)} :
    runWrites m (es.map fun e => .service b e.1 e.2) = (m', true) ↔
      ∃ s, (m.servicesAt b).updateAll es = some s ∧ m' = m.setServices b s := by
  induction es generalizing m with
  | nil =>
    have hself : m.setServices b (m.servicesAt b) = m := by fin_cases b <;> rfl
    simp [runWrites, HashMap.updateAll, hself, eq_comm]
  | cons e es ih =>
    obtain ⟨key, info⟩ := e
    rw [List.map_cons, runWrites_cons, HashMap.updateAll, Write.run]
    cases hs : (m.servicesAt b).update key info with
    | none => simp
    | some s₁ =>
      have hset : ∀ s, (m.setServices b s₁).setServices b s = m.setServices b s := fun s => by
        fin_cases b <;> rfl
      simp [ih, Maps.servicesAt_setServices, hset]

theorem runWrites_atomicIndex {b : Fin 2} (h : runWrites m [.atomicIndex b] = (m', true)) :
    (∀ b', m'.servicesAt b' = m.servicesAt b') ∧ (∀ b', m'.backendsAt b' = m.backendsAt b') ∧
      m'.activeBuffer = b := by
  obtain ⟨m₁, h₁, h₂⟩ := runWrites_cons.1 h
  obtain ⟨rfl, -⟩ := Prod.mk.inj h₂
  rw [Write.run] at h₁
  obtain ⟨a, ha, rfl⟩ := Option.map_eq_some_iff.1 h₁
  have ha := ArrayMap.lookup_of_update ha 0
  rw [if_pos rfl] at ha
  exact ⟨fun _ => rfl, fun _ => rfl, Option.some.inj ha⟩

/-- The writes up to the flip, in order. -/
def XdpConfig.publishWrites (xdp : XdpConfig) (buffer : Fin 2) : List Write :=
  xdp.backendWrites buffer ++ xdp.serviceWrites buffer ++ [.atomicIndex buffer]

/-- `m'` is `m` with the vectors `xdp` published in `buffer`. -/
structure Published (xdp : XdpConfig) (buffer : Fin 2) (m m' : Maps cpus) : Prop where
  backends : (m.backendsAt buffer).updateFrom 0 xdp.backends = some (m'.backendsAt buffer)
  services : (m.servicesAt buffer).updateAll (xdp.keys.zip xdp.services) =
    some (m'.servicesAt buffer)
  backends_ne : ∀ b ≠ buffer, m'.backendsAt b = m.backendsAt b
  services_ne : ∀ b ≠ buffer, m'.servicesAt b = m.servicesAt b
  active : m'.activeBuffer = buffer

theorem Published.of_runWrites {xdp : XdpConfig} {buffer : Fin 2}
    (h : runWrites m (xdp.publishWrites buffer) = (m', true)) : Published xdp buffer m m' := by
  obtain ⟨m₂, h, hflip⟩ := runWrites_append.1 h
  obtain ⟨m₁, hb, hws⟩ := runWrites_append.1 h
  obtain ⟨a, ha, rfl⟩ := runWrites_backends hb
  obtain ⟨s, hs, rfl⟩ := runWrites_services.1 hws
  obtain ⟨hsvc, hback, hact⟩ := runWrites_atomicIndex hflip
  simp only [Maps.servicesAt_setServices, Maps.servicesAt_setBackends] at hsvc hs
  simp only [Maps.backendsAt_setServices, Maps.backendsAt_setBackends] at hback
  constructor
  · rw [ha, hback, if_pos rfl]
  · rw [hs, hsvc, if_pos rfl]
  · intro b hb
    rw [hback, if_neg hb]
  · intro b hb
    rw [hsvc, if_neg hb]
  · exact hact

theorem Published.congr {xdp : XdpConfig} {buffer : Fin 2} (h : Published xdp buffer m m₁)
    (hs : SameBuffers m₁ m') : Published xdp buffer m m' where
  backends := by rw [hs.backends, h.backends]
  services := by rw [hs.services, h.services]
  backends_ne b hb := by rw [hs.backends, h.backends_ne b hb]
  services_ne b hb := by rw [hs.services, h.services_ne b hb]
  active := by rw [hs.activeBuffer, h.active]

end L4Balancer
