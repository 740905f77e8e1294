import L4Balancer.Control.Reloader
import L4Balancer.Xdp.Session

/-!
# The phases of a reload

Between its call and its end, a reload is in one of four phases (`Phase`), whatever
packets come in between and whatever calls fail:

* *loading*: it has written nothing to the buffers;
* *publishing*: it has made some of the writes to the buffer that is not active, and
  the others are the next tasks, with the flip behind them;
* *switched*: the flip is made; the tasks left are *tame*, they leave the buffers
  alone;
* *stopped*: it has returned an error before the flip.

Every event keeps this (`Phase.step`), and so does a run (`Phase.run`).
-/

namespace L4Balancer

open Bpf

variable {cpus : ℕ} {m m' m₁ m₂ : Maps cpus}

theorem SameBuffers.symm (h : SameBuffers m m') : SameBuffers m' m :=
  ⟨fun b => (h.services b).symm, fun b => (h.backends b).symm, h.atomicIndex.symm⟩

/-- `m'` differs from `m` at most in the buffer `b`, as far as the buffers are concerned. -/
structure Spares (b : Fin 2) (m m' : Maps cpus) : Prop where
  services : ∀ b' ≠ b, m'.servicesAt b' = m.servicesAt b'
  backends : ∀ b' ≠ b, m'.backendsAt b' = m.backendsAt b'
  active : m'.activeBuffer = m.activeBuffer

namespace Spares

variable {b : Fin 2}

theorem trans (h : Spares b m m₁) (h' : Spares b m₁ m₂) : Spares b m m₂ where
  services b' hb := (h'.services b' hb).trans (h.services b' hb)
  backends b' hb := (h'.backends b' hb).trans (h.backends b' hb)
  active := h'.active.trans h.active

theorem of_same (h : SameBuffers m m') (b : Fin 2) : Spares b m m' :=
  ⟨fun b _ => h.services b, fun b _ => h.backends b, h.activeBuffer⟩

/-- Sparing the active buffer. -/
theorem activeServices (h : Spares b m m') (hb : m.activeBuffer ≠ b) :
    m'.activeServices = m.activeServices := by
  rw [Maps.activeServices, h.active, h.services _ hb, Maps.activeServices]

theorem activeBackends (h : Spares b m m') (hb : m.activeBuffer ≠ b) :
    m'.activeBackends = m.activeBackends := by
  rw [Maps.activeBackends, h.active, h.backends _ hb, Maps.activeBackends]

end Spares

/-- The write is one to the services or the backends of the buffer `b`. -/
def Write.Fills (b : Fin 2) : Write → Prop
  | backend b' .. | service b' .. => b' = b
  | _ => False

theorem Write.Fills.publishes {b : Fin 2} {w : Write} (h : w.Fills b) : w.publishes := by
  cases w <;> first | rfl | cases h

theorem Write.Fills.spares {b : Fin 2} {w : Write} (hw : w.Fills b) (h : w.run m = some m') :
    Spares b m m' := by
  cases w with
  | backend b' i back =>
    obtain rfl : b' = b := hw
    obtain ⟨a, -, rfl⟩ := Option.map_eq_some_iff.1 h
    refine ⟨fun c _ => m.servicesAt_setBackends _ c a, fun c hc => ?_, ?_⟩
    · rw [Maps.backendsAt_setBackends, if_neg hc]
    · rw [Maps.activeBuffer, Maps.atomicIndex_setBackends, Maps.activeBuffer]
  | service b' key info =>
    obtain rfl : b' = b := hw
    obtain ⟨s, -, rfl⟩ := Option.map_eq_some_iff.1 h
    refine ⟨fun c hc => ?_, fun c _ => m.backendsAt_setServices _ c s, ?_⟩
    · rw [Maps.servicesAt_setServices, if_neg hc]
    · rw [Maps.activeBuffer, Maps.atomicIndex_setServices, Maps.activeBuffer]
  | _ => cases hw

namespace XdpConfig

variable (xdp : XdpConfig) (b : Fin 2)

/-- The two batches. -/
def fillWrites : List Write := xdp.backendWrites b ++ xdp.serviceWrites b

variable {xdp b}

theorem fills_of_mem {w : Write} (h : w ∈ xdp.fillWrites b) : w.Fills b := by
  rcases List.mem_append.1 h with h | h
  · obtain ⟨j, back, rfl⟩ := mem_writesFrom h
    rfl
  · obtain ⟨e, -, rfl⟩ := List.mem_map.1 h
    rfl

end XdpConfig

theorem Spares.of_runWrites {b : Fin 2} {ws : List Write} (hws : ∀ w ∈ ws, w.Fills b)
    (h : runWrites m ws = (m', true)) : Spares b m m' := by
  induction ws generalizing m with
  | nil =>
    obtain ⟨rfl, -⟩ := Prod.mk.inj h
    exact .of_same (.refl m) b
  | cons w ws ih =>
    obtain ⟨m₁, h₁, h₂⟩ := runWrites_cons.1 h
    exact ((hws w List.mem_cons_self).spares h₁).trans
      (ih (fun w hw => hws w (List.mem_cons_of_mem _ hw)) h₂)

/-! ## Tame tasks -/

/-- The task leaves the buffers alone, and so do those it adds. -/
def Task.Tame : Task → Prop
  | write w _ | delete w => w.publishes = false
  | publication ws => ∀ w ∈ ws, w.publishes = false
  | ddosCfg _ | loadIndex _ => False
  | drainWrrState | drainSessions | service .. => True

theorem ChPublication.publishes_eq_false (p : ChPublication) :
    ∀ w ∈ p.writes, w.publishes = false :=
  fun w hw => Write.publishes_of_isCh (p.isCh_of_mem w hw)

variable {d d' : Dataplane cpus} {errno : Option String} {r : Except String (List Task)}

theorem Task.Tame.step {t : Task} (ht : t.Tame) (h : t.step errno d = (d', r)) :
    SameBuffers d.maps d'.maps ∧ d'.isFirstRun = d.isFirstRun ∧
      ∀ new, r = .ok new → ∀ t ∈ new, t.Tame := by
  have hstep := TaskStep.of_step errno d t
  rw [h] at hstep
  cases hstep with
  | idle hnew =>
    refine ⟨.refl _, rfl, fun new hr t ht => ?_⟩
    rw [hnew new hr] at ht
    cases ht
  | ddosCfg => cases ht
  | remove => exact ⟨.refl _, rfl, by simp⟩
  | write hw => exact ⟨.of_run (Write.run_of_call hw) ht, rfl, by simp⟩
  | delete hw => exact ⟨.of_run (Write.run_of_call hw) ht, rfl, by simp⟩
  | loadIndex => cases ht
  | drainWrrState | drainSessions =>
    refine ⟨.refl _, rfl, fun new hnew => ?_⟩
    obtain rfl := Except.ok.inj hnew
    simp [Tame, Write.publishes]
  | @service _ _ _ p =>
    refine ⟨.refl _, rfl, fun new hnew t ht => ?_⟩
    obtain rfl := Except.ok.inj hnew
    obtain rfl := List.mem_singleton.1 ht
    exact p.publishes_eq_false
  | skip =>
    refine ⟨.refl _, rfl, fun new hnew t htn => ?_⟩
    obtain rfl := Except.ok.inj hnew
    obtain rfl := List.mem_singleton.1 htn
    exact fun w hw => ht w (List.mem_cons_of_mem _ hw)
  | publish hw =>
    refine ⟨.of_run (Write.run_of_call hw) (ht _ List.mem_cons_self), rfl, fun new hnew t htn => ?_⟩
    obtain rfl := Except.ok.inj hnew
    obtain rfl := List.mem_singleton.1 htn
    exact fun w hw => ht w (List.mem_cons_of_mem _ hw)

/-! ## Phases -/

/-- The buffer that a reload publishes in, if it finds the maps `m₀`. -/
abbrev Maps.target (m₀ : Maps cpus) : Fin 2 := 1 - m₀.activeBuffer

theorem Maps.activeBuffer_ne_target (m₀ : Maps cpus) : m₀.activeBuffer ≠ m₀.target := by
  generalize hb : m₀.activeBuffer = b
  rw [Maps.target, hb]
  fin_cases b <;> decide

/-- The phases of a reload with `config` that found the maps `m₀`. -/
inductive Phase (env : Env) (config : BaseConfig) (m₀ : Maps cpus) : Process cpus → Prop
  | loading {p : Process cpus} {xdp : XdpConfig} : config.load env = (xdp, none) →
      p.dataplane.xdp = xdp →
      p.tasks = [.loadIndex env] ∨ (∃ conf, p.tasks = [.ddosCfg conf, .loadIndex env]) →
      SameBuffers m₀ p.maps → (p.dataplane.isFirstRun → m₀.activeBuffer = 0) →
      Phase env config m₀ p
  | publishing {p : Process cpus} {xdp : XdpConfig} {done todo : List Write} {m₁ : Maps cpus}
      {tasks rest : List Task} : config.load env = (xdp, none) →
      xdp.fillWrites m₀.target = done ++ todo → runWrites m₀ done = (m₁, true) →
      SameBuffers m₁ p.maps → p.tasks = tasks ++ .write (.atomicIndex m₀.target) indexError :: rest →
      List.Forall₂ (fun w t => ∃ error, t = Task.write w error) todo tasks →
      (∀ t ∈ rest, t.Tame) → p.dataplane.isFirstRun = false → Phase env config m₀ p
  | switched {p : Process cpus} {xdp : XdpConfig} : config.load env = (xdp, none) →
      Published xdp m₀.target m₀ p.maps → (∀ t ∈ p.tasks, t.Tame) →
      p.dataplane.isFirstRun = false → Phase env config m₀ p
  | stopped {p : Process cpus} : p.tasks = [] → Spares m₀.target m₀ p.maps →
      (p.dataplane.isFirstRun → m₀.activeBuffer = 0) → Phase env config m₀ p

namespace Phase

variable {env : Env} {config : BaseConfig} {m₀ : Maps cpus} {p : Process cpus}

/-- The two results: before the flip, the active buffer is the old one; after it, the new one. -/
theorem spares_or_published (h : Phase env config m₀ p) : Spares m₀.target m₀ p.maps ∨
    ∃ xdp, config.load env = (xdp, none) ∧ Published xdp m₀.target m₀ p.maps := by
  cases h with
  | loading _ _ _ hs _ => exact .inl (.of_same hs _)
  | publishing _ hfill hdone hs _ _ _ _ =>
    refine .inl (Spares.trans (.of_runWrites (fun w hw => ?_) hdone) (.of_same hs _))
    exact XdpConfig.fills_of_mem (hfill ▸ List.mem_append_left _ hw)
  | switched hload hpub _ _ => exact .inr ⟨_, hload, hpub⟩
  | stopped _ hs _ => exact .inl hs

/-- The first reload takes the buffer `0` for the active one, and rightly so. -/
theorem activeBuffer_of_isFirstRun (h : Phase env config m₀ p) (hf : p.dataplane.isFirstRun) :
    p.maps.activeBuffer = 0 := by
  cases h with
  | loading _ _ _ hs h0 => rw [hs.activeBuffer, h0 hf]
  | publishing _ _ _ _ _ _ _ hnf => exact absurd hf (by rw [hnf]; simp)
  | switched _ _ _ hnf => exact absurd hf (by rw [hnf]; simp)
  | stopped _ hs h0 => rw [hs.active, h0 hf]

/-- A change of the maps that leaves the buffers alone. -/
theorem of_sameBuffers (h : Phase env config m₀ p) {m : Maps cpus} (hm : SameBuffers p.maps m) :
    Phase env config m₀ { p with dataplane := { p.dataplane with maps := m } } := by
  cases h with
  | loading hload hxdp ht hs h0 => exact .loading hload hxdp ht (hs.trans hm) h0
  | publishing hload hfill hdone hs ht htasks hrest hf =>
    exact .publishing hload hfill hdone (hs.trans hm) ht htasks hrest hf
  | switched hload hpub ht hf => exact .switched hload (hpub.congr hm) ht hf
  | stopped ht hs h0 => exact .stopped ht (hs.trans (.of_same hm _)) h0

/-- The tasks behind the flip are tame. -/
theorem tame_of_mem {p : Process cpus} {t : Task}
    (h : t ∈ p.dataplane.xdp.rrWrites.map (Task.write · rrError) ++
      .drainWrrState :: p.dataplane.currConfig.services.map (Task.service env) ++
      .drainSessions :: (List.range p.dataplane.xdp.backends.length).map
        (fun i => Task.write (.backendStats i) (backendStatsError i)) ++
      p.dataplane.xdp.keys.map fun key => Task.write (.serviceStats key) serviceStatsError) :
    t.Tame := by
  simp only [List.mem_append, List.mem_cons, List.mem_map, XdpConfig.rrWrites] at h
  rcases h with ((⟨w, ⟨key, -, rfl⟩, rfl⟩ | rfl | ⟨s, -, rfl⟩) | rfl | ⟨i, -, rfl⟩) | ⟨key, -, rfl⟩ <;>
    first | rfl | trivial

/-- Reading the index: the tasks of the reload follow. -/
theorem of_loadIndex {d : Dataplane cpus} {xdp : XdpConfig} (hload : config.load env = (xdp, none))
    (hxdp : d.xdp = xdp) (hs : SameBuffers m₀ d.maps) (hf : d.isFirstRun = false) :
    Phase env config m₀ ⟨d, d.reloadTasks env m₀.activeBuffer⟩ := by
  subst hxdp
  have hempty : runWrites m₀ [] = (m₀, true) := rfl
  have hfill : d.xdp.fillWrites m₀.target = [] ++ d.xdp.fillWrites m₀.target := rfl
  refine .publishing hload hfill hempty hs rfl ?_ (fun t ht => tame_of_mem (p := ⟨d, []⟩) ht) hf
  refine List.rel_append ?_ ?_
  · exact List.forall₂_map_right_iff.2 (List.forall₂_same.2 fun w _ => ⟨_, rfl⟩)
  · exact List.forall₂_map_right_iff.2 (List.forall₂_same.2 fun w _ => ⟨_, rfl⟩)

/-- A write that fills the buffer. -/
theorem fill {xdp : XdpConfig} {done todo : List Write} {w : Write} {m₁ m : Maps cpus}
    {tasks rest : List Task} (hload : config.load env = (xdp, none))
    (hfill : xdp.fillWrites m₀.target = done ++ w :: todo) (hdone : runWrites m₀ done = (m₁, true))
    (hs : SameBuffers m₁ p.maps) (hw : w.run p.maps = some m)
    (htasks : List.Forall₂ (fun w t => ∃ error, t = Task.write w error) todo tasks)
    (hrest : ∀ t ∈ rest, t.Tame) (hf : p.dataplane.isFirstRun = false) :
    Phase env config m₀ ⟨{ p.dataplane with maps := m },
      tasks ++ .write (.atomicIndex m₀.target) indexError :: rest⟩ := by
  have hfills : w.Fills m₀.target :=
    XdpConfig.fills_of_mem (hfill ▸ List.mem_append_right _ List.mem_cons_self)
  obtain ⟨m₂, hm₂, hs₂⟩ := hs.symm.run hfills.publishes hw
  have hdone' : runWrites m₀ (done ++ [w]) = (m₂, true) :=
    runWrites_append.2 ⟨m₁, hdone, runWrites_cons.2 ⟨m₂, hm₂, rfl⟩⟩
  exact .publishing hload (by rw [hfill, List.append_assoc]; rfl) hdone' hs₂.symm rfl htasks hrest hf

/-- The flip. -/
theorem flip {xdp : XdpConfig} {done : List Write} {m₁ m : Maps cpus} {rest : List Task}
    (hload : config.load env = (xdp, none)) (hfill : xdp.fillWrites m₀.target = done)
    (hdone : runWrites m₀ done = (m₁, true)) (hs : SameBuffers m₁ p.maps)
    (hw : (Write.atomicIndex m₀.target).run p.maps = some m) (hrest : ∀ t ∈ rest, t.Tame)
    (hf : p.dataplane.isFirstRun = false) :
    Phase env config m₀ ⟨{ p.dataplane with maps := m }, rest⟩ := by
  obtain ⟨m₂, hm₂, hs₂⟩ := hs.symm.run rfl hw
  have hall : runWrites m₀ (xdp.publishWrites m₀.target) = (m₂, true) := by
    subst hfill
    exact runWrites_append.2 ⟨m₁, hdone, runWrites_cons.2 ⟨m₂, hm₂, rfl⟩⟩
  exact .switched hload ((Published.of_runWrites hall).congr hs₂.symm) hrest hf

/-- The next task keeps the phases. -/
theorem task (h : Phase env config m₀ p) (errno : Option String) :
    Phase env config m₀ (p.step errno).2 := by
  cases h with
  | @loading xdp hload hxdp ht hs h0 =>
    rcases ht with ht | ⟨conf, ht⟩
    · rw [Process.step, ht]
      dsimp only [Task.step]
      cases hf : p.dataplane.isFirstRun with
      | true =>
        rw [if_pos rfl, ← h0 hf]
        dsimp only
        rw [List.append_nil]
        exact of_loadIndex hload hxdp hs rfl
      | false =>
        rw [if_neg Bool.false_ne_true]
        cases errno with
        | some e => exact .stopped rfl (.of_same hs _) (by simp [hf])
        | none =>
          dsimp only
          rw [List.append_nil, hs.activeBuffer]
          exact of_loadIndex hload hxdp hs hf
    · rw [Process.step, ht]
      cases errno with
      | some e => exact .stopped rfl (.of_same hs _) h0
      | none => exact .loading hload hxdp (.inl rfl) hs h0
  | @publishing xdp done todo m₁ tasks rest hload hfill hdone hs ht htasks hrest hf =>
    have hstop : Spares m₀.target m₀ p.maps := by
      refine Spares.trans (.of_runWrites (fun w hw => ?_) hdone) (.of_same hs _)
      exact XdpConfig.fills_of_mem (hfill ▸ List.mem_append_left _ hw)
    cases htasks with
    | nil =>
      rw [Process.step, ht]
      dsimp only [List.nil_append, Task.step]
      cases hw : (Write.atomicIndex m₀.target).call errno p.dataplane.maps with
      | error e => exact .stopped rfl hstop (by simp [hf])
      | ok m =>
        rw [List.append_nil] at hfill
        exact flip hload hfill hdone hs (Write.run_of_call hw) hrest hf
    | @cons w t todo tasks hwt htasks =>
      obtain ⟨error, rfl⟩ := hwt
      rw [Process.step, ht]
      dsimp only [List.cons_append, Task.step]
      cases hw : w.call errno p.dataplane.maps with
      | error e => exact .stopped rfl hstop (by simp [hf])
      | ok m => exact fill hload hfill hdone hs (Write.run_of_call hw) htasks hrest hf
  | @switched xdp hload hpub ht hf =>
    rw [Process.step]
    cases htasks : p.tasks with
    | nil => exact .switched hload hpub ht hf
    | cons t tasks =>
      rw [htasks] at ht
      dsimp only
      rcases hstep : t.step errno p.dataplane with ⟨d, e | new⟩
      · obtain ⟨hs, hf', -⟩ := (ht t List.mem_cons_self).step hstep
        exact .switched hload (hpub.congr hs) (by simp) (hf'.trans hf)
      · obtain ⟨hs, hf', hnew⟩ := (ht t List.mem_cons_self).step hstep
        refine .switched hload (hpub.congr hs) (fun t' ht' => ?_) (hf'.trans hf)
        rcases List.mem_append.1 ht' with ht' | ht'
        · exact hnew new rfl t' ht'
        · exact ht t' (List.mem_cons_of_mem _ ht')
  | stopped ht hs h0 =>
    rw [Process.step, ht]
    exact .stopped ht hs h0

end Phase

/-- The event begins a reload. -/
def Event.isReload : Event cpus → Bool
  | .reload .. => true
  | _ => false

namespace Phase

variable {env : Env} {config : BaseConfig} {m₀ : Maps cpus} {p : Process cpus}

/-- The beginning of a reload. -/
theorem begin (env : Env) (config : BaseConfig) (hidle : p.tasks = [])
    (hfirst : p.dataplane.isFirstRun → p.maps.activeBuffer = 0) :
    Phase env config p.maps ((reloader cpus).next (.reload env config) p) := by
  rw [Machine.next, Process.step_reload hidle, Process.reload]
  rcases hload : config.load env with ⟨xdp, none | e⟩
  · refine .loading hload rfl ?_ (.refl _) hfirst
    cases config.ddosConf with
    | none => exact .inl rfl
    | some conf => exact .inr ⟨conf, rfl⟩
  · exact .stopped rfl (.of_same (.refl _) _) hfirst

/-- Packets and tasks keep the phases. -/
theorem step (h : Phase env config m₀ p) (e : Event cpus) (he : e.isReload = false) :
    Phase env config m₀ ((reloader cpus).next e p) := by
  cases e with
  | packet c => exact h.of_sameBuffers (.of_tables (tables_finder c p.maps))
  | reload => cases he
  | task errno => exact h.task errno

theorem run (h : Phase env config m₀ p) {es : List (Event cpus)}
    (hes : ∀ e ∈ es, e.isReload = false) : Phase env config m₀ ((reloader cpus).exec p es) := by
  induction es generalizing p with
  | nil => exact h
  | cons e es ih =>
    exact ih (h.step e (hes e List.mem_cons_self)) fun e' he' =>
      hes e' (List.mem_cons_of_mem e he')

end Phase

end L4Balancer
