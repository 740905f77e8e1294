import L4Balancer.Bpf.Drain
import L4Balancer.Control.Addressed
import L4Balancer.Control.Invisible
import L4Balancer.Xdp.Ownership

/-!
# After the sessions are emptied

Between its flip and its end a reload empties the states of weighted round robin, then the
sessions, while packets go on and store new ones. Once it has got to the statistics, all the
sessions are own (`Stage`): whatever packets came in between, each packet that is forwarded
from then on, up to the next flip, goes to an enabled real of its service in the loaded
configuration (`reload_settles`). The sessions of the old configuration are gone, and so are
those that packets stored between the flip and the first deletion.
-/

namespace L4Balancer

open Bpf

variable {cpus : ℕ} {env : Env} {config : BaseConfig} {m m' m₀ m₁ : Maps cpus} {p : Process cpus}
  {service : SessionStateKey → ServiceKey} {errno : Option String}

/-! ## Tasks store nothing -/

/-- The maps have no other sessions and states of weighted round robin than before. -/
structure Shrinks (m m' : Maps cpus) : Prop where
  wrr : ∀ k v, m'.wrrStateMap.lookup k = some v → m.wrrStateMap.lookup k = some v
  sessions : ∀ k v, m'.tcpSessionState.lookup k = some v → m.tcpSessionState.lookup k = some v

namespace Shrinks

theorem of_eq (hwrr : m'.wrrStateMap = m.wrrStateMap)
    (hsessions : m'.tcpSessionState = m.tcpSessionState) : Shrinks m m' :=
  ⟨by rw [hwrr]; exact fun _ _ h => h, by rw [hsessions]; exact fun _ _ h => h⟩

theorem of_run {w : Write} (h : w.run m = some m') : Shrinks m m' := by
  cases w with
  | deleteWrrState key =>
    obtain rfl := Option.some.inj h
    refine ⟨fun k v hk => ?_, fun _ _ h => h⟩
    rw [HashMap.lookup_delete] at hk
    split_ifs at hk
    exact hk
  | deleteSession key =>
    obtain rfl := Option.some.inj h
    refine ⟨fun _ _ h => h, fun k v hk => ?_⟩
    rw [HashMap.lookup_delete] at hk
    split_ifs at hk
    exact hk
  | backend b | service b =>
    obtain ⟨a, -, rfl⟩ := Option.map_eq_some_iff.1 h
    fin_cases b <;> exact .of_eq rfl rfl
  | _ =>
    rw [Write.run] at h
    obtain ⟨a, -, rfl⟩ := Option.map_eq_some_iff.1 h
    exact .of_eq rfl rfl

theorem of_step (t : Task) (errno : Option String) (d : Dataplane cpus) :
    Shrinks d.maps (t.step errno d).1.maps := by
  have hstep := TaskStep.of_step errno d t
  generalize (t.step errno d).1 = d' at hstep
  generalize (t.step errno d).2 = r at hstep
  cases hstep with
  | write hw | delete hw | publish hw => exact .of_run (Write.run_of_call hw)
  | _ => exact .of_eq rfl rfl

theorem of_process (p : Process cpus) (errno : Option String) :
    Shrinks p.maps (p.step errno).2.maps := by
  cases ht : p.tasks with
  | nil =>
    rw [Process.maps_step_nil ht]
    exact .of_eq rfl rfl
  | cons t tasks =>
    rw [Process.maps_step_cons ht]
    exact .of_step t errno p.dataplane

end Shrinks

theorem Cursors.shrink {services : HashMap ServiceKey ServiceInfo 256}
    (h : Cursors [] services m) (hs : Shrinks m m') : Cursors [] services m' :=
  ⟨by simp, fun key info st hinfo hst => h.wrr key info st hinfo (hs.wrr key st hst)⟩

/-- A change that leaves the active services and backends, and stores nothing. -/
theorem Settled.shrink (h : Settled service m) (hservices : m'.activeServices = m.activeServices)
    (hbackends : m'.activeBackends = m.activeBackends) (hs : Shrinks m m') : Settled service m' := by
  refine ⟨hservices ▸ h.cursors.shrink hs, fun k v hk info hinfo hfits => ?_⟩
  rw [hservices] at hinfo
  rw [hbackends]
  exact h.sessions k v (hs.sessions k v hk) info hinfo hfits

/-! ## The stages -/

/-- How far a reload that found the maps `m₀` has got. -/
inductive Stage (service : SessionStateKey → ServiceKey) (env : Env) (m₀ : Maps cpus) :
    Process cpus → Prop
  | loading {p : Process cpus} :
      p.tasks = [.loadIndex env] ∨ (∃ conf, p.tasks = [.ddosCfg conf, .loadIndex env]) →
      Stage service env m₀ p
  /-- The states of weighted round robin are not emptied. -/
  | cursors {p : Process cpus} (before : List Task) {after : List Task} :
      p.tasks = before ++ .drainWrrState :: after → .drainSessions ∈ after → Stage service env m₀ p
  /-- The sessions are not emptied. -/
  | sessions {p : Process cpus} : p.maps.activeBuffer = m₀.target →
      Cursors [] p.maps.activeServices p.maps → .drainSessions ∈ p.tasks → Stage service env m₀ p
  | settled {p : Process cpus} : p.maps.activeBuffer = m₀.target → Settled service p.maps →
      Stage service env m₀ p
  | stopped {p : Process cpus} : p.tasks = [] → Stage service env m₀ p

/-- When a reload empties a map it has flipped. -/
theorem Phase.switched_of_head {t : Task} {tasks : List Task} (h : Phase env config m₀ p)
    (ht : p.tasks = t :: tasks) (hdrains : t = .drainWrrState ∨ t = .drainSessions) :
    p.maps.activeBuffer = m₀.target := by
  cases h with
  | loading _ _ htasks =>
    rw [ht] at htasks
    rcases hdrains with rfl | rfl <;> simp at htasks
  | publishing _ _ _ _ htasks htodo =>
    rw [ht] at htasks
    cases htodo with
    | nil => rcases hdrains with rfl | rfl <;> cases htasks
    | cons hw =>
      obtain ⟨error, rfl⟩ := hw
      rcases hdrains with rfl | rfl <;> cases htasks
  | switched _ hpub => exact hpub.active
  | stopped htasks =>
    rw [ht] at htasks
    cases htasks

/-- After the flip, tasks leave the buffers alone. -/
theorem Phase.sameBuffers (h : Phase env config m₀ p) (hactive : p.maps.activeBuffer = m₀.target)
    (errno : Option String) : SameBuffers p.maps (p.step errno).2.maps := by
  have hne := m₀.activeBuffer_ne_target
  rcases h.task_cases errno with heq | ⟨ha, -⟩ | ⟨ha, -⟩ | ⟨-, hs⟩
  · rw [heq]
    exact .refl _
  · exact absurd (ha.symm.trans hactive) hne
  · exact absurd (ha.symm.trans hactive) hne
  · exact hs

/-- A task ends the reload, or puts its new tasks before the others. -/
theorem Process.tasks_step_cons {t : Task} {tasks : List Task} (ht : p.tasks = t :: tasks)
    (errno : Option String) : (p.step errno).2.tasks = [] ∨
      ∃ new, (t.step errno p.dataplane).2 = .ok new ∧ (p.step errno).2.tasks = new ++ tasks := by
  rw [step, ht]
  dsimp only
  rcases t.step errno p.dataplane with ⟨d, e | new⟩
  · exact .inl rfl
  · exact .inr ⟨new, rfl, rfl⟩

theorem Task.drainWrrState_step {new : List Task} {d : Dataplane cpus}
    (h : (drainWrrState.step errno d).2 = .ok new) :
    d.maps.wrrStateMap = .empty ∧ new = [] ∨
      ∃ key, new = [.delete (.deleteWrrState key), .drainWrrState] := by
  rw [step] at h
  cases hk : d.maps.wrrStateMap.keys.head? with
  | none =>
    rw [hk] at h
    exact .inl ⟨HashMap.eq_empty_of_head? hk, (Except.ok.inj h).symm⟩
  | some key =>
    rw [hk] at h
    exact .inr ⟨key, (Except.ok.inj h).symm⟩

theorem Task.drainSessions_step {new : List Task} {d : Dataplane cpus}
    (h : (drainSessions.step errno d).2 = .ok new) :
    d.maps.tcpSessionState = .empty ∧ new = [] ∨
      ∃ key, new = [.delete (.deleteSession key), .drainSessions] := by
  rw [step] at h
  cases hk : d.maps.tcpSessionState.keys.head? with
  | none =>
    rw [hk] at h
    exact .inl ⟨HashMap.eq_empty_of_head? hk, (Except.ok.inj h).symm⟩
  | some key =>
    rw [hk] at h
    exact .inr ⟨key, (Except.ok.inj h).symm⟩

theorem Task.loadIndex_step {new : List Task} {d : Dataplane cpus}
    (h : ((loadIndex env).step errno d).2 = .ok new) : ∃ b, new = d.reloadTasks env b := by
  dsimp only [step] at h
  split_ifs at h
  · exact ⟨0, (Except.ok.inj h).symm⟩
  · cases errno with
    | none => exact ⟨_, (Except.ok.inj h).symm⟩
    | some e => cases h

theorem Task.ddosCfg_step {conf : DDoSConfig} {new : List Task} {d : Dataplane cpus}
    (h : ((ddosCfg conf).step errno d).2 = .ok new) : new = [] := by
  cases errno with
  | none => exact (Except.ok.inj h).symm
  | some e => cases h

namespace Stage

/-- The tasks of a reload empty the states of weighted round robin, then the sessions. -/
theorem of_reloadTasks {d : Dataplane cpus} {b : Fin 2} (h : p.tasks = d.reloadTasks env b) :
    Stage service env m₀ p := by
  obtain ⟨before, after, htasks, hafter⟩ : ∃ before after,
      d.reloadTasks env b = before ++ .drainWrrState :: after ∧ .drainSessions ∈ after := by
    refine ⟨(d.xdp.backendWrites (1 - b)).map (.write · backendsError) ++
      (d.xdp.serviceWrites (1 - b)).map (.write · servicesError) ++
      .write (.atomicIndex (1 - b)) indexError :: d.xdp.rrWrites.map (.write · rrError), _,
      by simp [Dataplane.reloadTasks]; rfl, by simp⟩
  exact .cursors before (h.trans htasks) hafter

/-- A task keeps the stages in order. -/
theorem task (h : Stage service env m₀ p) (hphase : Phase env config m₀ p)
    (errno : Option String) : Stage service env m₀ (p.step errno).2 := by
  have hsame := fun hactive => hphase.sameBuffers hactive errno
  have hshrinks := Shrinks.of_process p errno
  cases h with
  | loading ht =>
    rcases ht with ht | ⟨conf, ht⟩
    · rcases Process.tasks_step_cons ht errno with hnil | ⟨new, hnew, htasks⟩
      · exact .stopped hnil
      · obtain ⟨b, rfl⟩ := Task.loadIndex_step hnew
        rw [List.append_nil] at htasks
        exact .of_reloadTasks htasks
    · rcases Process.tasks_step_cons ht errno with hnil | ⟨new, hnew, htasks⟩
      · exact .stopped hnil
      · obtain rfl := Task.ddosCfg_step hnew
        exact .loading (.inl htasks)
  | cursors before ht hafter =>
    cases before with
    | nil =>
      -- its turn has come: either the map is empty, or its first key is deleted
      have hs := hsame (hphase.switched_of_head ht (.inl rfl))
      rcases Process.tasks_step_cons ht errno with hnil | ⟨new, hnew, htasks⟩
      · exact .stopped hnil
      rcases Task.drainWrrState_step hnew with ⟨hempty, rfl⟩ | ⟨key, rfl⟩
      · refine .sessions (hs.activeBuffer.trans (hphase.switched_of_head ht (.inl rfl))) ?_ ?_
        · have hcursors : Cursors [] (p.step errno).2.maps.activeServices p.maps :=
            ⟨by simp, fun key info st _ hst => by rw [hempty] at hst; cases hst⟩
          exact hcursors.shrink hshrinks
        · rw [htasks]
          exact hafter
      · exact .cursors [_] htasks hafter
    | cons t before =>
      rcases Process.tasks_step_cons ht errno with hnil | ⟨new, -, htasks⟩
      · exact .stopped hnil
      · refine .cursors (new ++ before) ?_ hafter
        rw [htasks, List.append_assoc]
        rfl
  | sessions hactive hcursors ht =>
    have hs := hsame hactive
    have hactive' := hs.activeBuffer.trans hactive
    have hcursors' : Cursors [] (p.step errno).2.maps.activeServices (p.step errno).2.maps :=
      hs.activeServices.symm ▸ hcursors.shrink hshrinks
    cases htasks : p.tasks with
    | nil =>
      rw [htasks] at ht
      cases ht
    | cons t tasks =>
      rcases Process.tasks_step_cons htasks errno with hnil | ⟨new, hnew, htasks'⟩
      · exact .stopped hnil
      rw [htasks] at ht
      -- the loop is the first task, or comes later
      rcases List.mem_cons.1 ht with rfl | hmem
      · rcases Task.drainSessions_step hnew with ⟨hempty, rfl⟩ | ⟨key, rfl⟩
        · refine .settled hactive' ⟨hcursors', fun k v hk => ?_⟩
          have hk := hshrinks.sessions k v hk
          rw [hempty] at hk
          cases hk
        · refine .sessions hactive' hcursors' ?_
          rw [htasks']
          exact List.mem_cons_of_mem _ List.mem_cons_self
      · refine .sessions hactive' hcursors' ?_
        rw [htasks']
        exact List.mem_append_right _ hmem
  | settled hactive hsettled =>
    have hs := hsame hactive
    exact .settled (hs.activeBuffer.trans hactive)
      (hsettled.shrink hs.activeServices hs.activeBackends hshrinks)
  | stopped ht =>
    rw [Process.step, ht]
    exact .stopped ht

/-- A packet keeps the stage. -/
theorem packet (h : Stage service env m₀ p) {c : Call cpus} (hc : c.InFlow service) :
    Stage service env m₀ ((reloader cpus).next (.packet c) p) := by
  have hactive : ((reloader cpus).next (.packet c) p).maps.activeBuffer = p.maps.activeBuffer :=
    Maps.activeBuffer_congr (tables_finder c p.maps)
  -- it leaves the tasks alone; what it stores is within the blocks, and its own
  cases h with
  | loading ht => exact .loading ht
  | cursors before ht hafter => exact .cursors before ht hafter
  | sessions ha hcursors ht => exact .sessions (hactive.trans ha) (hcursors.next c) ht
  | settled ha hsettled => exact .settled (hactive.trans ha) (hsettled.next hc)
  | stopped ht => exact .stopped ht

end Stage

/-- The packets of the run are addressed to the services of their flows. -/
def InFlows (service : SessionStateKey → ServiceKey) (es : List (Event cpus)) : Prop :=
  ∀ c, .packet c ∈ es → c.InFlow service

theorem Stage.run (h : Stage service env m₀ p) (hphase : Phase env config m₀ p)
    {es : List (Event cpus)} (hes : ∀ e ∈ es, e.isReload = false) (hflows : InFlows service es) :
    Stage service env m₀ ((reloader cpus).exec p es) := by
  induction es generalizing p with
  | nil => exact h
  | cons e es ih =>
    refine ih ?_ (hphase.step e (hes e List.mem_cons_self))
      (fun e' he' => hes e' (List.mem_cons_of_mem e he'))
      fun c hc => hflows c (List.mem_cons_of_mem e hc)
    cases e with
    | packet c => exact h.packet (hflows c List.mem_cons_self)
    | reload => exact absurd (hes _ List.mem_cons_self) (by simp [Event.isReload])
    | task errno => exact h.task hphase errno

theorem Stage.begin (service : SessionStateKey → ServiceKey) (env : Env) (config : BaseConfig)
    (hidle : p.tasks = []) :
    Stage service env p.maps ((reloader cpus).next (.reload env config) p) := by
  rw [Machine.next, Process.step_reload hidle, Process.reload]
  rcases config.load env with ⟨xdp, none | e⟩
  · cases config.ddosConf with
    | none => exact .loading (.inl rfl)
    | some conf => exact .loading (.inr ⟨conf, rfl⟩)
  · exact .stopped rfl

/-! ## Up to the next flip -/

/-- The sessions stay own in every run that does not flip. -/
theorem Settled.run (h : Settled service p.maps) (hsound : p.Sound) {es : List (Event cpus)}
    {b : Fin 2} (hflows : InFlows service es)
    (hactive : (reloader cpus).Always (fun q => q.maps.activeBuffer = b) p es) :
    Settled service ((reloader cpus).exec p es).maps ∧
      ((reloader cpus).exec p es).maps.activeServices = p.maps.activeServices ∧
      ((reloader cpus).exec p es).maps.activeBackends = p.maps.activeBackends := by
  induction es generalizing p with
  | nil => exact ⟨h, rfl, rfl⟩
  | cons e es ih =>
    -- without a flip, the active buffers are the same
    have hkeeps := hsound.keepsActive e
    have hsame : ((reloader cpus).next e p).maps.activeBuffer = p.maps.activeBuffer :=
      hactive.2.head.trans hactive.1.symm
    have hservices : ((reloader cpus).next e p).maps.activeServices = p.maps.activeServices := by
      rw [← hkeeps.services, ← hsame]
      rfl
    have hbackends : ((reloader cpus).next e p).maps.activeBackends = p.maps.activeBackends := by
      rw [← hkeeps.backends, ← hsame]
      rfl
    have hnext : Settled service ((reloader cpus).next e p).maps := by
      cases e with
      | packet c => exact h.next (hflows c List.mem_cons_self)
      | reload env config =>
        rw [Process.Sound.maps_reload]
        exact h
      | task errno => exact h.shrink hservices hbackends (.of_process p errno)
    obtain ⟨hsettled, hservices', hbackends'⟩ := ih hnext (hsound.step e)
      (fun c hc => hflows c (List.mem_cons_of_mem e hc)) hactive.2
    exact ⟨hsettled, hservices'.trans hservices, hbackends'.trans hbackends⟩

/-- Only counters are left to be reset. -/
def Task.isStats : Task → Bool
  | write (.backendStats _) _ | write (.serviceStats _) _ => true
  | _ => false

/-- The reload has got to the statistics. -/
def Process.AtStats (p : Process cpus) : Prop := p.tasks ≠ [] ∧ ∀ t ∈ p.tasks, t.isStats

instance (p : Process cpus) : Decidable p.AtStats := inferInstanceAs (Decidable (_ ∧ _))

theorem Stage.settled_of_atStats (h : Stage service env m₀ p) (hstats : p.AtStats) :
    p.maps.activeBuffer = m₀.target ∧ Settled service p.maps := by
  obtain ⟨hne, hall⟩ := hstats
  cases h with
  | loading ht =>
    have hmem : .loadIndex env ∈ p.tasks := by
      rcases ht with ht | ⟨conf, ht⟩ <;> simp [ht]
    cases hall _ hmem
  | cursors _ ht =>
    have hmem : .drainWrrState ∈ p.tasks := by simp [ht]
    cases hall _ hmem
  | sessions _ _ hmem => cases hall _ hmem
  | settled ha hsettled => exact ⟨ha, hsettled⟩
  | stopped ht => exact absurd ht hne

/-- A service with a disabled real. -/
def demoHalf : BalancerService :=
  { demoService "10.0.0.1" .rr [] with
    reals := [{ ip := "10.0.1.1", enabled := false, port := 80 },
      { ip := "10.0.1.2", enabled := true, port := 80 }] }

/-- A reload that disables a real while a flow goes to it. -/
def demoEvents : List (Event 1) :=
  .packet (.tcp (demoCall 0 1 true)) :: List.replicate 5 (.task none) ++
    .packet (.tcp (demoCall 1 1 false)) :: List.replicate 8 (.task none)

end L4Balancer
