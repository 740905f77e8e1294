import L4Balancer.Control.Publish

/-!
# Packets during a reload

The machine of packets and of `ReloadConfig`, one system call at a time
(`reloader`). Its inputs are the packets, the calls of `ReloadConfig`, and the
system calls of the reload that is going on, each with the `errno` it fails with, if
it does. What is left to do of a reload is a list of tasks; a task may put new
tasks before the others, as the loops that empty a map do.

Between any two of its system calls there may be packets, and any of the calls may
fail. The tasks are those of `Dataplane.reloadConfig`, in its order.
-/

namespace L4Balancer

open Bpf

variable {cpus : ℕ}

/-- The system call of a write, which fails with `errno` if it is given. -/
def Write.call (errno : Option String) (m : Maps cpus) (w : Write) : Except String (Maps cpus) :=
  match errno with
  | some e => .error e
  | none => (w.run m).elim (.error E2BIG) .ok

theorem Write.run_of_call {errno : Option String} {m m' : Maps cpus} {w : Write}
    (h : w.call errno m = .ok m') : w.run m = some m' := by
  cases errno with
  | some e => cases h
  | none =>
    rw [call] at h
    cases hr : w.run m with
    | none => rw [hr] at h; cases h
    | some m₁ => rw [hr] at h; rw [Except.ok.inj h]

/-- A step of a reload. -/
inductive Task
  /-- A write; when it fails, the reload returns the error. -/
  | write (w : Write) (error : String → String)
  | ddosCfg (conf : DDoSConfig)
  /-- Reading the number of the active buffer. -/
  | loadIndex (env : Env)
  /-- Asking for the first key of a map, to delete it. -/
  | drainWrrState
  | drainSessions
  /-- A write whose result is ignored. -/
  | delete (w : Write)
  | service (env : Env) (service : BalancerService)
  /-- The writes of `updateChBpfMaps`. -/
  | publication (ws : List Write)

/-- What `ReloadConfig` does after it has read the number of the active buffer. -/
def Dataplane.reloadTasks (d : Dataplane cpus) (env : Env) (currentIndex : Fin 2) : List Task :=
  let buffer : Fin 2 := 1 - currentIndex
  ((d.xdp.backendWrites buffer).map (.write · backendsError) ++
    (d.xdp.serviceWrites buffer).map (.write · servicesError)) ++
  .write (.atomicIndex buffer) indexError ::
  (d.xdp.rrWrites.map (.write · rrError) ++
    .drainWrrState ::
    d.currConfig.services.map (.service env) ++
    .drainSessions ::
    (List.range d.xdp.backends.length).map (fun i => .write (.backendStats i) (backendStatsError i)) ++
    d.xdp.keys.map fun key => .write (.serviceStats key) serviceStatsError)

/-- A task, which fails with `errno` if it is given: the dataplane after it, and its error or the
    tasks it adds. -/
def Task.step (errno : Option String) (d : Dataplane cpus) :
    Task → Dataplane cpus × Except String (List Task)
  | write w error =>
    match w.call errno d.maps with
    | .error e => (d, .error (error e))
    | .ok m => ({ d with maps := m }, .ok [])
  | ddosCfg conf =>
    match errno with
    | some e => (d, .error s!"failed to update DDoS watching configuration: {e}")
    | none => (d.updateDdosCfg (some conf), .ok [])
  | loadIndex env =>
    if d.isFirstRun then ({ d with isFirstRun := false }, .ok (d.reloadTasks env 0))
    else
      match errno with
      | some _ => (d, .error "failed to load current index for reload config")
      | none => (d, .ok (d.reloadTasks env d.maps.activeBuffer))
  | drainWrrState =>
    match d.maps.wrrStateMap.keys.head? with
    | none => (d, .ok [])
    | some key => (d, .ok [.delete (.deleteWrrState key), .drainWrrState])
  | drainSessions =>
    match d.maps.tcpSessionState.keys.head? with
    | none => (d, .ok [])
    | some key => (d, .ok [.delete (.deleteSession key), .drainSessions])
  | delete w =>
    match w.call errno d.maps with
    | .error _ => (d, .ok [])
    | .ok m => ({ d with maps := m }, .ok [])
  | service env svc =>
    if svc.type = .ch then
      let backends := svc.chBackends env d.xdp.backends
      let key := svc.chKey env
      if backends = [] then ({ d with chManager := d.chManager.removeService key }, .ok [])
      else
        match d.chManager.updateServiceBackends env.xxh3 key backends with
        | none => (d, .ok [])
        | some (chManager, p) => ({ d with chManager := chManager }, .ok [.publication p.writes])
    else (d, .ok [])
  | publication [] => (d, .ok [])
  | publication (w :: ws) =>
    match w.call errno d.maps with
    | .error _ => (d, .ok (if w.unchecked then [.publication ws] else []))
    | .ok m => ({ d with maps := m }, .ok [.publication ws])

/-- What a task does: the dataplane after it, and the tasks that it adds or the error of the
    reload. Invariants of a reload are proved by cases on it. -/
inductive TaskStep (errno : Option String) (d : Dataplane cpus) :
    Task → Dataplane cpus → Except String (List Task) → Prop
  /-- No change, and no new task. -/
  | idle {t : Task} {r : Except String (List Task)} : (∀ new, r = .ok new → new = []) →
      TaskStep errno d t d r
  | ddosCfg {conf : DDoSConfig} : errno = none →
      TaskStep errno d (.ddosCfg conf) (d.updateDdosCfg (some conf)) (.ok [])
  | write {w : Write} {error : String → String} {m : Maps cpus} : w.call errno d.maps = .ok m →
      TaskStep errno d (.write w error) { d with maps := m } (.ok [])
  | delete {w : Write} {m : Maps cpus} : w.call errno d.maps = .ok m →
      TaskStep errno d (.delete w) { d with maps := m } (.ok [])
  | loadIndex {env : Env} {b : Fin 2} : b = (if d.isFirstRun then 0 else d.maps.activeBuffer) →
      TaskStep errno d (.loadIndex env) { d with isFirstRun := false } (.ok (d.reloadTasks env b))
  | drainWrrState {key : ServiceKey} : d.maps.wrrStateMap.keys.head? = some key →
      TaskStep errno d .drainWrrState d (.ok [.delete (.deleteWrrState key), .drainWrrState])
  | drainSessions {key : SessionStateKey} : d.maps.tcpSessionState.keys.head? = some key →
      TaskStep errno d .drainSessions d (.ok [.delete (.deleteSession key), .drainSessions])
  /-- A service of consistent hash without a backend. -/
  | remove {env : Env} {svc : BalancerService} : svc.chBackends env d.xdp.backends = [] →
      TaskStep errno d (.service env svc)
        { d with chManager := d.chManager.removeService (svc.chKey env) } (.ok [])
  | service {env : Env} {svc : BalancerService} {chManager : ConsistentHashManager}
      {p : ChPublication} : svc.type = .ch → svc.chBackends env d.xdp.backends ≠ [] →
      d.chManager.updateServiceBackends env.xxh3 (svc.chKey env)
        (svc.chBackends env d.xdp.backends) = some (chManager, p) →
      TaskStep errno d (.service env svc) { d with chManager := chManager }
        (.ok [.publication p.writes])
  /-- A write that fails without ending the publication. -/
  | skip {w : Write} {ws : List Write} : w.unchecked →
      TaskStep errno d (.publication (w :: ws)) d (.ok [.publication ws])
  | publish {w : Write} {ws : List Write} {m : Maps cpus} : w.call errno d.maps = .ok m →
      TaskStep errno d (.publication (w :: ws)) { d with maps := m } (.ok [.publication ws])

theorem TaskStep.of_step (errno : Option String) (d : Dataplane cpus) (t : Task) :
    TaskStep errno d t (t.step errno d).1 (t.step errno d).2 := by
  cases t with
  | write w error =>
    rw [Task.step]
    cases h : w.call errno d.maps with
    | error e => exact .idle (by simp)
    | ok m => exact .write h
  | ddosCfg conf =>
    cases errno with
    | none => exact .ddosCfg rfl
    | some e => exact .idle (by simp [Task.step])
  | loadIndex env =>
    dsimp only [Task.step]
    cases hf : d.isFirstRun with
    | true =>
      rw [if_pos rfl]
      exact .loadIndex (by rw [hf, if_pos rfl])
    | false =>
      rw [if_neg Bool.false_ne_true]
      cases errno with
      | some e => exact .idle (by simp)
      | none =>
        have hd : { d with isFirstRun := false } = d := by rw [← hf]
        have hstep : TaskStep none d (.loadIndex env) { d with isFirstRun := false }
            (.ok (d.reloadTasks env d.maps.activeBuffer)) :=
          .loadIndex (by rw [hf, if_neg Bool.false_ne_true])
        rwa [hd] at hstep
  | drainWrrState =>
    rw [Task.step]
    cases h : d.maps.wrrStateMap.keys.head? with
    | none => exact .idle (by simp)
    | some key => exact .drainWrrState h
  | drainSessions =>
    rw [Task.step]
    cases h : d.maps.tcpSessionState.keys.head? with
    | none => exact .idle (by simp)
    | some key => exact .drainSessions h
  | delete w =>
    rw [Task.step]
    cases h : w.call errno d.maps with
    | error e => exact .idle (by simp)
    | ok m => exact .delete h
  | service env svc =>
    dsimp only [Task.step]
    split_ifs with hch hempty
    · exact .remove hempty
    · cases h : d.chManager.updateServiceBackends env.xxh3 (svc.chKey env)
        (svc.chBackends env d.xdp.backends) with
      | none => exact .idle (by simp)
      | some p => exact .service hch hempty h
    · exact .idle (by simp)
  | publication ws =>
    cases ws with
    | nil => exact .idle (by simp [Task.step])
    | cons w ws =>
      rw [Task.step]
      cases h : w.call errno d.maps with
      | error e =>
        dsimp only
        split_ifs with hu
        · exact .skip hu
        · exact .idle (by simp)
      | ok m => exact .publish h

/-- The dataplane, with what is left to do of the reload that is going on. -/
structure Process (cpus : ℕ) where
  dataplane : Dataplane cpus
  tasks : List Task

/-- The maps of a process. -/
abbrev Process.maps (p : Process cpus) : Maps cpus := p.dataplane.maps

inductive Event (cpus : ℕ)
  | packet (c : Call cpus)
  /-- A call of `ReloadConfig`; there is at most one at a time. -/
  | reload (env : Env) (config : BaseConfig)
  /-- The next step of the reload. -/
  | task (errno : Option String)

inductive Answer
  | backend (b : Option Backend)
  | working
  | returned (error : Option String)
  deriving DecidableEq

namespace Process

variable (p : Process cpus)

/-- The beginning of `ReloadConfig`, up to its first system call. -/
def reload (env : Env) (config : BaseConfig) : Answer × Process cpus :=
  match config.load env with
  | (xdp, some e) => (.returned (some e), ⟨{ p.dataplane with currConfig := config, xdp := xdp }, []⟩)
  | (xdp, none) =>
    (.working, ⟨{ p.dataplane with currConfig := config, xdp := xdp },
      (config.ddosConf.toList.map .ddosCfg) ++ [.loadIndex env]⟩)

/-- The next task of the reload. -/
def step (errno : Option String) : Answer × Process cpus :=
  match p.tasks with
  | [] => (.working, p)
  | task :: tasks =>
    match task.step errno p.dataplane with
    | (d, .error e) => (.returned (some e), ⟨d, []⟩)
    | (d, .ok new) =>
      (if new ++ tasks matches [] then .returned none else .working, ⟨d, new ++ tasks⟩)

end Process

/-- The machine of packets and reloads. -/
def reloader (cpus : ℕ) : Machine (Process cpus) (Event cpus) Answer where
  step
    | .packet c => fun p =>
      let (b, m) := (finder cpus).step c p.maps
      (.backend b, { p with dataplane := { p.dataplane with maps := m } })
    | .reload env config => fun p =>
      match p.tasks with
      | [] => p.reload env config
      | _ :: _ => (.working, p)
    | .task errno => fun p => p.step errno

theorem Process.step_reload {cpus : ℕ} {p : Process cpus} (h : p.tasks = []) (env : Env)
    (config : BaseConfig) : (reloader cpus).step (.reload env config) p = p.reload env config := by
  simp only [reloader, h]

/-- The process after the program is loaded. -/
def Process.fresh (cpus : ℕ) : Process cpus := ⟨.fresh cpus, []⟩

end L4Balancer
