import L4Balancer.Bpf.Drain
import L4Balancer.Control.Reset

/-!
# The two models of a reload

`Dataplane.reloadConfig` is a reload as a function, `reloader` a reload as a list of tasks, one
system call each. They agree (`reload_agrees`): the tasks, done one after the other without a
packet in between, take the dataplane to where the function takes it and return its error, and
the loops that empty a map come to an end.

`Completes` is the big step of a list of tasks; it follows the binds of the function
(`Completes.bind`).
-/

namespace L4Balancer

open Bpf

variable {cpus : ℕ} {env : Env} {config : BaseConfig} {d d' : Dataplane cpus} {ts ts' : List Task}
  {o : Outcome cpus}

/-- The error a reload returns. -/
def Outcome.error? : Outcome cpus → Option String
  | .ok _ => none
  | .error (e, _) => some e

/-- The tasks, done one after the other while no call fails by itself, have the outcome. -/
inductive Completes : Dataplane cpus → List Task → Outcome cpus → Prop
  | done (d : Dataplane cpus) : Completes d [] (.ok d)
  | fail {d d' : Dataplane cpus} {t : Task} {ts : List Task} {e : String} :
      t.step none d = (d', .error e) → Completes d (t :: ts) (.error (e, d'))
  | next {d d' : Dataplane cpus} {t : Task} {ts new : List Task} {o : Outcome cpus} :
      t.step none d = (d', .ok new) → Completes d' (new ++ ts) o → Completes d (t :: ts) o

/-! ## Calls that do not fail by themselves -/

namespace Task

variable {w : Write} {m : Maps cpus}

theorem step_write_ok (h : w.run d.maps = some m) (error : String → String) :
    (write w error).step none d = ({ d with maps := m }, .ok []) := by
  rw [step, Write.call, h]
  rfl

theorem step_write_error (h : w.run d.maps = none) (error : String → String) :
    (write w error).step none d = (d, .error (error E2BIG)) := by
  rw [step, Write.call, h]
  rfl

theorem step_delete (h : w.run d.maps = some m) :
    (delete w).step none d = ({ d with maps := m }, .ok []) := by
  rw [step, Write.call, h]
  rfl

theorem step_publication_ok (h : w.run d.maps = some m) (ws : List Write) :
    (publication (w :: ws)).step none d = ({ d with maps := m }, .ok [.publication ws]) := by
  rw [step, Write.call, h]
  rfl

theorem step_publication_error (h : w.run d.maps = none) (ws : List Write) :
    (publication (w :: ws)).step none d =
      (d, .ok (if w.unchecked then [.publication ws] else [])) := by
  rw [step, Write.call, h]
  rfl

end Task

namespace Completes

theorem bind (h : Completes d ts o) {f : Dataplane cpus → Outcome cpus}
    (hf : ∀ d', o = .ok d' → Completes d' ts' (f d')) : Completes d (ts ++ ts') (o >>= f) := by
  induction h with
  | done d => exact hf d rfl
  | fail hstep => exact .fail hstep
  | next hstep _ ih =>
    have ih := ih hf
    rw [List.append_assoc] at ih
    exact .next hstep ih

/-! ## The parts -/

theorem write (ws : List Write) (error : String → String) (d : Dataplane cpus) :
    Completes d (ws.map (.write · error)) (d.write ws error) := by
  induction ws generalizing d with
  | nil => exact .done d
  | cons w ws ih =>
    rw [List.map_cons, Dataplane.write, runWrites]
    cases hw : w.run d.maps with
    | none => exact .fail (Task.step_write_error hw error)
    | some m => exact .next (Task.step_write_ok hw error) (ih { d with maps := m })

section Drain

variable {κ ν : Type*} {cap : ℕ} [DecidableEq κ] {t : Task}

/-- A loop that empties a map, by deleting its first key as long as it has one. -/
theorem drain (del : κ → Write) (get : Maps cpus → HashMap κ ν cap)
    (set : Maps cpus → HashMap κ ν cap → Maps cpus)
    (hnone : ∀ d, (get d.maps).keys.head? = none → t.step none d = (d, .ok []))
    (hsome : ∀ d k, (get d.maps).keys.head? = some k →
      t.step none d = (d, .ok [.delete (del k), t]))
    (hdel : ∀ m k, (del k).run m = some (set m ((get m).delete k)))
    (hget : ∀ m a, get (set m a) = a) (hset : ∀ m a b, set (set m a) b = set m b)
    (hself : ∀ m, set m (get m) = m) (d : Dataplane cpus) :
    Completes d [t] (.ok { d with maps := set d.maps .empty }) := by
  -- on the number of entries: each round deletes the first key
  induction hn : (get d.maps).size generalizing d with
  | zero =>
    have hk : (get d.maps).keys.head? = none := by
      rw [List.head?_eq_none_iff, ← List.length_eq_zero_iff, HashMap.length_keys, hn]
    rw [← HashMap.eq_empty_of_head? hk, hself]
    exact .next (hnone d hk) (.done d)
  | succ n ih =>
    cases hk : (get d.maps).keys.head? with
    | none =>
      rw [HashMap.eq_empty_of_head? hk] at hn
      cases hn
    | some key =>
      have hsize := HashMap.size_delete_head? hk
      have hih := ih { d with maps := set d.maps ((get d.maps).delete key) }
        (by rw [hget]; omega)
      rw [hset] at hih
      exact .next (hsome d key hk) (.next (Task.step_delete (hdel d.maps key)) hih)

end Drain

theorem drainWrrState (d : Dataplane cpus) :
    Completes d [.drainWrrState] (.ok d.clearWrrState) :=
  drain .deleteWrrState (·.wrrStateMap) (fun m a => { m with wrrStateMap := a })
    (fun d hk => by rw [Task.step, hk]) (fun d k hk => by rw [Task.step, hk]) (fun _ _ => rfl)
    (fun _ _ => rfl) (fun _ _ _ => rfl) (fun _ => rfl) d

theorem drainSessions (d : Dataplane cpus) :
    Completes d [.drainSessions] (.ok d.clearSessions) :=
  drain .deleteSession (·.tcpSessionState) (fun m a => { m with tcpSessionState := a })
    (fun d hk => by rw [Task.step, hk]) (fun d k hk => by rw [Task.step, hk]) (fun _ _ => rfl)
    (fun _ _ => rfl) (fun _ _ _ => rfl) (fun _ => rfl) d

theorem publication (ws : List Write) (d : Dataplane cpus) :
    Completes d [.publication ws] (.ok { d with maps := (updateChBpfMaps d.maps ws).1 }) := by
  induction ws generalizing d with
  | nil => exact .next rfl (.done d)
  | cons w ws ih =>
    rw [updateChBpfMaps]
    cases hw : w.run d.maps with
    | none =>
      refine .next (Task.step_publication_error hw ws) ?_
      -- a write that is not checked does not end the publication when it fails
      dsimp only
      split_ifs
      · exact ih d
      · exact .done d
    | some m => exact .next (Task.step_publication_ok hw ws) (ih { d with maps := m })

theorem service (env : Env) (service : BalancerService) (d : Dataplane cpus) :
    Completes d [.service env service] (.ok (d.updateCh env service)) := by
  rw [Dataplane.updateCh]
  split_ifs with hch hnil
  · exact .next (by rw [Task.step, if_pos hch, if_pos hnil]) (.done _)
  · rw [Dataplane.chPublication]
    cases hp : d.chManager.updateServiceBackends env.xxh3 (service.chKey env)
        (service.chBackends env d.xdp.backends) with
    | none => exact .next (by rw [Task.step, if_pos hch, if_neg hnil, hp]) (.done d)
    | some r =>
      refine .next (by rw [Task.step, if_pos hch, if_neg hnil, hp]) ?_
      exact publication r.2.writes { d with chManager := r.1 }
  · exact .next (by rw [Task.step, if_neg hch]) (.done d)

theorem services (env : Env) (services : List BalancerService) (d : Dataplane cpus) :
    Completes d (services.map (.service env))
      (.ok (services.foldl (fun d service => d.updateCh env service) d)) := by
  induction services generalizing d with
  | nil => exact .done d
  | cons s services ih =>
    have hone := Completes.service env s d
    refine hone.bind (f := fun d' => .ok
      (services.foldl (fun d service => d.updateCh env service) d')) fun d' _ => ?_
    exact ih d'

/-- A loop of single writes. -/
theorem foldlM {α : Type} (write : α → Write) (error : α → String → String) (as : List α)
    (d : Dataplane cpus) :
    Completes d (as.map fun a => .write (write a) (error a))
      (as.foldlM (fun d a => d.write [write a] (error a)) d) := by
  induction as generalizing d with
  | nil => exact .done d
  | cons a as ih =>
    rw [List.foldlM_cons]
    exact (Completes.write [write a] (error a) d).bind fun d' _ => ih d'

/-! ## The whole reload -/

theorem resetCursors (d : Dataplane cpus) :
    Completes d (d.xdp.rrWrites.map (.write · rrError) ++ [.drainWrrState]) d.resetCursors :=
  (write d.xdp.rrWrites rrError d).bind fun d' _ => drainWrrState d'

theorem switch (env : Env) (d : Dataplane cpus) :
    Completes d ((d.xdp.rrWrites.map (.write · rrError) ++ [.drainWrrState]) ++
      (d.currConfig.services.map (.service env) ++ [.drainSessions])) (d.switch env) := by
  refine (resetCursors d).bind fun d' hd' => ?_
  obtain ⟨-, rr, rfl⟩ := Dataplane.resetCursors_eq_ok hd'
  refine (services env _ _).bind (f := fun d => .ok d.clearSessions) fun d'' hd'' => ?_
  obtain rfl := Except.ok.inj hd''
  exact drainSessions _

theorem resetStats (d : Dataplane cpus) :
    Completes d ((List.range d.xdp.backends.length).map
        (fun i => .write (.backendStats i) (backendStatsError i)) ++
      d.xdp.keys.map fun key => .write (.serviceStats key) serviceStatsError) d.resetStats := by
  refine (foldlM .backendStats backendStatsError _ d).bind fun d' hd' => ?_
  obtain ⟨m, -, rfl⟩ := Dataplane.foldlM_write_eq_ok.1 hd'
  exact foldlM .serviceStats (fun _ => serviceStatsError) d.xdp.keys _

/-- The tasks after the number of the active buffer is read. -/
theorem reloadTasks (env : Env) (d : Dataplane cpus) (currentIndex : Fin 2) :
    Completes d (d.reloadTasks env currentIndex) (do
      let d' ← d.write (d.xdp.backendWrites (1 - currentIndex)) backendsError
      let d' ← d'.write (d.xdp.serviceWrites (1 - currentIndex)) servicesError
      let d' ← d'.write [.atomicIndex (1 - currentIndex)] indexError
      let d' ← d'.switch env
      d'.resetStats) := by
  have htasks : d.reloadTasks env currentIndex =
      (d.xdp.backendWrites (1 - currentIndex)).map (.write · backendsError) ++
      ((d.xdp.serviceWrites (1 - currentIndex)).map (.write · servicesError) ++
      ([.atomicIndex (1 - currentIndex)].map (.write · indexError) ++
      ((d.xdp.rrWrites.map (.write · rrError) ++ [.drainWrrState]) ++
        (d.currConfig.services.map (.service env) ++ [.drainSessions]) ++
      ((List.range d.xdp.backends.length).map
        (fun i => .write (.backendStats i) (backendStatsError i)) ++
      d.xdp.keys.map fun key => .write (.serviceStats key) serviceStatsError)))) := by
    simp [Dataplane.reloadTasks]
  rw [htasks]
  refine (write _ backendsError d).bind fun d₁ h₁ => ?_
  obtain ⟨m₁, -, rfl⟩ := Dataplane.write_eq_ok.1 h₁
  refine (write _ servicesError _).bind fun d₂ h₂ => ?_
  obtain ⟨m₂, -, rfl⟩ := Dataplane.write_eq_ok.1 h₂
  refine (write _ indexError _).bind fun d₃ h₃ => ?_
  obtain ⟨m₃, -, rfl⟩ := Dataplane.write_eq_ok.1 h₃
  refine (switch env { d with maps := m₃ }).bind fun d₄ h₄ => ?_
  have hxdp : d₄.xdp = d.xdp := (Dataplane.switch_spec h₄).2.1
  rw [← hxdp]
  exact resetStats d₄

/-- The tasks from the first system call on. -/
theorem reload {xdp : XdpConfig} (hload : config.load env = (xdp, none)) (d : Dataplane cpus) :
    Completes { d with currConfig := config, xdp := xdp }
      (config.ddosConf.toList.map .ddosCfg ++ [.loadIndex env]) (d.reloadConfig env config) := by
  have hindex : ∀ d : Dataplane cpus, Completes d [.loadIndex env] (do
      let d' ← Dataplane.write { d with isFirstRun := false }
        (d.xdp.backendWrites (1 - d.currentIndex)) backendsError
      let d' ← d'.write (d.xdp.serviceWrites (1 - d.currentIndex)) servicesError
      let d' ← d'.write [.atomicIndex (1 - d.currentIndex)] indexError
      let d' ← d'.switch env
      d'.resetStats) := fun d => by
    have htasks := reloadTasks env { d with isFirstRun := false } d.currentIndex
    rw [← List.append_nil (Dataplane.reloadTasks _ _ _)] at htasks
    refine .next ?_ htasks
    rw [Dataplane.currentIndex]
    -- the first reload takes the number as zero, the others ask the kernel for it
    cases hf : d.isFirstRun with
    | true => exact if_pos hf
    | false =>
      have hd : { d with isFirstRun := false } = d := by rw [← hf]
      rw [Task.step, if_neg (by rw [hf]; exact Bool.false_ne_true), hd]
      rfl
  rw [Dataplane.reloadConfig, Dataplane.publish, hload]
  dsimp only
  simp only [bind_assoc]
  cases config.ddosConf with
  | none => exact hindex _
  | some conf => exact .next rfl (hindex _)

/-- The machine goes through the tasks. -/
theorem run (h : Completes d ts o) (hts : ts ≠ []) :
    ∃ n, (reloader cpus).outs ⟨d, ts⟩ (List.replicate (n + 1) (.task none)) =
        List.replicate n .working ++ [.returned o.error?] ∧
      (reloader cpus).exec ⟨d, ts⟩ (List.replicate (n + 1) (.task none)) = ⟨o.dataplane, []⟩ := by
  induction h with
  | done => exact absurd rfl hts
  | @fail d d' t ts e hstep =>
    have hs : (reloader cpus).step (.task none) ⟨d, t :: ts⟩ = (.returned (some e), ⟨d', []⟩) := by
      change Process.step ⟨d, t :: ts⟩ none = _
      simp only [Process.step, hstep]
    refine ⟨0, ?_, ?_⟩
    · simp only [List.replicate, Machine.outs, Machine.out, hs]
      rfl
    · simp only [List.replicate, Machine.exec, Machine.next, hs]
      rfl
  | @next d d' t ts new o hstep hrest ih =>
    cases hnew : new ++ ts with
    | nil =>
      -- the last task: the reload returns
      rw [hnew] at hrest
      have hs : (reloader cpus).step (.task none) ⟨d, t :: ts⟩ = (.returned none, ⟨d', []⟩) := by
        change Process.step ⟨d, t :: ts⟩ none = _
        simp only [Process.step, hstep, hnew]
        rfl
      cases hrest
      refine ⟨0, ?_, ?_⟩
      · simp only [List.replicate, Machine.outs, Machine.out, hs]
        rfl
      · simp only [List.replicate, Machine.exec, Machine.next, hs]
        rfl
    | cons t' ts' =>
      have hs : (reloader cpus).step (.task none) ⟨d, t :: ts⟩ = (.working, ⟨d', new ++ ts⟩) := by
        change Process.step ⟨d, t :: ts⟩ none = _
        simp only [Process.step, hstep, hnew]
        rfl
      -- more to do: the answer is that of the tasks that are left
      obtain ⟨n, houts, hexec⟩ := ih (by rw [hnew]; exact List.cons_ne_nil _ _)
      refine ⟨n + 1, ?_, ?_⟩
      · rw [List.replicate_succ, Machine.outs, Machine.out, Machine.next, hs, houts]
        rfl
      · rw [List.replicate_succ, Machine.exec, Machine.next, hs, hexec]

end Completes

/-- The two models of a reload agree. From every state of the dataplane, with every configuration:
    the system calls of a reload, done one after the other while none fails by itself and no packet
    comes in between, come to an end; they leave the dataplane that the reload as a function leaves,
    and the last of them returns its error. -/
theorem reload_agrees (d : Dataplane cpus) (env : Env) (config : BaseConfig) :
    ∃ n, (reloader cpus).outs ⟨d, []⟩ (.reload env config :: List.replicate n (.task none)) =
        List.replicate n .working ++ [.returned (d.reloadConfig env config).error?] ∧
      (reloader cpus).exec ⟨d, []⟩ (.reload env config :: List.replicate n (.task none)) =
        ⟨(d.reloadConfig env config).dataplane, []⟩ := by
  rcases hload : config.load env with ⟨xdp, _ | e⟩
  · have hs : (reloader cpus).step (.reload env config) ⟨d, []⟩ =
        (.working, ⟨{ d with currConfig := config, xdp := xdp },
          config.ddosConf.toList.map .ddosCfg ++ [.loadIndex env]⟩) := by
      rw [Process.step_reload rfl, Process.reload, hload]
    obtain ⟨n, houts, hexec⟩ := (Completes.reload hload d).run (by simp)
    refine ⟨n + 1, ?_, ?_⟩
    · rw [Machine.outs, Machine.out, Machine.next, hs, houts]
      rfl
    · rw [Machine.exec, Machine.next, hs, hexec]
  · -- an address cannot be converted, or a MAC is not found: there is no call
    have hs : (reloader cpus).step (.reload env config) ⟨d, []⟩ =
        (.returned (some e), ⟨{ d with currConfig := config, xdp := xdp }, []⟩) := by
      rw [Process.step_reload rfl, Process.reload, hload]
    have hreload : d.reloadConfig env config =
        .error (e, { d with currConfig := config, xdp := xdp }) := by
      rw [Dataplane.reloadConfig, Dataplane.publish, hload]
      rfl
    refine ⟨0, ?_, ?_⟩
    · simp only [List.replicate, Machine.outs, Machine.out, hs, hreload]
      rfl
    · simp only [List.replicate, Machine.exec, Machine.next, hs, hreload]
      rfl

end L4Balancer
