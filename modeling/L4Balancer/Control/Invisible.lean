import L4Balancer.Control.History
import L4Balancer.Xdp.Sets

/-!
# A reload before its flip

A reload never writes to the buffer that packets read, and up to its flip packets
cannot tell that it is going on: they get the same backends and leave the same
cursors and sessions as if it had not been started (`reload_invisible`). This is so
from every state that packets and reloads, those that failed included, lead to.

What a task does to the maps depends on the phase (`Phase.task_cases`). The proof
for packets relates the maps of the reload to those of a run of the same packets
without it: they differ at most in the sets, and agree in the active one.
-/

namespace L4Balancer

open Bpf

variable {cpus : ℕ} {env : Env} {config : BaseConfig} {m m₀ : Maps cpus} {p : Process cpus}

/-! ## What a task does to the maps -/

theorem Process.maps_step_nil (h : p.tasks = []) (errno : Option String) :
    (p.step errno).2.maps = p.maps := by
  rw [step, h]

theorem Process.maps_step_cons {t : Task} {tasks : List Task} (h : p.tasks = t :: tasks)
    (errno : Option String) : (p.step errno).2.maps = (t.step errno p.dataplane).1.maps := by
  rw [step, h]
  dsimp only
  rcases t.step errno p.dataplane with ⟨d, e | new⟩ <;> rfl

theorem Task.maps_write (w : Write) (error : String → String) (errno : Option String)
    (d : Dataplane cpus) : ((write w error).step errno d).1.maps = d.maps ∨
      w.run d.maps = some ((write w error).step errno d).1.maps := by
  rw [step]
  cases h : w.call errno d.maps with
  | error e => exact .inl rfl
  | ok m => exact .inr (Write.run_of_call h)

theorem Task.maps_ddosCfg (conf : DDoSConfig) (errno : Option String) (d : Dataplane cpus) :
    ((ddosCfg conf).step errno d).1.maps = d.maps := by
  cases errno <;> rfl

theorem Task.maps_loadIndex (env : Env) (errno : Option String) (d : Dataplane cpus) :
    ((loadIndex env).step errno d).1.maps = d.maps := by
  dsimp only [step]
  split_ifs
  · rfl
  · cases errno <;> rfl

/-- What a task does to the maps: nothing; before the flip, a write to the buffer that is not
    active, or the flip; after it, a change that leaves the buffers alone. -/
theorem Phase.task_cases (h : Phase env config m₀ p) (errno : Option String) :
    (p.step errno).2.maps = p.maps ∨
    (p.maps.activeBuffer = m₀.activeBuffer ∧ ∃ w : Write,
      w.Fills m₀.target ∧ w.run p.maps = some (p.step errno).2.maps) ∨
    (p.maps.activeBuffer = m₀.activeBuffer ∧
      (Write.atomicIndex m₀.target).run p.maps = some (p.step errno).2.maps) ∨
    (p.maps.activeBuffer = m₀.target ∧ SameBuffers p.maps (p.step errno).2.maps) := by
  cases h with
  | loading _ _ ht _ _ =>
    left
    rcases ht with ht | ⟨conf, ht⟩
    · rw [Process.maps_step_cons ht, Task.maps_loadIndex]
    · rw [Process.maps_step_cons ht, Task.maps_ddosCfg]
  | @publishing xdp done todo m₁ tasks rest _ hfill hdone hs ht htasks _ _ =>
    have hspares : Spares m₀.target m₀ m₁ := .of_runWrites (fun w hw =>
      XdpConfig.fills_of_mem (hfill ▸ List.mem_append_left _ hw)) hdone
    have hactive : p.maps.activeBuffer = m₀.activeBuffer := hs.activeBuffer.trans hspares.active
    cases htasks with
    | nil =>
      rw [Process.maps_step_cons ht]
      rcases Task.maps_write (.atomicIndex m₀.target) indexError errno p.dataplane with h | h
      · exact .inl h
      · exact .inr (.inr (.inl ⟨hactive, h⟩))
    | @cons w t todo tasks hwt _ =>
      obtain ⟨error, rfl⟩ := hwt
      rw [List.cons_append] at ht
      rw [Process.maps_step_cons ht]
      rcases Task.maps_write w error errno p.dataplane with h | h
      · exact .inl h
      · have hw := XdpConfig.fills_of_mem (hfill ▸ List.mem_append_right _ List.mem_cons_self)
        exact .inr (.inl ⟨hactive, w, hw, h⟩)
  | switched _ hpub ht _ =>
    cases htasks : p.tasks with
    | nil => exact .inl (Process.maps_step_nil htasks errno)
    | cons t tasks =>
      rw [Process.maps_step_cons htasks]
      obtain ⟨hs, -⟩ := (ht t (htasks ▸ List.mem_cons_self)).step
        (rfl : t.step errno p.dataplane = _)
      exact .inr (.inr (.inr ⟨hpub.active, hs⟩))
  | stopped ht _ _ => exact .inl (Process.maps_step_nil ht errno)

/-! ## The active buffer -/

/-- `m'` has the services and the backends of `m` in the buffer that is active in `m`. -/
structure KeepsActive (m m' : Maps cpus) : Prop where
  services : m'.servicesAt m.activeBuffer = m.activeServices
  backends : m'.backendsAt m.activeBuffer = m.activeBackends

theorem SameBuffers.keepsActive {m' : Maps cpus} (h : SameBuffers m m') : KeepsActive m m' :=
  ⟨h.services _, h.backends _⟩

theorem Spares.keepsActive {m' : Maps cpus} {b : Fin 2} (h : Spares b m m')
    (hb : m.activeBuffer ≠ b) : KeepsActive m m' :=
  ⟨h.services _ hb, h.backends _ hb⟩

theorem KeepsActive.of_atomicIndex {m' : Maps cpus} {b : Fin 2}
    (h : (Write.atomicIndex b).run m = some m') : KeepsActive m m' := by
  rw [Write.run] at h
  obtain ⟨a, -, rfl⟩ := Option.map_eq_some_iff.1 h
  exact ⟨rfl, rfl⟩

theorem Phase.keepsActive (h : Phase env config m₀ p) (errno : Option String) :
    KeepsActive p.maps (p.step errno).2.maps := by
  rcases h.task_cases errno with h | ⟨ha, w, hw, h⟩ | ⟨-, h⟩ | ⟨-, h⟩
  · rw [h]
    exact (SameBuffers.refl _).keepsActive
  · exact (hw.spares h).keepsActive (ha ▸ m₀.activeBuffer_ne_target)
  · exact .of_atomicIndex h
  · exact h.keepsActive

/-! ## Reachable processes -/

/-- A process that is in no reload yet, or in a phase of one. -/
def Process.Sound (p : Process cpus) : Prop :=
  (p.tasks = [] ∧ (p.dataplane.isFirstRun → p.maps.activeBuffer = 0)) ∨
    ∃ env config m₀, Phase env config m₀ p

namespace Process.Sound

theorem fresh (cpus : ℕ) : (Process.fresh cpus).Sound := .inl ⟨rfl, fun _ => rfl⟩

theorem activeBuffer_of_isFirstRun (h : p.Sound) (hf : p.dataplane.isFirstRun) :
    p.maps.activeBuffer = 0 := by
  rcases h with ⟨-, h⟩ | ⟨env, config, m₀, h⟩
  · exact h hf
  · exact h.activeBuffer_of_isFirstRun hf

theorem step (h : p.Sound) (e : Event cpus) : ((reloader cpus).next e p).Sound := by
  cases e with
  | packet c =>
    rcases h with ⟨ht, h⟩ | ⟨env, config, m₀, h⟩
    · exact .inl ⟨ht, fun hf => (Maps.activeBuffer_congr (tables_finder c _)).trans (h hf)⟩
    · exact .inr ⟨env, config, m₀, h.step _ rfl⟩
  | reload env config =>
    cases ht : p.tasks with
    | nil => exact .inr ⟨env, config, _, Phase.begin env config ht h.activeBuffer_of_isFirstRun⟩
    | cons t tasks =>
      have hnext : (reloader cpus).next (.reload env config) p = p := by
        simp only [reloader, Machine.next, ht]
      rwa [hnext]
  | task errno =>
    rcases h with ⟨ht, h⟩ | ⟨env, config, m₀, h⟩
    · have hnext : (reloader cpus).next (.task errno) p = p := by
        simp only [reloader, Machine.next, Process.step, ht]
      rw [hnext]
      exact .inl ⟨ht, h⟩
    · exact .inr ⟨env, config, m₀, h.step _ rfl⟩

theorem exec (cpus : ℕ) (es : List (Event cpus)) : ((reloader cpus).exec (.fresh cpus) es).Sound :=
  Machine.exec_of_step (P := Process.Sound) (fun _ e h => step h e) es (fresh cpus)

theorem maps_reload (p : Process cpus) (env : Env) (config : BaseConfig) :
    ((reloader cpus).next (.reload env config) p).maps = p.maps := by
  cases ht : p.tasks with
  | nil =>
    rw [Machine.next, step_reload ht, Process.reload]
    rcases config.load env with ⟨xdp, none | e⟩ <;> rfl
  | cons t tasks => simp only [reloader, Machine.next, ht]

/-- No event changes the services or the backends that are active before it. -/
theorem keepsActive (h : p.Sound) (e : Event cpus) :
    KeepsActive p.maps ((reloader cpus).next e p).maps := by
  cases e with
  | packet c => exact (SameBuffers.of_tables (tables_finder c p.maps)).keepsActive
  | reload env config =>
    rw [maps_reload]
    exact (SameBuffers.refl _).keepsActive
  | task errno =>
    rcases h with ⟨ht, -⟩ | ⟨env, config, m₀, h⟩
    · change KeepsActive p.maps (p.step errno).2.maps
      rw [Process.maps_step_nil ht]
      exact (SameBuffers.refl _).keepsActive
    · exact h.keepsActive errno

end Process.Sound

/-! ## The same packets without the reload -/

/-- The packet of an event. -/
def Event.packet? : Event cpus → Option (Call cpus)
  | .packet c => some c
  | _ => none

/-- The answer to a packet. -/
def Answer.backend? : Answer → Option (Option Backend)
  | .backend b => some b
  | _ => none

theorem Write.Fills.withSets {b : Fin 2} {w : Write} (hw : w.Fills b) {m' : Maps cpus}
    (h : w.run m = some m') : ∃ t, m' = m.withSets t := by
  refine ⟨⟨m'.servicesFirst, m'.servicesSecond, m'.backendsFirst, m'.backendsSecond⟩, ?_⟩
  cases w with
  | backend b' i back =>
    obtain ⟨a, -, rfl⟩ := Option.map_eq_some_iff.1 h
    rw [Maps.setBackends]
    split_ifs <;> rfl
  | service b' key info =>
    obtain ⟨s, -, rfl⟩ := Option.map_eq_some_iff.1 h
    rw [Maps.setServices]
    split_ifs <;> rfl
  | _ => cases hw

/-- The process `q` of a reload that began in the maps `m₀` has the maps `m`, with other sets that
    agree in the active buffer. -/
structure Shadows (env : Env) (config : BaseConfig) (m₀ : Maps cpus) (q : Process cpus)
    (m : Maps cpus) : Prop where
  phase : Phase env config m₀ q
  active : q.maps.activeBuffer = m₀.activeBuffer
  sets : ∃ t, q.maps = m.withSets t ∧ m.Agrees t

namespace Shadows

variable {q : Process cpus}

theorem agrees_of_tables {m m' : Maps cpus} {t : Sets} (h : m.Agrees t)
    (ht : m'.tables = m.tables) : m'.Agrees t := by
  constructor
  · rw [Maps.activeBuffer_congr ht, Maps.activeServices_congr ht, ← h.services]
    rfl
  · rw [Maps.activeBuffer_congr ht, Maps.activeBackends_congr ht, ← h.backends]
    rfl

theorem packet (h : Shadows env config m₀ q m) (c : Call cpus) :
    (reloader cpus).out (.packet c) q = .backend ((finder cpus).out c m) ∧
      Shadows env config m₀ ((reloader cpus).next (.packet c) q) ((finder cpus).next c m) := by
  obtain ⟨t, ht, hagrees⟩ := h.sets
  have hstep := finder_withSets hagrees c
  have hmaps : ((reloader cpus).next (.packet c) q).maps =
      ((finder cpus).next c m).withSets t := by
    change ((finder cpus).step c q.maps).2 = _
    rw [ht, hstep]
    rfl
  refine ⟨?_, h.phase.step _ rfl, ?_, t, hmaps, agrees_of_tables hagrees (tables_finder c m)⟩
  · change Answer.backend ((finder cpus).step c q.maps).1 = _
    rw [ht, hstep]
    rfl
  · exact (Maps.activeBuffer_congr (tables_finder c q.maps)).trans h.active

theorem task (h : Shadows env config m₀ q m) (errno : Option String)
    (hactive : ((reloader cpus).next (.task errno) q).maps.activeBuffer = m₀.activeBuffer) :
    Shadows env config m₀ ((reloader cpus).next (.task errno) q) m := by
  refine ⟨h.phase.step _ rfl, hactive, ?_⟩
  change (q.step errno).2.maps.activeBuffer = m₀.activeBuffer at hactive
  change ∃ t, (q.step errno).2.maps = m.withSets t ∧ m.Agrees t
  obtain ⟨t, ht, hagrees⟩ := h.sets
  have hkeeps := h.phase.keepsActive errno
  rcases h.phase.task_cases errno with heq | ⟨-, w, hw, hrun⟩ | ⟨-, hrun⟩ | ⟨htarget, -⟩
  · exact ⟨t, heq.trans ht, hagrees⟩
  · obtain ⟨t', ht'⟩ := hw.withSets hrun
    have hnext : (q.step errno).2.maps = m.withSets t' := by
      rw [ht', ht]
      rfl
    refine ⟨t', hnext, ?_, ?_⟩
    · have := hkeeps.services
      rw [hnext, ht] at this
      exact this.trans hagrees.services
    · have := hkeeps.backends
      rw [hnext, ht] at this
      exact this.trans hagrees.backends
  · have hflip : runWrites q.maps [.atomicIndex m₀.target] = ((q.step errno).2.maps, true) :=
      runWrites_cons.2 ⟨_, hrun, rfl⟩
    have := (runWrites_atomicIndex hflip).2.2
    exact absurd (hactive.symm.trans this) m₀.activeBuffer_ne_target
  · exact absurd (h.active.symm.trans htarget) m₀.activeBuffer_ne_target

/-- The answers to the packets of a run without a flip are those of the packets alone. -/
theorem run (h : Shadows env config m₀ q m) {es : List (Event cpus)}
    (hes : ∀ e ∈ es, e.isReload = false)
    (hactive : (reloader cpus).Always (fun q => q.maps.activeBuffer = m₀.activeBuffer) q es) :
    ((reloader cpus).outs q es).filterMap Answer.backend? =
        (finder cpus).outs m (es.filterMap Event.packet?) ∧
      Shadows env config m₀ ((reloader cpus).exec q es)
        ((finder cpus).exec m (es.filterMap Event.packet?)) := by
  induction es generalizing q m with
  | nil => exact ⟨rfl, h⟩
  | cons e es ih =>
    have hes' : ∀ e ∈ es, e.isReload = false := fun e he => hes e (List.mem_cons_of_mem _ he)
    rw [Machine.outs, List.filterMap_cons, List.filterMap_cons, Machine.exec]
    cases e with
    | packet c =>
      obtain ⟨hout, hnext⟩ := h.packet c
      obtain ⟨houts, hexec⟩ := ih hnext hes' hactive.2
      rw [hout]
      exact ⟨congrArg _ houts, hexec⟩
    | reload env' config' => exact absurd (hes _ List.mem_cons_self) (by simp [Event.isReload])
    | task errno =>
      obtain ⟨houts, hexec⟩ := ih (h.task errno hactive.2.head) hes' hactive.2
      have hout : ((reloader cpus).out (.task errno) q).backend? = none := by
        change (q.step errno).1.backend? = none
        rw [Process.step]
        cases q.tasks with
        | nil => rfl
        | cons t tasks =>
          dsimp only
          rcases t.step errno q.dataplane with ⟨d, e | new⟩
          · rfl
          · dsimp only
            split <;> rfl
      rw [hout]
      exact ⟨houts, hexec⟩

end Shadows

/-- A reload is invisible until its flip. From whatever state packets and reloads lead to, no
    event changes the services or the backends that are active; and the packets that come during a
    reload, as long as it has not written `atomic_index`, get the backends and leave the cursors
    and the sessions that the same packets get and leave without it. -/
theorem reload_invisible {es₀ : List (Event cpus)}
    (hp : (reloader cpus).exec (.fresh cpus) es₀ = p) :
    (∀ e, KeepsActive p.maps ((reloader cpus).next e p).maps) ∧
    (p.tasks = [] → ∀ (env : Env) (config : BaseConfig) (es : List (Event cpus)),
      (∀ e ∈ es, e.isReload = false) →
      (reloader cpus).Always (fun q => q.maps.activeBuffer = p.maps.activeBuffer) p
        (.reload env config :: es) →
      let q := (reloader cpus).exec p (.reload env config :: es)
      let m := (finder cpus).exec p.maps (es.filterMap Event.packet?)
      ((reloader cpus).outs p (.reload env config :: es)).filterMap Answer.backend? =
        (finder cpus).outs p.maps (es.filterMap Event.packet?) ∧
      q.maps.rrIndex = m.rrIndex ∧ q.maps.wrrStateMap = m.wrrStateMap ∧
      q.maps.tcpSessionState = m.tcpSessionState) := by
  have hsound : p.Sound := hp ▸ Process.Sound.exec cpus es₀
  refine ⟨fun e => hsound.keepsActive e, fun hidle env config es hes hactive => ?_⟩
  have hmaps := Process.Sound.maps_reload p env config
  have hbegin := Phase.begin env config hidle hsound.activeBuffer_of_isFirstRun
  have hshadows : Shadows env config p.maps ((reloader cpus).next (.reload env config) p) p.maps :=
    ⟨hbegin, hactive.2.head, ⟨_, _, _, _⟩, hmaps, rfl, rfl⟩
  obtain ⟨houts, hexec⟩ := hshadows.run hes hactive.2
  obtain ⟨t, ht, -⟩ := hexec.sets
  have hout : ((reloader cpus).out (.reload env config) p).backend? = none := by
    rw [Machine.out, Process.step_reload hidle, Process.reload]
    rcases config.load env with ⟨xdp, none | e⟩ <;> rfl
  rw [Machine.outs, List.filterMap_cons, hout]
  refine ⟨houts, ?_, ?_, ?_⟩
  · rw [Machine.exec, ht, Maps.withSets_rrIndex]
  · rw [Machine.exec, ht, Maps.withSets_wrrStateMap]
  · rw [Machine.exec, ht, Maps.withSets_tcpSessionState]

/-- A reload that fails at its second write, between packets. -/
theorem reload_invisible_demo :
    let es : List (Event 1) := [.packet (.tcp (demoCall 0 1 true)), .task none, .task none,
      .packet (.tcp (demoCall 0 2 true)), .task (some "EIO"), .packet (.tcp (demoCall 1 1 false))]
    ((reloader 1).outs (demoProcess [demoConfig])
        (.reload demoEnv demoConfig' :: es)).filterMap Answer.backend? =
      (finder 1).outs (demoProcess [demoConfig]).maps (es.filterMap Event.packet?) :=
  ((@reload_invisible _ _ (.reload demoEnv demoConfig :: List.replicate 24 (.task none)) rfl).2
    (by decide +kernel) demoEnv demoConfig' _ (by decide) (by decide +kernel)).1

end L4Balancer
