import L4Balancer.Control.Single

/-!
# The published service

The maps of consistent hash belong to one service at a time, and after a reload they hold
the one service of consistent hash that the configuration has (`ChCurrent`). But the manager
keeps the instances of services that are gone, and merges them when their time has come: a
maintenance then publishes an old service again. The maps stay those of the loaded
configuration exactly if no maintenance ends with an instance of another service
(`ch_current_iff`).
-/

namespace L4Balancer

open Bpf

variable {cpus : ℕ} {env : Env} {config : BaseConfig} {s s' : Operation cpus} {a : Action cpus}
  {as : List (Action cpus)}

/-- If the loaded configuration has a service of consistent hash with an enabled real, then this is
    the service that the maps of consistent hash were last written for. -/
def ChCurrent (env : Env) (s : Operation cpus) : Prop :=
  ∀ config, s.loaded = some config → ∀ service ∈ config.services, service.LiveCh →
    ∃ p, s.published = some (service.chKey env, p) ∧ ChWritten p s.maps

/-- The last instance that a maintenance merges is that of the service of consistent hash that the
    loaded configuration has, if it has one with an enabled real. -/
def MergesCurrent (env : Env) (s : Operation cpus) : Action cpus → Prop
  | .maintain => ∀ e, s.dataplane.chManager.dueInstances.getLast? = some e →
    ∀ config, s.loaded = some config → ∀ service ∈ config.services, service.LiveCh →
      e.1 = service.chKey env
  | _ => True

/-- The maps of consistent hash hold what was published last. -/
structure Operation.Consistent (xxh3 : Xxh3) (s : Operation cpus) : Prop where
  sound : s.dataplane.chManager.Sound xxh3
  written : ∀ e, s.published = some e → ChWritten e.2 s.maps

theorem Operation.Consistent.fresh (xxh3 : Xxh3) (cpus : ℕ) :
    (Operation.fresh cpus).Consistent xxh3 := ⟨.empty xxh3, fun _ h => by cases h⟩

theorem ChCurrent.fresh (env : Env) (cpus : ℕ) : ChCurrent env (.fresh cpus) :=
  fun _ h => by cases h

namespace Operation.Consistent

/-- What is current depends on the key of the last publication only. -/
theorem chCurrent_iff (h : s.Consistent env.xxh3) : ChCurrent env s ↔
    ∀ config, s.loaded = some config → ∀ service ∈ config.services, service.LiveCh →
      s.published.map Prod.fst = some (service.chKey env) := by
  refine forall₅_congr fun config _ service _ _ => ?_
  constructor
  · rintro ⟨p, hp, -⟩
    rw [hp, Option.map_some]
  · intro hkey
    obtain ⟨⟨key, p⟩, hp, rfl⟩ := Option.map_eq_some_iff.1 hkey
    exact ⟨p, hp, h.written _ hp⟩

theorem failed (h : s.Consistent env.xxh3) (hf : s.Failed s') : s'.Consistent env.xxh3 where
  sound := hf.keeps.1.symm ▸ h.sound
  written e he := hf.keeps.2.written (h.written e (hf.published ▸ he))

theorem reloaded (h : s.Consistent env.xxh3) (hr : Reloaded env config s s') (hok : s'.intact) :
    s'.Consistent env.xxh3 := by
  refine ⟨hr.sound, fun e he => ?_⟩
  rcases hr.tables with ⟨-, hsame, hpub⟩ | ⟨service, p, -, hpub, -, -, hw⟩
  · exact hsame.written (h.written e (hpub ▸ he))
  · obtain rfl := Option.some.inj (hpub.symm.trans he)
    exact hw hok

theorem maintained {ok : Bool} (h : s.Consistent env.xxh3) (hm : Maintained env.xxh3 s s' ok)
    (hok : ok) : s'.Consistent env.xxh3 := by
  refine ⟨hm.sound, fun e he => ?_⟩
  rcases hm.tables with ⟨-, hsame, hpub⟩ | ⟨key, inst, p, -, hpub, -, -, hw⟩
  · rw [hsame]
    exact h.written e (hpub ▸ he)
  · obtain rfl := Option.some.inj (hpub.symm.trans he)
    exact hw hok

theorem next (h : s.Consistent env.xxh3) (hok : (operation cpus env).out a s = true) :
    ((operation cpus env).next a s).Consistent env.xxh3 := by
  cases a with
  | reload config =>
    rcases Operation.reload_cases h.sound config with hf | ⟨hr, hintact⟩
    · exact h.failed hf
    · exact h.reloaded hr (hintact.trans hok)
  | maintain => exact h.maintained (Operation.maintain_spec h.sound) hok
  | packet c =>
    have htables : SameCh s.maps ((finder cpus).next c s.maps) := .of_tables (tables_finder c _)
    exact ⟨h.sound, fun e he => htables.written (h.written e he)⟩

/-- What a step makes of the service that the maps were written for. -/
theorem next_chCurrent_iff (h : s.Consistent env.xxh3) (hone : a.OneCh)
    (hok : (operation cpus env).out a s = true) (hs : ChCurrent env s) :
    ChCurrent env ((operation cpus env).next a s) ↔ MergesCurrent env s a := by
  have hnext := h.next hok
  cases a with
  | reload config =>
    refine iff_of_true (hnext.chCurrent_iff.2 fun config' hconfig service hmem hlive => ?_) trivial
    rcases Operation.reload_cases h.sound config with hf | ⟨hr, -⟩
    · have hpub : ((operation cpus env).next (.reload config) s).published = s.published :=
        hf.published
      rw [hpub]
      exact h.chCurrent_iff.1 hs config' (hf.loaded.symm.trans hconfig) service hmem hlive
    · obtain rfl := Option.some.inj (hr.loaded.symm.trans hconfig)
      rcases hr.tables with ⟨hnone, -⟩ | ⟨service', p, hlast, hpub, -⟩
      · exact absurd hlive (BaseConfig.lastCh_eq_none.1 hnone service hmem)
      · obtain rfl := Option.some.inj (hlast.symm.trans (hone.lastCh_eq hmem hlive))
        have hpub : ((operation cpus env).next (.reload config) s).published = _ := hpub
        rw [hpub, Option.map_some]
  | maintain =>
    have hm : Operation.Maintained env.xxh3 s ((operation cpus env).next .maintain s) _ :=
      Operation.maintain_spec h.sound
    rw [hnext.chCurrent_iff, hm.loaded]
    rcases hm.tables with ⟨hnone, -, hpub⟩ | ⟨key, inst, p, hdue, hpub, -⟩
    · rw [hpub]
      refine iff_of_true (h.chCurrent_iff.1 hs) fun e he => ?_
      cases hnone.symm.trans he
    · rw [hpub, Option.map_some]
      constructor
      · intro hcurr e he config hconfig service hmem hlive
        obtain rfl := Option.some.inj (hdue.symm.trans he)
        exact Option.some.inj (hcurr config hconfig service hmem hlive)
      · intro hcurr config hconfig service hmem hlive
        exact congrArg some (hcurr _ hdue config hconfig service hmem hlive)
  | packet c =>
    refine iff_of_true (hnext.chCurrent_iff.2 ?_) trivial
    exact h.chCurrent_iff.1 hs

end Operation.Consistent

/-- The published service. In a run of reloads, each with at most one service of consistent hash,
    of maintenances and of packets in which all writes of consistent hash succeed: the maps of
    consistent hash are always those of the loaded configuration exactly if the last instance that
    a maintenance merges is always that of its service. -/
theorem ch_current_iff (hs : s.Consistent env.xxh3) (hcurr : ChCurrent env s)
    (has : (operation cpus env).Each
      (fun s a => a.OneCh ∧ (operation cpus env).out a s = true) s as) :
    (operation cpus env).Always (ChCurrent env) s as ↔
      (operation cpus env).Each (MergesCurrent env) s as :=
  Machine.always_iff_each (fun _ _ h ha => h.next ha.2)
    (fun _ _ h ha hc => h.next_chCurrent_iff ha.1 ha.2 hc) hs hcurr has

/-- A service, and a maintenance in which nothing is due. -/
theorem ch_current_demo : (operation 1 demoEnv).Always (ChCurrent demoEnv) (.fresh 1)
    [.reload (demoCh "10.0.0.1"), .maintain] := by
  obtain ⟨hok, inst, hr⟩ := @demoCh_reload (.fresh 1) "10.0.0.1" (.empty _) (by decide +kernel)
  have hwait := hr.waiting rfl
  obtain ⟨hok', -⟩ := hwait.maintain demoEnv (by decide)
  have has : (operation 1 demoEnv).Each
      (fun s a => a.OneCh ∧ (operation 1 demoEnv).out a s = true) (.fresh 1)
      [.reload (demoCh "10.0.0.1"), .maintain] :=
    ⟨⟨demoCh_oneCh _, hok⟩, ⟨trivial, hok'⟩, trivial⟩
  refine (ch_current_iff (.fresh _ 1) (.fresh _ 1) has).2 ⟨trivial, fun e he => ?_, trivial⟩
  rw [hwait.dueInstances, hwait.not_due (by decide)] at he
  cases he

/-- One service is replaced by another just before its merge is due. -/
def demoTakenOver : List (Action 1) :=
  .reload (demoCh "10.0.0.2") :: (List.replicate 179 .maintain ++
    [.reload (demoCh "10.0.0.1"), .maintain])

/-- A maintenance with two instances one of which is due. -/
theorem dueInstances_pair {mgr : ConsistentHashManager} {key key' : ServiceKey}
    {inst inst' : ConsistentHashInstance}
    (h : mgr.services.entries = [⟨key, inst⟩, ⟨key', inst'⟩]) (hdue : inst.due = false)
    (hdue' : inst'.due = true) : mgr.dueInstances = [⟨key', inst'⟩] := by
  have hperm : mgr.dueInstances.Perm (mgr.services.entries.filter (·.2.due)) :=
    (List.mergeSort_perm _ _).filter _
  rw [h] at hperm
  simpa [List.filter_cons, hdue, hdue'] using hperm

/-- If an instance of another service is about to be merged, the maintenance after a reload
    publishes it. -/
theorem taken_over_of_waiting {s : Operation 1} {vip : String} {key : ServiceKey}
    {inst : ConsistentHashInstance} (hwait : s.Waiting demoEnv.xxh3 key 179 inst)
    (hkey : key ≠ (demoService vip .ch ["10.0.1.1"]).chKey demoEnv)
    (hok : Except.isOk (s.dataplane.publish demoEnv (demoCh vip) >>= Dataplane.resetCursors)) :
    (operation 1 demoEnv).Each (fun s a => a.OneCh ∧ (operation 1 demoEnv).out a s = true) s
        [.reload (demoCh vip), .maintain] ∧
      ¬ChCurrent demoEnv ((operation 1 demoEnv).exec s [.reload (demoCh vip), .maintain]) := by
  obtain ⟨hout, new, hr⟩ := demoCh_reload hwait.sound hok
  simp only [Machine.Each, Machine.exec]
  generalize (operation 1 demoEnv).next (.reload (demoCh vip)) s = s₁ at hr ⊢
  have hentries : s₁.dataplane.chManager.services.entries =
      [⟨(demoService vip .ch ["10.0.1.1"]).chKey demoEnv, new⟩, ⟨key, inst⟩] := by
    rw [hr.manager, AList.entries_insert, hwait.entries, List.kerase_cons_ne hkey.symm,
      List.kerase_nil]
  have hdue : inst.due = true := (hwait.due_iff (by decide)).2 rfl
  have hnew : new.due = false := by
    obtain ⟨ht, -, -, hmerge, htimer⟩ := hr.inst
    rw [ConsistentHashInstance.due, htimer, ht.config_eq, hmerge]
    rfl
  have hlast := dueInstances_pair hentries hnew hdue
  refine ⟨⟨⟨demoCh_oneCh vip, hout⟩, ⟨trivial, ?_⟩, trivial⟩, fun hcurr => ?_⟩
  · change (publishAll s₁.maps s₁.dataplane.chManager.periodicMaintenance.2).2 = true
    rw [ConsistentHashManager.periodicMaintenance_snd, hlast, List.map_singleton]
    simp only [publishAll, Bool.and_true]
    exact writes_succeed hwait.tables.tickMergeTimer rfl
      (by rw [backends_tickMergeTimer]; exact hwait.length) _
  · have hm : Operation.Maintained demoEnv.xxh3 s₁ ((operation 1 demoEnv).next .maintain s₁) _ :=
      Operation.maintain_spec hr.reloaded.sound
    obtain ⟨p, hp, -⟩ := hcurr (demoCh vip) (hm.loaded.trans hr.reloaded.loaded) _
      List.mem_cons_self (demoCh_live vip)
    rcases hm.tables with ⟨hnone, -⟩ | ⟨key', inst', p', hsome, hpub, -⟩
    · rw [hlast] at hnone
      cases hnone
    · rw [hlast] at hsome
      obtain ⟨rfl, -⟩ := Sigma.mk.inj (Option.some.inj hsome)
      obtain ⟨hk, -⟩ := Prod.mk.inj (Option.some.inj (hpub.symm.trans hp))
      exact hkey hk

/-- The maintenance publishes the service that is gone. -/
theorem taken_over : (operation 1 demoEnv).Each
      (fun s a => a.OneCh ∧ (operation 1 demoEnv).out a s = true) (.fresh 1) demoTakenOver ∧
    ¬(operation 1 demoEnv).Always (ChCurrent demoEnv) (.fresh 1) demoTakenOver := by
  obtain ⟨hok, inst, hr⟩ := @demoCh_reload (.fresh 1) "10.0.0.2" (.empty _) (by decide +kernel)
  obtain ⟨hoks, hplace, inst', hwait⟩ :=
    (hr.waiting rfl).maintain_many demoEnv (show 0 + 179 ≤ 179 by omega)
  -- the second reload starts where the first one has left the buffers
  obtain ⟨hlast, hnot⟩ := @taken_over_of_waiting _ "10.0.0.1" _ _ hwait (by decide +kernel)
    ((hr.place.trans hplace).prepare (by decide +kernel))
  refine ⟨⟨⟨demoCh_oneCh _, hok⟩, Machine.each_append.2 ⟨hoks, hlast⟩⟩, fun halways => hnot ?_⟩
  have hexec := halways.exec
  rwa [demoTakenOver, Machine.exec, Machine.exec_append] at hexec

end L4Balancer
