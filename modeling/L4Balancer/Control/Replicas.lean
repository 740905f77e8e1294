import L4Balancer.Control.Identity
import L4Balancer.Control.MergeTiming
import L4Balancer.Control.Operation
import L4Balancer.Control.Stability
import L4Balancer.Xdp.StableFlows

/-!
# Replicas

Several balancers may serve one service of consistent hash, each with a history of its own. A
node (`node`) is the manager of the service, the maps that its callback writes, and the packets
that are handled between the calls of the manager.

An update makes the Maglev table of its list the current one, whatever the node has been through,
but the previous table and the stability of the slots still depend on the history. That ends
with the merge: once the node has seen as many maintenances without an update as the timeout of
the merge says (`Serving.of_run`), both tables of the kernel are that of the list. So nodes that
have been given the same endpoints last send all packets of a flow that has no session to the
same endpoint (`replicas_agree`).
-/

namespace L4Balancer

open Bpf

variable {cpus cpus' : ℕ} {xxh3 : Xxh3} {key : ServiceKey} {T n : ℕ} {backends : List Backend}

/-! ## Nodes -/

/-- A call of the manager, or a packet. -/
inductive NodeEvent (cpus : ℕ)
  | manage (op : ChOp)
  | packet (c : Call cpus)

/-- The machine of a node; it answers whether every callback has returned true, or the backend of
    the packet. -/
def node (cpus : ℕ) (xxh3 : Xxh3) (key : ServiceKey) :
    Machine (ChState cpus) (NodeEvent cpus) (Bool ⊕ Option Backend) where
  step
    | .manage op => fun st => Prod.map .inl id ((chMachine cpus xxh3 key).step op st)
    | .packet c => fun st =>
      Prod.map .inr (ChState.mk st.manager) ((finder cpus).step c st.maps)

/-- The list of an update. -/
def ChOp.list? : ChOp → Option (List Backend)
  | updateServiceBackends backends _ => some backends
  | periodicMaintenance => none

/-- A timeout of at most `T` maintenances. -/
def ChOp.Within (T : ℕ) : ChOp → Prop
  | updateServiceBackends _ config => config.mergeTimeoutTicks.toNat ≤ T
  | periodicMaintenance => True

namespace NodeEvent

/-- What the callers of the manager see to: updates have a backend, the ring has the default size,
    and merges happen within `T` maintenances. -/
def Default (T : ℕ) : NodeEvent cpus → Prop
  | manage op => op.Default ∧ op.Within T
  | packet _ => True

def list? : NodeEvent cpus → Option (List Backend)
  | manage op => op.list?
  | packet _ => none

def maintains : NodeEvent cpus → Bool
  | manage op => op.list?.isNone
  | packet _ => false

end NodeEvent

/-- The last update of the run `es` is one to `backends`, and enough maintenances come after it. -/
def Quiescent (T : ℕ) (backends : List Backend) (es : List (NodeEvent cpus)) : Prop :=
  ∃ pre config post, es = pre ++ .manage (.updateServiceBackends backends config) :: post ∧
    (∀ e ∈ post, e.list? = none) ∧ max 1 T ≤ post.countP (·.maintains)

/-! ## The invariant -/

/-- The maps hold the tables of the instance of the service, which was updated to `backends` before
    the last `n` maintenances. -/
def Serving (xxh3 : Xxh3) (key : ServiceKey) (T : ℕ) (backends : List Backend) (n : ℕ)
    (st : ChState cpus) : Prop :=
  ∃ inst, st.manager.services.entries = [⟨key, inst⟩] ∧ InKernel xxh3 inst st.maps ∧
    inst.backends = backends ∧ Aged inst.config n inst ∧ inst.config.mergeTimeoutTicks.toNat ≤ T

/-- There is no instance yet, or one that the maps hold. -/
def Coherent (xxh3 : Xxh3) (key : ServiceKey) (T : ℕ) (st : ChState cpus) : Prop :=
  st.manager.services.entries = [] ∨ ∃ backends n, Serving xxh3 key T backends n st

/-- Packets leave the tables to the manager. -/
theorem Serving.packet {st : ChState cpus} (h : Serving xxh3 key T backends n st) (c : Call cpus) :
    Serving xxh3 key T backends n ((node cpus xxh3 key).next (.packet c) st) := by
  obtain ⟨inst, hentries, hin, hrest⟩ := h
  refine ⟨inst, hentries, ⟨hin.tables, hin.nonempty, ?_⟩, hrest⟩
  exact (SameCh.of_tables (tables_finder c st.maps)).written hin.written

theorem Serving.periodicMaintenance {st : ChState cpus} (h : Serving xxh3 key T backends n st)
    (hok : (chMachine cpus xxh3 key).out .periodicMaintenance st = true) :
    Serving xxh3 key T backends (n + 1)
      ((chMachine cpus xxh3 key).next .periodicMaintenance st) := by
  obtain ⟨inst, hentries, hin, hbackends, haged, hticks⟩ := h
  have hentries' := (ConsistentHashManager.periodicMaintenance_single hentries).1
  have hconfig := haged.tickMergeTimer.config_eq
  refine ⟨inst.tickMergeTimer.2, hentries', ?_, ?_, ?_, ?_⟩
  · rcases ChState.Sound.periodicMaintenance (.inr ⟨inst, hentries, hin⟩) hok with h | ⟨inst', h, hin'⟩
    · cases h.symm.trans hentries'
    · have heq := Option.some.inj ((lookup_of_entries h).symm.trans (lookup_of_entries hentries'))
      exact heq ▸ hin'
  · rw [backends_tickMergeTimer, hbackends]
  · rw [hconfig]
    exact haged.tickMergeTimer
  · rwa [hconfig]

/-- An update forgets everything but the configuration of the instance. -/
theorem Coherent.updateServiceBackends {st : ChState cpus} (h : Coherent xxh3 key T st)
    {config : InstanceConfig} (hne : backends ≠ []) (hsize : config.hashringSize = HASHRING_SMALL)
    (hticks : config.mergeTimeoutTicks.toNat ≤ T)
    (hok : (chMachine cpus xxh3 key).out (.updateServiceBackends backends config) st = true) :
    Serving xxh3 key T backends 0
      ((chMachine cpus xxh3 key).next (.updateServiceBackends backends config) st) := by
  obtain ⟨mgr, m⟩ := st
  -- the instance that is updated, a new one or that of the service
  obtain ⟨inst, config', hinst, htables, hsize', hticks'⟩ : ∃ inst config',
      (mgr.services.lookup key).getD (.new config) = inst ∧ DualTables xxh3 config' inst ∧
        config'.hashringSize = HASHRING_SMALL ∧ config'.mergeTimeoutTicks.toNat ≤ T := by
    -- an instance that is there keeps its own configuration, not that of the update
    rcases h with h | ⟨_, _, inst, h, hin, -, -, hle⟩
    · refine ⟨_, config, rfl, ?_, hsize, hticks⟩
      rw [AList.lookup, h]
      exact .new xxh3 config
    · obtain ⟨config', htables, hsize'⟩ := hin.tables
      refine ⟨inst, config', ?_, htables, hsize', htables.config_eq ▸ hle⟩
      rw [lookup_of_entries h, Option.getD_some]
  obtain ⟨inst', hu⟩ := htables.updateBackends_isSome (hsize' ▸ prime_hashringSmall) backends
  obtain ⟨hconfig, hbackends, -⟩ := htables.updateBackends_eq hne hu
  rw [Machine.out, step_updateServiceBackends m hinst hu] at hok
  rw [Machine.next, step_updateServiceBackends m hinst hu]
  have haged := Aged.of_updateBackends hne hu
  rw [htables.config_eq] at haged
  refine ⟨inst', ?_, ⟨⟨config', htables.updateBackends hu, hsize'⟩, hbackends ▸ hne, ?_⟩,
    hbackends, hconfig.symm ▸ haged, hconfig ▸ hticks'⟩
  · refine entries_insert (h.imp_right ?_) inst'
    rintro ⟨_, _, inst, h, -⟩
    exact ⟨inst, h⟩
  · exact .of_updateChBpfMaps (Prod.ext rfl hok)

/-! ## Runs -/

/-- The caller has seen to what it should, and the callback has returned true. -/
def Orderly (xxh3 : Xxh3) (key : ServiceKey) (T : ℕ) (st : ChState cpus) (e : NodeEvent cpus) :
    Prop :=
  e.Default T ∧ (node cpus xxh3 key).out e st ≠ .inl false

theorem Orderly.out_manage {st : ChState cpus} {op : ChOp}
    (h : Orderly xxh3 key T st (.manage op)) : (chMachine cpus xxh3 key).out op st = true := by
  have hne : (Sum.inl ((chMachine cpus xxh3 key).out op st) : Bool ⊕ Option Backend) ≠ .inl false :=
    h.2
  rwa [Ne, Sum.inl.injEq, Bool.not_eq_false] at hne

theorem Coherent.next {st : ChState cpus} (h : Coherent xxh3 key T st) {e : NodeEvent cpus}
    (he : Orderly xxh3 key T st e) : Coherent xxh3 key T ((node cpus xxh3 key).next e st) := by
  cases e with
  | manage op =>
    cases op with
    | updateServiceBackends backends config =>
      exact .inr ⟨_, _, h.updateServiceBackends he.1.1.1 he.1.1.2 he.1.2 he.out_manage⟩
    | periodicMaintenance =>
      -- nothing to maintain, or one more maintenance of the instance
      rcases h with h | ⟨backends, n, h⟩
      · have hmgr : st.manager.periodicMaintenance = (st.manager, []) := by
          rw [ConsistentHashManager.periodicMaintenance, h, List.mergeSort_nil,
            ConsistentHashManager.maintain]
        refine .inl ?_
        change st.manager.periodicMaintenance.1.services.entries = []
        rw [hmgr, h]
      · exact .inr ⟨_, _, h.periodicMaintenance he.out_manage⟩
  | packet c =>
    rcases h with h | ⟨backends, n, h⟩
    · exact .inl h
    · exact .inr ⟨backends, n, h.packet c⟩

theorem Coherent.exec {st : ChState cpus} (h : Coherent xxh3 key T st) {es : List (NodeEvent cpus)}
    (hes : (node cpus xxh3 key).Each (Orderly xxh3 key T) st es) :
    Coherent xxh3 key T ((node cpus xxh3 key).exec st es) :=
  (Machine.always_of_step (fun _ _ h he => h.next he) h hes).exec

/-- Without updates, the maintenances count. -/
theorem Serving.exec {st : ChState cpus} (h : Serving xxh3 key T backends n st)
    {es : List (NodeEvent cpus)} (hes : (node cpus xxh3 key).Each (Orderly xxh3 key T) st es)
    (hquiet : ∀ e ∈ es, e.list? = none) :
    Serving xxh3 key T backends (n + es.countP (·.maintains)) ((node cpus xxh3 key).exec st es) := by
  induction es generalizing st n with
  | nil => exact h
  | cons e es ih =>
    rw [List.forall_mem_cons] at hquiet
    rw [Machine.exec]
    cases e with
    | manage op =>
      cases op with
      | updateServiceBackends backends config => cases hquiet.1
      | periodicMaintenance =>
        rw [List.countP_cons_of_pos rfl, ← Nat.add_assoc, Nat.add_right_comm]
        exact ih (h.periodicMaintenance hes.1.out_manage) hes.2 hquiet.2
    | packet c =>
      rw [List.countP_cons_of_neg Bool.false_ne_true]
      exact ih (h.packet c) hes.2 hquiet.2

/-- A run that has come to rest. -/
theorem Serving.of_run {m : Maps cpus} {es : List (NodeEvent cpus)}
    (hes : (node cpus xxh3 key).Each (Orderly xxh3 key T) ⟨⟨∅⟩, m⟩ es)
    (hquiet : Quiescent T backends es) :
    ∃ n, max 1 T ≤ n ∧ Serving xxh3 key T backends n ((node cpus xxh3 key).exec ⟨⟨∅⟩, m⟩ es) := by
  obtain ⟨pre, config, post, rfl, hnone, hle⟩ := hquiet
  obtain ⟨hpre, hupdate, hpost⟩ := Machine.each_append.1 hes
  have hcoherent : Coherent xxh3 key T ((node cpus xxh3 key).exec ⟨⟨∅⟩, m⟩ pre) :=
    .exec (.inl rfl) hpre
  have hserving := hcoherent.updateServiceBackends hupdate.1.1.1 hupdate.1.1.2 hupdate.1.2
    hupdate.out_manage
  -- the update starts the count, and the maintenances after it reach the timeout
  rw [Machine.exec_append]
  exact ⟨_, hle.trans (Nat.le_add_left _ 0), hserving.exec hpost hnone⟩

/-- The lists of the updates fit `ch_backends`. -/
def NodeEvent.Fits : NodeEvent cpus → Prop
  | manage op => op.Fits
  | packet _ => True

/-- If the lists fit the maps, the callback returns true. -/
theorem ChState.Has.orderly {inst : ConsistentHashInstance} {st : ChState cpus}
    (h : st.Has xxh3 key inst) {es : List (NodeEvent cpus)}
    (hes : ∀ e ∈ es, e.Default T ∧ e.Fits) : (node cpus xxh3 key).Each (Orderly xxh3 key T) st es := by
  induction es generalizing st inst with
  | nil => trivial
  | cons e es ih =>
    rw [List.forall_mem_cons] at hes
    cases e with
    | manage op =>
      obtain ⟨hok, hnext⟩ := h.next hes.1.1.1 hes.1.2
      have hout : (node cpus xxh3 key).out (.manage op) st =
          .inl ((chMachine cpus xxh3 key).out op st) := rfl
      refine ⟨⟨hes.1.1, ?_⟩, ih hnext hes.2⟩
      rw [hout, hok]
      simp
    | packet c =>
      refine ⟨⟨trivial, ?_⟩, ih ⟨h.entries, h.tables, h.fits⟩ hes.2⟩
      exact Sum.inr_ne_inl

/-- A new node whose lists fit the maps. -/
theorem orderly_of_fits (m : Maps cpus) {config : InstanceConfig} {es : List (NodeEvent cpus)}
    (hes : ∀ e ∈ .manage (.updateServiceBackends backends config) :: es, e.Default T ∧ e.Fits) :
    (node cpus xxh3 key).Each (Orderly xxh3 key T) ⟨⟨∅⟩, m⟩
      (.manage (.updateServiceBackends backends config) :: es) := by
  rw [List.forall_mem_cons] at hes
  obtain ⟨⟨⟨⟨hne, hsize⟩, hticks⟩, hfits⟩, hes⟩ := hes
  obtain ⟨hok, hhas⟩ := ChState.Has.of_update key ⟨∅⟩ m (.inl ⟨rfl, rfl⟩) (.new xxh3 config) hsize
    hne hfits
  have hout : (node cpus xxh3 key).out (.manage (.updateServiceBackends backends config)) ⟨⟨∅⟩, m⟩ =
      .inl ((chMachine cpus xxh3 key).out (.updateServiceBackends backends config) ⟨⟨∅⟩, m⟩) := rfl
  refine ⟨⟨⟨⟨hne, hsize⟩, hticks⟩, ?_⟩, hhas.orderly hes⟩
  rw [hout, hok]
  simp

/-! ## The kernel at rest -/

/-- What the maps say of a hash once the history is forgotten. -/
theorem Serving.at_rest {st : ChState cpus} (h : Serving xxh3 key T backends n st)
    (hn : max 1 T ≤ n) {table : List ℤ}
    (htable : maglevTable xxh3 HASHRING_SMALL.toNat backends = some table) (keyHash : UInt32) :
    consistentHashIsStable keyHash st.maps = true ∧ ∃ (i : ℕ) (b : Backend),
      table[(keyHash % HASHRING_SMALL).toNat]? = some (i : ℤ) ∧ backends[i]? = some b ∧
      (consistentHashLookup keyHash false st.maps).1 = i ∧
      st.maps.chPick keyHash = if b.active = 0 then none else some (b, .ofNat i) := by
  obtain ⟨inst, -, hin, rfl, haged, hticks⟩ := h
  obtain ⟨config, htables, hsize⟩ := hin.tables
  have hnonzero : config.hashringSize ≠ 0 := hsize ▸ (by decide)
  obtain rfl : inst.currLookup = table := by
    have h := htables.table hin.nonempty
    rw [hsize, htable] at h
    exact (Option.some.inj h).symm
  -- after so many maintenances the merge is made
  have hmerged : inst.needsMerge = false := by
    rw [Bool.eq_false_iff, Ne, haged.needsMerge]
    omega
  have hsettled := htables.settled hmerged
  have hsize' : inst.config.hashringSize = HASHRING_SMALL := htables.config_eq.symm ▸ hsize
  obtain ⟨curr, prev, hslot⟩ := htables.slotEntries hnonzero hin.nonempty hin.written keyHash
  constructor
  · have hprev := hslot.prev_eq
    rw [hsettled, hslot.curr_eq] at hprev
    rw [hslot.consistentHashIsStable, Option.some.inj hprev, decide_eq_true rfl]
  · obtain ⟨i, b, hi, hb, hpick⟩ := hin.written.chPick ⟨hin.nonempty, hsize', htable⟩ keyHash
    refine ⟨i, b, hi, hb, ?_, hpick⟩
    have hsize₀ : inst.publication.hashringSize ≠ 0 := fun h => absurd (hsize'.symm.trans h) (by decide)
    have hlookup := hin.written.consistentHashLookup hsize₀ keyHash false (v := i)
      (by rwa [if_neg Bool.false_ne_true, ConsistentHashInstance.publication, hsize'])
    rw [hlookup, if_neg (by omega)]

/-- The same endpoint, and active or not at the same time; the MAC and the weight may differ. -/
def Backend.Replica (b b' : Backend) : Prop :=
  b.SameEndpoint b' ∧ (b.active = 0 ↔ b'.active = 0)

instance (b b' : Backend) : Decidable (b.Replica b') := inferInstanceAs (Decidable (_ ∧ _))

/-- A node leaves the services map alone. -/
theorem next_activeServices (e : NodeEvent cpus) (st : ChState cpus) :
    ((node cpus xxh3 key).next e st).maps.activeServices = st.maps.activeServices := by
  cases e with
  | manage op =>
    cases op with
    | updateServiceBackends backends config =>
      have hnext :
          ((node cpus xxh3 key).next (.manage (.updateServiceBackends backends config)) st) =
            (chMachine cpus xxh3 key).next (.updateServiceBackends backends config) st := rfl
      rw [hnext, Machine.next, chMachine]
      dsimp only
      cases st.manager.updateServiceBackends xxh3 key backends config with
      | none => rfl
      | some r => exact (ChFrame.of_updateChBpfMaps r.2.isCh_of_mem).buffers.activeServices
    | periodicMaintenance => exact (ChFrame.of_publishAll _ _).buffers.activeServices
  | packet c => exact (SameBuffers.of_tables (tables_finder c st.maps)).activeServices

theorem exec_activeServices (es : List (NodeEvent cpus)) (st : ChState cpus) :
    ((node cpus xxh3 key).exec st es).maps.activeServices = st.maps.activeServices := by
  induction es generalizing st with
  | nil => rfl
  | cons e es ih => rw [Machine.exec, ih, next_activeServices]

/-- The packet is addressed to a service of consistent hash. -/
def TcpCall.ToCh (c : TcpCall cpus) (m : Maps cpus) : Prop :=
  ∃ info ∈ m.activeServices.lookup c.key, info.algorithm = BALANCER_CH

instance (c : TcpCall cpus) (m : Maps cpus) : Decidable (c.ToCh m) :=
  inferInstanceAs (Decidable (∃ _, _ ∧ _))

/-- Replicas agree. Two new nodes of a service, over any maps, take updates to lists that are not
    empty for a ring of the default size, maintenances and packets in any order, all callbacks
    returning true. If their last updates were to lists with the same endpoints in order, of which
    the same are active, and each has seen as many maintenances since as the timeout of its merge
    says, then every hash is stable on both and has the same index in their current tables, and the
    packets of a flow without a live session go to the same endpoint. -/
theorem replicas_agree (xxh3 : Xxh3) (key : ServiceKey) {T T' : ℕ} {backends backends' : List Backend}
    (hsame : List.Forall₂ Backend.Replica backends backends') {m₀ : Maps cpus} {m₀' : Maps cpus'}
    {es : List (NodeEvent cpus)} {es' : List (NodeEvent cpus')}
    (hes : (node cpus xxh3 key).Each (Orderly xxh3 key T) ⟨⟨∅⟩, m₀⟩ es)
    (hes' : (node cpus' xxh3 key).Each (Orderly xxh3 key T') ⟨⟨∅⟩, m₀'⟩ es')
    (hquiet : Quiescent T backends es) (hquiet' : Quiescent T' backends' es') :
    let m := ((node cpus xxh3 key).exec ⟨⟨∅⟩, m₀⟩ es).maps
    let m' := ((node cpus' xxh3 key).exec ⟨⟨∅⟩, m₀'⟩ es').maps
    (∀ keyHash, consistentHashIsStable keyHash m = true ∧ consistentHashIsStable keyHash m' = true ∧
      (consistentHashLookup keyHash false m).1 = (consistentHashLookup keyHash false m').1) ∧
    ∀ (c : TcpCall cpus) (c' : TcpCall cpus'), c.stateKey.chHash = c'.stateKey.chHash →
      c.ToCh m → c'.ToCh m' → ¬c.Hits m → ¬c'.Hits m' →
      Option.Rel Backend.SameEndpoint ((tcpFinder cpus).out c m) ((tcpFinder cpus').out c' m') := by
  obtain ⟨n, hn, h⟩ := Serving.of_run hes hquiet
  obtain ⟨n', hn', h'⟩ := Serving.of_run hes' hquiet'
  obtain ⟨table, htable⟩ : ∃ table, maglevTable xxh3 HASHRING_SMALL.toNat backends = some table := by
    obtain ⟨inst, -, hin, rfl, -⟩ := id h
    exact maglevTable_isSome prime_hashringSmall xxh3 hin.nonempty
  have htable' : maglevTable xxh3 HASHRING_SMALL.toNat backends' = some table := by
    rw [← maglevTable_congr (hsame.imp fun _ _ h => h.1), htable]
  -- at rest, all that is left of the histories is the table of the list
  have hrest := h.at_rest hn htable
  have hrest' := h'.at_rest hn' htable'
  refine ⟨fun keyHash => ?_, fun c c' hhash hch hch' hhit hhit' => ?_⟩
  · obtain ⟨hstable, i, -, hi, -, hlookup, -⟩ := hrest keyHash
    obtain ⟨hstable', i', -, hi', -, hlookup', -⟩ := hrest' keyHash
    have heq := Option.some.inj (hi.symm.trans hi')
    exact ⟨hstable, hstable', by rw [hlookup, hlookup', heq]⟩
  · obtain ⟨info, hinfo, halgorithm⟩ := hch
    obtain ⟨info', hinfo', halgorithm'⟩ := hch'
    obtain ⟨-, i, b, hi, hb, -, hpick⟩ := hrest c.stateKey.chHash
    obtain ⟨-, i', b', hi', hb', -, hpick'⟩ := hrest' c'.stateKey.chHash
    rw [← hhash, hi] at hi'
    obtain rfl : i = i' := by simpa using hi'
    have hreplica : b.Replica b' := by
      obtain ⟨hlt, rfl⟩ := List.getElem?_eq_some_iff.1 hb
      obtain ⟨hlt', rfl⟩ := List.getElem?_eq_some_iff.1 hb'
      exact hsame.get hlt hlt'
    rw [TcpCall.out_ch hinfo halgorithm hhit, TcpCall.out_ch hinfo' halgorithm' hhit', hpick, hpick']
    by_cases hactive : b.active = 0
    · rw [if_pos hactive, if_pos (hreplica.2.1 hactive)]
      exact .none
    · rw [if_neg hactive, if_neg (mt hreplica.2.2 hactive)]
      exact .some hreplica.1

/-- A node of two backends, with a packet before its merge. -/
def demoNode : List (NodeEvent 1) :=
  [.manage (.updateServiceBackends [demoBackend 0, demoBackend 1] { mergeTimeoutTicks := 1 }),
    .packet (.tcp (demoCall 0 1 true)), .manage .periodicMaintenance]

/-- Another one, which has had only the second of them first. -/
def demoNode' : List (NodeEvent 2) :=
  [.manage (.updateServiceBackends [demoBackend 1] { mergeTimeoutTicks := 2 }),
    .manage (.updateServiceBackends [demoBackend 0, demoBackend 1] { mergeTimeoutTicks := 2 }),
    .manage .periodicMaintenance, .manage .periodicMaintenance]

/-- Maps with the service on two CPUs. -/
def demoMaps' : Maps 2 :=
  { Maps.fresh 2 with servicesFirst := (demoMaps BALANCER_CH).servicesFirst }

/-- A SYN on the second CPU. -/
def demoCall' : TcpCall 2 := { demoCall 9 7 true with ctx := ⟨9, 1⟩ }

/-- Their tables agree on a hash, and send a SYN to the same endpoint. -/
theorem replicas_agree_demo :
    let m := ((node 1 constantXxh3 demoKey).exec ⟨⟨∅⟩, demoMaps BALANCER_CH⟩ demoNode).maps
    let m' := ((node 2 constantXxh3 demoKey).exec ⟨⟨∅⟩, demoMaps'⟩ demoNode').maps
    (consistentHashIsStable 7 m = true ∧ consistentHashIsStable 7 m' = true ∧
      (consistentHashLookup 7 false m).1 = (consistentHashLookup 7 false m').1) ∧
    Option.Rel Backend.SameEndpoint ((tcpFinder 1).out (demoCall 5 7 true) m)
      ((tcpFinder 2).out demoCall' m') := by
  intro m m'
  have hsame : List.Forall₂ Backend.Replica [demoBackend 0, demoBackend 1]
      [demoBackend 0, demoBackend 1] := by decide
  have hquiet : Quiescent 1 [demoBackend 0, demoBackend 1] demoNode :=
    ⟨[], { mergeTimeoutTicks := 1 }, _, rfl, by decide, by decide⟩
  have hquiet' : Quiescent 2 [demoBackend 0, demoBackend 1] demoNode' :=
    ⟨[.manage (.updateServiceBackends [demoBackend 1] { mergeTimeoutTicks := 2 })],
      { mergeTimeoutTicks := 2 }, _, rfl, by decide, by decide⟩
  obtain ⟨htables, hpackets⟩ := replicas_agree constantXxh3 demoKey hsame
    (orderly_of_fits (demoMaps BALANCER_CH) (by
      simp [NodeEvent.Default, ChOp.Default, ChOp.Within, NodeEvent.Fits, ChOp.Fits]))
    (orderly_of_fits demoMaps' (by
      simp [NodeEvent.Default, ChOp.Default, ChOp.Within, NodeEvent.Fits, ChOp.Fits]))
    hquiet hquiet'
  have hch : (demoCall 5 7 true).ToCh m :=
    ⟨⟨2, 0, BALANCER_CH, 0⟩, by rw [exec_activeServices]; decide +kernel, rfl⟩
  have hch' : demoCall'.ToCh m' :=
    ⟨⟨2, 0, BALANCER_CH, 0⟩, by rw [exec_activeServices]; decide +kernel, rfl⟩
  -- a SYN does not look for a session
  have hsyn : (demoCall 5 7 true).tcp.pureSyn = true := rfl
  have hsyn' : demoCall'.tcp.pureSyn = true := rfl
  exact ⟨htables 7, hpackets _ demoCall' rfl hch hch'
    (fun h => Bool.false_ne_true (h.1.symm.trans hsyn))
    (fun h => Bool.false_ne_true (h.1.symm.trans hsyn'))⟩

end L4Balancer
