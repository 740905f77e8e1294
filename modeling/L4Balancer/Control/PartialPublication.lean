import L4Balancer.Control.Kernel
import L4Balancer.Control.Loaded

/-!
# Publications that fail

The calls of `updateChBpfMaps`, any of which the system may fail, and the update of a
service with this callback. A publication that fails stops where it is: the entries
before the write that failed are the new ones, those after it the old ones
(`publication_in_order`). Nothing is taken back, neither in the maps nor in the instance,
which has switched its tables before.
-/

namespace L4Balancer

open Bpf

variable {cpus : ℕ} {m m' : Maps cpus} {w : Write} {ws ws' : List Write}

/-! ## The calls -/

/-- The calls of `updateChBpfMaps`, with the calls that fail. -/
def updateChCalls (fails : ℕ → Bool) (m : Maps cpus) : List Write → Maps cpus × Bool
  | [] => (m, true)
  | w :: ws =>
    match if fails 0 then none else w.run m with
    | none => if w.unchecked then updateChCalls (fun i => fails (i + 1)) m ws else (m, false)
    | some m => updateChCalls (fun i => fails (i + 1)) m ws

/-- `updateChBpfMaps`, which does nothing if one of the maps is not open. -/
def ChPublication.publish (p : ChPublication) (opened : Bool) (fails : ℕ → Bool) (m : Maps cpus) :
    Maps cpus × Bool :=
  if opened then updateChCalls fails m p.writes else (m, false)

/-- Without failures of the system, a publication is that of `updateChBpfMaps`. -/
theorem publish_eq (p : ChPublication) (m : Maps cpus) :
    p.publish true (fun _ => false) m = updateChBpfMaps m p.writes := by
  rw [ChPublication.publish, if_pos rfl]
  generalize p.writes = ws
  induction ws generalizing m with
  | nil => rfl
  | cons w ws ih =>
    rw [updateChCalls, updateChBpfMaps, if_neg Bool.false_ne_true]
    cases w.run m with
    | none => rw [ih]
    | some m => exact ih m

/-- `updateServiceBackends` of the manager of a dataplane: what it returns, and the manager and the
    maps after it. It does not look at what its callback returns. -/
def ChState.updateServiceBackends (st : ChState cpus) (xxh3 : Xxh3) (opened : Bool)
    (fails : ℕ → Bool) (key : ServiceKey) (backends : List Backend) (config : InstanceConfig := {}) :
    Option (Bool × ChState cpus) :=
  (st.manager.updateServiceBackends xxh3 key backends config).map fun (manager, p) =>
    (true, ⟨manager, (p.publish opened fails st.maps).1⟩)

/-! ## The entries -/

/-- The maps of consistent hash. -/
inductive ChMap
  | config
  | backends
  | currLookup
  | prevLookup
  deriving DecidableEq

/-- What an entry of one of them holds. -/
inductive ChValue
  | word (v : UInt32)
  | backend (b : Backend)
  | index (v : ℤ)
  deriving DecidableEq

/-- An entry of one of the maps. -/
def Maps.chEntry (m : Maps cpus) : ChMap × ℕ → Option ChValue
  | (.config, i) => (m.chConfig.lookup i).map .word
  | (.backends, i) => (m.chBackends.lookup i).map .backend
  | (.currLookup, i) => (m.chCurrLookup.lookup i).map .index
  | (.prevLookup, i) => (m.chPrevLookup.lookup i).map .index

/-- The entry that a write writes, and its value. -/
def Write.chEntry : Write → Option ((ChMap × ℕ) × ChValue)
  | chConfig i v => some ((.config, i), .word v)
  | chBackend i b => some ((.backends, i), .backend b)
  | chCurrLookup i v => some ((.currLookup, i), .index v)
  | chPrevLookup i v => some ((.prevLookup, i), .index v)
  | _ => none

theorem map_lookup_of_update {α β : Type*} {n : ℕ} {a a' : ArrayMap α n} {i : ℕ} {v : α}
    (f : α → β) (h : a.update i v = some a') (j : ℕ) :
    (a'.lookup j).map f = if j = i then some (f v) else (a.lookup j).map f := by
  rw [ArrayMap.lookup_of_update h]
  split_ifs <;> rfl

/-- A write writes its entry alone. -/
theorem Write.chEntry_run {e : ChMap × ℕ} {v : ChValue} (h : w.run m = some m')
    (hw : w.chEntry = some (e, v)) (e' : ChMap × ℕ) :
    m'.chEntry e' = if e' = e then some v else m.chEntry e' := by
  obtain ⟨k, j⟩ := e'
  cases w with
  | chConfig i x | chBackend i x | chCurrLookup i x | chPrevLookup i x =>
    obtain ⟨rfl, rfl⟩ := Prod.mk.inj (Option.some.inj hw)
    obtain ⟨a, ha, rfl⟩ := Option.map_eq_some_iff.1 h
    cases k <;> simp [Maps.chEntry, map_lookup_of_update _ ha]
  | _ => cases hw

theorem Write.isCh_iff : w.isCh ↔ ∃ e v, w.chEntry = some (e, v) := by
  cases w <;> simp [isCh, chEntry]

/-- The writes are to different entries. -/
def Apart (ws : List Write) : Prop :=
  ws.Pairwise fun w w' => ∀ e v v', w.chEntry = some (e, v) → w'.chEntry ≠ some (e, v')

/-! ## Calls that fail -/

/-- The call fails: the system fails it, or its map does not take it. -/
def Write.fails (w : Write) (fails : Bool) (m : Maps cpus) : Bool := fails || (w.run m).isNone

/-- The maps after a call. -/
def Write.attempt (w : Write) (fails : Bool) (m : Maps cpus) : Maps cpus :=
  if fails then m else (w.run m).getD m

/-- Whether a map takes a write depends on the index alone. -/
theorem Write.fails_congr (hw : w.isCh) (fails : Bool) (m m' : Maps cpus) :
    w.fails fails m = w.fails fails m' := by
  rw [Write.fails, Write.fails]
  congr 1
  cases w with
  | chConfig i v | chBackend i v | chCurrLookup i v | chPrevLookup i v =>
    simp only [run, Option.isNone_map, ArrayMap.update]
    split_ifs <;> rfl
  | _ => cases hw

/-- A call writes its entry alone, and not if it fails. -/
theorem Write.chEntry_attempt {e : ChMap × ℕ} {v : ChValue} (hw : w.chEntry = some (e, v))
    (fails : Bool) (m : Maps cpus) (e' : ChMap × ℕ) :
    (w.attempt fails m).chEntry e' =
      if e' = e ∧ w.fails fails m = false then some v else m.chEntry e' := by
  rw [Write.attempt, Write.fails]
  cases fails with
  | true => simp
  | false =>
    cases hrun : w.run m with
    | none => simp
    | some m₁ => simp [chEntry_run hrun hw]

theorem ChFrame.of_attempt (hw : w.isCh) (fails : Bool) (m : Maps cpus) :
    ChFrame m (w.attempt fails m) := by
  rw [Write.attempt]
  split_ifs
  · exact .refl m
  · cases hrun : w.run m with
    | none => exact .refl m
    | some m₁ => exact .of_run hrun hw

/-- `updateChBpfMaps` stops at a call that fails, unless it does not look at its result. -/
theorem updateChCalls_cons (fails : ℕ → Bool) (m : Maps cpus) (w : Write) (ws : List Write) :
    updateChCalls fails m (w :: ws) =
      if w.fails (fails 0) m ∧ w.unchecked = false then (m, false)
      else updateChCalls (fun i => fails (i + 1)) (w.attempt (fails 0) m) ws := by
  rw [updateChCalls, Write.fails, Write.attempt]
  cases fails 0 with
  | true => cases w.unchecked <;> rfl
  | false => cases w.run m <;> cases w.unchecked <;> rfl

/-- No call fails whose result is looked at. -/
def NoneFails (fails : ℕ → Bool) (m : Maps cpus) (ws : List Write) : Prop :=
  ∀ (k : ℕ) (w : Write), ws[k]? = some w → w.fails (fails k) m → w.unchecked

/-- `m'` is `m` after the calls: the entries of those that have not failed have the new values, the
    other entries are as before. -/
structure CalledUpTo (fails : ℕ → Bool) (ws : List Write) (m m' : Maps cpus) : Prop where
  written : ∀ (k : ℕ) (w : Write) e v, ws[k]? = some w → w.chEntry = some (e, v) →
    m'.chEntry e = if w.fails (fails k) m then m.chEntry e else some v
  kept : ∀ e, (∀ w ∈ ws, ∀ v, w.chEntry ≠ some (e, v)) → m'.chEntry e = m.chEntry e
  frame : ChFrame m m'

theorem CalledUpTo.nil (fails : ℕ → Bool) (m : Maps cpus) : CalledUpTo fails [] m m where
  written := nofun
  kept _ _ := rfl
  frame := .refl m

theorem CalledUpTo.cons {fails : ℕ → Bool}
    (h : CalledUpTo (fun i => fails (i + 1)) ws (w.attempt (fails 0) m) m') (hapart : Apart (w :: ws))
    (hch : ∀ w' ∈ w :: ws, w'.isCh) : CalledUpTo fails (w :: ws) m m' := by
  obtain ⟨hw, hch⟩ := List.forall_mem_cons.1 hch
  obtain ⟨e, v, he⟩ := Write.isCh_iff.1 hw
  obtain ⟨hothers, -⟩ := List.pairwise_cons.1 hapart
  have hattempt := Write.chEntry_attempt he (fails 0) m
  constructor
  · intro k w' e' v' hk he'
    cases k with
    | zero =>
      -- no later call is to its entry
      obtain rfl : w = w' := Option.some.inj hk
      obtain ⟨rfl, rfl⟩ := Prod.mk.inj (Option.some.inj (he.symm.trans he'))
      rw [h.kept e fun w' hmem v' => hothers w' hmem e v v' he, hattempt]
      cases w.fails (fails 0) m <;> simp
    | succ k =>
      have hmem : w' ∈ ws := List.mem_of_getElem? hk
      have hne : e' ≠ e := fun heq => hothers w' hmem e v v' he (heq ▸ he')
      rw [h.written k w' e' v' hk he', w'.fails_congr (hch w' hmem) _ _ m, hattempt,
        if_neg fun hee : e' = e ∧ _ => hne hee.1]
  · intro e' hnone
    obtain ⟨hne, hrest⟩ := List.forall_mem_cons.1 hnone
    rw [h.kept e' hrest, hattempt, if_neg fun hee : e' = e ∧ _ => hne v (hee.1 ▸ he)]
  · exact (ChFrame.of_attempt hw (fails 0) m).trans h.frame

/-- The calls go to the end, or stop at the first that fails and is looked at. -/
theorem updateChCalls_spec (fails : ℕ → Bool) (m : Maps cpus) (hapart : Apart ws)
    (hch : ∀ w ∈ ws, w.isCh) :
    ∃ done rest, ws = done ++ rest ∧ NoneFails fails m done ∧
      CalledUpTo fails done m (updateChCalls fails m ws).1 ∧
      ((updateChCalls fails m ws).2 = true ∧ rest = [] ∨
        (updateChCalls fails m ws).2 = false ∧ ∃ w rest', rest = w :: rest' ∧
          w.unchecked = false ∧ w.fails (fails done.length) m) := by
  induction ws generalizing fails m with
  | nil => exact ⟨[], [], rfl, nofun, .nil fails m, .inl ⟨rfl, rfl⟩⟩
  | cons w ws ih =>
    rw [updateChCalls_cons]
    split_ifs with hstop
    · exact ⟨[], w :: ws, rfl, nofun, .nil fails m, .inr ⟨rfl, w, ws, rfl, hstop.2, hstop.1⟩⟩
    · obtain ⟨hw, hchs⟩ := List.forall_mem_cons.1 hch
      obtain ⟨done, rest, rfl, hnone, hdone, hend⟩ := ih (fun i => fails (i + 1))
        (w.attempt (fails 0) m) (List.pairwise_cons.1 hapart).2 hchs
      have hfails : ∀ w' ∈ done ++ rest, ∀ f, w'.fails f (w.attempt (fails 0) m) = w'.fails f m :=
        fun w' hmem f => w'.fails_congr (hchs w' hmem) f _ _
      have hsub := (List.sublist_append_left done rest).cons_cons w
      refine ⟨w :: done, rest, rfl, ?_,
        hdone.cons (hapart.sublist hsub) fun w' hmem => hch w' (hsub.mem hmem), ?_⟩
      · intro k w' hk hw'
        cases k with
        | zero =>
          obtain rfl : w = w' := Option.some.inj hk
          simpa [hw'] using hstop
        | succ k =>
          have hmem : w' ∈ done := List.mem_of_getElem? hk
          exact hnone k w' hk (by rw [hfails w' (List.mem_append_left _ hmem)]; exact hw')
      · rcases hend with hend | ⟨hfalse, w', rest, rfl, hun, hw'⟩
        · exact .inl hend
        · refine .inr ⟨hfalse, w', rest, rfl, hun, ?_⟩
          rw [← hfails w' (List.mem_append_right _ List.mem_cons_self)]
          exact hw'

/-! ## The writes of a publication -/

theorem chEntry_writesFrom {α : Type*} {write : ℕ → α → Write} {k : ChMap} {f : α → ChValue}
    (hwrite : ∀ i a, (write i a).chEntry = some ((k, i), f a)) {i : ℕ} {as : List α} {w : Write}
    (hw : w ∈ writesFrom write i as) : ∃ j v, i ≤ j ∧ w.chEntry = some ((k, j), v) := by
  induction as generalizing i with
  | nil => cases hw
  | cons a as ih =>
    rcases List.mem_cons.1 hw with rfl | hw
    · exact ⟨i, f a, le_rfl, hwrite i a⟩
    · obtain ⟨j, v, hj, he⟩ := ih hw
      exact ⟨j, v, by omega, he⟩

theorem apart_writesFrom {α : Type*} (write : ℕ → α → Write) {k : ChMap} {f : α → ChValue}
    (hwrite : ∀ i a, (write i a).chEntry = some ((k, i), f a)) (i : ℕ) (as : List α) :
    Apart (writesFrom write i as) := by
  induction as generalizing i with
  | nil => exact .nil
  | cons a as ih =>
    refine .cons (fun w hw e v v' he he' => ?_) (ih (i + 1))
    obtain ⟨j, v'', hj, hw'⟩ := chEntry_writesFrom hwrite hw
    rw [hwrite] at he
    rw [hw'] at he'
    simp only [Option.some.injEq, Prod.mk.injEq] at he he'
    have := congrArg Prod.snd (he.1.trans he'.1.symm)
    dsimp only at this
    omega

/-- The map that a write is to. -/
def Write.chMap (w : Write) : Option ChMap := w.chEntry.map (·.1.1)

/-- Writes to different maps are to different entries. -/
theorem Apart.append (h : Apart ws) (h' : Apart ws')
    (hne : ∀ w ∈ ws, ∀ w' ∈ ws', w.chMap ≠ w'.chMap) : Apart (ws ++ ws') := by
  refine List.pairwise_append.2 ⟨h, h', fun w hw w' hw' e v v' he he' => hne w hw w' hw' ?_⟩
  rw [Write.chMap, Write.chMap, he, he']
  rfl

theorem ChPublication.apart (p : ChPublication) : Apart p.writes := by
  have hconfig : Apart [.chConfig 0 p.hashringSize, .chConfig 1 (.ofNat p.backends.length)] := by
    refine List.pairwise_pair.2 fun e v v' he he' => ?_
    obtain ⟨rfl, -⟩ := Prod.mk.inj (Option.some.inj he)
    cases he'
  have hbackends := apart_writesFrom .chBackend (fun _ _ => rfl) 0 p.backends
  have hcurr := apart_writesFrom .chCurrLookup (fun _ _ => rfl) 0
    (p.currLookup.take p.hashringSize.toNat)
  have hprev := apart_writesFrom .chPrevLookup (fun _ _ => rfl) 0
    (p.prevLookup.take p.hashringSize.toNat)
  refine ((hconfig.append hbackends ?_).append hcurr ?_).append hprev ?_
  all_goals
    intro w hw w' hw'
    obtain ⟨j, a, rfl⟩ := mem_writesFrom hw'
    simp only [List.mem_append, List.mem_cons, List.not_mem_nil, or_false] at hw
  · rcases hw with rfl | rfl <;> exact nofun
  · rcases hw with (rfl | rfl) | hw
    iterate 2 exact nofun
    obtain ⟨j', a', rfl⟩ := mem_writesFrom hw
    exact nofun
  · rcases hw with ((rfl | rfl) | hw) | hw
    iterate 2 exact nofun
    all_goals
      obtain ⟨j', a', rfl⟩ := mem_writesFrom hw
      exact nofun

/-- What a publication does. It writes the size of the ring, the number of backends, the backends,
    the current and the previous table, in this order. It returns true exactly if the maps are open
    and none of these calls fails but that of the number of backends, whose result is not looked at;
    then all of this is in the maps, but for the number if its call has failed. If it returns false,
    the maps are not open and nothing is written, or `w` is the first call that fails and is looked
    at, the entries of the calls before it are written and the other entries are as before. An
    update of a service switches its instance before it publishes, and leaves it switched; where the
    publication returns true, so does the update. -/
theorem publication_in_order (opened : Bool) (fails : ℕ → Bool) (m : Maps cpus) (p : ChPublication) :
    ((p.publish opened fails m).2 = true ↔ opened = true ∧ NoneFails fails m p.writes) ∧
    ((p.publish opened fails m).2 = true →
      CalledUpTo fails p.writes m (p.publish opened fails m).1) ∧
    ((p.publish opened fails m).2 = false →
      opened = false ∧ (p.publish opened fails m).1 = m ∨
      opened = true ∧ ∃ done w rest, p.writes = done ++ w :: rest ∧ w.unchecked = false ∧
        w.fails (fails done.length) m ∧ NoneFails fails m done ∧
        CalledUpTo fails done m (p.publish opened fails m).1) ∧
    ∀ (xxh3 : Xxh3) (manager manager' : ConsistentHashManager) (key : ServiceKey)
      (backends : List Backend) (config : InstanceConfig),
      manager.updateServiceBackends xxh3 key backends config = some (manager', p) →
      ∃ ret st', ChState.updateServiceBackends ⟨manager, m⟩ xxh3 opened fails key backends config =
          some (ret, st') ∧
        st'.manager = manager' ∧ st'.maps = (p.publish opened fails m).1 ∧
        ((p.publish opened fails m).2 = true → ret = true) := by
  rw [← and_assoc, ← and_assoc]
  refine ⟨?_, fun xxh3 manager manager' key backends config h => ?_⟩
  · rw [ChPublication.publish]
    cases opened with
    | false => simp
    | true =>
      rw [if_pos rfl]
      obtain ⟨done, rest, hws, hnone, hdone, hend⟩ := updateChCalls_spec fails m p.apart p.isCh_of_mem
      rcases hend with ⟨htrue, rfl⟩ | ⟨hfalse, w, rest, rfl, hun, hw⟩
      · rw [List.append_nil] at hws
        rw [← hws] at hnone hdone
        rw [htrue]
        exact ⟨⟨iff_of_true rfl ⟨rfl, hnone⟩, fun _ => hdone⟩, nofun⟩
      · -- the call of `w` fails, and its result is looked at
        have hsome : ¬NoneFails fails m p.writes := fun hall => by
          have hk : p.writes[done.length]? = some w := by
            rw [hws, List.getElem?_append_right le_rfl, Nat.sub_self, List.getElem?_cons_zero]
          exact Bool.false_ne_true (hun.symm.trans (hall _ w hk hw))
        rw [hfalse]
        exact ⟨⟨iff_of_false Bool.false_ne_true fun h => hsome h.2, nofun⟩, fun _ =>
          .inr ⟨rfl, done, w, rest, hws, hun, hw, hnone, hdone⟩⟩
  · refine ⟨true, ⟨manager', (p.publish opened fails m).1⟩, ?_, rfl, rfl, fun _ => rfl⟩
    rw [ChState.updateServiceBackends, h]
    rfl

/-- A backend more than `ch_backends` takes: the publication returns false, with a new size of the
    ring in the maps, and the update returns true, with a new service in the manager. -/
theorem failed_publication_stays :
    ∃ r, ConsistentHashManager.updateServiceBackends (fun _ _ => 0) ⟨∅⟩
        ⟨1, 80, IPPROTO_TCP, 4⟩ (.replicate 258 .zero) { hashringSize := 7 } = some r ∧
      (r.2.publish true (fun _ => false) (Maps.fresh 1)).2 = false ∧
      (r.2.publish true (fun _ => false) (Maps.fresh 1)).1.chEntry (.config, 0) ≠
        (Maps.fresh 1).chEntry (.config, 0) ∧
      (ChState.updateServiceBackends ⟨⟨∅⟩, Maps.fresh 1⟩ (fun _ _ => 0) true (fun _ => false)
        ⟨1, 80, IPPROTO_TCP, 4⟩ (.replicate 258 .zero) { hashringSize := 7 }).any (fun r =>
          r.1 = true ∧ (r.2.manager.services.lookup ⟨1, 80, IPPROTO_TCP, 4⟩).isSome) := by
  have h : (ConsistentHashManager.updateServiceBackends (fun _ _ => 0) ⟨∅⟩
      ⟨1, 80, IPPROTO_TCP, 4⟩ (.replicate 258 .zero) { hashringSize := 7 }).any (fun r =>
        (r.2.publish true (fun _ => false) (Maps.fresh 1)).2 = false ∧
        (r.2.publish true (fun _ => false) (Maps.fresh 1)).1.chEntry (.config, 0) ≠
          (Maps.fresh 1).chEntry (.config, 0)) = true := by decide +kernel
  obtain ⟨r, hr, hp⟩ := (Option.any_eq_true _ _).1 h
  obtain ⟨hfalse, hsize⟩ := of_decide_eq_true hp
  exact ⟨r, hr, hfalse, hsize, by decide +kernel⟩

end L4Balancer
