import L4Balancer.Control.Operation
import L4Balancer.Control.Proto
import L4Balancer.Xdp.Ban

/-!
# Settings of the SYN filter

What becomes of the `ddos_config` of a configuration.

* `ReloadConfig` writes `ddos_cfg` only for a configuration that has one, so that the
  thresholds of the last one that had stay (`ddos_follows_iff`); an update by a client never
  has one.
* The duration of a ban is converted to nanoseconds in 32 bits, so that only bans of up to
  4294 milliseconds last as long as they should (`ban_duration_iff`).
-/

namespace L4Balancer

open Bpf

variable {cpus : ℕ} {env : Env} {config : BaseConfig} {conf : DDoSConfig} {d d' : Dataplane cpus}

/-! ## The write of `ddos_cfg` -/

/-- `d'` has the maps of the filter of `d`. -/
def KeepsDdos (d d' : Dataplane cpus) : Prop := d'.ddos = d.ddos

namespace KeepsDdos

theorem trans (d d₁ d₂ : Dataplane cpus) (h : KeepsDdos d d₁) (h' : KeepsDdos d₁ d₂) :
    KeepsDdos d d₂ := Eq.trans h' h

theorem write (d : Dataplane cpus) (ws : List Write) (error : String → String) :
    KeepsDdos d (d.write ws error).dataplane := by
  rw [Outcome.dataplane_write]
  rfl

theorem updateAllCh (d : Dataplane cpus) (env : Env) (services : List BalancerService) :
    KeepsDdos d (services.foldl (·.updateCh env ·) d) := by
  induction services generalizing d with
  | nil => rfl
  | cons service services ih =>
    refine trans _ _ _ ?_ (ih (d.updateCh env service))
    rw [Dataplane.updateCh]
    split_ifs
    · rfl
    · cases d.chPublication env service <;> rfl
    · rfl

theorem switch (d : Dataplane cpus) (env : Env) : KeepsDdos d (d.switch env).dataplane := by
  rw [Dataplane.switch, Dataplane.resetCursors]
  refine Outcome.dataplane_bind trans ?_ fun d₁ => updateAllCh d₁ env _
  exact Outcome.dataplane_bind trans (write d _ _) fun _ => rfl

theorem resetStats (d : Dataplane cpus) : KeepsDdos d d.resetStats.dataplane := by
  obtain ⟨a, b, h⟩ := OnlyStats.resetStats d
  rw [h]
  rfl

end KeepsDdos

/-- A reload that gets past its step for `ddos_cfg` does nothing else to the filter. -/
theorem ddos_reloadConfig (hload : (config.load env).2 = none) (d : Dataplane cpus) :
    (Outcome.dataplane (d.reloadConfig env config)).ddos = (d.updateDdosCfg config.ddosConf).ddos := by
  have hpublish : (d.publish env config).dataplane.ddos = (d.updateDdosCfg config.ddosConf).ddos := by
    rcases hl : config.load env with ⟨xdp, _ | e⟩
    · -- the writes of the batches come after the settings, and are in other maps
      refine Eq.trans (Outcome.dataplane_publish KeepsDdos.trans
        (fun d ws error _ => KeepsDdos.write d ws error) hl d) ?_
      cases config.ddosConf <;> rfl
    · rw [hl] at hload
      cases hload
  rw [Dataplane.reloadConfig]
  cases hpub : d.publish env config with
  | error e =>
    rw [hpub] at hpublish
    exact hpublish
  | ok d₁ =>
    rw [hpub] at hpublish
    rw [Dataplane.ok_bind]
    exact Eq.trans (Outcome.dataplane_bind KeepsDdos.trans (KeepsDdos.switch d₁ env)
      KeepsDdos.resetStats) hpublish

/-! ## Thresholds -/

/-- A call that loads a configuration: that of the file, or that of a message. -/
inductive ConfigCall
  | loadConfig (config : BaseConfig)
  /-- The second argument is the memory that decoding leaves uninitialised. -/
  | updateConfig (proto : Api.Configuration) (uninit : ℕ → ℕ → UInt32)

/-- The configuration that the call loads; `none` if its message does not decode. -/
def ConfigCall.target : ConfigCall → Option BaseConfig
  | loadConfig config => some config
  | updateConfig proto uninit =>
    if (fromProtoConfiguration uninit proto).2 = [] then some (fromProtoConfiguration uninit proto).1
    else none

/-- The settings that the call brings. -/
def ConfigCall.ddosConf (call : ConfigCall) : Option DDoSConfig := call.target.bind (·.ddosConf)

/-- The machine of these calls; the system answers each in its own way. -/
def loader (cpus : ℕ) : Machine (Dataplane cpus) (Env × ConfigCall) Unit where
  step
    | (env, call) => fun d =>
      ((), call.target.elim d fun config => Outcome.dataplane (d.reloadConfig env config))

/-- The call gets past the step for `ddos_cfg` of its reload. -/
def ReachesDdos (call : Env × ConfigCall) : Prop :=
  ∃ config, call.2.target = some config ∧ (config.load call.1).2 = none

def DdosConfig.thresholds (cfg : DdosConfig) : UInt32 × UInt32 × UInt32 :=
  (cfg.synThreshold, cfg.synAckRatio, cfg.globalSynThreshold)

def DDoSConfig.thresholds (conf : DDoSConfig) : UInt32 × UInt32 × UInt32 :=
  (conf.synThreshold, conf.synAckRatio, conf.globalSynThreshold)

/-- The thresholds that packets are checked against. -/
def Dataplane.thresholds (d : Dataplane cpus) : UInt32 × UInt32 × UInt32 :=
  (d.ddos.ddosCfg.get 0).thresholds

/-- The last settings that the calls have brought. -/
def lastSettings (calls : List (Env × ConfigCall)) : Option DDoSConfig :=
  calls.reverse.findSome? fun call => call.2.ddosConf

theorem thresholds_next {call : Env × ConfigCall} (h : ReachesDdos call) (d : Dataplane cpus) :
    ((loader cpus).next call d).thresholds =
      call.2.ddosConf.elim d.thresholds DDoSConfig.thresholds := by
  obtain ⟨config, htarget, hload⟩ := h
  have hnext : (loader cpus).next call d = Outcome.dataplane (d.reloadConfig call.1 config) := by
    rw [Machine.next]
    dsimp only [loader]
    rw [htarget]
    rfl
  rw [hnext, Dataplane.thresholds, ddos_reloadConfig hload, ConfigCall.ddosConf, htarget,
    Option.bind_some]
  cases config.ddosConf <;> rfl

/-- After calls that get past their steps, the thresholds are those of the last settings. -/
theorem thresholds_exec {calls : List (Env × ConfigCall)} (h : ∀ call ∈ calls, ReachesDdos call)
    (d : Dataplane cpus) : ((loader cpus).exec d calls).thresholds =
      (lastSettings calls).elim d.thresholds DDoSConfig.thresholds := by
  induction calls using List.reverseRecOn with
  | nil => rfl
  | append_singleton calls call ih =>
    rw [List.forall_mem_append, List.forall_mem_singleton] at h
    have hexec : (loader cpus).exec d (calls ++ [call]) =
      (loader cpus).next call ((loader cpus).exec d calls) := Machine.exec_append calls [call]
    rw [hexec, thresholds_next h.2, ih h.1, lastSettings, lastSettings, List.reverse_append,
      List.reverse_singleton, List.singleton_append, List.findSome?_cons]
    cases call.2.ddosConf <;> rfl

/-- The settings follow the configuration. After any calls that get past their steps for `ddos_cfg`,
    the thresholds are those of the last configuration, and zero if it has none, exactly if it has
    settings or the last settings before it are zero. -/
theorem ddos_follows_iff {d : Dataplane cpus} (hzero : d.thresholds = (0, 0, 0))
    {calls : List (Env × ConfigCall)} {last : Env × ConfigCall}
    (h : ∀ call ∈ calls ++ [last], ReachesDdos call) :
    ((loader cpus).exec d (calls ++ [last])).thresholds =
        last.2.ddosConf.elim (0, 0, 0) DDoSConfig.thresholds ↔
      (last.2.ddosConf = none → ∀ conf, lastSettings calls = some conf →
        conf.thresholds = (0, 0, 0)) := by
  rw [thresholds_exec h, lastSettings, List.reverse_append, List.reverse_singleton,
    List.singleton_append, List.findSome?_cons, ← lastSettings, hzero]
  cases last.2.ddosConf with
  | some conf => simp
  | none => cases lastSettings calls <;> simp

/-- The settings of the file. -/
def demoSettings : ConfigCall := .loadConfig { services := [], ddosConf := some ⟨5, 500, 20, 20000⟩ }

theorem ddos_follows_demo : ((loader 1).exec (.fresh 1) [(demoEnv, demoSettings)]).thresholds =
    (5, 500, 20) :=
  (@ddos_follows_iff 1 (.fresh 1) rfl [] (demoEnv, demoSettings) fun call hcall => by
    obtain rfl := List.mem_singleton.1 hcall
    exact ⟨_, rfl, rfl⟩).2 (by simp [demoSettings, ConfigCall.ddosConf, ConfigCall.target])

/-- An update by a client, without services. -/
def demoEmptyUpdate : ConfigCall := .updateConfig ⟨[]⟩ fun _ _ => 0

/-- The file has settings and the update has none; the thresholds of the file are still there. -/
theorem settings_stay :
    (∀ call ∈ [(demoEnv, demoSettings), (demoEnv, demoEmptyUpdate)], ReachesDdos call) ∧
    demoEmptyUpdate.ddosConf = none ∧
    ((loader 1).exec (.fresh 1) [(demoEnv, demoSettings), (demoEnv, demoEmptyUpdate)]).thresholds ≠
      (0, 0, 0) := by
  refine ⟨fun call hcall => ?_, rfl, by decide +kernel⟩
  simp only [List.mem_cons, List.not_mem_nil, or_false] at hcall
  rcases hcall with rfl | rfl <;> exact ⟨_, rfl, rfl⟩

/-! ## Durations -/

/-- Times do not decrease along the run. -/
def Timely (cs : List FilterCall) : Prop := cs.Pairwise fun c c' => c.now ≤ c'.now

/-- In the run, a ban lasts `dur` milliseconds: as long as no call for the source has come later than
    that after the call `c` that put it on the blacklist, a call `c'` for it is dropped before that,
    and goes on without the entry after it. -/
def BansLast (dur : UInt32) (m : DdosMaps) (cs : List FilterCall) : Prop :=
  ∀ (pre : List FilterCall) (c : FilterCall) (mid : List FilterCall) (c' : FilterCall)
    (post : List FilterCall), cs = pre ++ c :: (mid ++ c' :: post) → c'.srcIp = c.srcIp →
    (ddosFilter.exec m (pre ++ [c])).blacklist.lookup c.srcIp = some c.now →
    (∀ x ∈ mid, x.srcIp = c.srcIp → x.now.toNat - c.now.toNat < dur.toNat * 10 ^ 6) →
    let m' := ddosFilter.exec m (pre ++ c :: mid)
    if c'.now.toNat - c.now.toNat < dur.toNat * 10 ^ 6 then ddosFilter.out c' m' = .drop
    else ddosFilter.step c' m' = ddosFilter.step c' (m'.unban c.srcIp)

/-- In every run after a reload with this duration, which gets past its step for `ddos_cfg`, bans
    last as long. -/
def BanDurationKept (cpus : ℕ) (dur : UInt32) : Prop :=
  ∀ (env : Env) (config : BaseConfig) (conf : DDoSConfig) (d : Dataplane cpus),
    config.ddosConf = some conf → conf.banDurationMs = dur → (config.load env).2 = none →
    ∀ cs, Timely cs → BansLast dur (Outcome.dataplane (d.reloadConfig env config)).ddos cs

theorem toNat_sub_lt_iff {now t dur : UInt64} (h : t ≤ now) :
    now - t < dur ↔ now.toNat - t.toNat < dur.toNat := by
  rw [UInt64.lt_iff_toNat_lt, UInt64.toNat_sub_of_le _ _ h]

/-- An entry stays as long as the calls for its source come during the ban. -/
theorem lookup_exec_of_banned {src : BitVec 32} {t : UInt64} {m : DdosMaps} {cs : List FilterCall}
    (h : m.blacklist.lookup src = some t) (hcs : ∀ c ∈ cs, t ≤ c.now ∧
      (c.srcIp = src → c.now.toNat - t.toNat < m.banDuration.toNat)) :
    (ddosFilter.exec m cs).blacklist.lookup src = some t := by
  induction cs generalizing m with
  | nil => exact h
  | cons c cs ih =>
    rw [List.forall_mem_cons] at hcs
    obtain ⟨⟨hle, hlt⟩, hcs⟩ := hcs
    have hnext := next_ddosFilter c m
    refine ih ?_ fun c' hc' => ?_
    · by_cases hsrc : c.srcIp = src
      · have hban := @ddosCheckV4_banned (m.evict c.evicted) c.now t c.srcIp (by rw [hsrc]; exact h)
          ((toNat_sub_lt_iff hle).2 (hlt hsrc)) c.tcp
        have hm : ddosFilter.next c m = m.evict c.evicted := congrArg Prod.snd hban
        rw [hm]
        exact h
      · rw [hnext.blacklist src (Ne.symm hsrc), h]
    · rw [DdosMaps.banDuration, hnext.ddosCfg]
      exact hcs c' hc'

/-- If the duration of the filter is the right one, bans last. -/
theorem bansLast_of_banDuration {dur : UInt32} {m : DdosMaps}
    (h : m.banDuration.toNat = dur.toNat * 10 ^ 6) {cs : List FilterCall} (ht : Timely cs) :
    BansLast dur m cs := by
  rintro pre c mid c' post rfl hsrc hlookup hmid
  have hcfg : ∀ cs, (ddosFilter.exec m cs).banDuration = m.banDuration := fun cs => by
    rw [DdosMaps.banDuration, ddosCfg_exec, DdosMaps.banDuration]
  -- the calls behind `c` do not come before it
  have hle : ∀ x ∈ mid ++ c' :: post, c.now ≤ x.now :=
    (List.pairwise_cons.1 (List.pairwise_append.1 ht).2.1).1
  have hexec : ddosFilter.exec m (pre ++ c :: mid) =
      ddosFilter.exec (ddosFilter.exec m (pre ++ [c])) mid := by
    rw [← Machine.exec_append, List.append_assoc, List.singleton_append]
  have hlookup' : (ddosFilter.exec m (pre ++ c :: mid)).blacklist.lookup c.srcIp = some c.now := by
    rw [hexec]
    refine lookup_exec_of_banned hlookup fun x hx => ⟨hle x (List.mem_append_left _ hx), fun hs => ?_⟩
    rw [hcfg, h]
    exact hmid x hx hs
  have hle' : c.now ≤ c'.now := hle c' (List.mem_append_right _ List.mem_cons_self)
  dsimp only
  have hdur := hcfg (pre ++ c :: mid)
  generalize ddosFilter.exec m (pre ++ c :: mid) = m' at hlookup' hdur ⊢
  rw [← h, ← hdur]
  have hstep : ∀ m, ddosFilter.step c' m = ddosCheckV4 (m.evict c'.evicted) c'.now c.srcIp c'.tcp :=
    fun m => by rw [← hsrc]; rfl
  have hevicted : (m'.evict c'.evicted).blacklist.lookup c.srcIp = some c.now := hlookup'
  split_ifs with hlt
  · rw [Machine.out, hstep, ddosCheckV4_banned hevicted ((toNat_sub_lt_iff hle').2 hlt)]
  · rw [hstep, hstep, ddosCheckV4_expired hevicted fun h => hlt ((toNat_sub_lt_iff hle').1 h)]
    rfl

/-- The duration in nanoseconds, in 32 bits. -/
theorem toNat_entry_banDurationNs (conf : DDoSConfig) :
    conf.entry.banDurationNs.toNat = conf.banDurationMs.toNat * 10 ^ 6 % 2 ^ 32 := by
  rw [DDoSConfig.entry, UInt32.toNat_toUInt64, UInt32.toNat_mul]
  rfl

theorem banDuration_reloadConfig (hconf : config.ddosConf = some conf)
    (hload : (config.load env).2 = none) (d : Dataplane cpus) :
    (Outcome.dataplane (d.reloadConfig env config)).ddos.banDuration = conf.entry.banDurationNs := by
  rw [DdosMaps.banDuration, ddos_reloadConfig hload, hconf]
  rfl

/-- A SYN or an ACK of a source at the time `now`. -/
def demoFilterCall (now : UInt64) (syn : Bool) : FilterCall where
  now := now
  srcIp := 0x0100000b
  tcp := ⟨1, 0x5000, false, syn, false, !syn⟩

/-- One SYN is the limit, and bans last `dur` milliseconds. -/
def demoBan (dur : UInt32) : BaseConfig :=
  { services := [], ddosConf := some ⟨1, 0, 0, dur⟩ }

/-- The filter with this configuration. -/
def demoBanFilter (cpus : ℕ) (dur : UInt32) : DdosMaps :=
  (Outcome.dataplane ((Dataplane.fresh cpus).reloadConfig demoEnv (demoBan dur))).ddos

/-- The source is banned by its second SYN. -/
theorem demoBan_lookup (cpus : ℕ) (dur : UInt32) :
    let m := ddosFilter.exec (demoBanFilter cpus dur)
      [demoFilterCall 0 true, demoFilterCall DDOS_WINDOW_NS true]
    m.blacklist.lookup 0x0100000b = some DDOS_WINDOW_NS ∧
      m.synTracker.lookup 0x0100000b = some ⟨2, 0, 0, 2⟩ := by
  rw [demoBanFilter, ddos_reloadConfig rfl]
  generalize hm₀ : (Dataplane.updateDdosCfg (.fresh cpus) (demoBan dur).ddosConf).ddos = m₀
  -- after the first
  obtain ⟨hempty, hcnt, hcfg⟩ : (ddosFilter.next (demoFilterCall 0 true) m₀).blacklist = .empty ∧
      (ddosFilter.next (demoFilterCall 0 true) m₀).synTracker.lookup 0x0100000b =
        some ⟨1, 0, 0, 1⟩ ∧
      (ddosFilter.next (demoFilterCall 0 true) m₀).ddosCfg.get 0 =
        DDoSConfig.entry ⟨1, 0, 0, dur⟩ := by
    subst hm₀
    exact ⟨rfl, rfl, rfl⟩
  have hexec : ddosFilter.exec m₀ [demoFilterCall 0 true, demoFilterCall DDOS_WINDOW_NS true] =
    (ddosCheckV4 (ddosFilter.next (demoFilterCall 0 true) m₀) DDOS_WINDOW_NS 0x0100000b
      (demoFilterCall 0 true).tcp).2 := rfl
  rw [hexec]
  generalize ddosFilter.next (demoFilterCall 0 true) m₀ = m at hempty hcnt hcfg ⊢
  -- the second is over the threshold
  have hcount : SynCounter.count DDOS_WINDOW_NS (demoFilterCall 0 true).tcp ⟨1, 0, 0, 1⟩ =
    ⟨2, 0, 0, 2⟩ := rfl
  have hfree : m.blacklist.lookup 0x0100000b = none := by rw [hempty]; rfl
  have hroom : m.blacklist.HasRoom 0x0100000b := .inr (by rw [hempty]; decide)
  have hlast := ddosCheckV4_over hfree hroom hcnt (by rw [hcfg]; rfl) (by rw [hcfg, hcount]; rfl)
  rw [hcount] at hlast
  exact hlast

theorem out_demoFilterCall (now : UInt64) (syn : Bool) (m : DdosMaps) :
    ddosFilter.out (demoFilterCall now syn) m =
      (ddosCheckV4 m now 0x0100000b (demoFilterCall now syn).tcp).1 := rfl

/-- A duration that does not fit: there is a time before the end of the ban at which an ACK of the
    source passes. -/
theorem not_banDurationKept (cpus : ℕ) {dur : UInt32} (h : 4294 < dur.toNat) :
    ¬BanDurationKept cpus dur := by
  intro hkept
  have hentry := toNat_entry_banDurationNs ⟨1, 0, 0, dur⟩
  have hduration : (demoBanFilter cpus dur).banDuration =
    (DDoSConfig.entry ⟨1, 0, 0, dur⟩).banDurationNs := banDuration_reloadConfig rfl rfl (.fresh cpus)
  rw [← hduration] at hentry
  dsimp only at hentry
  generalize hns : (demoBanFilter cpus dur).banDuration = ns at hentry
  have hw : DDOS_WINDOW_NS.toNat = 10000000000 := rfl
  have hnow : ∀ now syn, (demoFilterCall now syn).now = now := fun _ _ => rfl
  -- just behind the shorter duration
  obtain ⟨t, ht⟩ : ∃ t : UInt64, t.toNat = 10000000000 + ns.toNat + 1 := by
    refine ⟨DDOS_WINDOW_NS + ns + 1, ?_⟩
    rw [UInt64.toNat_add, UInt64.toNat_add, hw]
    simp only [UInt64.toNat_one]
    omega
  have hle : DDOS_WINDOW_NS ≤ t := by
    rw [UInt64.le_iff_toNat_le, ht, hw]
    omega
  obtain ⟨hban, hcnt⟩ := demoBan_lookup cpus dur
  have hcfg := ddosCfg_exec [demoFilterCall 0 true, demoFilterCall DDOS_WINDOW_NS true]
    (demoBanFilter cpus dur)
  have htimely : Timely [demoFilterCall 0 true, demoFilterCall DDOS_WINDOW_NS true,
      demoFilterCall t false] := by
    simp only [Timely, demoFilterCall, List.pairwise_cons, List.mem_cons, List.not_mem_nil, or_false]
    refine ⟨fun c _ => UInt64.zero_le, ?_, by simp⟩
    rintro c rfl
    exact hle
  have hlast := hkept demoEnv (demoBan dur) _ (.fresh cpus) rfl rfl rfl _ htimely
    [demoFilterCall 0 true] (demoFilterCall DDOS_WINDOW_NS true) [] _ [] rfl rfl hban (by simp)
  rw [← demoBanFilter] at hlast
  dsimp only [List.singleton_append] at hlast hban hcnt
  generalize ddosFilter.exec (demoBanFilter cpus dur)
    [demoFilterCall 0 true, demoFilterCall DDOS_WINDOW_NS true] = m at *
  have hm : m.banDuration = ns := by rw [DdosMaps.banDuration, hcfg, ← DdosMaps.banDuration, hns]
  have hlt : t.toNat - DDOS_WINDOW_NS.toNat < dur.toNat * 10 ^ 6 := by omega
  rw [hnow, hnow, if_pos hlt] at hlast
  rw [out_demoFilterCall] at hlast
  have hpass := @ddosCheckV4_new_window (m.unban 0x0100000b) t 0x0100000b
    (demoFilterCall t false).tcp _ (lookup_unban m _) hcnt (by
      rw [gt_iff_lt, UInt64.lt_iff_toNat_lt, UInt64.sub_zero]
      omega) rfl
  rw [ddosCheckV4_expired hban (fun hlt => ?_), hpass] at hlast
  · cases hlast
  · rw [toNat_sub_lt_iff hle, hm] at hlt
    omega

/-- A ban of 4295 milliseconds ends early. -/
theorem ban_ends_early : ¬BanDurationKept 1 4295 := not_banDurationKept 1 (by decide)

/-- Ban durations end to end. With every duration and from every state of the dataplane, bans last as
    long as the configuration says in every run of the filter, exactly if the duration is at most 4294
    milliseconds. -/
theorem ban_duration_iff (cpus : ℕ) (dur : UInt32) :
    BanDurationKept cpus dur ↔ dur.toNat ≤ 4294 := by
  refine ⟨fun h => not_lt.1 fun hlt => not_banDurationKept cpus hlt h, ?_⟩
  rintro hle env config conf d hconf rfl hload cs ht
  refine bansLast_of_banDuration ?_ ht
  rw [banDuration_reloadConfig hconf hload, toNat_entry_banDurationNs]
  exact Nat.mod_eq_of_lt (by omega)

end L4Balancer
