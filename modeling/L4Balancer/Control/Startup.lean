import L4Balancer.Control.Accepted
import L4Balancer.Control.Json
import L4Balancer.Control.Server

/-!
# Configurations that reach the dataplane

`main` parses and validates the configuration file before it loads it; the server then
takes requests (`passedConfigs`). Only the file is validated, and once.

* The validator takes the family of a real from its address after it has compared the
  families, so that the file may mix them.
* `UpdateConfig` does not validate; `SetBackendStatus` keeps a configuration accepted
  (`BaseConfig.Accepted.setRealState`).

So whether all configurations are accepted is a matter of the file and of the updates
(`only_valid_iff`).
-/

namespace L4Balancer

variable {config config' : BaseConfig} {service service' : BalancerService}

/-- The configuration that `main` loads; `none` if it ends before. -/
def startConfig (read : String → Except String Json) (text : String) : Option BaseConfig :=
  if text = "" then none
  else
    match parseConfig read text with
    | .error _ => none
    | .ok config =>
      match config.validate with
      | (_, some _) => none
      | (config, none) => some config

/-- The configurations that `ReloadConfig` is called with, in order. -/
def passedConfigs (read : String → Except String Json) (text : String)
    (xs : List (Request × Option String)) : List BaseConfig :=
  match startConfig read text with
  | none => []
  | some config => config :: (server.outs config xs).filterMap (·.reloaded)

theorem normal_of_startConfig {read : String → Except String Json} {text : String}
    (h : startConfig read text = some config) :
    (config.services.map (·.name)).Nodup ∧ ∀ service ∈ config.services, service.Normal := by
  rw [startConfig] at h
  split_ifs at h
  split at h
  · cases h
  · rename_i parsed _
    rcases hv : parsed.validate with ⟨validated, _ | e⟩ <;> rw [hv] at h <;> cases h
    refine ⟨?_, BaseConfig.normal_of_validate hv⟩
    obtain ⟨hacc, rfl⟩ := BaseConfig.validate_eq_ok.1 hv
    rw [BaseConfig.normalize, List.map_map]
    exact hacc.names

/-! ## Toggling a real -/

/-- What the modification of an element keeps, holds of all elements. -/
theorem forall_modifyFirst {α : Type*} {p : α → Bool} {f : α → Except String α} {error : String}
    {P : α → Prop} (hf : ∀ a a', P a → f a = .ok a' → P a') {as as' : List α}
    (has : ∀ a ∈ as, P a) (h : modifyFirst p f error as = .ok as') : ∀ a ∈ as', P a := by
  induction as generalizing as' with
  | nil => cases h
  | cons a as ih =>
    rw [List.forall_mem_cons] at has
    rw [modifyFirst] at h
    split_ifs at h
    · cases ha : f a with
      | error e =>
        rw [ha] at h
        cases h
      | ok a' =>
        rw [ha] at h
        obtain rfl := Except.ok.inj h
        exact List.forall_mem_cons.2 ⟨hf a a' has.1 ha, has.2⟩
    · cases hrest : modifyFirst p f error as with
      | error e =>
        rw [hrest] at h
        cases h
      | ok rest =>
        rw [hrest] at h
        obtain rfl := Except.ok.inj h
        exact List.forall_mem_cons.2 ⟨has.1, ih has.2 hrest⟩

/-- The validator does not look at the state of a real. -/
theorem BaseConfig.Accepted.setRealState {request : SetRealStateRequest} (h : config.Accepted)
    (hset : config.setRealState request = .ok config') : config'.Accepted := by
  rw [BaseConfig.setRealState] at hset
  generalize hservices : modifyFirst _ _ _ config.services = r at hset
  cases r with
  | error e => cases hset
  | ok services =>
    obtain rfl := Except.ok.inj hset
    -- of the service that is modified, the reals stay but for the state
    have hstep : ∀ service service' : BalancerService, (do
        let reals ← modifyFirst (·.ip = request.realIp)
          (fun real => .ok { real with enabled := request.enabled })
          s!"real {request.realIp} not found" service.reals
        return { service with reals := reals }) = (.ok service' : Except String BalancerService) →
        ∃ reals, service' = { service with reals := reals } ∧
          (service.Accepted → service'.Accepted) := by
      intro service service' hs
      generalize hreals : modifyFirst _ _ _ service.reals = r at hs
      cases r with
      | error e => cases hs
      | ok reals =>
        obtain rfl := Except.ok.inj hs
        refine ⟨reals, rfl, fun hacc => ⟨hacc.port, hacc.vip, hacc.protocol, ?_⟩⟩
        refine forall_modifyFirst (fun real real' hreal hr => ?_) hacc.reals hreals
        obtain rfl := Except.ok.inj hr
        exact hreal
    constructor
    · have hnames := map_modifyFirst (g := (·.name)) (fun service service' hs => by
        obtain ⟨reals, rfl, -⟩ := hstep service service' hs
        rfl) hservices
      dsimp only
      rw [hnames]
      exact h.names
    · refine forall_modifyFirst (fun service service' hacc hs => ?_) h.services hservices
      obtain ⟨reals, -, hkeep⟩ := hstep service service' hs
      exact hkeep hacc

theorem BaseConfig.Accepted.setBackendStatus {request : Api.SetBackendStatusRequest}
    (h : config.Accepted) (hset : config.setBackendStatus request = .ok config') :
    config'.Accepted := by
  rw [BaseConfig.setBackendStatus] at hset
  split_ifs at hset
  exact h.setRealState hset

/-! ## Runs -/

/-- An update is a configuration that the validator accepts, if it decodes. -/
def Request.Validated : Request → Prop
  | updateConfig proto uninit => (fromProtoConfiguration uninit proto).2 = [] →
      (fromProtoConfiguration uninit proto).1.validate.2 = none
  | setBackendStatus _ => True

/-- No service has reals of another family than its own. -/
def BaseConfig.OneFamily (config : BaseConfig) : Prop :=
  ∀ service ∈ config.services, ∀ real ∈ service.reals,
    IPValidator.checkIP real.ip = IPValidator.checkIP service.vip

/-- The configurations that are passed on are those the server has. -/
theorem forall_passed_iff {P : BaseConfig → Prop} (config : BaseConfig)
    (xs : List (Request × Option String)) :
    (P config ∧ ∀ c ∈ (server.outs config xs).filterMap (·.reloaded), P c) ↔
      server.Always P config xs := by
  induction xs generalizing config with
  | nil => simp [Machine.outs, Machine.Always]
  | cons x xs ih =>
    obtain ⟨-, hreloaded, hnext⟩ := server_spec config x
    rw [Machine.outs, Machine.Always, ← ih, List.filterMap_cons, hreloaded]
    cases ht : x.1.target config with
    | none =>
      rw [ht, Option.getD_none] at hnext
      dsimp only
      rw [hnext]
      tauto
    | some config' =>
      rw [ht, Option.getD_some] at hnext
      dsimp only
      rw [hnext, List.forall_mem_cons]

/-- What one request does to a configuration that is accepted. -/
theorem accepted_step (h : config.Accepted) (x : Request × Option String) :
    (server.next x config).Accepted ↔ x.1.Validated := by
  obtain ⟨-, -, hnext⟩ := server_spec config x
  obtain ⟨request, result⟩ := x
  rw [hnext]
  dsimp only
  cases request with
  | updateConfig proto uninit =>
    rw [Request.target, Request.Validated, BaseConfig.validate_eq_none]
    split_ifs with hdecoded
    · simp [hdecoded]
    · simp [hdecoded, h]
  | setBackendStatus request =>
    refine iff_of_true ?_ trivial
    rw [Request.target]
    cases hset : config.setBackendStatus request with
    | error e => exact h
    | ok config' => exact h.setBackendStatus hset

/-- The configuration of the file is accepted once more if it does not mix families. -/
theorem accepted_start_iff {read : String → Except String Json} {text : String}
    (h : startConfig read text = some config) : config.Accepted ↔ config.OneFamily := by
  obtain ⟨hnames, hn⟩ := normal_of_startConfig h
  constructor
  · intro hacc service hs real hreal
    rw [(hn service hs).vip, ((hn service hs).reals real hreal).2]
    exact congrArg some ((hn service hs).accepted_iff.1 (hacc.services service hs) real hreal)
  · intro hone
    refine ⟨hnames, fun service hs => (hn service hs).accepted_iff.2 fun real hreal => ?_⟩
    have hfamily := hone service hs real hreal
    rw [(hn service hs).vip, ((hn service hs).reals real hreal).2] at hfamily
    exact Option.some.inj hfamily

/-- Only valid configurations reach the dataplane. For every configuration file and every run of
    requests, every configuration that `ReloadConfig` is called with is accepted by the validator,
    exactly if the one of the file does not mix families in a service and every update that decodes
    is accepted by the validator. -/
theorem only_valid_iff (read : String → Except String Json) (text : String)
    (xs : List (Request × Option String)) :
    (∀ config ∈ passedConfigs read text xs, config.validate.2 = none) ↔
      ∀ config, startConfig read text = some config →
        config.OneFamily ∧ ∀ x ∈ xs, x.1.Validated := by
  rw [passedConfigs]
  cases hstart : startConfig read text with
  | none => simp
  | some config =>
    -- accepted configurations as an invariant that an update keeps exactly if it is validated
    have hiff : server.Always BaseConfig.Accepted config xs ↔
        config.OneFamily ∧ ∀ x ∈ xs, x.1.Validated := by
      rw [← accepted_start_iff hstart]
      constructor
      · intro h
        refine ⟨h.head, ?_⟩
        have heach := (Machine.always_iff_each (M := server) (P := BaseConfig.Accepted)
          (I := fun _ => True) (G := fun _ _ => True) (Q := fun _ x => x.1.Validated)
          (fun _ _ _ _ => trivial) (fun _ x _ _ hacc => accepted_step hacc x) trivial h.head
          (Machine.each_iff.2 fun _ _ => trivial)).1 h
        intro x hx
        rw [← server.map_snd_trace config xs] at hx
        obtain ⟨y, hy, rfl⟩ := List.mem_map.1 hx
        exact Machine.each_iff.1 heach y hy
      · rintro ⟨hacc, hxs⟩
        refine Machine.always_of_step (Q := fun _ x => x.1.Validated)
          (fun _ x hacc hx => (accepted_step hacc x).2 hx) hacc (Machine.each_iff.2 fun y hy => ?_)
        exact hxs _ (server.map_snd_trace config xs ▸ List.mem_map_of_mem hy)
    simp only [BaseConfig.validate_eq_none, List.forall_mem_cons, Option.some.injEq,
      forall_eq']
    rw [← hiff, ← forall_passed_iff]

/-- A file without services. -/
def demoFile (_ : String) : Except String Json := .ok (.object [("services", .array [])])

/-- An update with a service without a port. -/
def demoUpdate : Request :=
  .updateConfig ⟨[⟨"srv1", "10.0.0.1", 0, "tcp", 4, "rr", []⟩]⟩ fun _ _ => 0

/-- The update reaches the dataplane. -/
theorem invalid_update_passed :
    ¬∀ config ∈ passedConfigs demoFile "file" [(demoUpdate, none)], config.validate.2 = none := by
  intro h
  have hpassed : (passedConfigs demoFile "file" [(demoUpdate, none)])[1]? =
    some (server.next (demoUpdate, none) { services := [] }) := rfl
  exact absurd (h _ (List.mem_of_getElem? hpassed)) (by decide)

end L4Balancer
