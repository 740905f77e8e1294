import L4Balancer.Control.Containment

/-!
# The reals of a configuration

The backends that a configuration is translated to are its reals, one for one and in their
order (`load_places`, `load_reals`). Consistent hash gets, for each enabled real of a service, the backend
of the first real of all that has the same address (`chBackends_reals`), whichever service
this real is one of.

A packet is addressed to the last service that has its key (`BaseConfig.serviceAt`): this is
the one whose entry is in the services map.
-/

namespace L4Balancer

open Bpf

variable {cpus : ℕ} {env : Env} {config : BaseConfig} {xdp : XdpConfig} {service : BalancerService}

/-! ## Addresses -/

/-- The IP version and the address of a backend, as the control plane compares addresses. -/
def Backend.endpoint (b : Backend) : UInt8 × Addr :=
  (b.ipVersion, if b.ipVersion = 4 then .ofIpv4 b.ip.ipv4 else b.ip)

/-- Those of a real, as its backend has them. -/
def BalancerReal.endpoint (env : Env) (real : BalancerReal) : Option (UInt8 × Addr) :=
  (env.address real.ipVersion real.ip).map (storedVersion real.ipVersion, ·)

/-- The MAC address of a real. -/
def BalancerReal.mac (env : Env) (real : BalancerReal) : Option Mac :=
  env.macLookup real.ipVersion real.ip

/-- The reals of all services, in order. -/
def BaseConfig.reals (config : BaseConfig) : List BalancerReal := config.services.flatMap (·.reals)

/-- Those reals, each with its service. -/
def BaseConfig.placedReals (config : BaseConfig) : List (BalancerService × BalancerReal) :=
  config.services.flatMap fun service => service.reals.map (service, ·)

/-- The reals of a service that are enabled. -/
def BalancerService.enabledReals (service : BalancerService) : List BalancerReal :=
  service.reals.filter BalancerReal.enabled

/-- The first real of a configuration that has the address of the real. -/
def BaseConfig.firstAt (env : Env) (config : BaseConfig) (real : BalancerReal) :
    Option BalancerReal :=
  config.reals.find? fun r => r.endpoint env = real.endpoint env

/-- That real with its service. -/
def BaseConfig.firstPlace (env : Env) (config : BaseConfig) (real : BalancerReal) :
    Option (BalancerService × BalancerReal) :=
  config.placedReals.find? fun place => place.2.endpoint env = real.endpoint env

/-- The service is one of consistent hash and has an enabled real. -/
def BalancerService.LiveCh (service : BalancerService) : Prop :=
  service.type = .ch ∧ service.enabledReals ≠ []

instance : Decidable service.LiveCh := inferInstanceAs (Decidable (_ ∧ _))

/-- The last such service. -/
def BaseConfig.lastCh (config : BaseConfig) : Option BalancerService :=
  config.services.reverse.find? fun service => service.LiveCh

/-- At most one service of the configuration is one of consistent hash. -/
def BaseConfig.OneCh (config : BaseConfig) : Prop :=
  config.services.countP (fun service => service.type = .ch) ≤ 1

instance : Decidable config.OneCh := inferInstanceAs (Decidable (_ ≤ _))

/-- The service that packets with the key are addressed to: the last one that has it. -/
def BaseConfig.serviceAt (env : Env) (config : BaseConfig) (key : ServiceKey) :
    Option BalancerService :=
  config.services.reverse.find? fun service => (service.prepareKey env).toOption = some key

/-- `b` is the backend of a real, as far as this does not depend on the service. -/
structure Represents (env : Env) (real : BalancerReal) (b : Backend) : Prop where
  endpoint : real.endpoint env = some b.endpoint
  mac : real.mac env = some b.mac
  active : b.active ≠ 0 ↔ real.enabled

theorem Env.address_four {text : String} {a : Addr} (h : env.address 4 text = some a) :
    Addr.ofIpv4 a.ipv4 = a := by
  rw [address, if_pos rfl] at h
  obtain ⟨b, -, rfl⟩ := Option.map_eq_some_iff.1 h
  rw [Addr.ipv4_ofIpv4]

theorem storedVersion_eq_four {v : UInt8} : storedVersion v = 4 ↔ v = 4 := by
  rw [storedVersion]
  split_ifs with hv
  · exact iff_of_true rfl hv
  · exact iff_of_false (by decide) hv

theorem Translation.represents {real : BalancerReal} {b : Backend}
    (h : Translation env service real b) : Represents env real b := by
  obtain ⟨⟨addr, haddr, hip⟩, hmac, -, -, hactive, hversion⟩ := h
  refine ⟨?_, hmac, ?_⟩
  · rw [BalancerReal.endpoint, haddr, Option.map_some]
    by_cases hv : real.ipVersion = 4
    · rw [if_pos hv] at hip
      rw [storedVersion, if_pos hv] at hversion ⊢
      rw [Backend.endpoint, hversion, if_pos rfl, hip, Env.address_four (hv ▸ haddr)]
    · rw [if_neg hv] at hip
      rw [storedVersion, if_neg hv] at hversion ⊢
      rw [Backend.endpoint, hversion, if_neg (by decide), hip]
  · rw [hactive]
    cases real.enabled <;> simp

/-! ## The backends of a configuration -/

theorem loadServices_places {currentBackendIdx serviceIdx : ℕ} {services : List BalancerService}
    (h : loadServices env currentBackendIdx serviceIdx services = (xdp, none)) :
    List.Forall₂ (fun place b => Translation env place.1 place.2 b)
      (services.flatMap fun service => service.reals.map (service, ·)) xdp.backends := by
  induction services generalizing currentBackendIdx serviceIdx xdp with
  | nil =>
    obtain ⟨rfl, -⟩ := Prod.mk.inj h
    exact .nil
  | cons service services ih =>
    obtain ⟨key, backends, rest, -, hbackends, -, hrest, rfl⟩ := loadServices_cons h
    rw [List.flatMap_cons]
    refine List.rel_append ?_ (ih hrest)
    rw [List.forall₂_map_left_iff]
    exact BalancerService.loadReals_ok hbackends

/-- The backends of a configuration are those of the reals, in their places. -/
theorem load_places (h : config.load env = (xdp, none)) :
    List.Forall₂ (fun place b => Translation env place.1 place.2 b) config.placedReals
      xdp.backends := loadServices_places h

theorem BaseConfig.reals_eq (config : BaseConfig) : config.reals = config.placedReals.map Prod.snd := by
  rw [reals, placedReals, List.map_flatMap]
  refine List.flatMap_congr fun service _ => ?_
  rw [List.map_map]
  exact (List.map_id _).symm

theorem BaseConfig.mem_placedReals {real : BalancerReal} :
    real ∈ config.reals ↔ ∃ service, (service, real) ∈ config.placedReals := by
  simp [reals_eq]

/-- The backends of a configuration are its reals. -/
theorem load_reals (h : config.load env = (xdp, none)) :
    List.Forall₂ (Represents env) config.reals xdp.backends := by
  rw [config.reals_eq, List.forall₂_map_left_iff]
  exact (load_places h).imp fun place b hb => hb.represents

theorem find?_of_forall₂ {α β : Type*} {R : α → β → Prop} {p : α → Bool} {q : β → Bool}
    {l : List α} {l' : List β} (h : List.Forall₂ R l l') (hpq : ∀ a b, R a b → p a = q b) {a : α}
    (ha : l.find? p = some a) :
    ∃ (i : ℕ) (b : β), l[i]? = some a ∧ l'[i]? = some b ∧ l'.find? q = some b := by
  induction h with
  | nil => cases ha
  | @cons a₁ b₁ l l' hr _ ih =>
    rw [List.find?_cons] at ha ⊢
    rw [hpq a₁ b₁ hr] at ha
    cases hq : q b₁ with
    | true =>
      rw [hq] at ha
      obtain rfl := Option.some.inj ha
      exact ⟨0, b₁, rfl, rfl, rfl⟩
    | false =>
      rw [hq] at ha
      obtain ⟨i, b, hi, hi', hb⟩ := ih ha
      exact ⟨i + 1, b, hi, hi', hb⟩

theorem getElem?_of_forall₂ {α β : Type*} {R : α → β → Prop} {l : List α} {l' : List β}
    (h : List.Forall₂ R l l') {i : ℕ} {a : α} (ha : l[i]? = some a) :
    ∃ b, l'[i]? = some b ∧ R a b := by
  induction h generalizing i with
  | nil => cases ha
  | @cons a₁ b₁ l l' hr _ ih =>
    cases i with
    | zero =>
      obtain rfl := Option.some.inj ha
      exact ⟨b₁, rfl, hr⟩
    | succ i => exact ih ha

/-! ## The backends of consistent hash -/

/-- The backend that consistent hash gets for a real. -/
def BalancerReal.chBackend (env : Env) (backends : List Backend) (real : BalancerReal) :
    Option Backend :=
  (env.address real.ipVersion real.ip).bind fun addr =>
    backends.find? fun back =>
      if real.ipVersion = 4 then back.ip.ipv4 = addr.ipv4 ∧ back.ipVersion = 4
      else back.ip = addr ∧ back.ipVersion = 6

theorem BalancerService.chBackends_eq (service : BalancerService) (env : Env)
    (backends : List Backend) :
    service.chBackends env backends = service.enabledReals.filterMap (·.chBackend env backends) :=
  rfl

/-- What consistent hash compares is the address. -/
theorem Represents.matches_iff {real r : BalancerReal} {addr : Addr} {back : Backend}
    (hr : Represents env r back) (haddr : env.address real.ipVersion real.ip = some addr) :
    r.endpoint env = real.endpoint env ↔
      if real.ipVersion = 4 then back.ip.ipv4 = addr.ipv4 ∧ back.ipVersion = 4
      else back.ip = addr ∧ back.ipVersion = 6 := by
  rw [hr.endpoint, BalancerReal.endpoint, haddr, Option.map_some, Option.some_inj, Backend.endpoint,
    Prod.mk.injEq]
  by_cases hv : real.ipVersion = 4
  · rw [if_pos hv, storedVersion_eq_four.2 hv, and_comm]
    refine and_congr_left fun hfour => ?_
    rw [if_pos hfour]
    constructor
    · rintro rfl
      rw [Addr.ipv4_ofIpv4]
    · intro h
      rw [h, Env.address_four (hv ▸ haddr)]
  · rw [if_neg hv, storedVersion, if_neg hv, and_comm]
    refine and_congr_left fun hsix => ?_
    rw [hsix, if_neg (by decide)]

/-- The backend of the first real that has the address of the real. -/
def FirstBackend (env : Env) (config : BaseConfig) (backends : List Backend) (real : BalancerReal)
    (b : Backend) : Prop :=
  ∃ (j : ℕ) (first : BalancerReal), config.firstAt env real = some first ∧
    config.reals[j]? = some first ∧ backends[j]? = some b

/-- What consistent hash takes for a real: the backend in the first place with its address. -/
theorem chBackend_eq (h : config.load env = (xdp, none)) {real : BalancerReal}
    (hreal : real ∈ config.reals) :
    ∃ (j : ℕ) (first : BalancerService) (firstReal : BalancerReal) (b : Backend),
      config.firstPlace env real = some (first, firstReal) ∧
      config.placedReals[j]? = some (first, firstReal) ∧ xdp.backends[j]? = some b ∧
      real.chBackend env xdp.backends = some b := by
  have hplaces := load_places h
  obtain ⟨service, hplaced⟩ := BaseConfig.mem_placedReals.1 hreal
  obtain ⟨i, hi⟩ := List.mem_iff_getElem?.1 hplaced
  obtain ⟨back, -, hback⟩ := getElem?_of_forall₂ hplaces hi
  obtain ⟨addr, haddr, -⟩ := Option.map_eq_some_iff.1 hback.represents.endpoint
  -- there is a first place with the address: at the latest, it is the one of the real itself
  obtain ⟨⟨first, firstReal⟩, hfirst⟩ : ∃ place, config.firstPlace env real = some place :=
    Option.isSome_iff_exists.1 (List.find?_isSome.2 ⟨_, hplaced, decide_eq_true rfl⟩)
  have hmatch : ∀ (place : BalancerService × BalancerReal) (back : Backend),
      Translation env place.1 place.2 back →
      decide (place.2.endpoint env = real.endpoint env) =
        if real.ipVersion = 4 then decide (back.ip.ipv4 = addr.ipv4 ∧ back.ipVersion = 4)
        else decide (back.ip = addr ∧ back.ipVersion = 6) := fun place back hr => by
    have hiff := hr.represents.matches_iff haddr
    split_ifs at hiff ⊢ <;> exact decide_eq_decide.2 hiff
  obtain ⟨j, b, hj, hjb, hb⟩ := find?_of_forall₂ hplaces hmatch hfirst
  refine ⟨j, first, firstReal, b, hfirst, hj, hjb, ?_⟩
  rw [BalancerReal.chBackend, haddr, Option.bind_some]
  exact hb

theorem chBackend_of_mem (h : config.load env = (xdp, none)) {real : BalancerReal}
    (hreal : real ∈ config.reals) : ∃ b, real.chBackend env xdp.backends = some b ∧
      FirstBackend env config xdp.backends real b := by
  obtain ⟨j, first, firstReal, b, hfirst, hj, hjb, hb⟩ := chBackend_eq h hreal
  refine ⟨b, hb, j, firstReal, ?_, ?_, hjb⟩
  · rw [BaseConfig.firstAt, config.reals_eq, List.find?_map]
    exact congrArg (Option.map Prod.snd) hfirst
  · rw [config.reals_eq, List.getElem?_map, hj]
    rfl

theorem BaseConfig.mem_reals {real : BalancerReal} (hs : service ∈ config.services)
    (hreal : real ∈ service.reals) : real ∈ config.reals :=
  List.mem_flatMap.2 ⟨service, hs, hreal⟩

theorem BalancerService.mem_enabledReals {real : BalancerReal} :
    real ∈ service.enabledReals ↔ real ∈ service.reals ∧ real.enabled := List.mem_filter

theorem BalancerService.length_enabledReals_le (service : BalancerService) :
    service.enabledReals.length ≤ service.reals.length := List.length_filter_le _ _

theorem BaseConfig.length_reals_le (hs : service ∈ config.services) :
    service.reals.length ≤ config.reals.length := by
  rw [reals, List.flatMap_def]
  exact (List.sublist_flatten_of_mem (List.mem_map_of_mem hs)).length_le

/-- What consistent hash gets for a service. -/
theorem chBackends_reals (h : config.load env = (xdp, none)) (hs : service ∈ config.services) :
    List.Forall₂ (FirstBackend env config xdp.backends) service.enabledReals
      (service.chBackends env xdp.backends) := by
  have hmem : ∀ real ∈ service.enabledReals, real ∈ config.reals := fun real hreal =>
    BaseConfig.mem_reals hs (BalancerService.mem_enabledReals.1 hreal).1
  rw [BalancerService.chBackends_eq]
  generalize service.enabledReals = reals at hmem
  induction reals with
  | nil => exact .nil
  | cons real reals ih =>
    obtain ⟨b, hb, hfirst⟩ := chBackend_of_mem h (hmem real List.mem_cons_self)
    rw [List.filterMap_cons_some hb]
    exact .cons hfirst (ih fun r hr => hmem r (List.mem_cons_of_mem _ hr))

theorem chBackends_eq_nil (h : config.load env = (xdp, none)) (hs : service ∈ config.services) :
    service.chBackends env xdp.backends = [] ↔ service.enabledReals = [] := by
  have hlen := (chBackends_reals h hs).length_eq
  rw [← List.length_eq_zero_iff, ← hlen, List.length_eq_zero_iff]

/-- The backend of the first real that has an address has this address. -/
theorem FirstBackend.represents (h : config.load env = (xdp, none)) {real : BalancerReal}
    {b : Backend} (hb : FirstBackend env config xdp.backends real b) :
    ∃ first, config.firstAt env real = some first ∧ Represents env first b ∧
      real.endpoint env = some b.endpoint := by
  obtain ⟨j, first, hfirst, hj, hjb⟩ := hb
  obtain ⟨b', hb', hrep⟩ := getElem?_of_forall₂ (load_reals h) hj
  obtain rfl := Option.some.inj (hjb.symm.trans hb')
  have he : first.endpoint env = real.endpoint env := by
    simpa using List.find?_some hfirst
  exact ⟨first, hfirst, hrep, he ▸ hrep.endpoint⟩

/-! ## Services of consistent hash -/

theorem BaseConfig.lastCh_spec (h : config.lastCh = some service) :
    service ∈ config.services ∧ service.LiveCh := by
  rw [lastCh] at h
  have hlive := List.find?_some h
  exact ⟨List.mem_reverse.1 (List.mem_of_find?_eq_some h), of_decide_eq_true hlive⟩

theorem BaseConfig.lastCh_eq_none : config.lastCh = none ↔
    ∀ service ∈ config.services, ¬service.LiveCh := by
  simp [lastCh, List.find?_eq_none]

theorem BaseConfig.OneCh.eq (h : config.OneCh) {service' : BalancerService}
    (hs : service ∈ config.services) (hs' : service' ∈ config.services)
    (hch : service.type = .ch) (hch' : service'.type = .ch) : service = service' := by
  rw [OneCh, List.countP_eq_length_filter] at h
  generalize hl : config.services.filter (fun service => service.type = .ch) = l at h
  have hmem : ∀ s ∈ config.services, s.type = .ch → s ∈ l := fun s hs hch =>
    hl ▸ List.mem_filter.2 ⟨hs, decide_eq_true hch⟩
  have h₁ := hmem service hs hch
  have h₂ := hmem service' hs' hch'
  match l, h with
  | [s], _ => exact (List.mem_singleton.1 h₁).trans (List.mem_singleton.1 h₂).symm

/-- The one service of consistent hash, if it has an enabled real. -/
theorem BaseConfig.OneCh.lastCh_eq (h : config.OneCh) (hs : service ∈ config.services)
    (hlive : service.LiveCh) : config.lastCh = some service := by
  cases hl : config.lastCh with
  | none => exact absurd hlive (lastCh_eq_none.1 hl service hs)
  | some service' =>
    obtain ⟨hs', hlive'⟩ := lastCh_spec hl
    rw [h.eq hs' hs hlive'.1 hlive.1]

/-- Toggling a real adds no service of consistent hash. -/
theorem BaseConfig.OneCh.setRealState (h : config.OneCh) {config' : BaseConfig}
    {request : SetRealStateRequest} (hset : config.setRealState request = .ok config') :
    config'.OneCh := by
  have hcount : ∀ config : BaseConfig, config.services.countP (fun service => service.type = .ch) =
      (config.services.map (·.type)).countP (· = .ch) := fun config => by
    rw [List.countP_map]
    rfl
  rw [OneCh, hcount] at h ⊢
  rwa [types_setRealState hset]

/-! ## The addressed service -/

/-- The keys of the vectors are those of the services. -/
theorem load_keys (h : config.load env = (xdp, none)) :
    List.Forall₂ (fun service (e : ServiceKey × ServiceInfo) => service.prepareKey env = .ok e.1)
      config.services (xdp.keys.zip xdp.services) := by
  obtain ⟨hkeys, hinfos, -⟩ := BaseConfig.load_length h
  refine List.forall₂_iff_get.2 ⟨by rw [List.length_zip]; omega, fun i hi hi' => ?_⟩
  obtain ⟨⟨key, hprep, hkey⟩, -, -⟩ := BaseConfig.load_placed h (List.getElem?_eq_getElem hi)
  obtain ⟨_, rfl⟩ := List.getElem?_eq_some_iff.1 hkey
  simpa using hprep

/-- The last element of a list that has a property. -/
theorem find?_reverse_eq_some_iff {α : Type*} {l : List α} {p : α → Bool} {a : α} :
    l.reverse.find? p = some a ↔
      ∃ i : ℕ, l[i]? = some a ∧ p a ∧ ∀ (j : ℕ) (b : α), i < j → l[j]? = some b → p b = false := by
  rw [List.find?_eq_some_iff_append]
  constructor
  · rintro ⟨hp, as, bs, hl, has⟩
    obtain rfl : l = bs.reverse ++ a :: as.reverse := by
      rw [← l.reverse_reverse, hl]
      simp
    refine ⟨bs.reverse.length, by simp, hp, fun j b hj hb => ?_⟩
    obtain ⟨d, rfl⟩ := Nat.exists_eq_add_of_lt hj
    rw [List.getElem?_append_right (by omega), add_assoc, Nat.add_sub_cancel_left,
      List.getElem?_cons_succ] at hb
    simpa using has b (List.mem_reverse.1 (List.mem_of_getElem? hb))
  · rintro ⟨i, hi, hp, hlater⟩
    obtain ⟨hlt, rfl⟩ := List.getElem?_eq_some_iff.1 hi
    refine ⟨hp, (l.drop (i + 1)).reverse, (l.take i).reverse, ?_, fun b hb => ?_⟩
    · calc l.reverse = (l.take i ++ l[i] :: l.drop (i + 1)).reverse := by
            rw [List.getElem_cons_drop, List.take_append_drop]
        _ = (l.drop (i + 1)).reverse ++ l[i] :: (l.take i).reverse := by
            rw [List.reverse_append, List.reverse_cons, List.append_assoc, List.singleton_append]
    · obtain ⟨d, hd⟩ := List.mem_iff_getElem?.1 (List.mem_reverse.1 hb)
      rw [List.getElem?_drop] at hd
      simpa using hlater _ b (by omega) hd

/-- The service that packets with the key are addressed to, with its number. -/
def BaseConfig.LastAt (env : Env) (config : BaseConfig) (key : ServiceKey) (i : ℕ)
    (service : BalancerService) : Prop :=
  config.services[i]? = some service ∧ service.prepareKey env = .ok key ∧
    ∀ j later, i < j → config.services[j]? = some later → later.prepareKey env ≠ .ok key

theorem BaseConfig.serviceAt_eq_some_iff {key : ServiceKey} :
    config.serviceAt env key = some service ↔ ∃ i, config.LastAt env key i service := by
  have hkey : ∀ service : BalancerService,
      (service.prepareKey env).toOption = some key ↔ service.prepareKey env = .ok key := by
    intro service
    cases service.prepareKey env <;> simp [Except.toOption]
  rw [serviceAt, find?_reverse_eq_some_iff]
  simp only [LastAt, decide_eq_true_eq, decide_eq_false_iff_not, hkey, ne_eq]

/-- The services map has its entry. -/
theorem Published.entry_lastAt {buffer : Fin 2} {m₀ m : Maps cpus} {key : ServiceKey} {i : ℕ}
    (hload : config.load env = (xdp, none)) (h : Published xdp buffer m₀ m)
    (hs : config.LastAt env key i service) :
    ∃ info, m.activeServices.lookup key = some info ∧ Entry env config m i service info := by
  obtain ⟨hi, hprep, hlater⟩ := hs
  have hkeys := load_keys hload
  obtain ⟨⟨key', info⟩, hi', hprep'⟩ := getElem?_of_forall₂ hkeys hi
  obtain rfl := Except.ok.inj (hprep'.symm.trans hprep)
  refine ⟨info, ?_, h.entry_of_placed hload hi (List.getElem?_zip_eq_some.1 hi').2⟩
  -- the later keys are those of later services
  have hfind : (xdp.keys.zip xdp.services).reverse.find? (fun e => e.1 = key') =
      some (key', info) := by
    refine find?_reverse_eq_some_iff.2 ⟨i, hi', by simp, fun j e hj he => ?_⟩
    obtain ⟨later, hlater', hkey⟩ := getElem?_of_forall₂ hkeys.flip he
    refine decide_eq_false fun heq => hlater j later hj hlater' ?_
    rw [← heq]
    exact hkey
  rw [HashMap.lookup_updateAll h.activeServices, hfind]
  rfl

theorem Published.entry_serviceAt {buffer : Fin 2} {m₀ m : Maps cpus} {key : ServiceKey}
    (hload : config.load env = (xdp, none)) (h : Published xdp buffer m₀ m)
    (hs : config.serviceAt env key = some service) : ∃ i info,
      config.services[i]? = some service ∧ service.prepareKey env = .ok key ∧
      m.activeServices.lookup key = some info ∧ Entry env config m i service info := by
  obtain ⟨i, hlast⟩ := BaseConfig.serviceAt_eq_some_iff.1 hs
  obtain ⟨info, hinfo, he⟩ := h.entry_lastAt hload hlast
  exact ⟨i, info, hlast.1, hlast.2.1, hinfo, he⟩

theorem BaseConfig.serviceAt_mem {key : ServiceKey} (h : config.serviceAt env key = some service) :
    service ∈ config.services := List.mem_reverse.1 (List.mem_of_find?_eq_some h)

end L4Balancer
