import L4Balancer.Control.Failure
import L4Balancer.Control.OwnList
import L4Balancer.Control.Reported
import L4Balancer.Control.Server

/-!
# Narrowing of numbers

An entry of the backends has a port of 16 bits and a weight of 8 bits. The numbers come to it
through two decoders: the JSON library converts an integer modulo the width of the type that it
is read as, and a message has numbers of 32 bits, which are cut off. So an entry carries the
numbers that were given exactly if they fit it (`narrowed_iff`). What does not fit is not rejected:
the validator compares the port only after it has been converted, and `UpdateConfig` does
not call it.
-/

namespace L4Balancer

open Json

variable {env : Env} {config : BaseConfig}

/-! ## Numbers -/

/-- The numbers of an entry: its port and its weight. -/
def Backend.numbers (b : Backend) : ℤ × ℤ := (b.port.toNat, b.weight.toNat)

/-- A port of 16 bits and a weight of 8 bits. -/
def Fitting (n : ℤ × ℤ) : Prop := (0 ≤ n.1 ∧ n.1 < 65536) ∧ 0 ≤ n.2 ∧ n.2 < 256

instance : DecidablePred Fitting := fun n =>
  inferInstanceAs (Decidable ((0 ≤ n.1 ∧ n.1 < 65536) ∧ 0 ≤ n.2 ∧ n.2 < 256))

/-- What the decoders make of a port and a weight. -/
def decoded (n : ℤ × ℤ) : UInt32 × UInt8 :=
  (.ofNat (n.1 % 2 ^ 32).toNat, .ofNat (n.2 % 2 ^ 8).toNat)

/-- What `ReloadConfig` makes of them. -/
def stored (n : UInt32 × UInt8) : ℤ × ℤ := (n.1.toUInt16.toNat, n.2.toNat)

theorem decoded_natCast (port weight : UInt32) :
    decoded (port.toNat, weight.toNat) = (port, weight.toUInt8) := by
  refine Prod.ext (UInt32.toNat_inj.1 ?_) (UInt8.toNat_inj.1 ?_)
  · have hlt := port.toNat_lt
    rw [decoded, UInt32.toNat_ofNat']
    dsimp only
    omega
  · rw [decoded, UInt8.toNat_ofNat', UInt32.toNat_toUInt8]
    dsimp only
    omega

theorem stored_decoded_iff (n : ℤ × ℤ) : stored (decoded n) = n ↔ Fitting n := by
  obtain ⟨port, weight⟩ := n
  have hport : (decoded (port, weight)).1.toUInt16.toNat = (port % 2 ^ 32).toNat % 2 ^ 16 := by
    rw [decoded, UInt32.toNat_toUInt16, UInt32.toNat_ofNat', Nat.mod_mod_of_dvd _ (by decide)]
  have hweight : (decoded (port, weight)).2.toNat = (weight % 2 ^ 8).toNat % 2 ^ 8 :=
    UInt8.toNat_ofNat'
  rw [stored, hport, hweight, Prod.mk.injEq, Fitting]
  dsimp only
  omega

/-- The address of the real converts, and it has a MAC. -/
def BalancerReal.resolves (env : Env) (real : BalancerReal) : Bool :=
  (env.address real.ipVersion real.ip).isSome && (env.macLookup real.ipVersion real.ip).isSome

namespace BaseConfig

/-- The port and the weight of each real. -/
def numbers (config : BaseConfig) : List (UInt32 × UInt8) :=
  config.services.flatMap fun service => service.reals.map fun real => (service.port, real.weight)

/-- The reals that `ReloadConfig` makes entries of: those before the first VIP that does not
    convert, and before the first real that does not or that has no MAC. -/
def prepared (env : Env) (config : BaseConfig) : List (BalancerService × BalancerReal) :=
  ((config.services.takeWhile fun service => (service.prepareKey env).isOk).flatMap fun service =>
    service.reals.map (service, ·)).takeWhile fun place => place.2.resolves env

/-- The entries that `ReloadConfig` builds, one for each real until it meets an error, carry the
    numbers that were given for the reals. -/
def Exact (env : Env) (config : BaseConfig) (given : List (ℤ × ℤ)) : Prop :=
  (config.load env).1.backends.map Backend.numbers <+: given

end BaseConfig

/-! ## The entries -/

theorem BalancerReal.resolves_iff {service : BalancerService} {real : BalancerReal} :
    real.resolves env ↔ ∃ b, Translation env service real b := by
  rw [exists_translation_iff (k := 0), BalancerService.prepareReal, resolves]
  cases env.address real.ipVersion real.ip with
  | none => simp
  | some addr => cases env.macLookup real.ipVersion real.ip <;> simp

theorem forall_placed_resolves {service : BalancerService} {reals : List BalancerReal}
    {backends : List Backend} (h : List.Forall₂ (Translation env service) reals backends) :
    ∀ place ∈ reals.map (service, ·), place.2.resolves env := by
  intro place hplace
  obtain ⟨real, hreal, rfl⟩ := List.mem_map.1 hplace
  obtain ⟨i, hi⟩ := List.mem_iff_getElem?.1 hreal
  obtain ⟨b, -, hb⟩ := getElem?_of_forall₂ h hi
  exact BalancerReal.resolves_iff.2 ⟨b, hb⟩

/-- The entries are the translations of the reals that are prepared. -/
theorem Prepares.prepared {start serviceIdx : ℕ} {services : List BalancerService} {xdp : XdpConfig}
    (h : Prepares env start serviceIdx services xdp) :
    List.Forall₂ (fun place b => Translation env place.1 place.2 b)
      (BaseConfig.prepared env { services := services }) xdp.backends := by
  induction h with
  | all => exact .nil
  | @vip _ _ service _ hvip =>
    have hstop : ¬(service.prepareKey env).isOk := by
      rw [BalancerService.prepareKey, hvip]
      exact Bool.false_ne_true
    rw [BaseConfig.prepared, List.takeWhile_cons_of_neg (a := service) hstop]
    exact .nil
  | @real _ _ service _ key reals rest real _ hkey hreals h hnone =>
    have hstop : ¬real.resolves env := fun hr => by
      obtain ⟨b, hb⟩ := BalancerReal.resolves_iff.1 hr
      exact hnone b hb
    rw [BaseConfig.prepared, List.takeWhile_cons_of_pos (by rw [hkey]; rfl), List.flatMap_cons,
      hreals, List.map_append, List.append_assoc,
      List.takeWhile_append_of_pos (forall_placed_resolves h.translation), List.map_cons,
      List.cons_append, List.takeWhile_cons_of_neg (a := (service, real)) hstop, List.append_nil]
    exact List.forall₂_map_left_iff.2 h.translation
  | service hkey h _ ih =>
    rw [BaseConfig.prepared, List.takeWhile_cons_of_pos (by rw [hkey]; rfl), List.flatMap_cons,
      List.takeWhile_append_of_pos (forall_placed_resolves h.translation)]
    refine List.rel_append ?_ ih
    rw [List.forall₂_map_left_iff]
    exact h.translation

namespace BaseConfig

theorem placed_of_prepared (env : Env) (config : BaseConfig) :
    config.prepared env <+: config.placedReals := by
  obtain ⟨rest, hrest⟩ :=
    List.takeWhile_prefix (l := config.services) fun service => (service.prepareKey env).isOk
  refine (List.takeWhile_prefix _).trans
    ⟨rest.flatMap fun service => service.reals.map (service, ·), ?_⟩
  rw [← List.flatMap_append, hrest, placedReals]

/-- The numbers of the entries are those of the configuration. -/
theorem load_numbers (env : Env) (config : BaseConfig) :
    (config.load env).1.backends.map Backend.numbers =
      (config.numbers.take (config.prepared env).length).map stored := by
  have hentries : (config.load env).1.backends.map Backend.numbers =
      (config.prepared env).map fun place => stored (place.1.port, place.2.weight) := by
    symm
    rw [← List.forall₂_eq_eq_eq, List.forall₂_map_left_iff, List.forall₂_map_right_iff]
    refine (prepares_loadServices env 0 0 config.services).prepared.imp fun place b hb => ?_
    obtain ⟨-, -, hport, hweight, -⟩ := hb
    rw [Backend.numbers, hport, hweight]
    rfl
  have hnumbers : config.numbers =
      config.placedReals.map fun place => (place.1.port, place.2.weight) := by
    rw [numbers, placedReals, List.map_flatMap]
    simp only [List.map_map, Function.comp_def]
  rw [hentries, hnumbers, ← List.map_take, ← List.prefix_iff_eq_take.1 (placed_of_prepared env config),
    List.map_map]
  rfl

/-- If the numbers of the reals are decoded from those that were given, the entries carry these
    exactly if they fit. -/
theorem exact_iff {given : List (ℤ × ℤ)} (h : config.numbers = given.map decoded) :
    config.Exact env given ↔ ∀ n ∈ given.take (config.prepared env).length, Fitting n := by
  have hlength : ((given.take (config.prepared env).length).map (stored ∘ decoded)).length =
      (given.take (config.prepared env).length).length := List.length_map _
  rw [Exact, load_numbers, h, ← List.map_take, List.map_map]
  constructor
  · intro hbegin n hn
    have heq := List.prefix_iff_eq_take.1 hbegin
    rw [hlength, List.length_take, ← List.take_take, List.take_length] at heq
    exact (stored_decoded_iff n).1 (List.map_eq_map_iff.1 (heq.trans (List.map_id _).symm) n hn)
  · intro hfit
    have heq : (given.take (config.prepared env).length).map (stored ∘ decoded) =
        given.take (config.prepared env).length :=
      (List.map_congr_left fun n hn => (stored_decoded_iff n).2 (hfit n hn)).trans (List.map_id _)
    rw [heq]
    exact List.take_prefix _ _

end BaseConfig

/-! ## The document -/

namespace Json

/-- The integer of a key. -/
def int (key : String) (value : Json) : Option ℤ :=
  match value.field key with
  | some (integer n) => some n
  | _ => none

/-- The elements of an array. -/
def elements : Json → List Json
  | array elems => elems
  | _ => []

/-- Those of the array of a key. -/
def items (key : String) (value : Json) : List Json := (value.field key).elim [] elements

/-- The port and the weight that the document gives for each real, where they are integers. -/
def given (data : Json) : List (Option ℤ × Option ℤ) :=
  (data.items "services").flatMap fun service =>
    (service.items "reals").map fun real => (service.int "port", real.int "weight")

variable {value v : Json} {key : String} {n : ℤ}

theorem get_of_int (h : value.int key = some n) : value.get key = .ok (integer n) := by
  rw [int] at h
  split at h
  · rename_i m hm
    obtain rfl := Option.some.inj h
    exact get_of_field hm
  · cases h

theorem items_of_get (h : value.get key = .ok v) : value.items key = v.elements := by
  have hends : Ends ParseFailure.IsMessage (· = v) (value.get key) := by rw [h]; rfl
  obtain ⟨_, hfield, rfl⟩ := ends_get.1 hends
  rw [items, hfield, Option.elim_some]

end Json

theorem parseReal_ok {port : UInt32} {real : Json} {r : BalancerReal}
    (h : parseReal port real = .ok r) :
    ∃ v, real.get "weight" = .ok v ∧ v.asUInt8 = .ok r.weight := by
  rw [eq_ok_iff, parseReal] at h
  simp only [ends_bind, ends_success, ends_pure] at h
  obtain ⟨_, -, _, -, v, hv, weight, hweight, _, -, rfl⟩ := h
  exact ⟨v, hv, hweight⟩

theorem parseService_ok {service : Json} {s : BalancerService} (h : parseService service = .ok s) :
    (∃ v, service.get "port" = .ok v ∧ v.asUInt32 = .ok s.port) ∧
      List.Forall₂ (fun real r => parseReal s.port real = .ok r) (service.items "reals")
        s.reals := by
  rw [eq_ok_iff, parseService] at h
  simp only [ends_bind, ends_success] at h
  obtain ⟨_, -, _, -, _, -, _, -, _, -, _, -, _, -, v, hv, port, hport, _, -, balancer, -, s, h,
    rfl⟩ := h
  generalize BalancerType.fromString balancer = type at h
  cases type with
  | none => cases h
  | some type =>
    dsimp only at h
    split_ifs at h
    · cases h
    · rw [eq_ok_iff] at h
      simp only [ends_bind, ends_success] at h
      obtain ⟨reals, hreals, s, h, rfl⟩ := h
      rw [items_of_get hreals]
      cases reals with
      | array elems =>
        rw [eq_ok_iff] at h
        simp only [ends_bind, ends_success, ends_pure] at h
        obtain ⟨reals, helems, rfl⟩ := h
        exact ⟨⟨v, hv, hport⟩, forall₂_of_mapM helems⟩
      | _ =>
        obtain rfl := Except.ok.inj h
        exact ⟨⟨v, hv, hport⟩, .nil⟩

theorem parseJson_ok {data : Json} {config : BaseConfig} (h : parseJson data = .ok config) :
    List.Forall₂ (fun service s => parseService service = .ok s) (data.items "services")
      config.services := by
  rw [parseJson] at h
  split_ifs at h
  · cases h
  · cases data with
    | object fields =>
      rw [items, field]
      rw [eq_ok_iff] at h
      simp only [index, ends_bind, ends_ok] at h
      cases hservices : fields.lookup "services" with
      | none =>
        rw [hservices] at h
        cases h
      | some services =>
        rw [hservices] at h
        cases services with
        | array services =>
          simp only [Option.getD_some, ends_bind, ends_success] at h
          obtain ⟨services, hservices, ddos, -, config, h, rfl⟩ := h
          suffices hsame : config.services = services from hsame ▸ forall₂_of_mapM hservices
          cases ddos with
          | null =>
            obtain rfl := Except.ok.inj h
            rfl
          | _ =>
            rw [eq_ok_iff] at h
            simp only [ends_bind, ends_map, ends_success, ends_pure] at h
            obtain ⟨_, -, rfl⟩ := h
            rfl
        | _ => cases h
    | _ => cases h

/-- The numbers are those that were given, decoded. -/
def Decodes (given : Option ℤ × Option ℤ) (n : UInt32 × UInt8) : Prop :=
  ∀ port weight, given = (some port, some weight) → n = decoded (port, weight)

/-- The parser decodes the numbers of the document. -/
theorem parseJson_numbers {data : Json} {given : List (ℤ × ℤ)} (h : parseJson data = .ok config)
    (hgiven : data.given = given.map fun n => (some n.1, some n.2)) :
    config.numbers = given.map decoded := by
  have hdecodes : List.Forall₂ Decodes data.given config.numbers := by
    refine List.rel_flatMap (parseJson_ok h) fun service s hs => ?_
    obtain ⟨⟨v, hv, hport⟩, hreals⟩ := parseService_ok hs
    rw [List.forall₂_map_left_iff, List.forall₂_map_right_iff]
    refine hreals.imp fun real r hr => ?_
    obtain ⟨w, hw, hweight⟩ := parseReal_ok hr
    intro port weight heq
    obtain ⟨hp, hq⟩ := Prod.mk.inj heq
    obtain rfl := Except.ok.inj (hv.symm.trans (get_of_int hp))
    obtain rfl := Except.ok.inj (hw.symm.trans (get_of_int hq))
    exact Prod.ext (Except.ok.inj hport).symm (Except.ok.inj hweight).symm
  rw [hgiven, List.forall₂_map_left_iff] at hdecodes
  symm
  rw [← List.forall₂_eq_eq_eq, List.forall₂_map_left_iff]
  exact hdecodes.imp fun n m hm => (hm n.1 n.2 rfl).symm

/-- The validator leaves the numbers. -/
theorem BaseConfig.numbers_normalize (config : BaseConfig) :
    config.normalize.numbers = config.numbers := by
  rw [numbers, normalize, List.flatMap_map, numbers]
  refine List.flatMap_congr fun service _ => ?_
  rw [BalancerService.normalize, List.map_map]
  rfl

/-! ## The message -/

namespace Api

/-- The port and the weight that the message gives for each real. -/
def Configuration.given (proto : Configuration) : List (ℤ × ℤ) :=
  proto.services.flatMap fun service =>
    service.backends.map fun backend => (service.port.toNat, backend.weight.toNat)

end Api

theorem fromProtoServices_numbers {uninit : ℕ → ℕ → UInt32} {i : ℕ} {svcs : List Api.Service}
    {services : List BalancerService} (h : fromProtoServices uninit i svcs = (services, [])) :
    BaseConfig.numbers { services := services } =
      (Api.Configuration.given ⟨svcs⟩).map decoded := by
  induction svcs generalizing i services with
  | nil =>
    obtain ⟨rfl, -⟩ := Prod.mk.inj h
    rfl
  | cons svc svcs ih =>
    rw [fromProtoServices] at h
    rcases hrest : fromProtoServices uninit (i + 1) svcs with ⟨rest, errors⟩
    rw [hrest, fromProtoService] at h
    cases htype : BalancerType.fromString svc.algorithm with
    | none =>
      rw [htype] at h
      cases (Prod.mk.inj h).2
    | some type =>
      rw [htype] at h
      obtain ⟨rfl, rfl⟩ := Prod.mk.inj h
      have hreals : (svc.backends.mapIdx fun j backend => fromProtoBackend (uninit i j) backend).map
          (fun real => (svc.port, real.weight)) =
          (svc.backends.map fun backend => ((svc.port.toNat : ℤ), (backend.weight.toNat : ℤ))).map
            decoded := by
        refine List.ext_getElem? fun j => ?_
        rw [List.getElem?_map, List.getElem?_mapIdx, List.getElem?_map, List.getElem?_map]
        cases svc.backends[j]? with
        | none => rfl
        | some backend => exact congrArg some (decoded_natCast svc.port backend.weight).symm
      rw [BaseConfig.numbers, List.flatMap_cons, Api.Configuration.given, List.flatMap_cons,
        List.map_append]
      exact congrArg₂ _ hreals (ih hrest)

/-- `UpdateConfig` decodes the numbers of the message. -/
theorem updateConfig_numbers {proto : Api.Configuration} {uninit : ℕ → ℕ → UInt32}
    {result : Option String} {current : BaseConfig}
    (h : (server.out (.updateConfig proto uninit, result) current).reloaded = some config) :
    config.numbers = proto.given.map decoded := by
  rw [(server_spec current (.updateConfig proto uninit, result)).2.1, Request.target,
    fromProtoConfiguration] at h
  rcases hservices : fromProtoServices uninit 0 proto.services with ⟨services, errors⟩
  rw [hservices] at h
  dsimp only at h
  split_ifs at h with herrors
  obtain rfl := herrors
  obtain rfl := Option.some.inj h
  exact fromProtoServices_numbers hservices

/-! ## No silent narrowing -/

/-- The configuration is one that `ReloadConfig` gets for an input with the numbers: a document that
    the parser and the validator accept, or a message that `UpdateConfig` accepts. -/
inductive Accepts : List (ℤ × ℤ) → BaseConfig → Prop
  | document {read : String → Except String Json} {text : String} {data : Json}
      {given : List (ℤ × ℤ)} {config config' : BaseConfig} : read text = .ok data →
      data.given = (given.map fun n => (some n.1, some n.2)) →
      parseConfig read text = .ok config → config.validate = (config', none) →
      Accepts given config'
  | message {proto : Api.Configuration} {uninit : ℕ → ℕ → UInt32} {result : Option String}
      {current config : BaseConfig} :
      (server.out (.updateConfig proto uninit, result) current).reloaded = some config →
      Accepts proto.given config

theorem Accepts.numbers {given : List (ℤ × ℤ)} (h : Accepts given config) :
    config.numbers = given.map decoded := by
  cases h with
  | document hread hgiven hparse hvalidate =>
    obtain ⟨-, rfl⟩ := BaseConfig.validate_eq_ok.1 hvalidate
    rw [parseConfig, hread] at hparse
    rw [BaseConfig.numbers_normalize, parseJson_numbers hparse hgiven]
  | message h => exact updateConfig_numbers h

/-- No silent narrowing. For every document whose ports and weights are integers and every message,
    if it is accepted, the entries that `ReloadConfig` builds carry exactly the numbers that were
    given, exactly if these fit it for each real that is prepared: a port from 0 to 65535 and a
    weight from 0 to 255. -/
theorem narrowed_iff (env : Env) {given : List (ℤ × ℤ)} (h : Accepts given config) :
    config.Exact env given ↔ ∀ n ∈ given.take (config.prepared env).length, Fitting n :=
  BaseConfig.exact_iff h.numbers

/-- A service with the port and a real with the weight. -/
def demoNumbers (n : UInt32 × UInt8) : BaseConfig where
  services := [⟨[⟨"10.0.1.1", true, n.2, 4, n.1⟩], "web", "10.0.0.1", "tcp", n.1, .rr, 4⟩]

/-- The same as a text, -/
def demoText (port weight : ℤ) : String :=
  "\x7b\"services\": [\x7b\"name\": \"web\", \"vip\": \"10.0.0.1\", \"protocol\": \"tcp\", " ++
    "\"port\": " ++ toString port ++ ", \"balancer\": \"rr\", \"reals\": " ++
    "[\x7b\"ip\": \"10.0.1.1\", \"weight\": " ++ toString weight ++ "\x7d]\x7d]\x7d"

/-- as what the library reads it as, -/
def demoDocument (port weight : ℤ) (text : String) : Except String Json :=
  if text = demoText port weight then
    .ok (.object [("services", .array [.object [("name", .string "web"),
      ("vip", .string "10.0.0.1"), ("protocol", .string "tcp"), ("port", .integer port),
      ("balancer", .string "rr"),
      ("reals", .array [.object [("ip", .string "10.0.1.1"), ("weight", .integer weight)]])]])])
  else .error "syntax error"

/-- and as a message. -/
def demoMessage (port weight : UInt32) : Api.Configuration where
  services := [⟨"web", "10.0.0.1", port, "tcp", 4, "rr", [⟨"10.0.1.1", 0, weight, true, 4⟩]⟩]

theorem accepts_demoDocument (port weight : ℤ)
    (h : (demoNumbers (decoded (port, weight))).validate = (config, none)) :
    Accepts [(port, weight)] config := by
  have hread : demoDocument port weight (demoText port weight) = .ok _ := if_pos rfl
  refine .document hread rfl ?_ h
  rw [parseConfig, hread]
  rfl

theorem accepts_demoMessage (port weight : UInt32) :
    Accepts [((port.toNat : ℤ), (weight.toNat : ℤ))] (demoNumbers (port, weight.toUInt8)) := by
  have h : (server.out (.updateConfig (demoMessage port weight) fun _ _ => port, none)
      { services := [] }).reloaded = some (demoNumbers (port, weight.toUInt8)) := rfl
  exact .message h

/-- Numbers that fit. -/
theorem narrowed_demo : (demoNumbers (80, 1)).Exact demoEnv [(80, 1)] :=
  (narrowed_iff demoEnv (accepts_demoDocument 80 1 (by decide +kernel))).2 (by decide +kernel)

/-- A document and a message whose numbers wrap into the valid range. -/
theorem wrapped_numbers :
    (Accepts [(4294967376, 257)] (demoNumbers (80, 1)) ∧
      ¬(demoNumbers (80, 1)).Exact demoEnv [(4294967376, 257)]) ∧
    Accepts [(65616, 257)] (demoNumbers (65616, 1)) ∧
      ¬(demoNumbers (65616, 1)).Exact demoEnv [(65616, 257)] := by
  have hentries : ∀ n, ((demoNumbers n).load demoEnv).1.backends.map Backend.numbers = [stored n] :=
    fun _ => rfl
  refine ⟨⟨accepts_demoDocument 4294967376 257 (by decide +kernel), fun h => ?_⟩,
    accepts_demoMessage 65616 257, fun h => ?_⟩
  all_goals
    rw [BaseConfig.Exact, hentries] at h
    exact absurd h (by decide)

end L4Balancer
