import L4Balancer.Control.Reported
import L4Balancer.Control.Proto

/-!
# The document of the command line

`printConfigJSON` and `parseConfigJSON` of the command line, which write the configuration of the
API as a document and read it. What they write, they read back (`parseConfigJSON_print`). The
control plane is documented to read the same file, but it asks a service for `balancer` and
`reals` where the command line has `algorithm` and `backends`, and no services are a null to the one
and an error to the other: `Parse` accepts no document of the command line
(`oneFormat_never`). With the two keys renamed it accepts those that have a service
(`parseJson_renamed`).

The values are those of `Json`, for both programs. The library of the command line leaves a field
whose key is missing or null at its zero value, rejects a value of another kind and a number that
does not fit, and writes a list without elements as a null. It also takes keys that differ in
case, which are left out here: neither side writes them.
-/

namespace L4Balancer

open Json

variable {α : Type}

/-! ## Writing -/

/-- A slice, which is nil if nothing has been appended. -/
def sliceJSON (f : α → Json) : List α → Json
  | [] => null
  | a :: as => array ((a :: as).map f)

def backendJSON (b : Api.Backend) : Json :=
  object [("ip", string b.ip), ("port", integer b.port.toNat), ("weight", integer b.weight.toNat),
    ("enabled", boolean b.enabled), ("ip_version", integer b.ipVersion.toNat)]

def serviceJSON (s : Api.Service) : Json :=
  object [("name", string s.name), ("vip", string s.vip), ("port", integer s.port.toNat),
    ("protocol", string s.protocol), ("ip_version", integer s.ipVersion.toNat),
    ("algorithm", string s.algorithm), ("backends", sliceJSON backendJSON s.backends)]

/-- `printConfigJSON`, before the text is written. -/
def printConfigJSON (cfg : Api.Configuration) : Json :=
  object [("services", sliceJSON serviceJSON cfg.services)]

/-! ## Reading -/

def unmarshalString : Option Json → Option String
  | none | some null => some ""
  | some (string s) => some s
  | some _ => none

def unmarshalUInt32 : Option Json → Option UInt32
  | none | some null => some 0
  | some (integer n) => if 0 ≤ n ∧ n < 2 ^ 32 then some (.ofNat n.toNat) else none
  | some _ => none

def unmarshalBool : Option Json → Option Bool
  | none | some null => some false
  | some (boolean b) => some b
  | some _ => none

def unmarshalSlice (f : Json → Option α) : Option Json → Option (List α)
  | none | some null => some []
  | some (array elems) => elems.mapM f
  | some _ => none

/-- A structure, read by `f` from the values of the keys. -/
def unmarshalStruct (f : (String → Option Json) → Option α) : Json → Option α
  | null => f fun _ => none
  | object fields => f fun key => fields.lookup key
  | _ => none

def unmarshalBackend : Json → Option Api.Backend :=
  unmarshalStruct fun field => do
    return {
      ip := ← unmarshalString (field "ip")
      port := ← unmarshalUInt32 (field "port")
      weight := ← unmarshalUInt32 (field "weight")
      enabled := ← unmarshalBool (field "enabled")
      ipVersion := ← unmarshalUInt32 (field "ip_version") }

def unmarshalService : Json → Option Api.Service :=
  unmarshalStruct fun field => do
    return {
      name := ← unmarshalString (field "name")
      vip := ← unmarshalString (field "vip")
      port := ← unmarshalUInt32 (field "port")
      protocol := ← unmarshalString (field "protocol")
      ipVersion := ← unmarshalUInt32 (field "ip_version")
      algorithm := ← unmarshalString (field "algorithm")
      backends := ← unmarshalSlice unmarshalBackend (field "backends") }

/-- `parseConfigJSON`, after the text has been read. -/
def parseConfigJSON : Json → Option Api.Configuration :=
  unmarshalStruct fun field => do
    return { services := ← unmarshalSlice unmarshalService (field "services") }

/-! ## The command line reads what it writes -/

theorem unmarshalUInt32_toNat (n : UInt32) : unmarshalUInt32 (some (integer n.toNat)) = some n := by
  have hlt := n.toNat_lt
  rw [unmarshalUInt32, if_pos ⟨by omega, by omega⟩, Int.toNat_natCast, UInt32.ofNat_toNat]

theorem mapM_map_some {f : α → Json} {g : Json → Option α} (h : ∀ a, g (f a) = some a)
    (as : List α) : (as.map f).mapM g = some as := by
  induction as with
  | nil => rfl
  | cons a as ih =>
    rw [List.map_cons, List.mapM_cons, h, ih]
    rfl

theorem unmarshalSlice_sliceJSON {f : α → Json} {g : Json → Option α}
    (h : ∀ a, g (f a) = some a) (as : List α) : unmarshalSlice g (some (sliceJSON f as)) = some as := by
  cases as with
  | nil => rfl
  | cons a as => exact mapM_map_some h (a :: as)

theorem unmarshalBackend_backendJSON (b : Api.Backend) : unmarshalBackend (backendJSON b) = some b := by
  simp [unmarshalBackend, backendJSON, unmarshalStruct, List.lookup_cons, unmarshalString, unmarshalBool,
    unmarshalUInt32_toNat]

theorem unmarshalService_serviceJSON (s : Api.Service) : unmarshalService (serviceJSON s) = some s := by
  simp [unmarshalService, serviceJSON, unmarshalStruct, List.lookup_cons, unmarshalString,
    unmarshalUInt32_toNat, unmarshalSlice_sliceJSON unmarshalBackend_backendJSON]

/-- What is written is read back unchanged. -/
theorem parseConfigJSON_print (cfg : Api.Configuration) :
    parseConfigJSON (printConfigJSON cfg) = some cfg := by
  simp [parseConfigJSON, printConfigJSON, unmarshalStruct,
    unmarshalSlice_sliceJSON unmarshalService_serviceJSON]

/-! ## The control plane does not -/

/-- The real has what the message says of it. -/
def SameReal (b : Api.Backend) (real : BalancerReal) : Prop :=
  real.ip = b.ip ∧ real.weight.toUInt32 = b.weight ∧ real.enabled = b.enabled

/-- The service has what the message says of it. -/
def SameService (s : Api.Service) (service : BalancerService) : Prop :=
  (service.name = s.name ∧ service.vip = s.vip ∧ service.port = s.port ∧
    service.protocol = s.protocol) ∧ BalancerType.fromString s.algorithm = some service.type ∧
    List.Forall₂ SameReal s.backends service.reals

/-- `Parse` accepts the text and decodes it to the services of the message. -/
def OneFormat (read : String → Except String Json) (text : String) (cfg : Api.Configuration) :
    Prop :=
  ∃ config, parseConfig read text = .ok config ∧
    List.Forall₂ SameService cfg.services config.services

theorem parseService_serviceJSON (s : Api.Service) :
    parseService (serviceJSON s) = .error (.message "balancer type not found in service") :=
  rfl

/-- The error that `Parse` returns for a document of the command line. -/
theorem parseJson_print (cfg : Api.Configuration) :
    parseJson (printConfigJSON cfg) = .error (.message
      (if cfg.services = [] then "services field not found or is not an array of elements"
      else "balancer type not found in service")) := by
  obtain ⟨_ | ⟨s, services⟩⟩ := cfg
  · rfl
  · have hmapM : (serviceJSON s :: services.map serviceJSON).mapM parseService =
        .error (.message "balancer type not found in service") := by
      rw [List.mapM_cons, parseService_serviceJSON]
      rfl
    rw [printConfigJSON, sliceJSON, List.map_cons, parseJson]
    simp only [isEmpty, List.isEmpty_cons, Bool.false_eq_true, if_false, index,
      List.lookup_cons_self, Option.getD_some, bind, Except.bind, hmapM]
    rfl

/-- Its services are never decoded. -/
theorem not_oneFormat {read : String → Except String Json} {text : String}
    {cfg : Api.Configuration} (h : read text = .ok (printConfigJSON cfg)) :
    ¬OneFormat read text cfg := by
  rintro ⟨config, haccepts, -⟩
  rw [parseConfig, h] at haccepts
  cases (parseJson_print cfg).symm.trans haccepts

/-- One config file format. Whatever the configuration, the document that the command line writes for
    it is read back unchanged by the command line and accepted by `Parse` never. -/
theorem oneFormat_never {read : String → Except String Json} {text : String}
    {cfg : Api.Configuration} (h : read text = .ok (printConfigJSON cfg)) :
    parseConfigJSON (printConfigJSON cfg) = some cfg ∧ ¬OneFormat read text cfg :=
  ⟨parseConfigJSON_print cfg, not_oneFormat h⟩

/-- A configuration, -/
def demoConfiguration : Api.Configuration where
  services := [⟨"web", "10.0.0.1", 80, "tcp", 4, "rr", [⟨"192.168.1.10", 80, 1, true, 4⟩]⟩]

/-- the text that the command line writes for it, -/
def demoPrintedText : String :=
  "\n".intercalate [
    "\x7b", "  \"services\": [", "    \x7b", "      \"name\": \"web\",",
    "      \"vip\": \"10.0.0.1\",", "      \"port\": 80,", "      \"protocol\": \"tcp\",",
    "      \"ip_version\": 4,", "      \"algorithm\": \"rr\",", "      \"backends\": [",
    "        \x7b", "          \"ip\": \"192.168.1.10\",", "          \"port\": 80,",
    "          \"weight\": 1,", "          \"enabled\": true,", "          \"ip_version\": 4",
    "        \x7d", "      ]", "    \x7d", "  ]", "\x7d", ""]

/-- and what that text is read as. -/
def demoPrinted (text : String) : Except String Json :=
  if text = demoPrintedText then .ok (printConfigJSON demoConfiguration) else .error "syntax error"

theorem demoPrinted_text : demoPrinted demoPrintedText = .ok (printConfigJSON demoConfiguration) :=
  if_pos rfl

theorem oneFormat_demo :
    parseConfigJSON (printConfigJSON demoConfiguration) = some demoConfiguration ∧
      ¬OneFormat demoPrinted demoPrintedText demoConfiguration :=
  oneFormat_never demoPrinted_text

/-- The document is refused for its keys. -/
theorem demoPrinted_refused : ¬OneFormat demoPrinted demoPrintedText demoConfiguration :=
  not_oneFormat demoPrinted_text

/-! ## With the keys of the parser -/

/-- The key that the parser has for one of the command line. -/
def parserKey (key : String) : String :=
  if key = "algorithm" then "balancer" else if key = "backends" then "reals" else key

/-- A service under the keys of the parser. -/
def renamedService (s : Api.Service) : Json :=
  match serviceJSON s with
  | object fields => object (fields.map fun (key, value) => (parserKey key, value))
  | value => value

theorem asUInt32_toNat (n : UInt32) : (integer n.toNat).asUInt32 = .ok n := by
  have hlt := n.toNat_lt
  have hmod : ((n.toNat : ℤ) % 2 ^ 32).toNat = n.toNat := by omega
  rw [asUInt32, asUnsigned, hmod, Except.map, UInt32.ofNat_toNat]

theorem asUInt8_toNat (n : UInt32) : (integer n.toNat).asUInt8 = .ok n.toUInt8 := by
  have hmod : ((n.toNat : ℤ) % 2 ^ 8).toNat = n.toNat % 2 ^ 8 := by omega
  rw [asUInt8, asUnsigned, hmod, Except.map, ← UInt32.toNat_toUInt8, UInt8.ofNat_toNat]

/-- The real that is read for a backend. -/
def readReal (port : UInt32) (b : Api.Backend) : BalancerReal where
  ip := b.ip
  enabled := b.enabled
  weight := b.weight.toUInt8
  port := port

theorem parseReal_backendJSON (port : UInt32) (b : Api.Backend) :
    parseReal port (backendJSON b) = .ok (readReal port b) := by
  have hip : (backendJSON b).get "ip" = .ok (string b.ip) := rfl
  have hweight : (backendJSON b).get "weight" = .ok (integer b.weight.toNat) := rfl
  have henabled : (backendJSON b).boolValue "enabled" true = .ok b.enabled := rfl
  rw [eq_ok_iff, parseReal, hip, hweight, henabled]
  simp only [ends_bind, ends_ok, asString, asUInt8_toNat, ends_pure]
  rfl

/-- The service that is read for one with a known algorithm. -/
def readService (s : Api.Service) : BalancerService where
  reals := s.backends.map (readReal s.port)
  name := s.name
  vip := s.vip
  protocol := s.protocol
  port := s.port
  type := (BalancerType.fromString s.algorithm).getD .rr

theorem parseService_renamedService {s : Api.Service}
    (h : (BalancerType.fromString s.algorithm).isSome) :
    parseService (renamedService s) = .ok (readService s) := by
  obtain ⟨type, htype⟩ := Option.isSome_iff_exists.1 h
  have hchecks : checkFields (renamedService s) "service" [("name", "name"), ("vip", "vip"),
      ("protocol", "protocol"), ("port", "port"), ("balancer", "balancer type")] = .ok () := rfl
  have hname : (renamedService s).get "name" = .ok (string s.name) := rfl
  have hvip : (renamedService s).get "vip" = .ok (string s.vip) := rfl
  have hprotocol : (renamedService s).get "protocol" = .ok (string s.protocol) := rfl
  have hport : (renamedService s).get "port" = .ok (integer s.port.toNat) := rfl
  have hbalancer : (renamedService s).get "balancer" = .ok (string s.algorithm) := rfl
  have hcontains : (renamedService s).contains "reals" = true := rfl
  have hreals : (renamedService s).get "reals" = .ok (sliceJSON backendJSON s.backends) := rfl
  rw [eq_ok_iff, parseService, hchecks, hname, hvip, hprotocol, hport, hbalancer, hcontains, hreals]
  simp only [ends_bind, ends_ok, asString, asUInt32_toNat, htype, Bool.true_eq_false, if_false]
  rw [readService, htype, Option.getD_some]
  cases s.backends with
  | nil => simp [sliceJSON]
  | cons b bs =>
    have hmapM : ((b :: bs).map backendJSON).mapM (parseReal s.port) =
        .ok ((b :: bs).map (readReal s.port)) :=
      mapM_map_ok fun b _ => parseReal_backendJSON s.port b
    simp only [sliceJSON, hmapM, ends_bind, ends_ok, ends_pure]

/-- Under the keys of the parser, `Parse` accepts a configuration that has a service and decodes it
    to the same services, if its algorithms are known and its weights fit. -/
theorem parseJson_renamed {services : List Api.Service} (hne : services ≠ [])
    (h : ∀ s ∈ services, (BalancerType.fromString s.algorithm).isSome ∧
      ∀ b ∈ s.backends, b.weight < 256) :
    ∃ config, parseJson (object [("services", sliceJSON renamedService services)]) = .ok config ∧
      List.Forall₂ SameService services config.services := by
  have hmapM : (services.map renamedService).mapM parseService = .ok (services.map readService) :=
    mapM_map_ok fun s hs => parseService_renamedService (h s hs).1
  refine ⟨{ services := services.map readService }, ?_, ?_⟩
  · obtain ⟨s, services, rfl⟩ := List.exists_cons_of_ne_nil hne
    rw [eq_ok_iff, parseJson, sliceJSON]
    simp only [isEmpty, List.isEmpty_cons, Bool.false_eq_true, if_false, index,
      List.lookup_cons_self, Option.getD_some, ends_bind, ends_ok, hmapM]
    rfl
  · rw [List.forall₂_map_right_iff, List.forall₂_same]
    intro s hs
    obtain ⟨halgorithm, hweights⟩ := h s hs
    obtain ⟨type, htype⟩ := Option.isSome_iff_exists.1 halgorithm
    refine ⟨⟨rfl, rfl, rfl, rfl⟩, by rw [readService, htype]; rfl, ?_⟩
    rw [readService, List.forall₂_map_right_iff, List.forall₂_same]
    refine fun b hb => ⟨rfl, UInt32.toNat_inj.1 ?_, rfl⟩
    have hlt := UInt32.lt_iff_toNat_lt.1 (hweights b hb)
    rw [readReal, UInt8.toNat_toUInt32, UInt32.toNat_toUInt8]
    exact Nat.mod_eq_of_lt hlt

end L4Balancer
