import Mathlib.Data.Rat.Floor
import L4Balancer.Control.Config

/-!
# The configuration file

`JsonBaseConfigParser::Parse`, on the values of the JSON library. The library itself is no part
of the repository: its accessors are defined here as its documentation describes them. A value
answers a request that does not fit its kind with `type_error`, which `Parse` does not catch;
what a constant object answers for a key that it does not have, and a conversion of a
floating-point number that does not fit, are taken to be undefined. Reading a text as a value is
an argument of the parser.
-/

namespace L4Balancer

/-- `nlohmann::json`. An object has every key at most once. -/
inductive Json
  | null
  | boolean (b : Bool)
  | integer (n : ℤ)
  | float (x : ℚ)
  | string (s : String)
  | array (elems : List Json)
  | object (fields : List (String × Json))

/-- Why `Parse` returns no configuration. -/
inductive ParseFailure
  /-- The error that it returns. -/
  | message (text : String)
  /-- An exception that leaves it: `type_error` with the number of its kind. -/
  | typeError (id : ℕ)
  | undefined
  deriving DecidableEq

namespace Json

/-- `empty`. -/
def isEmpty : Json → Bool
  | null => true
  | array elems => elems.isEmpty
  | object fields => fields.isEmpty
  | _ => false

/-- `contains`. -/
def contains (key : String) : Json → Bool
  | object fields => (fields.lookup key).isSome
  | _ => false

/-- `operator[]` of a value that is not constant: a key that is missing gets a null. -/
def index (key : String) : Json → Except ParseFailure Json
  | null => .ok null
  | object fields => .ok ((fields.lookup key).getD null)
  | _ => .error (.typeError 305)

/-- `operator[]` of a constant value. -/
def get (key : String) : Json → Except ParseFailure Json
  | object fields =>
    match fields.lookup key with
    | none => .error .undefined
    | some value => .ok value
  | _ => .error (.typeError 305)

/-- `get<std::string>`. -/
def asString : Json → Except ParseFailure String
  | string s => .ok s
  | _ => .error (.typeError 302)

/-- `get` of an unsigned type of `width` bits, which is converted from any number. -/
def asUnsigned (width : ℕ) : Json → Except ParseFailure ℕ
  | boolean b => .ok b.toNat
  | integer n => .ok (n % 2 ^ width).toNat
  | float x =>
    let n : ℤ := x.num.tdiv x.den
    if 0 ≤ n ∧ n < 2 ^ width then .ok n.toNat else .error .undefined
  | _ => .error (.typeError 302)

/-- `get<unsigned int>`. -/
def asUInt32 (value : Json) : Except ParseFailure UInt32 := (value.asUnsigned 32).map .ofNat

/-- `get<uint8_t>`. -/
def asUInt8 (value : Json) : Except ParseFailure UInt8 := (value.asUnsigned 8).map .ofNat

/-- `value` with a boolean default. -/
def boolValue (key : String) (default : Bool) : Json → Except ParseFailure Bool
  | object fields =>
    match fields.lookup key with
    | none => .ok default
    | some (boolean b) => .ok b
    | some _ => .error (.typeError 302)
  | _ => .error (.typeError 306)

end Json

open Json

/-- The fields that are looked for, in order, before any of them is read. -/
def checkFields (value : Json) (place : String) : List (String × String) → Except ParseFailure Unit
  | [] => .ok ()
  | (field, name) :: fields =>
    if value.contains field then checkFields value place fields
    else .error (.message s!"{name} not found in {place}")

/-- The real of a service with the port `port`. -/
def parseReal (port : UInt32) (real : Json) : Except ParseFailure BalancerReal := do
  let ip ← (← real.get "ip").asString
  let weight ← (← real.get "weight").asUInt8
  let enabled ← real.boolValue "enabled" true
  return { ip := ip, enabled := enabled, weight := weight, port := port }

/-- A service. Reals that are not an array are none. -/
def parseService (service : Json) : Except ParseFailure BalancerService := do
  checkFields service "service" [("name", "name"), ("vip", "vip"), ("protocol", "protocol"),
    ("port", "port"), ("balancer", "balancer type")]
  let name ← (← service.get "name").asString
  let vip ← (← service.get "vip").asString
  let protocol ← (← service.get "protocol").asString
  let port ← (← service.get "port").asUInt32
  let some type := BalancerType.fromString (← (← service.get "balancer").asString)
    | throw (.message "invalid balancer type")
  if service.contains "reals" = false then
    throw (.message "reals field not found in service or is not an array of elems")
  let reals ← match ← service.get "reals" with
    | .array elems => elems.mapM (parseReal port)
    | _ => pure []
  return { reals := reals, name := name, vip := vip, protocol := protocol, port := port, type := type }

/-- The settings of the SYN filter. -/
def parseDdos (ddos : Json) : Except ParseFailure DDoSConfig := do
  checkFields ddos "ddos_config" [("syn_threshold", "syn_threshold"),
    ("syn_ack_ratio", "syn_ack_ratio"), ("global_syn_threshold", "global_syn_threshold"),
    ("ban_duration_ms", "ban_duration_ms")]
  return {
    synThreshold := ← (← ddos.get "syn_threshold").asUInt32
    synAckRatio := ← (← ddos.get "syn_ack_ratio").asUInt32
    globalSynThreshold := ← (← ddos.get "global_syn_threshold").asUInt32
    banDurationMs := ← (← ddos.get "ban_duration_ms").asUInt32 }

/-- `Parse`, after the text has been read. -/
def parseJson (data : Json) : Except ParseFailure BaseConfig := do
  if data.isEmpty then throw (.message "empty config")
  let services ← match ← data.index "services" with
    | .array elems => elems.mapM parseService
    | _ => throw (.message "services field not found or is not an array of elements")
  let ddosConf ← match ← data.index "ddos_config" with
    | .null => pure none
    | ddos => some <$> parseDdos ddos
  return { services := services, ddosConf := ddosConf }

/-- `Parse`; `read` is `json::parse`, with the text of its `parse_error`. -/
def parseConfig (read : String → Except String Json) (text : String) :
    Except ParseFailure BaseConfig :=
  match read text with
  | .error what => .error (.message s!"invalid input: {what}")
  | .ok data => parseJson data

end L4Balancer
