import Mathlib.Computability.RegularExpressions
import L4Balancer.Control.Config

/-!
# Validating a configuration

`ConfigValidator::Validate` of `validator.h`. It works on the configuration in place:
it sets the IP versions of the services and reals, and trims and lowers the
protocols, up to the first error.

`std::regex_match` asks whether a whole text matches; the texts are ASCII where they do.
-/

namespace L4Balancer

open RegularExpression

/-! ## Regular expressions -/

namespace Regex

/-- A character class: `[...]`. -/
def oneOf (cs : String) : RegularExpression Char := (cs.toList.map char).foldr (· + ·) 0

/-- A text as it is. -/
def text (s : String) : RegularExpression Char := (s.toList.map char).foldr (· * ·) 1

/-- `r?`, also `r{0,1}`. -/
def opt (r : RegularExpression Char) : RegularExpression Char := 1 + r

/-- At most `n` times. -/
def upTo (r : RegularExpression Char) : ℕ → RegularExpression Char
  | 0 => 1
  | n + 1 => opt (r * upTo r n)

/-- `r{lo,hi}`. -/
def rep (r : RegularExpression Char) (lo hi : ℕ) : RegularExpression Char :=
  r ^ lo * upTo r (hi - lo)

end Regex

open Regex

namespace IPValidator

def digit : RegularExpression Char := oneOf "0123456789"
def hexDigit : RegularExpression Char := oneOf "0123456789abcdefABCDEF"
def alphanumeric : RegularExpression Char :=
  oneOf "0123456789abcdefghijklmnopqrstuvwxyzABCDEFGHIJKLMNOPQRSTUVWXYZ"

/-- `25[0-5]|2[0-4][0-9]|[01]?[0-9][0-9]?` -/
def octet : RegularExpression Char :=
  text "25" * oneOf "012345" + text "2" * oneOf "01234" * digit +
    opt (oneOf "01") * digit * opt digit

def IPv4_REGEX : RegularExpression Char := rep (octet * text ".") 3 3 * octet

/-- `[0-9a-fA-F]{1,4}:` -/
def groupColon : RegularExpression Char := rep hexDigit 1 4 * text ":"

/-- `:[0-9a-fA-F]{1,4}` -/
def colonGroup : RegularExpression Char := text ":" * rep hexDigit 1 4

def IPv6_REGEX : RegularExpression Char :=
  rep groupColon 7 7 * rep hexDigit 1 4 +
  rep groupColon 1 7 * text ":" +
  rep groupColon 1 6 * colonGroup +
  rep groupColon 1 5 * rep colonGroup 1 2 +
  rep groupColon 1 4 * rep colonGroup 1 3 +
  rep groupColon 1 3 * rep colonGroup 1 4 +
  rep groupColon 1 2 * rep colonGroup 1 5 +
  groupColon * rep colonGroup 1 6 +
  text ":" * (rep colonGroup 1 7 + text ":") +
  -- link-local
  text "fe80:" * rep (text ":" * rep hexDigit 0 4) 0 4 * text "%" *
    (alphanumeric * alphanumeric.star) +
  -- mapped from IPv4
  text "::" * opt (text "ffff" * opt (text ":" * rep (text "0") 1 4) * text ":") *
    (rep (octet * text ".") 3 3 * octet) +
  -- with IPv4 embedded
  rep groupColon 1 4 * text ":" * (rep (octet * text ".") 3 3 * octet)

/-- `checkIP`: the version of an address. -/
def checkIP (ip : String) : Option UInt8 :=
  if IPv4_REGEX.rmatch ip.toList then some 4
  else if IPv6_REGEX.rmatch ip.toList then some 6
  else none

theorem checkIP_eq_four {ip : String} : checkIP ip = some 4 ↔ ip.toList ∈ IPv4_REGEX.matches' := by
  rw [← rmatch_iff_matches', checkIP]
  split_ifs <;> simp [*]

end IPValidator

/-! ## The checks -/

/-- `std::isspace`. -/
def isSpace (c : Char) : Bool := c = ' ' || '\t' ≤ c && c ≤ '\r'

/-- `trim` and `std::tolower`: white space at the beginning only. -/
def normalizeProtocol (s : String) : String :=
  .ofList ((s.toList.dropWhile isSpace).map Char.toLower)

namespace BalancerService

/-- The loop over the reals. -/
def validateReals (service : BalancerService) :
    List BalancerReal → List BalancerReal × Option String
  | [] => ([], none)
  | real :: reals =>
    if real.ipVersion ≠ service.ipVersion then
      (real :: reals, some (s!"service has IPv{service.ipVersion} address {real.ipVersion}, " ++
        s!"real has another IPv{service.vip} address {real.ip}"))
    else if real.weight = 0 then
      (real :: reals, some s!"invalid weight value for real: {real.weight}")
    else
      match IPValidator.checkIP real.ip with
      | none => (real :: reals, some s!"invalid IP address for real: {real.ip}")
      | some ipVersion =>
        let (reals, error) := validateReals service reals
        ({ real with ipVersion := ipVersion } :: reals, error)

/-- The checks of a service. -/
def validate (service : BalancerService) : BalancerService × Option String :=
  if service.port = 0 ∨ service.port ≥ 65535 then
    (service, some s!"invalid port value: {service.port}")
  else
    match IPValidator.checkIP service.vip with
    | none => (service, some s!"invalid VIP address for service: {service.vip}")
    | some ipVersion =>
      let service := { service with
        ipVersion := ipVersion
        protocol := normalizeProtocol service.protocol }
      if service.protocol ≠ "tcp" ∧ service.protocol ≠ "udp" then
        (service, some s!"invalid L4 layer protocol: {service.protocol}")
      else
        let (reals, error) := service.validateReals service.reals
        ({ service with reals := reals }, error)

end BalancerService

/-- The first name that occurs again, if `names` are the names before. -/
def duplicateName (names : List String) : List BalancerService → Option String
  | [] => none
  | service :: services =>
    if service.name ∈ names then some service.name
    else duplicateName (service.name :: names) services

/-- The loop over the services. -/
def validateServices : List BalancerService → List BalancerService × Option String
  | [] => ([], none)
  | service :: services =>
    match service.validate with
    | (service, some e) => (service :: services, some e)
    | (service, none) =>
      let (services, error) := validateServices services
      (service :: services, error)

/-- `ConfigValidator::Validate`: the configuration it leaves, and the error. -/
def BaseConfig.validate (config : BaseConfig) : BaseConfig × Option String :=
  match duplicateName [] config.services with
  | some name => (config, some s!"dublicate service name: {name}")
  | none =>
    let (services, error) := validateServices config.services
    ({ config with services := services }, error)

end L4Balancer
