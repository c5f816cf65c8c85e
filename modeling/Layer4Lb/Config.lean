import Mathlib.Data.List.Basic

/-!
# Configuration

The parts of `config/mod.rs` that the load balancer, the limiters, the health
checker and `main` read: a backend entry, the rate and bandwidth sections of a
rule, the rule itself and `Config::validate`, then the TLS, health-check and
access-list fields of a rule that `main` reads besides (`RuleConfig`).

Fields that no modelled function reads (a rule's `protocol`, the `cluster` and
`log` sections of the file) are left out.  Sizes that the source declares `u32`
are `UInt32`; `usize` is `Nat`, its wrapping made explicit where it matters.
-/

namespace Layer4Lb

/-- A backend entry of a rule (`BackendConfig`): a bare address, or an address
with a drain flag, which serde defaults to `false` (`default_drain`). -/
inductive BackendConfig where
  | simple (addr : String)
  | detailed (addr : String) (drain : Bool)
deriving DecidableEq, Repr

namespace BackendConfig

/-- The `(addr, drain)` pair that `LoadBalancer::new` and `update_backends` both
read off an entry: a `Simple` entry is never draining. -/
def addrDrain : BackendConfig → String × Bool
  | .simple a => (a, false)
  | .detailed addr drain => (addr, drain)

@[simp] theorem addrDrain_simple (a : String) : (simple a).addrDrain = (a, false) := rfl

@[simp] theorem addrDrain_detailed (a : String) (d : Bool) :
    (detailed a d).addrDrain = (a, d) := rfl

end BackendConfig

/-- `RateLimitConfig`: connection admissions per second and burst, per client IP. -/
structure RateLimitConfig where
  enabled : Bool
  requestsPerSecond : UInt32
  burst : UInt32
deriving DecidableEq, Repr

/-- The `client` and `backend` sections of a bandwidth limit
(`ClientBandwidthConfig`, `BackendBandwidthConfig`), in bytes per second. -/
structure BandwidthConfig where
  uploadPerSec : UInt32
  downloadPerSec : UInt32
deriving DecidableEq, Repr

/-- `BandwidthLimitConfig`. -/
structure BandwidthLimitConfig where
  enabled : Bool
  client : Option BandwidthConfig
  backend : Option BandwidthConfig
deriving DecidableEq, Repr

/-- A load-balancing rule (`LBRule`), with the fields the modelled code reads. -/
structure LBRule where
  name : String
  listen : String
  backends : List BackendConfig
  rateLimit : Option RateLimitConfig
  bandwidthLimit : Option BandwidthLimitConfig
  backendConnectionLimit : Option Nat
deriving DecidableEq, Repr

/-- The whole file (`Config`); `cluster` and `log` are not read by `validate`. -/
structure Config where
  rules : List LBRule
deriving DecidableEq, Repr

/-- `ConfigError`, with the text its `Display` prints. -/
inductive ConfigError where
  | missingField (what : String)
  | invalidValue (what : String)
deriving DecidableEq, Repr

namespace ConfigError

/-- The message `thiserror` derives from the `#[error]` attributes. -/
def message : ConfigError → String
  | .missingField s => "Missing configuration: " ++ s
  | .invalidValue s => "Invalid configuration: " ++ s

end ConfigError

namespace Config

/-- The loop of `Config::validate` over the rules, `i` the index of the first. -/
def validateRules : List LBRule → Nat → Except ConfigError Unit
  | [], _ => .ok ()
  | r :: rs, i =>
    if r.backends.isEmpty then
      .error (.invalidValue ("Rule '" ++ r.name ++ "' (index " ++ toString i ++ ") has no backends"))
    else if r.listen.isEmpty then
      .error (.invalidValue ("Rule '" ++ r.name ++ "' has no listen address"))
    else validateRules rs (i + 1)

/-- `Config::validate`: some rule, and every rule with a backend and a listen
address.  Nothing else is checked: a backend may be listed twice. -/
def validate (c : Config) : Except ConfigError Unit :=
  if c.rules.isEmpty then .error (.missingField "rules are empty")
  else validateRules c.rules 0

theorem validateRules_ok_iff (rs : List LBRule) (i : Nat) :
    validateRules rs i = .ok () ↔ ∀ r ∈ rs, r.backends ≠ [] ∧ r.listen ≠ "" := by
  induction rs generalizing i with
  | nil => simp [validateRules]
  | cons r rs ih =>
    simp only [validateRules, List.mem_cons, forall_eq_or_imp]
    by_cases hb : r.backends = []
    · simp [hb]
    · by_cases hl : r.listen = ""
      · simp [hb, hl]
      · simp [hb, hl, ih]

/-- `validate` accepts exactly the non-empty rule lists whose every rule has a
backend and a listen address. -/
theorem validate_ok_iff (c : Config) :
    c.validate = .ok () ↔ c.rules ≠ [] ∧ ∀ r ∈ c.rules, r.backends ≠ [] ∧ r.listen ≠ "" := by
  unfold validate
  by_cases h : c.rules = []
  · simp [h]
  · simp [h, validateRules_ok_iff]

end Config

/-! ## The rest of a rule, as `main` reads it -/

/-- `HealthCheckConfig`.  `start_health_check` reads the protocol, the path of
an HTTP probe, the timeout and the interval; nothing reads `enabled`. -/
structure HealthCheckConfig where
  enabled : Bool
  intervalMs : UInt64
  timeoutMs : UInt64
  protocol : String
  path : Option String
deriving DecidableEq, Repr

/-- `TlsConfig`: TLS towards clients, from a certificate and a key file. -/
structure TlsConfig where
  enabled : Bool
  cert : String
  key : String
deriving DecidableEq, Repr

/-- `BackendTlsConfig`; serde defaults `ignore_verify` to `false`. -/
structure BackendTlsConfig where
  enabled : Bool
  ignoreVerify : Bool
deriving DecidableEq, Repr

/-- A rule with the fields `main` reads besides those of `LBRule`: the PROXY
protocol flag (serde's default `false`), the TLS sections, the health check and
the allow and deny lists.  `protocol` is read by nothing and left out. -/
structure RuleConfig extends LBRule where
  proxyProtocol : Bool
  tls : Option TlsConfig
  backendTls : Option BackendTlsConfig
  healthCheck : Option HealthCheckConfig
  allowList : Option (List String)
  denyList : Option (List String)
deriving DecidableEq, Repr

/-- A rule of a name, a listen address and backends, with no optional section
and no PROXY protocol, as serde reads a rule that gives only those. -/
def RuleConfig.plain (name listen : String) (backends : List BackendConfig) : RuleConfig :=
  ⟨⟨name, listen, backends, none, none, none⟩, false, none, none, none, none, none⟩

/-- The rules of the file as `main` reads them, at start and on each reload. -/
structure MainConfig where
  rules : List RuleConfig
deriving DecidableEq, Repr

/-- The `Config` that `validate` sees. -/
def MainConfig.toConfig (c : MainConfig) : Config := ⟨c.rules.map RuleConfig.toLBRule⟩

end Layer4Lb
