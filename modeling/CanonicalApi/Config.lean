import CanonicalApi.Identity
import CanonicalApi.Lib.Outcome

/-!
# `CanonicalApi.Config`: the configuration of the process

`Config::from_env` of `lib.rs`. The function `var` looks up a resolved value by its name, as
`flags::var` does. The values that the server is built with are the ones that were looked up:
the checks read trimmed copies.
-/

set_option autoImplicit false

namespace CanonicalApi

/-- `DEFAULT_GEMINI_MODEL`. -/
def defaultGeminiModel : String := "gemini-3.6-flash"

/-- `FORBIDDEN_API_PROCESS_CREDENTIALS`. -/
def forbiddenApiProcessCredentials : List String :=
  ["MIGRATION_DATABASE_URL", "CANONICAL_ADMIN_DATABASE_URL", "SUPABASE_SERVICE_ROLE_KEY"]

/-- `ConfigError`. The name in the first one is that of the variable that the process must not
have. -/
inductive ConfigError where
  | forbiddenProcessCredential (name : String)
  | invalidGeminiModel
  | incompleteWebhookConfiguration
  | incompleteSharedAuthConfiguration
  | invalidSharedAuthAudience
  | missingInternalAuthToken
  | weakGeminiApiKey
  | weakInternalAuthToken
  | weakSharedAuthIntrospectSecret
deriving DecidableEq, Repr

/-- `validate_process_role_credentials`. -/
def validateProcessRoleCredentials (isPresent : String → Bool) : Except ConfigError Unit :=
  match forbiddenApiProcessCredentials.find? isPresent with
  | some name => .error (.forbiddenProcessCredential name)
  | none => .ok ()

/-- The bytes of a model name. -/
def modelByte (byte : UInt8) : Bool :=
  isAsciiAlphanumeric byte || byte == 46 || byte == 45 || byte == 95

/-- `is_valid_model_name`: the check is on a trimmed copy. -/
def isValidModelName (value : String) : Bool :=
  let trimmed := trim value
  trimmed ≠ "" && len trimmed ≤ 128 && (bytes trimmed).all modelByte

/-- `valid_shared_auth_identifier`. -/
def validSharedAuthIdentifier (value : String) : Bool :=
  value ≠ "" && len value ≤ 128 && (bytes value).all identifierByte

/-- `u8::is_ascii_whitespace`. -/
def isAsciiWhitespace (byte : UInt8) : Bool :=
  byte == 9 || byte == 10 || byte == 12 || byte == 13 || byte == 32

/-- `Config`. The settings are texts as they stand in the environment; the checks on them are in
`fromEnv` and its helpers. -/
structure Config where
  bindAddress : String
  databaseUrl : Option String
  geminiApiKey : Option String
  geminiModel : String
  internalAuthToken : String
  sharedAuthAudience : String
  sharedAuthBase : Option String
  sharedAuthIntrospectSecret : Option String
  webhookEndpoint : Option String
  webhookSecret : Option String
deriving DecidableEq

namespace Config

/-- The pair of webhook settings, which must be given together. -/
def webhookSettings : Option String → Option String →
    Except ConfigError (Option String × Option String)
  | none, none => .ok (none, none)
  | some endpoint, some secret => .ok (some endpoint, some secret)
  | _, _ => .error .incompleteWebhookConfiguration

/-- The pair of settings for shared authentication. The secret needs 32 bytes that are not
white space. -/
def sharedAuthSettings : Option String → Option String →
    Except ConfigError (Option String × Option String)
  | none, none => .ok (none, none)
  | some base, some secret =>
      if ((bytes secret).filter fun byte => !isAsciiWhitespace byte).length ≥ 32 then
        .ok (some base, some secret)
      else .error .weakSharedAuthIntrospectSecret
  | _, _ => .error .incompleteSharedAuthConfiguration

/-- `Config::from_env`. `var` looks a resolved value up by its name. The checks are in the order of
the source, so of several faults the first one is reported. -/
def fromEnv (var : String → Option String) : Except ConfigError Config := do
  validateProcessRoleCredentials fun name => (var name).isSome
  let internalAuthToken ←
    Outcome.okOr .missingInternalAuthToken (var "CANONICAL_INTERNAL_AUTH_TOKEN")
  if len (trim internalAuthToken) < 32 then
    .error .weakInternalAuthToken
  else if (var "GEMINI_API_KEY").any fun key => len (trim key) < 20 then
    .error .weakGeminiApiKey
  else if !isValidModelName ((var "GEMINI_MODEL").getD defaultGeminiModel) then
    .error .invalidGeminiModel
  else do
    let (webhookEndpoint, webhookSecret) ←
      webhookSettings (var "CANONICAL_WEBHOOK_URL") (var "CANONICAL_WEBHOOK_SECRET")
    let (sharedAuthBase, sharedAuthIntrospectSecret) ←
      sharedAuthSettings (var "SHARED_AUTH_BASE") (var "SHARED_AUTH_INTROSPECT_SECRET")
    let sharedAuthAudience := (var "SHARED_AUTH_AUDIENCE").getD "canonical-plus-api"
    if !validSharedAuthIdentifier sharedAuthAudience then
      .error .invalidSharedAuthAudience
    else
      .ok { bindAddress := (var "BIND_ADDRESS").getD "0.0.0.0:8080"
            databaseUrl := var "DATABASE_URL"
            geminiApiKey := var "GEMINI_API_KEY"
            geminiModel := (var "GEMINI_MODEL").getD defaultGeminiModel
            internalAuthToken
            sharedAuthAudience
            sharedAuthBase
            sharedAuthIntrospectSecret
            webhookEndpoint
            webhookSecret }

open Outcome (bind_eq_ok_iff ite_error_eq_ok_iff)

/-- The configured model is the one that was looked up, and its trimmed copy is valid. -/
theorem geminiModel_of_fromEnv {var : String → Option String} {config : Config}
    (h : fromEnv var = .ok config) :
    config.geminiModel = (var "GEMINI_MODEL").getD defaultGeminiModel ∧
      isValidModelName config.geminiModel = true := by
  obtain ⟨_, -, h⟩ := (bind_eq_ok_iff _ _ _).mp h
  obtain ⟨token, -, h⟩ := (bind_eq_ok_iff _ _ _).mp h
  obtain ⟨-, h⟩ := (ite_error_eq_ok_iff _ _ _ _).mp h
  obtain ⟨-, h⟩ := (ite_error_eq_ok_iff _ _ _ _).mp h
  obtain ⟨hmodel, h⟩ := (ite_error_eq_ok_iff _ _ _ _).mp h
  obtain ⟨webhook, -, h⟩ := (bind_eq_ok_iff _ _ _).mp h
  obtain ⟨sharedAuth, -, h⟩ := (bind_eq_ok_iff _ _ _).mp h
  obtain ⟨-, h⟩ := (ite_error_eq_ok_iff _ _ _ _).mp h
  cases h
  rw [Bool.not_eq_true, Bool.not_eq_false'] at hmodel
  exact ⟨rfl, hmodel⟩

end Config

/-- A configured model has at least one character, also before it is trimmed. -/
theorem ne_empty_of_isValidModelName {value : String} (h : isValidModelName value = true) :
    value.toList ≠ [] := by
  intro hnil
  have htrim : trim value = "" := by
    unfold trim
    rw [hnil]
    rfl
  simp [isValidModelName, htrim] at h

end CanonicalApi
