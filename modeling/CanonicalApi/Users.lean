import CanonicalApi.Json
import CanonicalApi.Lib.Outcome
import CanonicalApi.Lib.Search
import CanonicalApi.Text
import Mathlib.Data.List.Infix

/-!
# `CanonicalApi.Users`: the lookups in the user directory

`find_users` and `find_user_by_id` of `rpc_routes/user/handlers.rs`. The directory is the service
behind `SharedAuthClient`: `UserDirectory` is a parameter, with the SCIM documents that it
returns. A lookup that fails is logged; the log is left out.

`find_users` reads the documents of the directory only until it has enough of them:
`find_users_outcome` says when it answers and with what, and when a document makes it fail.
`find_user_by_id` reads one document, and `findUserById_eq_ok_iff` says when it answers.
-/

set_option autoImplicit false

namespace CanonicalApi

namespace Users

open Outcome (bind_eq_ok_iff bind_eq_error_iff ite_error_eq_ok_iff mapError_eq_ok_iff okOr
  okOr_eq_ok_iff)

/-- `UserLookupError`. -/
structure UserLookupError where
  code : String
  message : String
deriving DecidableEq, Repr

/-- `UserLookupHeaders`. -/
structure UserLookupHeaders where
  authorization : String

/-- `FindUsersRequest`. -/
structure FindUsersRequest where
  query : String
  limit : UInt16

/-- `FindUserByIdRequest`. -/
structure FindUserByIdRequest where
  userId : String

/-- `UserSummary`. -/
structure UserSummary where
  id : String
  userName : Option String
  displayName : Option String
  active : Option Bool
deriving DecidableEq, Repr

/-- `FindUsersResponse`. -/
structure FindUsersResponse where
  results : List UserSummary
  traceIds : List String
deriving DecidableEq, Repr

/-- `FindUserByIdResponse`. -/
structure FindUserByIdResponse where
  result : UserSummary
  traceIds : List String
deriving DecidableEq, Repr

/-- The two requests of `SharedAuthClient` to the directory. `none` is a request that fails. -/
structure UserDirectory where
  scimListUsers : (token : String) → Option JsonValue
  scimGetUser : (token userId : String) → Option JsonValue

/-! ### What is checked -/

/-- `directory_client`, with `SHARED_AUTH_BASE` and `SharedAuthClient::try_new`. -/
def directoryClient (sharedAuthBase : Option String)
    (tryNew : String → Except String UserDirectory) : Except UserLookupError UserDirectory :=
  match sharedAuthBase with
  | none => .error ⟨"directory_not_configured", "SHARED_AUTH_BASE is not configured"⟩
  | some base => (tryNew base).mapError fun error => ⟨"directory_not_configured", error⟩

/-- `bearer_token`. -/
def bearerToken (value : String) : Except UserLookupError String := do
  let token ← okOr ⟨"authorization_required", "Authorization: Bearer <token> is required"⟩
    ((stripPrefix value "Bearer ").filter fun token => token ≠ "" && len token ≤ 8192)
  if token.toList.any isWhitespace || token.toList.any isControl then
    .error ⟨"authorization_invalid", "bearer token is malformed"⟩
  else .ok token

/-- `Value::as_bool`. -/
def asBool : JsonValue → Option Bool
  | .bool b => some b
  | _ => none

/-- `user_summary`. Only the id is required; a member of another type is as good as a missing
one. -/
def userSummary (raw : JsonValue) (fallbackId : Option String) :
    Except UserLookupError UserSummary := do
  let id ← okOr ⟨"directory_response_invalid", "SCIM user is missing id"⟩
    ((((raw.get "id").bind JsonValue.asStr).or fallbackId).filter fun value => trim value ≠ "")
  return {
    id
    userName := (raw.get "userName").bind JsonValue.asStr
    displayName := (raw.get "displayName").bind JsonValue.asStr
    active := (raw.get "active").bind asBool }

/-- The query is in the id, the user name or the display name. -/
def UserSummary.matches (query : String) (summary : UserSummary) : Bool :=
  [some summary.id, summary.userName, summary.displayName].reduceOption.any fun candidate =>
    decide (query.toList <:+: (lowercase candidate).toList)

/-! ### The operations -/

/-- `find_users`. The context gives the headers and the body, or says what is missing. The query is
put in lower case before its length is checked, and the directory is asked for all users. -/
def findUsers (headers : Except String UserLookupHeaders) (body : Except String FindUsersRequest)
    (client : Except UserLookupError UserDirectory) :
    Except UserLookupError FindUsersResponse := do
  let headers ← headers.mapError fun error => ⟨"headers_missing", error⟩
  let body ← body.mapError fun error => ⟨"body_missing", error⟩
  let token ← bearerToken headers.authorization
  let query := lowercase (trim body.query)
  if query = "" ∨ len query > 256 then
    .error ⟨"invalid_query", "query must contain 1..=256 characters"⟩
  else if ¬ (1 ≤ body.limit.toNat ∧ body.limit.toNat ≤ 100) then
    .error ⟨"invalid_limit", "limit must be between 1 and 100"⟩
  else
    let directory ← client
    let raw ← okOr ⟨"user_lookup_failed", "user directory lookup failed"⟩
      (directory.scimListUsers token)
    let resources ← okOr ⟨"directory_response_invalid", "user directory response is invalid"⟩
      ((raw.get "Resources").bind JsonValue.asArray)
    let results ← Search.collect (fun value => userSummary value none)
      (UserSummary.matches query) body.limit.toNat [] resources
    return ⟨results, ["ores-trace-canonical-users-handler-f3Qm7vN2rKs"]⟩

/-- `find_user_by_id`. A user that comes without an id keeps the one that was asked for. -/
def findUserById (headers : Except String UserLookupHeaders)
    (body : Except String FindUserByIdRequest) (client : Except UserLookupError UserDirectory) :
    Except UserLookupError FindUserByIdResponse := do
  let headers ← headers.mapError fun error => ⟨"headers_missing", error⟩
  let body ← body.mapError fun error => ⟨"body_missing", error⟩
  let token ← bearerToken headers.authorization
  let userId := trim body.userId
  if userId = "" ∨ len userId > 256 then
    .error ⟨"invalid_user_id", "user_id must contain 1..=256 characters"⟩
  else
    let directory ← client
    let raw ← okOr ⟨"user_lookup_failed", "user directory lookup failed"⟩
      (directory.scimGetUser token userId)
    let summary ← userSummary raw (some userId)
    return ⟨summary, ["ores-trace-canonical-user-handler-b7Qm3vN5rKs"]⟩

/-! ### What `find_users` finds -/

/-- The request passes its checks, and the directory lists the resources. What is left of
`find_users` then is the search among them. -/
structure Lists (headers : Except String UserLookupHeaders) (body : Except String FindUsersRequest)
    (client : Except UserLookupError UserDirectory) (query : String) (limit : Nat)
    (resources : List JsonValue) : Prop where
  requested : ∃ request, body = .ok request ∧ query = lowercase (trim request.query) ∧
    limit = request.limit.toNat
  named : query ≠ "" ∧ len query ≤ 256
  bounded : 1 ≤ limit ∧ limit ≤ 100
  listed : ∃ sent token directory raw, headers = .ok sent ∧
    bearerToken sent.authorization = .ok token ∧ client = .ok directory ∧
    directory.scimListUsers token = some raw ∧
    (raw.get "Resources").bind JsonValue.asArray = some resources

variable {headers : Except String UserLookupHeaders} {body : Except String FindUsersRequest}
  {client : Except UserLookupError UserDirectory}

/-- What is left of `find_users` is the loop over the resources. -/
theorem findUsers_of_lists {query : String} {limit : Nat} {resources : List JsonValue}
    (h : Lists headers body client query limit resources) :
    findUsers headers body client = (do
      let results ← Search.collect (fun value => userSummary value none)
        (UserSummary.matches query) limit [] resources
      return ⟨results, ["ores-trace-canonical-users-handler-f3Qm7vN2rKs"]⟩) := by
  obtain ⟨request, rfl, rfl, rfl⟩ := h.requested
  obtain ⟨sent, token, directory, raw, rfl, htoken, rfl, hraw, hresources⟩ := h.listed
  have hquery := h.named
  have hlimit := h.bounded
  have hnot : ¬ (lowercase (trim request.query) = "" ∨
      len (lowercase (trim request.query)) > 256) := by
    rintro (hempty | hlong)
    · exact hquery.1 hempty
    · omega
  simp only [findUsers, Except.mapError, Outcome.ok_bind, htoken, hraw, hresources,
    Outcome.okOr_some]
  rw [if_neg hnot, if_neg (not_not.mpr hlimit)]

/-- `find_users` answers only such a request. -/
theorem lists_of_findUsers {response : FindUsersResponse}
    (h : findUsers headers body client = .ok response) :
    ∃ query limit resources, Lists headers body client query limit resources := by
  simp only [findUsers, bind_eq_ok_iff, ite_error_eq_ok_iff, okOr_eq_ok_iff, mapError_eq_ok_iff,
    not_not] at h
  obtain ⟨sent, hsent, request, hrequest, token, htoken, hquery, hlimit, directory, hdirectory,
    raw, hraw, resources, hresources, -⟩ := h
  obtain ⟨hnamed, hlength⟩ := not_or.mp hquery
  refine ⟨_, _, resources, ⟨request, hrequest, rfl, rfl⟩, ⟨hnamed, Nat.le_of_not_lt hlength⟩,
    hlimit, sent, token, directory, raw, hsent, htoken, hdirectory, hraw, hresources⟩

/-- The error of a user without an id. -/
def missingId : UserLookupError :=
  ⟨"directory_response_invalid", "SCIM user is missing id"⟩

/-- A user is refused exactly if there is no id, neither its own nor the one asked for. -/
theorem userSummary_eq_error_iff {raw : JsonValue} {fallbackId : Option String}
    {error : UserLookupError} :
    userSummary raw fallbackId = .error error ↔ error = missingId ∧
      ∀ id, ((raw.get "id").bind JsonValue.asStr).or fallbackId = some id → trim id = "" := by
  rw [userSummary, bind_eq_error_iff]
  constructor
  · rintro (herror | ⟨id, -, hreturn⟩)
    · obtain ⟨hnone, rfl⟩ := (Outcome.okOr_eq_error_iff _ _ _).mp herror
      refine ⟨rfl, fun id hid => ?_⟩
      simpa using Option.filter_eq_none_iff.mp hnone id hid
    · cases hreturn
  · rintro ⟨rfl, hblank⟩
    refine .inl ((Outcome.okOr_eq_error_iff _ _ _).mpr ⟨?_, rfl⟩)
    exact Option.filter_eq_none_iff.mpr fun id hid => by simpa using hblank id hid

/-- Otherwise the user has its own id, or the one asked for if it has none. -/
theorem userSummary_eq_ok_iff {raw : JsonValue} {fallbackId : Option String}
    {summary : UserSummary} :
    userSummary raw fallbackId = .ok summary ↔
      ((raw.get "id").bind JsonValue.asStr).or fallbackId = some summary.id ∧
      trim summary.id ≠ "" ∧
      summary.userName = (raw.get "userName").bind JsonValue.asStr ∧
      summary.displayName = (raw.get "displayName").bind JsonValue.asStr ∧
      summary.active = (raw.get "active").bind asBool := by
  rw [userSummary, bind_eq_ok_iff]
  constructor
  · rintro ⟨id, hid, hreturn⟩
    obtain ⟨hid, hnamed⟩ := Option.filter_eq_some_iff.mp ((okOr_eq_ok_iff _ _ _).mp hid)
    obtain rfl := Except.ok.inj hreturn
    exact ⟨hid, of_decide_eq_true hnamed, rfl, rfl, rfl⟩
  · rintro ⟨hid, hnamed, huserName, hdisplayName, hactive⟩
    refine ⟨summary.id, (okOr_eq_ok_iff _ _ _).mpr (Option.filter_eq_some_iff.mpr
      ⟨hid, decide_eq_true hnamed⟩), ?_⟩
    rw [← huserName, ← hdisplayName, ← hactive]
    rfl

/-- There is a client exactly if there is a base and the client accepts it. -/
theorem directoryClient_eq_ok_iff {sharedAuthBase : Option String}
    {tryNew : String → Except String UserDirectory} {directory : UserDirectory} :
    directoryClient sharedAuthBase tryNew = .ok directory ↔
      ∃ base, sharedAuthBase = some base ∧ tryNew base = .ok directory := by
  unfold directoryClient
  cases sharedAuthBase with
  | none => simp
  | some base => simp [mapError_eq_ok_iff]

/-- `find_user_by_id` answers exactly when the request passes its checks, the client can be built,
and the directory answers with a document whose id, if it has one, is not blank. A document without
an id gets the id that was asked for. -/
theorem findUserById_eq_ok_iff {headers : Except String UserLookupHeaders}
    {body : Except String FindUserByIdRequest} {sharedAuthBase : Option String}
    {tryNew : String → Except String UserDirectory} {response : FindUserByIdResponse} :
    findUserById headers body (directoryClient sharedAuthBase tryNew) = .ok response ↔
      ∃ sent request token base directory raw, headers = .ok sent ∧ body = .ok request ∧
        bearerToken sent.authorization = .ok token ∧
        (trim request.userId ≠ "" ∧ len (trim request.userId) ≤ 256) ∧
        sharedAuthBase = some base ∧ tryNew base = .ok directory ∧
        directory.scimGetUser token (trim request.userId) = some raw ∧
        (∀ id, (raw.get "id").bind JsonValue.asStr = some id → trim id ≠ "") ∧
        response = {
          result := {
            id := ((raw.get "id").bind JsonValue.asStr).getD (trim request.userId)
            userName := (raw.get "userName").bind JsonValue.asStr
            displayName := (raw.get "displayName").bind JsonValue.asStr
            active := (raw.get "active").bind asBool }
          traceIds := ["ores-trace-canonical-user-handler-b7Qm3vN5rKs"] } := by
  constructor
  · intro h
    simp only [findUserById, bind_eq_ok_iff, ite_error_eq_ok_iff, okOr_eq_ok_iff,
      mapError_eq_ok_iff] at h
    -- One conjunct for each check, in the order of the source.
    obtain ⟨sent, hsent, request, hrequest, token, htoken, hnamed, directory, hdirectory, raw, hraw,
      summary, hsummary, hreturn⟩ := h
    obtain ⟨hid, hnot, huserName, hdisplayName, hactive⟩ := userSummary_eq_ok_iff.mp hsummary
    obtain ⟨base, hbase, hclient⟩ := directoryClient_eq_ok_iff.mp hdirectory
    obtain ⟨hnamed, hlength⟩ := not_or.mp hnamed
    refine ⟨sent, request, token, base, directory, raw, hsent, hrequest, htoken,
      ⟨hnamed, Nat.le_of_not_lt hlength⟩, hbase, hclient, hraw, fun id hown => ?_, ?_⟩
    · rw [hown, Option.some_or] at hid
      rwa [Option.some.inj hid]
    · have hid := Option.some.inj (Option.or_some.symm.trans hid)
      obtain rfl := Except.ok.inj hreturn
      rw [hid, ← huserName, ← hdisplayName, ← hactive]
  · rintro ⟨sent, request, token, base, directory, raw, rfl, rfl, htoken, ⟨hnamed, hlength⟩, hbase,
      hclient, hraw, hown, rfl⟩
    have hdirectory := directoryClient_eq_ok_iff.mpr ⟨base, hbase, hclient⟩
    have hnot : ¬ (trim request.userId = "" ∨ len (trim request.userId) > 256) := by
      rintro (hempty | hlong)
      · exact hnamed hempty
      · omega
    simp only [findUserById, Except.mapError, Outcome.ok_bind, htoken, hdirectory, hraw,
      Outcome.okOr_some]
    rw [if_neg hnot, bind_eq_ok_iff]
    refine ⟨_, userSummary_eq_ok_iff.mpr ⟨Option.or_some, ?_, rfl, rfl, rfl⟩, rfl⟩
    -- Without an id of its own the user keeps the id asked for, which was checked before.
    cases hid : (raw.get "id").bind JsonValue.asStr with
    | none =>
      rw [Option.getD_none, trim_trim]
      exact hnamed
    | some id => exact hown id hid

/-- `find_users` answers with the users that match, in the order of the directory, and stops when
it has as many as the request asks for. It reads the directory up to there and no further: a user
without an id makes it fail before, and does not matter after. -/
theorem find_users_outcome (headers : Except String UserLookupHeaders)
    (body : Except String FindUsersRequest) (client : Except UserLookupError UserDirectory) :
    (∀ response, findUsers headers body client = .ok response ↔
      ∃ query limit resources, Lists headers body client query limit resources ∧
        response.traceIds = ["ores-trace-canonical-users-handler-f3Qm7vN2rKs"] ∧
        ∃ before after found, resources = before ++ after ∧
          Search.Readable (fun value => userSummary value none) before found ∧
          response.results = found.filter (UserSummary.matches query) ∧
          response.results.length ≤ limit ∧
          (after = [] ∨ response.results.length = limit)) ∧
    ∀ query limit resources, Lists headers body client query limit resources →
      ∀ error, findUsers headers body client = .error error ↔
        error = missingId ∧ ∃ before item after found, resources = before ++ item :: after ∧
          Search.Readable (fun value => userSummary value none) before found ∧
          (∀ id, (item.get "id").bind JsonValue.asStr = some id → trim id = "") ∧
          (found.filter (UserSummary.matches query)).length < limit := by
  constructor
  · intro response
    constructor
    · intro h
      obtain ⟨query, limit, resources, hlists⟩ := lists_of_findUsers h
      -- What is left is the search through the resources.
      rw [findUsers_of_lists hlists, bind_eq_ok_iff] at h
      obtain ⟨results, hcollect, hreturn⟩ := h
      obtain rfl := Except.ok.inj hreturn
      have hfound := (Search.collect_eq_ok_iff (by exact hlists.bounded.1)).mp hcollect
      exact ⟨query, limit, resources, hlists, rfl, by simpa using hfound⟩
    · rintro ⟨query, limit, resources, hlists, htrace, hfound⟩
      rw [findUsers_of_lists hlists, bind_eq_ok_iff]
      refine ⟨response.results, ?_, ?_⟩
      · exact (Search.collect_eq_ok_iff (by exact hlists.bounded.1)).mpr (by simpa using hfound)
      · show Except.ok _ = Except.ok response
        rw [← htrace]
  · intro query limit resources hlists error
    rw [findUsers_of_lists hlists, bind_eq_error_iff]
    constructor
    · rintro (hcollect | ⟨results, -, hreturn⟩)
      · obtain ⟨before, item, after, found, hsplit, hreadable, herror, hlength⟩ :=
          (Search.collect_eq_error_iff (by exact hlists.bounded.1)).mp hcollect
        -- A summary fails only on an id that is blank.
        obtain ⟨rfl, hblank⟩ := userSummary_eq_error_iff.mp herror
        refine ⟨rfl, before, item, after, found, hsplit, hreadable, ?_, hlength⟩
        intro id hid
        exact hblank id (by rw [hid, Option.some_or])
      · cases hreturn
    · rintro ⟨rfl, before, item, after, found, hsplit, hreadable, hblank, hlength⟩
      refine .inl ((Search.collect_eq_error_iff (by exact hlists.bounded.1)).mpr
        ⟨before, item, after, found, hsplit, hreadable, ?_, hlength⟩)
      refine userSummary_eq_error_iff.mpr ⟨rfl, fun id hid => hblank id ?_⟩
      rwa [Option.or_none] at hid

end Users

end CanonicalApi
