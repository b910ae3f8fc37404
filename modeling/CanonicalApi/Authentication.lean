import CanonicalApi.Identity
import CanonicalApi.Lib.Outcome
import CanonicalApi.Lib.Statements

/-!
# `CanonicalApi.Authentication`: the internal path and bearer introspection

`authenticate` and `authenticate_bearer` of `lib.rs` and `authenticate_tenant` of
`grc_work_queue.rs`, as programs whose only statement is the introspection of a bearer token.
`NoFallback` says that such a program asks for no introspection and that a success has a given
property.

Both functions test the token header after `to_str`, and the other headers as they are. So a
token header that is no visible ASCII text counts as absent. `no_fallback` says exactly when
this leads to the bearer path.
-/

set_option autoImplicit false

namespace CanonicalApi

open Transaction

/-- `INTERNAL_TOKEN_HEADER`. -/
def internalTokenHeader : String := "x-canonical-internal-token"

/-- `SUBJECT_HEADER`. -/
def subjectHeader : String := "x-canonical-subject"

/-- `TENANT_HEADER`. -/
def tenantHeader : String := "x-canonical-tenant-id"

/-- `unauthorized` of `lib.rs`. -/
def bearerUnauthorized : ApiError := .unauthorized "unauthorized" "authentication failed"

/-- `unauthorized` of `grc_work_queue.rs`. -/
def tenantUnauthorized : ApiError :=
  .unauthorized "unauthorized" "tenant-scoped GRC authentication failed"

/-- The arguments of `introspect_with_requirements`. -/
structure IntrospectionRequest where
  bearer : String
  audience : String
  requiredScopes : List String

/-- What the functions read of an introspection. -/
structure Introspection where
  active : Bool
  sub : Option String
  rest : List (String × JsonValue)

/-- The answer to an introspection. A failure of the client is `none`. -/
@[reducible] def IntrospectionReply (_ : IntrospectionRequest) : Type := Option Introspection

/-- A program that may ask for introspections. -/
abbrev AuthProgram : Type → Type := Program IntrospectionReply ApiError

/-- What the functions read of `AppState`. -/
structure AuthState where
  internalAuthToken : String
  sharedAuthAudience : Option String

/-- A header as a text. -/
def HeaderMap.text (headers : HeaderMap) (name : String) : Option String :=
  (headers.get name).bind headerToStr

/-- The comparison of the supplied token with the configured one. -/
def AuthState.tokenIsValid (state : AuthState) (suppliedToken : Option String) : Bool :=
  suppliedToken.any fun token => bytes token == bytes state.internalAuthToken

/-- The bearer token of the header `authorization`. -/
def bearerToken (headers : HeaderMap) : Option String :=
  (((headers.text "authorization").bind fun value => stripPrefix value "Bearer ").map trim).filter
    fun value => value ≠ "" ∧ len value ≤ 16 * 1024

/-- The introspection of the bearer token, up to the check that it is active. The request to Shared
Auth is the only statement of the program, so its reply is the only thing that comes from outside. A
missing token, a missing audience, a failed call and an inactive token all end in `unauthorized`. -/
def introspect (headers : HeaderMap) (state : AuthState) (requiredScopes : List String)
    (unauthorized : ApiError) : AuthProgram Introspection := do
  let bearer ← Program.ofExcept (Outcome.okOr unauthorized (bearerToken headers))
  let audience ← Program.ofExcept (Outcome.okOr unauthorized state.sharedAuthAudience)
  let request : IntrospectionRequest := { bearer, audience, requiredScopes }
  let reply ← (.stmt request : AuthProgram (IntrospectionReply request))
  let introspection ← Program.ofExcept (Outcome.okOr unauthorized reply)
  if !introspection.active then .rollback unauthorized else return introspection

/-- `authenticate_bearer`. -/
def authenticateBearer (headers : HeaderMap) (state : AuthState) (requiredScopes : List String) :
    AuthProgram String := do
  let introspection ← introspect headers state requiredScopes bearerUnauthorized
  Program.ofExcept (Outcome.okOr bearerUnauthorized (introspection.sub.bind validSubject))

/-- `authenticate`. The bearer token is introspected only if neither internal header counts as
present. The token header is read as text before that, so one that is not visible ASCII counts as
absent, while the subject header counts whatever its bytes are. -/
def authenticate (headers : HeaderMap) (state : AuthState) (requiredScopes : List String) :
    AuthProgram String :=
  let suppliedToken := headers.text internalTokenHeader
  let suppliedSubject := headers.get subjectHeader
  if suppliedToken.isNone && suppliedSubject.isNone then
    authenticateBearer headers state requiredScopes
  else if !state.tokenIsValid suppliedToken then
    .rollback (.unauthorized "unauthorized" "trusted proxy authentication failed")
  else
    Program.ofExcept (Outcome.okOr
      (.unauthorized "unauthorized" "authenticated subject is required")
      ((headers.text subjectHeader).bind validSubject))

section

variable [UuidCrate]

/-- `parse_tenant_id`. -/
def parseTenantId (value : String) : Option Uuid :=
  let value := trim value
  (UuidCrate.parseStr value).filter fun parsed => parsed.toText = value

/-- `authenticate_tenant`, with the tenant of its identity. One of the three internal headers is
enough to keep the request from the introspection. The tenant of an introspected token is its claim
`tenant_id`, or else `tenantId`. -/
def authenticateTenant (headers : HeaderMap) (state : AuthState) (requiredScopes : List String) :
    AuthProgram Uuid :=
  let suppliedToken := headers.text internalTokenHeader
  let suppliedSubject := headers.get subjectHeader
  let suppliedTenant := headers.get tenantHeader
  if suppliedToken.isSome || suppliedSubject.isSome || suppliedTenant.isSome then
    if !state.tokenIsValid suppliedToken then .rollback tenantUnauthorized
    else do
      let _ ← Program.ofExcept (Outcome.okOr tenantUnauthorized
        ((suppliedSubject.bind headerToStr).bind validSubject))
      Program.ofExcept (Outcome.okOr tenantUnauthorized
        ((suppliedTenant.bind headerToStr).bind parseTenantId))
  else do
    let introspection ← introspect headers state requiredScopes tenantUnauthorized
    let _ ← Program.ofExcept (Outcome.okOr tenantUnauthorized
      (introspection.sub.bind validSubject))
    let tenant := (introspection.rest.lookup "tenant_id").or (introspection.rest.lookup "tenantId")
    Program.ofExcept (Outcome.okOr tenantUnauthorized
      ((tenant.bind JsonValue.asStr).bind parseTenantId))

/-! ### What a program asks for -/

section

variable {α β : Type} {Q : α → Prop}

/-- The program never asks for an introspection, and every success has the property `Q`. -/
def NoFallback (prog : AuthProgram α) (Q : α → Prop) : Prop :=
  prog.Ensures (fun _ _ => True) (fun _ => False) Q

omit [UuidCrate] in
/-- `simp` writes `NoFallback` as its two parts: no introspection is sent under any answers, and
every identity that is returned meets `Q`. -/
theorem noFallback_iff (prog : AuthProgram α) : NoFallback prog Q ↔
    (∀ request, ¬ prog.Sends (fun _ _ => True) request) ∧
      ∀ a, prog.Commits (fun _ _ => True) a → Q a :=
  Program.ensures_iff prog

omit [UuidCrate] in
/-- A lookup with an error sends nothing and returns what it finds. -/
theorem noFallback_okOr {error : ApiError} {x : Option α} :
    NoFallback (Program.ofExcept (Outcome.okOr error x)) Q ↔ ∀ a, x = some a → Q a := by
  simp only [NoFallback, Program.ensures_ofExcept, Outcome.okOr_eq_ok_iff]

omit [UuidCrate] in
/-- A lookup before a program leaves it to the program, which runs only when something is found. -/
theorem noFallback_okOr_bind {error : ApiError} {x : Option β} {f : β → AuthProgram α} :
    NoFallback (Program.ofExcept (Outcome.okOr error x) >>= f) Q ↔
      ∀ b, x = some b → NoFallback (f b) Q := by
  simp only [NoFallback, Program.ensures_bind, Program.ensures_ofExcept, Outcome.okOr_eq_ok_iff]

omit [UuidCrate] in
/-- An introspection is avoided when there is no bearer token or no authority. -/
theorem noFallback_introspect {headers : HeaderMap} {state : AuthState}
    {requiredScopes : List String} {unauthorized : ApiError} {f : Introspection → AuthProgram α} :
    NoFallback (introspect headers state requiredScopes unauthorized >>= f) Q ↔
      ¬ (bearerToken headers ≠ none ∧ state.sharedAuthAudience ≠ none) := by
  simp only [NoFallback, introspect, Program.ensures_bind, Program.ensures_ofExcept,
    Outcome.okOr_eq_ok_iff, Program.ensures_stmt, false_and]
  cases bearerToken headers with
  | none => simp
  | some bearer => cases state.sharedAuthAudience <;> simp

end

/-! ### The internal path -/

section

variable {headers : HeaderMap} {state : AuthState}

omit [UuidCrate] in
/-- A header as a text has the bytes of its value. -/
theorem bytes_of_headerToStr {value : List UInt8} {text : String}
    (h : headerToStr value = some text) : bytes text = value := by
  unfold headerToStr at h
  split at h
  case isFalse => cases h
  next hvisible =>
  cases h
  -- The visible bytes are ASCII, and an ASCII byte is the character of its own number.
  have hascii : ∀ b ∈ value, b.toNat < 128 := by
    intro b hb
    have hbyte := List.all_eq_true.mp hvisible b hb
    simp only [Bool.or_eq_true, beq_iff_eq, Bool.and_eq_true, decide_eq_true_eq,
      UInt8.le_iff_toNat_le] at hbyte
    rcases hbyte with rfl | ⟨-, hle⟩
    · decide
    · exact Nat.lt_of_le_of_lt hle (by decide)
  have hnat : ∀ b ∈ value, (Char.ofNat b.toNat).toNat = b.toNat := by
    intro b hb
    have hchar : ∀ n : Fin 128, (Char.ofNat n).toNat = n := by decide
    exact hchar ⟨b.toNat, hascii b hb⟩
  rw [bytes_eq_map, String.toList_ofList, List.map_map]
  · refine (List.map_congr_left fun b hb => ?_).trans (List.map_id value)
    show UInt8.ofNat (Char.ofNat b.toNat).toNat = b
    rw [hnat b hb, UInt8.ofNat_toNat]
  · intro c hc
    rw [String.toList_ofList] at hc
    obtain ⟨b, hb, rfl⟩ := List.mem_map.mp hc
    rw [hnat b hb]
    exact hascii b hb

/-- The header with the token is the configured token. -/
def TokenMatches (headers : HeaderMap) (state : AuthState) : Prop :=
  headers.get internalTokenHeader = some (bytes state.internalAuthToken)

omit [UuidCrate] in
/-- A token that passes `tokenIsValid` is the configured one. Without a configured token none
passes. -/
theorem tokenMatches_of_valid
    (h : state.tokenIsValid (headers.text internalTokenHeader) = true) :
    TokenMatches headers state := by
  obtain ⟨token, htoken, heq⟩ := (Option.any_eq_true _ _).mp h
  obtain ⟨value, hvalue, htext⟩ := Option.bind_eq_some_iff.mp htoken
  rw [TokenMatches, hvalue, ← bytes_of_headerToStr htext, beq_iff_eq.mp heq]

/-- A request with one of the internal headers. -/
def HasInternal (names : List String) (headers : HeaderMap) : Prop :=
  ∃ name ∈ names, headers.get name ≠ none

/-- The token header is no visible ASCII text, the other internal headers are absent, and there
is a bearer token to introspect. -/
structure FallsBack (others : List String) (headers : HeaderMap) (state : AuthState) : Prop where
  unreadable : ∃ value, headers.get internalTokenHeader = some value ∧ headerToStr value = none
  absent : ∀ name ∈ others, headers.get name = none
  bearer : bearerToken headers ≠ none
  authority : state.sharedAuthAudience ≠ none

omit [UuidCrate] in
/-- Without a readable token and the other headers, the request falls back when it has a
bearer token. -/
theorem fallsBack_iff {others : List String}
    (hinternal : HasInternal (internalTokenHeader :: others) headers)
    (htoken : headers.text internalTokenHeader = none)
    (hothers : ∀ name ∈ others, headers.get name = none) :
    FallsBack others headers state ↔
      bearerToken headers ≠ none ∧ state.sharedAuthAudience ≠ none := by
  refine ⟨fun h => ⟨h.bearer, h.authority⟩, fun ⟨hbearer, hauthority⟩ => ?_⟩
  refine ⟨?_, hothers, hbearer, hauthority⟩
  obtain ⟨name, hname, hsome⟩ := hinternal
  rcases List.mem_cons.mp hname with rfl | hname
  · obtain ⟨value, hvalue⟩ := Option.ne_none_iff_exists'.mp hsome
    rw [HeaderMap.text, hvalue] at htoken
    exact ⟨value, hvalue, htoken⟩
  · exact absurd (hothers name hname) hsome

omit [UuidCrate] in
/-- A request whose token can be read, or that has another internal header, does not fall back: the
handler decides by the readable token and by whether the other headers are there. -/
theorem not_fallsBack {others : List String}
    (h : ¬ (headers.text internalTokenHeader = none ∧
      ∀ name ∈ others, headers.get name = none)) :
    ¬ FallsBack others headers state := by
  rintro ⟨⟨value, hvalue, hunreadable⟩, habsent, -, -⟩
  refine h ⟨?_, habsent⟩
  rw [HeaderMap.text, hvalue]
  exact hunreadable

/-- The subject header is valid, and it gives this subject. -/
def SubjectIs (headers : HeaderMap) (subject : String) : Prop :=
  ∃ raw, headers.text subjectHeader = some raw ∧ validSubject raw = some subject

/-- The tenant header is valid, and it gives this tenant. -/
def TenantIs (headers : HeaderMap) (tenant : Uuid) : Prop :=
  ∃ raw, headers.text tenantHeader = some raw ∧ parseTenantId raw = some tenant

omit [UuidCrate] in
/-- The half of `no_fallback` for `authenticate`. The branch of the code is followed by cases on
the token and on the other header. -/
theorem authenticate_noFallback_iff (requiredScopes : List String)
    (hinternal : HasInternal [internalTokenHeader, subjectHeader] headers) :
    NoFallback (authenticate headers state requiredScopes)
        (fun subject => TokenMatches headers state ∧ SubjectIs headers subject) ↔
      ¬ FallsBack [subjectHeader] headers state := by
  unfold authenticate
  by_cases habsent : headers.text internalTokenHeader = none ∧ headers.get subjectHeader = none
  · -- The bearer path. It is a fallback, since an internal header is there all the same.
    obtain ⟨htoken, hsubject⟩ := habsent
    have hothers : ∀ name ∈ [subjectHeader], headers.get name = none := by simpa using hsubject
    rw [fallsBack_iff hinternal htoken hothers]
    simp only [htoken, hsubject, Option.isNone_none, Bool.and_self, if_true, authenticateBearer]
    exact noFallback_introspect
  · -- The internal path: it ends with a subject only if the token fits.
    have hpath : ((headers.text internalTokenHeader).isNone &&
        (headers.get subjectHeader).isNone) = false := by
      by_contra hnone
      refine habsent ?_
      simpa using hnone
    refine iff_of_true ?_ (not_fallsBack (by simpa using habsent))
    dsimp only
    rw [hpath, if_neg nofun]
    cases hvalid : state.tokenIsValid (headers.text internalTokenHeader) with
    | false => exact (Program.ensures_rollback _).mpr trivial
    | true =>
      refine noFallback_okOr.mpr fun subject hsubject => ⟨tokenMatches_of_valid hvalid, ?_⟩
      exact Option.bind_eq_some_iff.mp hsubject

/-- The half of `no_fallback` for `authenticate_tenant`, where the tenant header counts as one of
the other headers. -/
theorem authenticateTenant_noFallback_iff (requiredScopes : List String)
    (hinternal : HasInternal [internalTokenHeader, subjectHeader, tenantHeader] headers) :
    NoFallback (authenticateTenant headers state requiredScopes)
        (fun tenant => TokenMatches headers state ∧ (∃ subject, SubjectIs headers subject) ∧
          TenantIs headers tenant) ↔
      ¬ FallsBack [subjectHeader, tenantHeader] headers state := by
  unfold authenticateTenant
  -- The bearer path is taken only when none of the three headers counts as present.
  by_cases habsent : headers.text internalTokenHeader = none ∧
      headers.get subjectHeader = none ∧ headers.get tenantHeader = none
  · obtain ⟨htoken, hsubject, htenant⟩ := habsent
    have hothers : ∀ name ∈ [subjectHeader, tenantHeader], headers.get name = none := by
      simpa using ⟨hsubject, htenant⟩
    rw [fallsBack_iff hinternal htoken hothers]
    simp only [htoken, hsubject, htenant, Option.isSome_none, Bool.or_self]
    exact noFallback_introspect
  · -- On the other path every exit is an error or needs the token.
    have hpath : ((headers.text internalTokenHeader).isSome ||
        (headers.get subjectHeader).isSome || (headers.get tenantHeader).isSome) = true := by
      by_contra hnone
      refine habsent ?_
      simpa [and_assoc] using hnone
    refine iff_of_true ?_ (not_fallsBack (by simpa using habsent))
    dsimp only
    rw [hpath, if_pos rfl]
    cases hvalid : state.tokenIsValid (headers.text internalTokenHeader) with
    | false => exact (Program.ensures_rollback _).mpr trivial
    | true =>
      refine noFallback_okOr_bind.mpr fun subject hsubject => ?_
      refine noFallback_okOr.mpr fun tenant htenant => ?_
      exact ⟨tokenMatches_of_valid hvalid, ⟨subject, Option.bind_eq_some_iff.mp hsubject⟩,
        Option.bind_eq_some_iff.mp htenant⟩

/-- No fallback from the internal path. For every header map with an internal header,
`authenticate` and `authenticate_tenant` ask for no introspection, and succeed only with the
configured token and with valid headers, whose subject and tenant they return. The exception is
a token header that is no visible ASCII text, without the other internal headers, when there is
a bearer token to introspect. -/
theorem no_fallback (headers : HeaderMap) (state : AuthState) (requiredScopes : List String) :
    (HasInternal [internalTokenHeader, subjectHeader] headers →
      (NoFallback (authenticate headers state requiredScopes)
          (fun subject => TokenMatches headers state ∧ SubjectIs headers subject) ↔
        ¬ FallsBack [subjectHeader] headers state)) ∧
    (HasInternal [internalTokenHeader, subjectHeader, tenantHeader] headers →
      (NoFallback (authenticateTenant headers state requiredScopes)
          (fun tenant => TokenMatches headers state ∧ (∃ subject, SubjectIs headers subject) ∧
            TenantIs headers tenant) ↔
        ¬ FallsBack [subjectHeader, tenantHeader] headers state)) :=
  ⟨authenticate_noFallback_iff requiredScopes, authenticateTenant_noFallback_iff requiredScopes⟩

end

end

/-! ### A token that is no text -/

section

/-- The crate `uuid`, on one text. -/
@[reducible] def fixtureUuid : UuidCrate where
  parseStr text := if text = (⟨7⟩ : Uuid).toText then some ⟨7⟩ else none

attribute [local instance] fixtureUuid

/-- A replica with Shared Auth. -/
def testAuthState : AuthState where
  internalAuthToken := "internal-token"
  sharedAuthAudience := some "canonical-plus-api"

/-- The headers of the proxy, for a subject and a tenant. -/
def internalHeaders : HeaderMap :=
  [("x-canonical-internal-token", bytes "internal-token"),
    ("x-canonical-subject", bytes "user-1"),
    ("x-canonical-tenant-id", bytes "00000000-0000-0000-0000-000000000007")]

/-- The headers of a request with a subject and a bearer token, and without the internal token. -/
def subjectHeaders : HeaderMap :=
  [("x-canonical-subject", bytes "user-1"), ("authorization", bytes "Bearer customer-token")]

/-- The token of the fixture can be read. -/
theorem internalHeaders_readable : ¬ ∃ value,
    internalHeaders.get internalTokenHeader = some value ∧ headerToStr value = none := by
  rintro ⟨value, hvalue, hunreadable⟩
  have htext : internalHeaders.text internalTokenHeader = some "internal-token" := by decide
  rw [HeaderMap.text, hvalue, Option.bind_some, hunreadable] at htext
  cases htext

/-- With the headers of the proxy both functions succeed with its subject and its tenant. With a
subject and a bearer token they refuse the request and introspect nothing. -/
theorem no_fallback_subject :
    ((authenticate internalHeaders testAuthState []).Commits (fun _ _ => True) "user-1" ∧
      TokenMatches internalHeaders testAuthState ∧ SubjectIs internalHeaders "user-1") ∧
    ((authenticateTenant internalHeaders testAuthState []).Commits (fun _ _ => True) ⟨7⟩ ∧
      TenantIs internalHeaders ⟨7⟩) ∧
    NoFallback (authenticate subjectHeaders testAuthState []) (fun _ => False) ∧
    NoFallback (authenticateTenant subjectHeaders testAuthState []) (fun _ => False) := by
  obtain ⟨hsubject, htenant⟩ := no_fallback internalHeaders testAuthState []
  obtain ⟨hrefused, hrefused'⟩ := no_fallback subjectHeaders testAuthState []
  have hsubject := (hsubject ⟨subjectHeader, by decide, by decide⟩).mpr
    fun h => internalHeaders_readable h.unreadable
  have htenant := (htenant ⟨tenantHeader, by decide, by decide⟩).mpr
    fun h => internalHeaders_readable h.unreadable
  have hcommits : (authenticate internalHeaders testAuthState []).Commits (fun _ _ => True)
      "user-1" := rfl
  have hcommits' : (authenticateTenant internalHeaders testAuthState []).Commits
      (fun _ _ => True) ⟨7⟩ := rfl
  -- The second request carries a subject but no token.
  have hnone : ¬ TokenMatches subjectHeaders testAuthState := fun h => by cases h
  have habsent : ∀ {others}, subjectHeader ∈ others →
      ¬ FallsBack others subjectHeaders testAuthState :=
    fun hmem h => absurd (h.absent subjectHeader hmem) (by decide)
  refine ⟨⟨hcommits, ((noFallback_iff _).mp hsubject).2 _ hcommits⟩,
    ⟨hcommits', (((noFallback_iff _).mp htenant).2 _ hcommits').2.2⟩, ?_, ?_⟩
  · have hrefused := (hrefused ⟨subjectHeader, by decide, by decide⟩).mpr (habsent (by decide))
    exact Program.Ensures.mono hrefused fun _ ha => hnone ha.1
  · have hrefused' := (hrefused' ⟨subjectHeader, by decide, by decide⟩).mpr (habsent (by decide))
    exact Program.Ensures.mono hrefused' fun _ ha => hnone ha.1

/-- A token of the byte 255, and a bearer token. -/
def unreadableToken : HeaderMap :=
  [("x-canonical-internal-token", [255]), ("authorization", bytes "Bearer customer-token")]

/-- The internal token holds a byte that is not visible ASCII, and counts as absent. Both functions
introspect the bearer token, and `authenticate` succeeds with the subject of the introspection. -/
theorem unreadable_token_falls_back :
    ¬ NoFallback (authenticate unreadableToken testAuthState [])
        (fun subject => TokenMatches unreadableToken testAuthState ∧
          SubjectIs unreadableToken subject) ∧
    ¬ NoFallback (authenticateTenant unreadableToken testAuthState [])
        (fun tenant => TokenMatches unreadableToken testAuthState ∧
          (∃ subject, SubjectIs unreadableToken subject) ∧ TenantIs unreadableToken tenant) ∧
    (authenticate unreadableToken testAuthState []).Commits (fun _ _ => True) "customer-1" := by
  refine ⟨?_, ?_, some ⟨true, some "customer-1", []⟩, trivial, rfl⟩
  · intro h
    exact h.1
  · intro h
    exact h.1

end

end CanonicalApi
