/-
  The tokens of the principals (`security/auth_context.py`).

  `verify_token` reads the header of a token, looks up the key that it names, has
  PyJWT decode the token under that key, and reads the claims.  What PyJWT makes
  of tokens and keys is given (`PyJwt`).

  * `verifyToken_eq_ok_iff`: which tokens are admitted, and as whom;
  * `verifyToken_eq_raised_iff`: on which tokens verification breaks off;
  * `dataDecisionV2_unauthorized_iff`: who is turned away from `/v2/data_decision`,
    and with what;
  * `dataDecisionV2_granted`: whatever is served may be served to the tenant and
    the roles that the token names;
  * `dataDecisionV2_sameGrants`: of the token nothing else matters.
-/
import RoboMeta.DecisionRuns
import RoboMeta.JsonValue
import RoboMeta.Lib.Outcome
import RoboMeta.TenantIsolation

namespace RoboMeta

def allowedRoles : List String := ["ADMIN", "EDITOR", "REVIEWER", "PUBLISHER", "CONSUMER"]

def allowedAlgorithms : List String := ["RS256"]

structure AuthConfig where
  issuer : String
  audience : String
  jwks : List (String × JsonValue)
  leewaySeconds : ℤ := 0

/-! ## PyJWT -/

/-- The header of a token; PyJWT refuses a `kid` that is no string. -/
structure JoseHeader where
  alg : JsonValue := .null
  kid : Option String := none

/-- The exceptions of `jwt.decode`, subclasses first. -/
inductive DecodeError where
  | expiredSignature
  | immatureSignature
  | invalidIssuer
  | invalidAudience
  | invalidSignature
  | missingRequiredClaim (text : String)
  | invalidToken (text : String)
  /-- No `InvalidTokenError`. -/
  | other (exc : Exc)

structure DecodeOptions where
  algorithms : List String
  issuer : String
  audience : String
  leeway : ℤ
  require : List String

structure PyJwt (Key : Type) where
  /-- An `InvalidTokenError` is given as its text. -/
  getUnverifiedHeader : String → Except String JoseHeader
  fromJwk : JsonValue → Except Exc Key
  decode : String → Key → DecodeOptions → Except DecodeError (List (String × JsonValue))

def DecodeError.failure : DecodeError → AuthFailure
  | expiredSignature => .auth ⟨"AUTH_EXPIRED", "token 만료"⟩
  | immatureSignature => .auth ⟨"AUTH_NOT_YET_VALID", "token이 아직 유효하지 않음(nbf)"⟩
  | invalidIssuer => .auth ⟨"AUTH_ISSUER_INVALID", "issuer 불일치"⟩
  | invalidAudience => .auth ⟨"AUTH_AUDIENCE_INVALID", "audience 불일치"⟩
  | invalidSignature => .auth ⟨"AUTH_SIGNATURE_INVALID", "signature 검증 실패"⟩
  | missingRequiredClaim text => .auth ⟨"AUTH_CLAIMS_INVALID", "필수 claim 누락: " ++ text⟩
  | invalidToken text => .auth ⟨"AUTH_TOKEN_MALFORMED", "token 검증 실패: " ++ text⟩
  | other exc => .raised exc

/-! ## The key -/

/-- `key.get("kid") == kid and key.get("kty") == "RSA"`. -/
def isKey (kid : Option String) (key : JsonValue) : Except Exc Bool := do
  let id ← key.get "kid"
  if kid.elim id.isNull fun kid => id.isStr kid then
    let kty ← key.get "kty"
    return kty.isStr "RSA"
  else return false

def findKey (kid : Option String) : List JsonValue → Except Exc (Option JsonValue)
  | [] => return none
  | key :: keys => do
    if ← isKey kid key then return some key
    findKey kid keys

/-- What the loop over the key set runs through. -/
def AuthConfig.keys (config : AuthConfig) : Except Exc (List JsonValue) := do
  let keys ← (JsonValue.obj config.jwks).getD "keys" (.arr [])
  keys.iter

def AuthConfig.options (config : AuthConfig) : DecodeOptions where
  algorithms := allowedAlgorithms
  issuer := config.issuer
  audience := config.audience
  leeway := config.leewaySeconds
  require := ["exp", "iss", "aud", "sub"]

section
variable {Key : Type} (J : PyJwt Key) (repr : JsonValue → String) (config : AuthConfig)

def resolveKey (token : String) : Except AuthFailure Key :=
  match J.getUnverifiedHeader token with
  | .error text => .error (.auth ⟨"AUTH_TOKEN_MALFORMED", "token header 해석 실패: " ++ text⟩)
  | .ok header =>
    if ¬ ∃ alg ∈ allowedAlgorithms, header.alg.isStr alg then
      .error (.auth ⟨"AUTH_ALG_NOT_ALLOWED", "허용되지 않은 algorithm: " ++ repr header.alg⟩)
    else match config.keys >>= findKey header.kid with
      | .error exc => .error (.raised exc)
      | .ok none => .error (.auth ⟨"AUTH_KEY_UNKNOWN", "JWKS에 없는 kid: " ++ repr (header.kid.elim .null .str)⟩)
      | .ok (some key) => (J.fromJwk key).mapError .raised

/-! ## The claims -/

/-- `claims.get(k)`. -/
def claim (claims : List (String × JsonValue)) (k : String) : JsonValue := (Dict.get? claims k).getD .null

/-- A string that is not empty. -/
def JsonValue.text? : JsonValue → Option String
  | str s => if s = "" then none else some s
  | _ => none

/-- The items of a list that is not empty. -/
def JsonValue.items? : JsonValue → Option (List JsonValue)
  | arr items => if items = [] then none else some items
  | _ => none

def contextOf (claims : List (String × JsonValue)) : Except AuthError AuthContext :=
  match (claim claims "sub").text? with
  | none => .error ⟨"AUTH_CLAIMS_INVALID", "sub claim이 비어 있음"⟩
  | some subject => match (claim claims "tenant_id").text? with
    | none => .error ⟨"AUTH_CLAIMS_INVALID", "tenant_id claim이 비어 있음"⟩
    | some tenantId => match (claim claims "roles").items? with
      | none => .error ⟨"AUTH_CLAIMS_INVALID", "roles claim이 비어 있음"⟩
      | some rawRoles =>
        let roles := rawRoles.map fun r => r.pyStr repr
        let unknown := roles.filter fun r => r ∉ allowedRoles
        if unknown ≠ [] then
          .error ⟨"AUTH_CLAIMS_INVALID", "알 수 없는 role: " ++ repr (.arr ((sortedStrings unknown.dedup).map .str))⟩
        else .ok ⟨subject, tenantId, roles⟩

def verifyToken (token : String) : Except AuthFailure AuthContext :=
  match resolveKey J repr config token with
  | .error e => .error e
  | .ok publicKey => match J.decode token publicKey config.options with
    | .error e => .error e.failure
    | .ok claims => (contextOf repr claims).mapError .auth

end

/-! ## Admission -/

section
variable {Key : Type} {J : PyJwt Key} {repr : JsonValue → String} {config : AuthConfig}

/-- The first key that the header names; those before it can be read. -/
theorem findKey_eq_some_iff {kid : Option String} {keys : List JsonValue} {key : JsonValue} :
    findKey kid keys = .ok (some key) ↔ ∃ before after, keys = before ++ key :: after ∧
      (∀ k ∈ before, isKey kid k = .ok false) ∧ isKey kid key = .ok true := by
  induction keys with
  | nil => simp [findKey, pure, Except.pure]
  | cons k keys ih =>
    have hsplit : (∃ before after, k :: keys = before ++ key :: after ∧
        (∀ k ∈ before, isKey kid k = .ok false) ∧ isKey kid key = .ok true) ↔
        k = key ∧ isKey kid key = .ok true ∨ isKey kid k = .ok false ∧ findKey kid keys = .ok (some key) := by
      rw [ih]
      constructor
      · rintro ⟨before, after, heq, hbefore, hkey⟩
        cases before with
        | nil => exact Or.inl ⟨(List.cons.inj heq).1, hkey⟩
        | cons k' before =>
          obtain ⟨rfl, rfl⟩ := List.cons.inj heq
          obtain ⟨hk, hbefore⟩ := List.forall_mem_cons.1 hbefore
          exact Or.inr ⟨hk, before, after, rfl, hbefore, hkey⟩
      · rintro (⟨rfl, hkey⟩ | ⟨hk, before, after, rfl, hbefore, hkey⟩)
        · exact ⟨[], keys, rfl, by simp, hkey⟩
        · exact ⟨k :: before, after, rfl, List.forall_mem_cons.2 ⟨hk, hbefore⟩, hkey⟩
    rw [hsplit, findKey]
    cases hk : isKey kid k with
    | error exc =>
      refine ⟨fun h => (by cases h), ?_⟩
      rintro (⟨rfl, hkey⟩ | ⟨hfalse, -⟩)
      · rw [hk] at hkey
        cases hkey
      · cases hfalse
    | ok found =>
      cases found with
      | true =>
        constructor
        · intro h
          obtain rfl := Option.some.inj (Except.ok.inj h)
          exact Or.inl ⟨rfl, hk⟩
        · rintro (⟨rfl, -⟩ | ⟨hfalse, -⟩)
          · rfl
          · cases hfalse
      | false =>
        refine ⟨fun h => Or.inr ⟨rfl, h⟩, ?_⟩
        rintro (⟨rfl, hkey⟩ | ⟨-, h⟩)
        · rw [hk] at hkey
          cases hkey
        · exact h

/-- The key is the first of the set that the header names. -/
def AuthConfig.FirstKey (config : AuthConfig) (kid : Option String) (key : JsonValue) : Prop :=
  ∃ before after, config.keys = .ok (before ++ key :: after) ∧ (∀ k ∈ before, isKey kid k = .ok false) ∧
    isKey kid key = .ok true

theorem AuthConfig.firstKey_iff {kid : Option String} {key : JsonValue} :
    config.FirstKey kid key ↔ (config.keys >>= findKey kid) = .ok (some key) := by
  rw [Except.bind_eq_ok]
  constructor
  · rintro ⟨before, after, hkeys, hbefore, hkey⟩
    exact ⟨_, hkeys, findKey_eq_some_iff.2 ⟨before, after, rfl, hbefore, hkey⟩⟩
  · rintro ⟨keys, hkeys, hfound⟩
    obtain ⟨before, after, rfl, hbefore, hkey⟩ := findKey_eq_some_iff.1 hfound
    exact ⟨before, after, hkeys, hbefore, hkey⟩

variable (J config) in
/-- PyJWT decodes the token under the key that its header names. -/
structure Verified (token : String) (claims : List (String × JsonValue)) (kid : Option String) (key : JsonValue)
    (publicKey : Key) : Prop where
  header : ∃ alg : String, alg ∈ allowedAlgorithms ∧ J.getUnverifiedHeader token = .ok ⟨.str alg, kid⟩
  first : config.FirstKey kid key
  fromJwk : J.fromJwk key = .ok publicKey
  decode : J.decode token publicKey config.options = .ok claims

variable (repr) in
/-- The claims name the principal, and roles that exist. -/
structure Granted (claims : List (String × JsonValue)) (auth : AuthContext) : Prop where
  subject : claim claims "sub" = .str auth.subject ∧ auth.subject ≠ ""
  tenantId : claim claims "tenant_id" = .str auth.tenantId ∧ auth.tenantId ≠ ""
  roles : ∃ rawRoles, claim claims "roles" = .arr rawRoles ∧ rawRoles ≠ [] ∧
    auth.roles = rawRoles.map (JsonValue.pyStr repr)
  allowed : ∀ r ∈ auth.roles, r ∈ allowedRoles

theorem JsonValue.text?_eq_some_iff {v : JsonValue} {s : String} : v.text? = some s ↔ v = .str s ∧ s ≠ "" := by
  constructor
  · intro h
    unfold text? at h
    split at h
    · split_ifs at h with hempty
      obtain rfl := Option.some.inj h
      exact ⟨rfl, hempty⟩
    · cases h
  · rintro ⟨rfl, hne⟩
    exact if_neg hne

theorem JsonValue.items?_eq_some_iff {v : JsonValue} {items : List JsonValue} :
    v.items? = some items ↔ v = .arr items ∧ items ≠ [] := by
  constructor
  · intro h
    unfold items? at h
    split at h
    · split_ifs at h with hempty
      obtain rfl := Option.some.inj h
      exact ⟨rfl, hempty⟩
    · cases h
  · rintro ⟨rfl, hne⟩
    exact if_neg hne

theorem contextOf_eq_ok_iff {claims : List (String × JsonValue)} {auth : AuthContext} :
    contextOf repr claims = .ok auth ↔ Granted repr claims auth := by
  constructor
  · intro h
    unfold contextOf at h
    split at h
    · cases h
    rename_i subject hsubject
    split at h
    · cases h
    rename_i tenantId htenant
    split at h
    · cases h
    rename_i rawRoles hroles
    dsimp only at h
    split_ifs at h with hknown
    obtain rfl := Except.ok.inj h
    obtain ⟨hroles, hne⟩ := JsonValue.items?_eq_some_iff.1 hroles
    refine ⟨JsonValue.text?_eq_some_iff.1 hsubject, JsonValue.text?_eq_some_iff.1 htenant,
      ⟨rawRoles, hroles, hne, rfl⟩, fun r hr => ?_⟩
    have hnone := List.filter_eq_nil_iff.1 (not_not.1 hknown) r hr
    simpa using hnone
  · rintro ⟨hsubject, htenant, ⟨rawRoles, hraw, hne, hroles⟩, hallowed⟩
    obtain ⟨subject, tenantId, roles⟩ := auth
    have hknown : ((rawRoles.map fun r => r.pyStr repr).filter fun r => r ∉ allowedRoles) = [] := by
      refine List.filter_eq_nil_iff.2 fun r hr => ?_
      simpa using hallowed r (hroles ▸ hr)
    unfold contextOf
    rw [JsonValue.text?_eq_some_iff.2 hsubject, JsonValue.text?_eq_some_iff.2 htenant,
      JsonValue.items?_eq_some_iff.2 ⟨hraw, hne⟩]
    dsimp only
    rw [if_neg (not_not.2 hknown), show roles = _ from hroles]

theorem JsonValue.isStr_iff {v : JsonValue} {s : String} : v.isStr s = true ↔ v = .str s := by
  unfold isStr
  split
  · rename_i t
    simp [str]
  · rename_i hne
    exact ⟨fun h => (by cases h), fun h => absurd h (hne s)⟩

theorem exists_isStr {alg : String} (halg : alg ∈ allowedAlgorithms) :
    ∃ alg' ∈ allowedAlgorithms, (JsonValue.str alg).isStr alg' = true := ⟨alg, halg, JsonValue.isStr_iff.2 rfl⟩

theorem resolveKey_eq_ok_iff {token : String} {publicKey : Key} :
    resolveKey J repr config token = .ok publicKey ↔ ∃ alg kid key, alg ∈ allowedAlgorithms ∧
      J.getUnverifiedHeader token = .ok ⟨.str alg, kid⟩ ∧ config.FirstKey kid key ∧ J.fromJwk key = .ok publicKey := by
  constructor
  · intro h
    unfold resolveKey at h
    split at h
    · cases h
    rename_i header hheader
    split_ifs at h with halg
    obtain ⟨alg, halg, hstr⟩ := halg
    split at h
    · cases h
    · cases h
    rename_i key hkey
    refine ⟨alg, header.kid, key, halg, ?_, AuthConfig.firstKey_iff.2 hkey, ?_⟩
    · rw [hheader, ← JsonValue.isStr_iff.1 hstr]
    · cases hpublic : J.fromJwk key with
      | error exc =>
        rw [hpublic] at h
        cases h
      | ok publicKey' =>
        rw [hpublic] at h
        rw [Except.ok.inj h]
  · rintro ⟨alg, kid, key, halg, hheader, hfirst, hpublic⟩
    unfold resolveKey
    rw [hheader]
    dsimp only
    rw [if_neg (not_not.2 (exists_isStr halg)), AuthConfig.firstKey_iff.1 hfirst]
    dsimp only
    rw [hpublic]
    rfl

/-- **Admission.**  A token is admitted iff it is verified under the first key that its header names and its claims
grant it. -/
theorem verifyToken_eq_ok_iff {token : String} {auth : AuthContext} :
    verifyToken J repr config token = .ok auth ↔
      ∃ claims kid key publicKey, Verified J config token claims kid key publicKey ∧ Granted repr claims auth := by
  constructor
  · intro h
    unfold verifyToken at h
    split at h
    · cases h
    rename_i publicKey hkey
    split at h
    · cases h
    rename_i claims hclaims
    obtain ⟨alg, kid, key, halg, hheader, hfirst, hpublic⟩ := resolveKey_eq_ok_iff.1 hkey
    refine ⟨claims, kid, key, publicKey, ⟨⟨alg, halg, hheader⟩, hfirst, hpublic, hclaims⟩, ?_⟩
    cases hcontext : contextOf repr claims with
    | error e =>
      rw [hcontext] at h
      cases h
    | ok auth' =>
      rw [hcontext] at h
      obtain rfl := Except.ok.inj h
      exact contextOf_eq_ok_iff.1 hcontext
  · rintro ⟨claims, kid, key, publicKey, ⟨⟨alg, halg, hheader⟩, hfirst, hpublic, hclaims⟩, hgranted⟩
    unfold verifyToken
    rw [resolveKey_eq_ok_iff.2 ⟨alg, kid, key, halg, hheader, hfirst, hpublic⟩]
    dsimp only
    rw [hclaims]
    dsimp only
    rw [contextOf_eq_ok_iff.2 hgranted]
    rfl

/-! ## What breaks off -/

variable (J config) in
/-- Verification of the token ends in an exception that is no `AuthError`: the key set cannot be read up to the key
that the header names, that key cannot be loaded, or PyJWT raises what is no `InvalidTokenError`. -/
inductive BreaksOff (token : String) (exc : Exc) : Prop where
  | keys {alg : String} {kid : Option String} (halg : alg ∈ allowedAlgorithms)
      (hheader : J.getUnverifiedHeader token = .ok ⟨.str alg, kid⟩) (h : (config.keys >>= findKey kid) = .error exc)
  | load {alg : String} {kid : Option String} {key : JsonValue} (halg : alg ∈ allowedAlgorithms)
      (hheader : J.getUnverifiedHeader token = .ok ⟨.str alg, kid⟩) (hfirst : config.FirstKey kid key)
      (h : J.fromJwk key = .error exc)
  | decode {alg : String} {kid : Option String} {key : JsonValue} {publicKey : Key} (halg : alg ∈ allowedAlgorithms)
      (hheader : J.getUnverifiedHeader token = .ok ⟨.str alg, kid⟩) (hfirst : config.FirstKey kid key)
      (hkey : J.fromJwk key = .ok publicKey) (h : J.decode token publicKey config.options = .error (.other exc))

theorem DecodeError.failure_eq_raised_iff {error : DecodeError} {exc : Exc} :
    error.failure = .raised exc ↔ error = .other exc := by
  constructor
  · intro h
    cases error with
    | other exc' => rw [AuthFailure.raised.inj h]
    | expiredSignature | immatureSignature | invalidIssuer | invalidAudience | invalidSignature
    | missingRequiredClaim _ | invalidToken _ => cases h
  · rintro rfl
    rfl

theorem resolveKey_eq_raised_iff {token : String} {exc : Exc} :
    resolveKey J repr config token = .error (.raised exc) ↔ ∃ alg kid, alg ∈ allowedAlgorithms ∧
      J.getUnverifiedHeader token = .ok ⟨.str alg, kid⟩ ∧ ((config.keys >>= findKey kid) = .error exc ∨
        ∃ key, config.FirstKey kid key ∧ J.fromJwk key = .error exc) := by
  constructor
  · intro h
    unfold resolveKey at h
    split at h
    · cases h
    rename_i header hheader
    split_ifs at h with halg
    · obtain ⟨alg, halg, hstr⟩ := halg
      refine ⟨alg, header.kid, halg, by rw [hheader, ← JsonValue.isStr_iff.1 hstr], ?_⟩
      split at h
      · rename_i exc' hkeys
        exact Or.inl (by rw [hkeys, AuthFailure.raised.inj (Except.error.inj h)])
      · cases h
      · rename_i key hkey
        refine Or.inr ⟨key, AuthConfig.firstKey_iff.2 hkey, ?_⟩
        cases hpublic : J.fromJwk key with
        | error exc' =>
          rw [hpublic] at h
          rw [AuthFailure.raised.inj (Except.error.inj h)]
        | ok publicKey =>
          rw [hpublic] at h
          cases h
    · cases h
  · rintro ⟨alg, kid, halg, hheader, hkey⟩
    unfold resolveKey
    rw [hheader]
    dsimp only
    rw [if_neg (not_not.2 (exists_isStr halg))]
    rcases hkey with hkeys | ⟨key, hfirst, hload⟩
    · rw [hkeys]
    · rw [AuthConfig.firstKey_iff.1 hfirst]
      dsimp only
      rw [hload]
      rfl

/-- **On which tokens verification breaks off.** -/
theorem verifyToken_eq_raised_iff {token : String} {exc : Exc} :
    verifyToken J repr config token = .error (.raised exc) ↔ BreaksOff J config token exc := by
  constructor
  · intro h
    unfold verifyToken at h
    split at h
    · rename_i failure hkey
      rw [Except.error.inj h] at hkey
      obtain ⟨alg, kid, halg, hheader, hkeys | ⟨key, hfirst, hload⟩⟩ := resolveKey_eq_raised_iff.1 hkey
      · exact .keys halg hheader hkeys
      · exact .load halg hheader hfirst hload
    rename_i publicKey hkey
    obtain ⟨alg, kid, key, halg, hheader, hfirst, hpublic⟩ := resolveKey_eq_ok_iff.1 hkey
    split at h
    · rename_i error hdecode
      rw [DecodeError.failure_eq_raised_iff.1 (Except.error.inj h)] at hdecode
      exact .decode halg hheader hfirst hpublic hdecode
    · rename_i claims hclaims
      cases hcontext : contextOf repr claims <;> rw [hcontext] at h <;> cases h
  · intro h
    unfold verifyToken
    cases h with
    | keys halg hheader h =>
      rw [resolveKey_eq_raised_iff.2 ⟨_, _, halg, hheader, Or.inl h⟩]
    | load halg hheader hfirst h =>
      rw [resolveKey_eq_raised_iff.2 ⟨_, _, halg, hheader, Or.inr ⟨_, hfirst, h⟩⟩]
    | decode halg hheader hfirst hkey h =>
      rw [resolveKey_eq_ok_iff.2 ⟨_, _, _, halg, hheader, hfirst, hkey⟩]
      dsimp only
      rw [h]
      rfl

/-! ## Refusals -/

/-- The codes of the refusals, the first for requests without a token. -/
def authCodes : List String :=
  ["AUTH_MISSING", "AUTH_TOKEN_MALFORMED", "AUTH_ALG_NOT_ALLOWED", "AUTH_KEY_UNKNOWN", "AUTH_EXPIRED",
    "AUTH_NOT_YET_VALID", "AUTH_ISSUER_INVALID", "AUTH_AUDIENCE_INVALID", "AUTH_SIGNATURE_INVALID",
    "AUTH_CLAIMS_INVALID"]

theorem resolveKey_code {token : String} {e : AuthError} (h : resolveKey J repr config token = .error (.auth e)) :
    e.code ∈ authCodes := by
  unfold resolveKey at h
  split at h
  · obtain rfl := AuthFailure.auth.inj (Except.error.inj h)
    simp [authCodes]
  split_ifs at h
  · split at h
    · cases h
    · obtain rfl := AuthFailure.auth.inj (Except.error.inj h)
      simp [authCodes]
    · rename_i key hkey
      cases hpublic : J.fromJwk key <;> rw [hpublic] at h <;> cases h
  · obtain rfl := AuthFailure.auth.inj (Except.error.inj h)
    simp [authCodes]

theorem DecodeError.failure_code {error : DecodeError} {e : AuthError} (h : error.failure = .auth e) :
    e.code ∈ authCodes := by
  cases error with
  | other exc => cases h
  | expiredSignature | immatureSignature | invalidIssuer | invalidAudience | invalidSignature
  | missingRequiredClaim _ | invalidToken _ =>
    obtain rfl := AuthFailure.auth.inj h
    simp [authCodes]

theorem contextOf_code {claims : List (String × JsonValue)} {e : AuthError} (h : contextOf repr claims = .error e) :
    e.code ∈ authCodes := by
  have hcode : e.code = "AUTH_CLAIMS_INVALID" := by
    unfold contextOf at h
    split at h
    · rw [← Except.error.inj h]
    split at h
    · rw [← Except.error.inj h]
    split at h
    · rw [← Except.error.inj h]
    dsimp only at h
    split_ifs at h
    rw [← Except.error.inj h]
  rw [hcode]
  simp [authCodes]

theorem verifyToken_code {token : String} {e : AuthError} (h : verifyToken J repr config token = .error (.auth e)) :
    e.code ∈ authCodes := by
  unfold verifyToken at h
  split at h
  · rename_i failure hkey
    rw [Except.error.inj h] at hkey
    exact resolveKey_code hkey
  split at h
  · exact DecodeError.failure_code (Except.error.inj h)
  · rename_i claims hclaims
    cases hcontext : contextOf repr claims with
    | error e' =>
      rw [hcontext] at h
      obtain rfl := AuthFailure.auth.inj (Except.error.inj h)
      exact contextOf_code hcontext
    | ok auth =>
      rw [hcontext] at h
      cases h

end

/-! ## The route behind the tokens -/

section
variable {args : SelectionArgs K} {roles : List String}

theorem hardFilter_roles {access : Access} (h : ∀ r, r ∈ access.roles ↔ r ∈ roles) (record : Record) :
    hardFilter { access with roles := roles } record = hardFilter access record := by
  have hdenies (policy : Policy) : policy.denies roles ↔ policy.denies access.roles := by
    simp only [Policy.denies, h]
  simp only [hardFilter, hdenies]

theorem rejectReason_roles (h : ∀ r, r ∈ args.roles ↔ r ∈ roles) (record : Record) :
    rejectReason { args with roles := roles } record = rejectReason args record := by
  unfold rejectReason
  rw [show hardFilter { args.toAccess with roles := roles } record = hardFilter args.toAccess record from
    hardFilter_roles h record]
  rfl

variable (args) in
/-- A selection depends on the roles as a set. -/
theorem selectArtifacts_roles [Field K] [LinearOrder K] {N : Numerics K} (h : ∀ r, r ∈ args.roles ↔ r ∈ roles)
    (artifacts : List Record) (topK : ℕ) :
    selectArtifacts N { args with roles := roles } artifacts topK = selectArtifacts N args artifacts topK := by
  have hcandidates : candidates N { args with roles := roles } artifacts = candidates N args artifacts := by
    simp only [candidates, rejectReason_roles h]
    rfl
  have hrejected : rejected { args with roles := roles } artifacts = rejected args artifacts := by
    simp only [rejected, rejectReason_roles h]
  simp only [selectArtifacts, hcandidates, hrejected]

end

section
variable {Key : Type} (J : PyJwt Key) (repr : JsonValue → String) (config : AuthConfig) (U : Unicode) {K : Type}

/-- The routes verify under the configuration. -/
def Wired (deps : V2Deps K) : Prop := deps.authConfig = some (verifyToken J repr config)

/-- `header[7:]` of a request that carries a token. -/
def Bears (authorization token : String) : Prop :=
  "bearer ".toList <+: (U.lower authorization).toList ∧ token = String.ofList (authorization.toList.drop 7)

/-- The request carries a token that is admitted. -/
def Authorized (authorization : String) (auth : AuthContext) : Prop :=
  ∃ token, Bears U authorization token ∧ ∃ claims kid key publicKey,
    Verified J config token claims kid key publicKey ∧ Granted repr claims auth

variable {J repr config U} {deps : V2Deps K} {authorization : String}

theorem getAuth_of_bears (h : Wired J repr config deps) {token : String} (hbears : Bears U authorization token) :
    getAuth U deps authorization = (verifyToken J repr config token).mapError AuthFailure.response := by
  obtain ⟨hbearer, rfl⟩ := hbears
  unfold getAuth
  rw [h]
  dsimp only
  rw [if_neg (not_not.2 hbearer)]
  cases verifyToken J repr config (String.ofList (authorization.toList.drop 7)) <;> rfl

theorem getAuth_of_not_bears (h : Wired J repr config deps) (hbears : ∀ token, ¬ Bears U authorization token) :
    getAuth U deps authorization = .error ⟨401, some "AUTH_MISSING", "Bearer token 필요"⟩ := by
  unfold getAuth
  rw [h]
  exact if_pos fun hbearer => hbears _ ⟨hbearer, rfl⟩

theorem getAuth_eq_ok_iff (h : Wired J repr config deps) {auth : AuthContext} :
    getAuth U deps authorization = .ok auth ↔ Authorized J repr config U authorization auth := by
  constructor
  · intro hok
    by_cases hbears : ∃ token, Bears U authorization token
    · obtain ⟨token, hbears⟩ := hbears
      rw [getAuth_of_bears h hbears] at hok
      refine ⟨token, hbears, verifyToken_eq_ok_iff.1 ?_⟩
      cases hverify : verifyToken J repr config token with
      | ok auth' =>
        rw [hverify] at hok
        rw [Except.ok.inj hok]
      | error e =>
        rw [hverify] at hok
        cases hok
    · rw [getAuth_of_not_bears h (not_exists.1 hbears)] at hok
      cases hok
  · rintro ⟨token, hbears, hverified⟩
    rw [getAuth_of_bears h hbears, verifyToken_eq_ok_iff.2 hverified]
    rfl

/-- A request without an admitted token is refused, or verification breaks off. -/
theorem getAuth_refuses (h : Wired J repr config deps)
    (hnone : ∀ auth, ¬ Authorized J repr config U authorization auth) :
    (∃ token exc, Bears U authorization token ∧ BreaksOff J config token exc) ∧
      getAuth U deps authorization = .error internalServerError ∨
    (∀ token exc, Bears U authorization token → ¬ BreaksOff J config token exc) ∧
      ∃ e, getAuth U deps authorization = .error e ∧ e.statusCode = 401 ∧ ∃ code ∈ authCodes, e.code = some code := by
  by_cases hbears : ∃ token, Bears U authorization token
  · obtain ⟨token, hbears⟩ := hbears
    have hauth := getAuth_of_bears h hbears
    cases hverify : verifyToken J repr config token with
    | ok auth => exact absurd ⟨token, hbears, verifyToken_eq_ok_iff.1 hverify⟩ (hnone auth)
    | error failure =>
      rw [hverify] at hauth
      cases failure with
      | auth e =>
        refine Or.inr ⟨fun token' exc hbears' hbreaks => ?_, _, hauth, rfl, e.code, verifyToken_code hverify, rfl⟩
        -- a request bears one token
        obtain rfl : token' = token := hbears'.2.trans hbears.2.symm
        rw [verifyToken_eq_raised_iff.2 hbreaks] at hverify
        cases hverify
      | raised exc => exact Or.inl ⟨⟨token, exc, hbears, verifyToken_eq_raised_iff.1 hverify⟩, hauth⟩
  · have hbears := not_exists.1 hbears
    exact Or.inr ⟨fun token exc hbears' => absurd hbears' (hbears token), _, getAuth_of_not_bears h hbears, rfl, _,
      List.mem_cons_self, rfl⟩

variable [Field K] [LinearOrder K] {N : Numerics K}

/-- What a bundle tells of artifacts is told of these records. -/
structure Bundle.TellsOf (bundle : Bundle K) (records : List Record) : Prop where
  views : bundle.semanticViews = records.map Record.payload
  evidence : (bundle.evidence.getD []).map Evidence.artifactId = records.map Record.artifactId
  metrics : bundle.metricCatalog = RoboMeta.metricCatalog (records.map Record.payload)
  relationships : bundle.schemaContext.relationships = relationshipsFromArtifacts (records.map Record.payload)
  tables : ∀ t ∈ bundle.schemaContext.tables, ∃ r ∈ records, t.tableName ∈ r.payload.boundTables
  columns : ∀ c ∈ bundle.schemaContext.columns, ∃ r ∈ records, c.tableName ∈ r.payload.boundTables

theorem tableName_mem_of_mem_tables {snapshot : Snapshot} {allowedTables : List String} {t : TableEntry}
    (h : t ∈ (schemaContextFromSnapshot snapshot allowedTables).1) : t.tableName ∈ allowedTables := by
  obtain ⟨obj, hobj, rfl⟩ := List.mem_map.1 h
  simpa using (List.mem_filter.1 hobj).2

theorem tableName_mem_of_mem_columns {snapshot : Snapshot} {allowedTables : List String} {c : ColumnEntry}
    (h : c ∈ (schemaContextFromSnapshot snapshot allowedTables).2) : c.tableName ∈ allowedTables := by
  obtain ⟨obj, hobj, hc⟩ := List.mem_flatMap.1 h
  obtain ⟨column, -, rfl⟩ := List.mem_map.1 hc
  simpa using (List.mem_filter.1 hobj).2

omit [LinearOrder K] in
theorem assembleBundle_tellsOf (query : String) (selection : SelectionResult K) (snapshots : Dict String Snapshot)
    (glossary : Glossary) (executionContext : Option Json) (profiles codeValues fewShots : List Json) :
    (assembleBundle query selection snapshots glossary executionContext profiles codeValues fewShots).TellsOf
      (selection.selected.map SelectedArtifact.record) := by
  have hbound {t : String} (h : t ∈ ((selection.selected.map SelectedArtifact.record).map Record.payload).flatMap
      Payload.boundTables) :
      ∃ r ∈ selection.selected.map SelectedArtifact.record, t ∈ r.payload.boundTables := by
    obtain ⟨payload, hpayload, ht⟩ := List.mem_flatMap.1 h
    obtain ⟨r, hr, rfl⟩ := List.mem_map.1 hpayload
    exact ⟨r, hr, ht⟩
  unfold assembleBundle
  split_ifs with hempty
  · rw [hempty]
    exact ⟨rfl, rfl, rfl, rfl, by simp, by simp⟩
  · refine ⟨rfl, by simp, rfl, rfl, fun t ht => ?_, fun c hc => ?_⟩
    · obtain ⟨context, hcontext, ht⟩ := List.mem_flatMap.1 ht
      obtain ⟨id, -, hid⟩ := List.mem_filterMap.1 hcontext
      obtain ⟨snapshot, -, rfl⟩ := Option.map_eq_some_iff.1 hid
      exact hbound (tableName_mem_of_mem_tables ht)
    · obtain ⟨context, hcontext, hc⟩ := List.mem_flatMap.1 hc
      obtain ⟨id, -, hid⟩ := List.mem_filterMap.1 hcontext
      obtain ⟨snapshot, -, rfl⟩ := Option.map_eq_some_iff.1 hid
      exact hbound (tableName_mem_of_mem_columns hc)

/-- The records are listed for the tenant of the principal, and may be served to it. -/
def ServableTo (deps : V2Deps K) (auth : AuthContext) (records : List Record) : Prop :=
  ∀ r ∈ records, r ∈ deps.store.listPublishedArtifacts auth.tenantId ∧
    Servable ⟨auth.tenantId, auth.roles, deps.clock, deps.store.knownSnapshotIds auth.tenantId⟩ r

theorem answer_tellsOf (auth : AuthContext) (query : String) (questionEmbedding : List K) :
    ∃ records, ServableTo deps auth records ∧ (answer N deps auth query questionEmbedding).TellsOf records := by
  refine ⟨_, fun r hr => ?_, assembleBundle_tellsOf _ _ _ _ _ _ _ _⟩
  obtain ⟨s, hs, rfl⟩ := List.mem_map.1 hr
  obtain ⟨hmem, hfilter, -⟩ := mem_selected N hs
  exact ⟨hmem, hardFilter_eq_none_iff.1 hfilter⟩

/-- **Grants.**  Whatever is served may be served to the tenant and the roles that the token names. -/
theorem dataDecisionV2_granted (h : Wired J repr config deps) {query : String} {bundle : Bundle K}
    (hbundle : dataDecisionV2 U N (some deps) authorization query = .ok bundle) :
    ∃ auth records, Authorized J repr config U authorization auth ∧ ServableTo deps auth records ∧
      bundle.TellsOf records := by
  obtain ⟨deps', hdeps, hrest⟩ := Except.bind_eq_ok.1 hbundle
  obtain rfl := Except.ok.inj hdeps
  obtain ⟨auth, hauth, -⟩ := Except.bind_eq_ok.1 hrest
  rw [dataDecisionV2_of_auth hauth] at hbundle
  split at hbundle
  · cases hbundle
  rename_i questionEmbedding hembed
  obtain rfl := Except.ok.inj hbundle
  obtain ⟨records, hservable, htells⟩ := answer_tellsOf auth query questionEmbedding
  exact ⟨auth, records, (getAuth_eq_ok_iff h).1 hauth, hservable, htells⟩

/-- **Nothing else matters**: admitted tokens of one tenant with the same roles get the same answers. -/
theorem dataDecisionV2_sameGrants (h : Wired J repr config deps) {authorization' : String} {auth auth' : AuthContext}
    (hauth : Authorized J repr config U authorization auth) (hauth' : Authorized J repr config U authorization' auth')
    (htenant : auth.tenantId = auth'.tenantId) (hroles : ∀ r, r ∈ auth.roles ↔ r ∈ auth'.roles) (query : String) :
    dataDecisionV2 U N (some deps) authorization query = dataDecisionV2 U N (some deps) authorization' query := by
  rw [dataDecisionV2_of_auth ((getAuth_eq_ok_iff h).2 hauth), dataDecisionV2_of_auth ((getAuth_eq_ok_iff h).2 hauth')]
  have hanswer (questionEmbedding : List K) :
      answer N deps auth query questionEmbedding = answer N deps auth' query questionEmbedding := by
    have hargs : selectionArgs deps auth' query questionEmbedding =
        { selectionArgs deps auth query questionEmbedding with roles := auth'.roles } := by
      simp only [selectionArgs, htenant]
    unfold answer
    rw [hargs, ← htenant]
    dsimp only
    rw [selectArtifacts_roles (selectionArgs deps auth query questionEmbedding) hroles]
  simp only [hanswer]

end

/-! ## Two readers of one tenant -/

def readerConfig : AuthConfig where
  issuer := "hub"
  audience := "robo-meta-api"
  jwks := [("keys", .arr [
    .obj [("kid", .str "k0"), ("kty", .str "EC")],
    .obj [("kid", .str "k1"), ("kty", .str "RSA")],
    .obj [("kid", .str "k2"), ("kty", .str "RSA")]])]

def readerClaims (sub : String) (roles : List String) : List (String × JsonValue) :=
  [("sub", .str sub), ("tenant_id", .str "kwater"), ("roles", .arr (roles.map .str))]

/-- Three tokens are signed, the third under a key that cannot be loaded; all others are malformed. -/
def readerJwt : PyJwt Unit where
  getUnverifiedHeader token :=
    if token = "reader-1" ∨ token = "reader-2" then .ok ⟨.str "RS256", some "k1"⟩
    else if token = "reader-3" then .ok ⟨.str "RS256", some "k2"⟩
    else .error "Not enough segments"
  fromJwk key := if (key.get "kid").toOption.any fun kid => kid.isStr "k2" then .error ⟨"InvalidKeyError", "n missing"⟩
    else .ok ()
  decode token _ _ :=
    .ok (if token = "reader-1" then readerClaims token ["CONSUMER"]
      else readerClaims token ["CONSUMER", "CONSUMER"])

def readerDeps : V2Deps ℚ :=
  { closedNetwork with
    authConfig := some (verifyToken readerJwt (fun _ => "") readerConfig)
    store := ownStore.reads }

theorem readerWired : Wired readerJwt (fun _ => "") readerConfig readerDeps := rfl

theorem authorized_reader :
    Authorized readerJwt (fun _ => "") readerConfig .ascii "Bearer reader-1" ⟨"reader-1", "kwater", ["CONSUMER"]⟩ :=
  (getAuth_eq_ok_iff readerWired).1 rfl

theorem dataDecisionV2_granted_reader :
    ∃ auth records, Authorized readerJwt (fun _ => "") readerConfig .ascii "Bearer reader-1" auth ∧
      ServableTo readerDeps auth records ∧
      (answer wholeNumerics readerDeps ⟨"reader-1", "kwater", ["CONSUMER"]⟩ "rainfall" []).TellsOf records :=
  dataDecisionV2_granted readerWired (dataDecisionV2_of_auth ((getAuth_eq_ok_iff readerWired).2 authorized_reader))

theorem dataDecisionV2_sameGrants_reader :
    dataDecisionV2 .ascii wholeNumerics (some readerDeps) "Bearer reader-1" "rainfall" =
      dataDecisionV2 .ascii wholeNumerics (some readerDeps) "bearer reader-2" "rainfall" := by
  have hsecond : Authorized readerJwt (fun _ => "") readerConfig .ascii "bearer reader-2"
      ⟨"reader-2", "kwater", ["CONSUMER", "CONSUMER"]⟩ := (getAuth_eq_ok_iff readerWired).1 rfl
  exact dataDecisionV2_sameGrants readerWired authorized_reader hsecond rfl (by simp) "rainfall"

end RoboMeta
