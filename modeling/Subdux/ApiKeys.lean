import Mathlib.Data.List.Sort
import Mathlib.Data.String.Basic
import Subdux.Accounts
import Subdux.McpWrites
import Subdux.TotpSetup
/-!
# API keys

`internal/service/apikey.go`, the routes of `internal/api/router.go` that a key may be presented to,
the tools of `mcp_schema.go`, and the middlewares between them (`security_middleware.go`). The hash
of a key is an argument.

What a key may do is written into its row as a list joined by commas, and read back from it by every
request: `parseAPIKeyScopes_join`.
-/

namespace Subdux
open GoStrings Rows Results

def maxAPIKeysPerUser : Nat := 5
def apiKeyScopeRead : String := "read"
def apiKeyScopeWrite : String := "write"
def apiKeyKindMCPClient : String := "mcp_client"
def apiKeyKindAPIIntegration : String := "api_integration"

def defaultAPIKeyScopes : List String := [apiKeyScopeRead]
def validAPIKeyScopes : List String := [apiKeyScopeRead, apiKeyScopeWrite]
def validAPIKeyKinds : List String := [apiKeyKindMCPClient, apiKeyKindAPIIntegration]

inductive APIKeyError where
  | nameRequired | nameTooLong | limitReached | scopeInvalid | kindRequired | kindInvalid
  | keyInvalid | expired | notFound | database
  deriving DecidableEq

def APIKeyError.text : APIKeyError → String
  | nameRequired => "api key name is required"
  | nameTooLong => "api key name must be 100 characters or less"
  | limitReached => "maximum number of api keys reached"
  | scopeInvalid => "invalid api key scopes"
  | kindRequired => "api key kind is required"
  | kindInvalid => "invalid api key kind"
  | keyInvalid => "invalid api key"
  | expired => "api key has expired"
  | notFound => "api key not found"
  | database => "failed to create api key"

/-! ## Scopes and kinds -/

/-- One part of the column; what is not a scope is skipped. -/
def parseScope (scopes : List String) (part : String) : List String :=
  let scope := toLower (trimSpace part)
  if scope = "" ∨ scope ∉ validAPIKeyScopes ∨ scope ∈ scopes then scopes else scopes ++ [scope]

def parseAPIKeyScopes (raw : String) : List String :=
  if trimSpace raw = "" then defaultAPIKeyScopes
  else
    let scopes := ((raw.toList.splitOn ',').map String.ofList).foldl parseScope []
    if scopes = [] then defaultAPIKeyScopes else scopes.insertionSort (· ≤ ·)

/-- One scope that is asked for; what is not a scope is refused. -/
def normalizeScope (scopes : List String) (scope : String) : Except APIKeyError (List String) :=
  let canonical := toLower (trimSpace scope)
  if canonical = "" then .ok scopes
  else if canonical ∉ validAPIKeyScopes then .error .scopeInvalid
  else if canonical ∈ scopes then .ok scopes
  else .ok (scopes ++ [canonical])

def normalizeAPIKeyScopes (input : List String) : Except APIKeyError (List String) :=
  if input = [] then .ok defaultAPIKeyScopes
  else do
    let scopes ← input.foldlM normalizeScope []
    refuseIf (scopes = []) .scopeInvalid
    refuseIf (scopes = [apiKeyScopeWrite]) .scopeInvalid
    return scopes.insertionSort (· ≤ ·)

def normalizeAPIKeyKind (value : String) : Except APIKeyError String :=
  let kind := toLower (trimSpace value)
  if kind = "" then .error .kindRequired else if kind ∉ validAPIKeyKinds then .error .kindInvalid
    else .ok kind

def normalizePersistedAPIKeyKind (value : String) : String :=
  let kind := toLower (trimSpace value)
  if kind ∈ validAPIKeyKinds then kind else apiKeyKindAPIIntegration

section Scopes
variable {input scopes scopes' : List String} {raw scope kind : String}

/-- Scopes of a key, without repetition. -/
structure Scopes (scopes : List String) : Prop where
  valid : scopes ⊆ validAPIKeyScopes
  nodup : scopes.Nodup

theorem Scopes.nil : Scopes [] := ⟨List.nil_subset _, List.nodup_nil⟩

theorem Scopes.snoc (h : Scopes scopes) (hvalid : scope ∈ validAPIKeyScopes)
    (hnew : scope ∉ scopes) : Scopes (scopes ++ [scope]) := by
  refine ⟨List.append_subset.2 ⟨h.valid, ?_⟩, ?_⟩
  · intro x hx
    rw [List.mem_singleton.1 hx]
    exact hvalid
  · refine List.nodup_append.2 ⟨h.nodup, List.nodup_singleton scope, ?_⟩
    rintro x hx y hy rfl
    rw [List.mem_singleton.1 hy] at hx
    exact hnew hx

theorem normalizeScope_ok (h : Scopes scopes) (hstep : normalizeScope scopes scope = .ok scopes') :
    Scopes scopes' := by
  unfold normalizeScope at hstep
  dsimp only at hstep
  split at hstep
  · exact Except.ok.inj hstep ▸ h
  · split at hstep
    · cases hstep
    · rename_i hvalid
      split at hstep
      · exact Except.ok.inj hstep ▸ h
      · rename_i hnew
        exact Except.ok.inj hstep ▸ h.snoc (not_not.1 hvalid) hnew

theorem normalizeScopes_ok (h : Scopes scopes)
    (hfold : input.foldlM normalizeScope scopes = .ok scopes') : Scopes scopes' := by
  induction input generalizing scopes with
  | nil => exact Except.ok.inj hfold ▸ h
  | cons scope input ih =>
    rw [List.foldlM_cons] at hfold
    obtain ⟨next, hnext, hrest⟩ := bind_eq_ok hfold
    exact ih (normalizeScope_ok h hnext) hrest

/-- There are four lists of scopes in order. -/
theorem Scopes.sorted (h : Scopes scopes) :
    scopes.insertionSort (· ≤ ·) = [] ∨ scopes.insertionSort (· ≤ ·) = [apiKeyScopeRead] ∨
    scopes.insertionSort (· ≤ ·) = [apiKeyScopeWrite] ∨ scopes.insertionSort (· ≤ ·) =
    [apiKeyScopeRead, apiKeyScopeWrite] := by
  have hperm : scopes.Perm (validAPIKeyScopes.filter (· ∈ scopes)) := by
    rw [List.perm_ext_iff_of_nodup h.nodup (List.Nodup.filter _ (by decide))]
    intro x
    rw [List.mem_filter, decide_eq_true_iff]
    exact ⟨fun hx => ⟨h.valid hx, hx⟩, fun hx => hx.2⟩
  have hsort : scopes.insertionSort (· ≤ ·) = (validAPIKeyScopes.filter (· ∈ scopes)).insertionSort
      (· ≤ ·) := by
    refine List.Perm.eq_of_pairwise' (r := (· ≤ ·)) (List.pairwise_insertionSort _ _)
      (List.pairwise_insertionSort _ _) ?_
    exact ((List.perm_insertionSort _ _).trans hperm).trans (List.perm_insertionSort _ _).symm
  rw [hsort, validAPIKeyScopes]
  by_cases hread : apiKeyScopeRead ∈ scopes <;> by_cases hwrite : apiKeyScopeWrite ∈ scopes
  · refine .inr (.inr (.inr ?_))
    simp only [List.filter_cons, hread, hwrite, decide_true, if_true, List.filter_nil]
    decide
  · exact .inr (.inl (by simp [hread, hwrite]))
  · exact .inr (.inr (.inl (by simp [hread, hwrite])))
  · exact .inl (by simp [hread, hwrite])

/-- A key that may write may read. -/
theorem normalizeAPIKeyScopes_cases (h : normalizeAPIKeyScopes input = .ok scopes) :
    scopes = [apiKeyScopeRead] ∨ scopes = [apiKeyScopeRead, apiKeyScopeWrite] := by
  unfold normalizeAPIKeyScopes at h
  split at h
  · exact .inl (Except.ok.inj h).symm
  · obtain ⟨kept, hkept, h⟩ := bind_eq_ok h
    obtain ⟨_, hsome, h⟩ := bind_eq_ok h
    obtain ⟨_, hwrite, h⟩ := bind_eq_ok h
    obtain rfl := Except.ok.inj h
    have hperm := List.perm_insertionSort (· ≤ ·) kept
    rcases (normalizeScopes_ok .nil hkept).sorted with hsort | hsort | hsort | hsort
    · rw [hsort] at hperm
      exact absurd hperm.nil_eq.symm (refuseIf_ok hsome)
    · exact .inl hsort
    · rw [hsort] at hperm
      exact absurd hperm.symm.eq_singleton (refuseIf_ok hwrite)
    · exact .inr hsort

/-- The scopes that a request reads are those that the key was made with. -/
theorem parseAPIKeyScopes_join (h : normalizeAPIKeyScopes input = .ok scopes) :
    parseAPIKeyScopes (String.intercalate "," scopes) = scopes := by
  rcases normalizeAPIKeyScopes_cases h with rfl | rfl
  · decide +kernel
  · decide +kernel

theorem normalizePersistedAPIKeyKind_of_ok (h : normalizeAPIKeyKind raw = .ok kind) :
    normalizePersistedAPIKeyKind kind = kind ∧ kind ∈ validAPIKeyKinds := by
  unfold normalizeAPIKeyKind at h
  dsimp only at h
  split at h
  · cases h
  · split at h
    · cases h
    · rename_i hvalid
      obtain rfl := Except.ok.inj h
      have hkind : toLower (trimSpace (toLower (trimSpace raw))) = toLower (trimSpace raw) := by
        rw [trimSpace_toLower, toLower_idem]
      rw [normalizePersistedAPIKeyKind, hkind, if_pos (not_not.1 hvalid)]
      exact ⟨rfl, not_not.1 hvalid⟩

end Scopes

/-! ## Rows -/

structure APIKey where
  id : Nat
  userID : Nat
  name : String
  keyHash : String
  keyPrefix : String
  keyKind : String
  scopes : String
  lastUsedAt : Option Time
  expiresAt : Option Time
  deriving DecidableEq

structure CreateAPIKeyInput where
  name : String
  keyKind : String
  expiresAt : Option Time
  scopes : List String
  deriving DecidableEq

structure APIKeyPrincipal where
  userID : Nat
  keyID : Nat
  keyKind : String
  scopes : List String
  deriving DecidableEq

/-- What `rand.Read` fills a key's buffer with. -/
abbrev APIKeyBytes := { bytes : List UInt8 // bytes.length = 32 }

def generateAPIKey (bytes : APIKeyBytes) : String := "sdx_" ++ hexEncode bytes.1

/-- `Create`, up to the random source: the kind and the scopes of the new key. -/
def prepareAPIKey (keys : List APIKey) (userID : Nat) (role : String) (input : CreateAPIKeyInput) :
    Except APIKeyError (String × List String) := do
  refuseIf (input.name = "") .nameRequired
  refuseIf (100 < input.name.utf8ByteSize) .nameTooLong
  let keyKind ← normalizeAPIKeyKind input.keyKind
  refuseIf (role ≠ "admin" ∧ maxAPIKeysPerUser ≤ keys.countP (·.userID = userID)) .limitReached
  let scopes ← normalizeAPIKeyScopes input.scopes
  return (keyKind, scopes)

def APIKey.principal (key : APIKey) : APIKeyPrincipal :=
  ⟨key.userID, key.id, normalizePersistedAPIKeyKind key.keyKind, parseAPIKeyScopes key.scopes⟩

/-! ## Routes and tools -/

inductive HTTPMethod where
  | get | head | options | post | put | patch | delete
  deriving DecidableEq

def isReadOnlyMethod : HTTPMethod → Bool
  | .get | .head | .options => true
  | .post | .put | .patch | .delete => false

/-- Whose middlewares a route is behind. -/
inductive RouteGroup where
  | protectedRoutes | humanProtected | admin
  deriving DecidableEq

structure Route where
  group : RouteGroup
  method : HTTPMethod
  path : String
  deriving DecidableEq

structure MCPTool where
  name : String
  write : Bool
  deriving DecidableEq

/-- The tools whose definitions say `Write`. -/
def isMCPWriteTool (name : String) : Bool :=
  name ∈ ["create_subscription", "update_subscription", "delete_subscription",
    "mark_subscription_renewed"]

def mcpTools : List MCPTool :=
  mcpToolDefinitions.map fun definition => ⟨definition.1, isMCPWriteTool definition.1⟩

/-- The routes of `SetupRoutes` that ask for a session or a key. -/
def routes : List Route :=
  let onRoutes group := List.map fun r : HTTPMethod × String => Route.mk group r.1 ("/api" ++ r.2)
  onRoutes .protectedRoutes
    [(.get, "/subscriptions"), (.post, "/subscriptions"), (.get, "/subscriptions/:id/detail"),
     (.get, "/subscriptions/:id"), (.put, "/subscriptions/:id"), (.delete, "/subscriptions/:id"),
     (.post, "/subscriptions/:id/mark-renewed"),
     (.post, "/subscriptions/reconcile"), (.post, "/subscriptions/:id/icon"),
       (.get, "/dashboard/summary"),
     (.get, "/dashboard/bootstrap"), (.get, "/actions"), (.post, "/actions/snooze"),
       (.get, "/reports/analytics"), (.get, "/auth/me"),
     (.get, "/exchange-rates"), (.get, "/exchange-rates/:base/:target"), (.get, "/preferences/currency"),
     (.put, "/preferences/currency"), (.get, "/currencies"), (.post, "/currencies"),
       (.put, "/currencies/reorder"),
     (.put, "/currencies/:id"), (.delete, "/currencies/:id"), (.get, "/categories"),
       (.post, "/categories"),
     (.put, "/categories/reorder"), (.put, "/categories/:id"), (.delete, "/categories/:id"),
       (.get, "/payment-methods"),
     (.post, "/payment-methods"), (.put, "/payment-methods/reorder"),
       (.put, "/payment-methods/:id"), (.delete, "/payment-methods/:id"),
     (.post, "/payment-methods/:id/icon"), (.get, "/notifications/channels"),
       (.post, "/notifications/channels"),
     (.put, "/notifications/channels/:id"), (.delete, "/notifications/channels/:id"),
       (.post, "/notifications/channels/:id/test"),
     (.get, "/notifications/policy"), (.put, "/notifications/policy"),
       (.get, "/notifications/logs"), (.get, "/notifications/templates"),
     (.get, "/notifications/templates/:id"), (.post, "/notifications/templates"),
       (.put, "/notifications/templates/:id"),
     (.delete, "/notifications/templates/:id"), (.post, "/notifications/templates/preview"),
       (.post, "/import/wallos"),
     (.post, "/import/subdux")] ++
  onRoutes .humanProtected
    [(.put, "/auth/password"), (.post, "/auth/email/change/send-code"),
     (.post, "/auth/email/change/confirm"), (.get, "/auth/totp/setup"),
     (.post, "/auth/totp/confirm"), (.post, "/auth/totp/disable"), (.get, "/auth/passkeys"),
     (.post, "/auth/passkeys/register/start"),
     (.post, "/auth/passkeys/register/finish"), (.delete, "/auth/passkeys/:id"),
       (.get, "/auth/oidc/connections"),
     (.post, "/auth/oidc/connect/start"), (.delete, "/auth/oidc/connections/:id"),
       (.get, "/api-keys"), (.post, "/api-keys"),
     (.delete, "/api-keys/:id"), (.get, "/audit-events"), (.get, "/calendar/tokens"),
       (.post, "/calendar/tokens"),
     (.delete, "/calendar/tokens/:id"), (.get, "/export")] ++
  onRoutes .admin
    [(.get, "/admin/users"), (.post, "/admin/users"), (.put, "/admin/users/:id/role"),
     (.put, "/admin/users/:id/status"), (.delete, "/admin/users/:id"),
     (.get, "/admin/background-tasks"), (.get, "/admin/audit-events"), (.get, "/admin/settings"),
     (.put, "/admin/settings"), (.post, "/admin/settings/ssrf/test"),
       (.post, "/admin/settings/smtp/test"), (.post, "/admin/backup"),
     (.post, "/admin/backup/run"), (.get, "/admin/backup/local"), (.post, "/admin/restore"),
       (.get, "/admin/reauth/methods"),
     (.post, "/admin/reauth/password"), (.post, "/admin/reauth/passkey/start"),
       (.post, "/admin/reauth/passkey/finish"),
     (.post, "/admin/reauth/oidc/start"), (.post, "/admin/reauth/oidc/finish"),
       (.get, "/admin/exchange-rates/status"),
     (.post, "/admin/exchange-rates/refresh")]

/-! ## Middlewares -/

/-- `JWTClaims`. -/
structure JWTClaims where
  userID : Nat
  role : String
  authType : String
  keyID : Nat
  keyKind : String
  scopes : List String

def authTypeUser : String := "user"
def authTypeAPIKey : String := "api_key"

/-- The claims that `JWTOrAPIKeyMiddleware` makes of a key. -/
def APIKeyPrincipal.claims (principal : APIKeyPrincipal) : JWTClaims :=
  ⟨principal.userID, "", authTypeAPIKey, principal.keyID, principal.keyKind, principal.scopes⟩

def getAuthType (claims : JWTClaims) : String :=
  if claims.authType ≠ "" then claims.authType else if 0 < claims.scopes.length then authTypeAPIKey
    else authTypeUser

def getUserRole (claims : JWTClaims) : String :=
  if getAuthType claims = authTypeAPIKey then "user" else if trimSpace claims.role = "" then "user"
    else claims.role

def adminMiddleware (claims : JWTClaims) : Except String Unit :=
  refuseIf (getUserRole claims ≠ "admin") "admin access required"

def humanSessionOnly (claims : JWTClaims) : Except String Unit :=
  refuseIf (getAuthType claims = authTypeAPIKey) "human session required"

def isAPIKeyRouteAllowed (path : String) : Bool :=
  if path = "/api/auth" then false else if "/api/auth/".toList <+: path.toList
    then path = "/api/auth/me" else true

def writeScopeRoutes : List String := ["/api/auth/totp/setup"]

def requiredAPIKeyScope (route : Route) : String :=
  if route.path ∈ writeScopeRoutes then apiKeyScopeWrite
  else if isReadOnlyMethod route.method then apiKeyScopeRead
  else apiKeyScopeWrite

def apiKeyScopeMiddleware (route : Route) (claims : JWTClaims) : Except String Unit :=
  if getAuthType claims ≠ authTypeAPIKey then .ok ()
  else do
    refuseIf (normalizePersistedAPIKeyKind claims.keyKind ≠ apiKeyKindAPIIntegration)
      "api key kind cannot access this endpoint"
    refuseIf (!isAPIKeyRouteAllowed route.path) "api key cannot access this endpoint"
    refuseIf (requiredAPIKeyScope route ∉ claims.scopes) "api key does not have required scope"

/-- The middlewares between the claims and the handler of a route. -/
def Route.authorize (route : Route) (claims : JWTClaims) : Except String Unit :=
  match route.group with
  | .protectedRoutes => apiKeyScopeMiddleware route claims
  | .humanProtected => do
    humanSessionOnly claims
    apiKeyScopeMiddleware route claims
  | .admin => adminMiddleware claims

/-- `authenticate` of the MCP handler, after the key, and the scope check of a tool. -/
def MCPTool.authorize (tool : MCPTool) (principal : APIKeyPrincipal) : Except String Unit := do
  refuseIf (principal.keyKind ≠ apiKeyKindMCPClient) "api key kind cannot access mcp"
  refuseIf ((if tool.write then apiKeyScopeWrite else apiKeyScopeRead) ∉ principal.scopes)
    "api key does not have required scope"

/-! ## What a key may reach -/

/-- What a key is presented to. -/
inductive KeyTarget where
  | route (route : Route)
  | tool (tool : MCPTool)
  deriving DecidableEq

def KeyTarget.authorize (target : KeyTarget) (principal : APIKeyPrincipal) : Except String Unit :=
  match target with
  | .route r => r.authorize principal.claims
  | .tool t => t.authorize principal

/-- An integration reaches the routes of its scopes, apart from the account's own; a client reaches
the tools of its scopes. -/
def KeyTarget.Permits (target : KeyTarget) (principal : APIKeyPrincipal) : Prop :=
  match target with
  | .route r => principal.keyKind = apiKeyKindAPIIntegration ∧ r.group = .protectedRoutes ∧
      ("/api/auth/".toList <+: r.path.toList → r.path = "/api/auth/me") ∧
      (isReadOnlyMethod r.method = true → apiKeyScopeRead ∈ principal.scopes) ∧
      (isReadOnlyMethod r.method = false → apiKeyScopeWrite ∈ principal.scopes)
  | .tool t =>
    principal.keyKind = apiKeyKindMCPClient ∧
      (if t.write then apiKeyScopeWrite else apiKeyScopeRead) ∈ principal.scopes

section Admission
variable {target : KeyTarget} {principal : APIKeyPrincipal} {route : Route}

theorem getAuthType_claims (principal : APIKeyPrincipal) :
    getAuthType principal.claims = authTypeAPIKey := rfl

theorem apiKeyScopeMiddleware_ok (h : apiKeyScopeMiddleware route principal.claims = .ok ()) :
    normalizePersistedAPIKeyKind principal.keyKind = apiKeyKindAPIIntegration ∧
    isAPIKeyRouteAllowed route.path = true ∧
      requiredAPIKeyScope route ∈ principal.scopes := by
  rw [apiKeyScopeMiddleware, getAuthType_claims, if_neg (not_not.2 rfl)] at h
  obtain ⟨_, hkind, h⟩ := bind_eq_ok h
  obtain ⟨_, hroute, h⟩ := bind_eq_ok h
  refine ⟨not_not.1 (refuseIf_ok hkind), ?_, not_not.1 (refuseIf_ok h)⟩
  simpa using refuseIf_ok hroute

/-- Where a key is let in, with a kind that is one of the two. -/
theorem KeyTarget.permits_of_authorize (hkind : principal.keyKind ∈ validAPIKeyKinds)
    (hread : apiKeyScopeWrite ∈ principal.scopes → apiKeyScopeRead ∈ principal.scopes)
    (h : target.authorize principal = .ok ()) :
    target.Permits principal := by
  cases target with
  | tool tool =>
    obtain ⟨_, hclient, h⟩ := bind_eq_ok h
    exact ⟨not_not.1 (refuseIf_ok hclient), not_not.1 (refuseIf_ok h)⟩
  | route route =>
    rw [KeyTarget.authorize, Route.authorize] at h
    cases hgroup : route.group with
    | admin =>
      simp only [hgroup] at h
      have hrole : getUserRole principal.claims = "user" := if_pos (getAuthType_claims principal)
      exact absurd (by rw [hrole]; decide) (refuseIf_ok h)
    | humanProtected =>
      simp only [hgroup] at h
      obtain ⟨_, hhuman, -⟩ := bind_eq_ok h
      exact absurd (getAuthType_claims principal) (refuseIf_ok hhuman)
    | protectedRoutes =>
      simp only [hgroup] at h
      obtain ⟨hpersisted, hallowed, hscope⟩ := apiKeyScopeMiddleware_ok h
      have hsame : normalizePersistedAPIKeyKind principal.keyKind = principal.keyKind := by
        rcases List.mem_cons.1 hkind with hkind | hkind
        · rw [hkind]
          decide +kernel
        · rw [List.mem_singleton.1 hkind]
          decide +kernel
      refine ⟨hsame.symm.trans hpersisted, hgroup, ?_, ?_, ?_⟩
      · intro hauth
        unfold isAPIKeyRouteAllowed at hallowed
        by_cases hbase : route.path = "/api/auth"
        · rw [if_pos hbase] at hallowed
          cases hallowed
        · rw [if_neg hbase, if_pos hauth] at hallowed
          exact of_decide_eq_true hallowed
      · intro hmethod
        rw [requiredAPIKeyScope, if_pos hmethod] at hscope
        split at hscope
        · exact hread hscope
        · exact hscope
      · intro hmethod
        rw [requiredAPIKeyScope, hmethod, if_neg Bool.false_ne_true] at hscope
        split at hscope
        · exact hscope
        · exact hscope

end Admission

end Subdux
