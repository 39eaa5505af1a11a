import Subdux.Accounts
import Subdux.Lib.SingleUse
/-!
# OIDC sessions

`internal/service/oidc.go`: a request for an authorization URL stores a state session, a callback
takes it, resolves the identity of whoever signed in, finishes what the session was begun for and
stores a result session, and that is taken once more. The clock readings, the ids and tokens that
are generated and the answers of the provider are arguments. The maps are listed in the order of
insertion; the code walks them in any order, which makes a difference to `enforceLimit` only between
sessions of the same instant.
-/

namespace Subdux
open GoStrings Rows Results SingleUse

def oidcStateSessionTTL : Int := 10 * 60 * nsPerSecond
def oidcResultSessionTTL : Int := 3 * 60 * nsPerSecond
def maxOIDCStateSessions : Nat := 1024
def maxOIDCResultSession : Nat := 1024

inductive OIDCPurpose where
  | login | connect | reauth
  deriving DecidableEq

structure OIDCStateSession where
  purpose : OIDCPurpose
  userID : Nat
  operation : String
  codeVerifier : String
  nonce : String
  createdAt : Time
  expiresAt : Time
  deriving DecidableEq

/-- `UserID` and `Operation` are never sent to a client. -/
structure OIDCSessionResult where
  purpose : OIDCPurpose
  token : String := ""
  refreshToken : String := ""
  user : Option SessionUser := none
  connected : Bool := false
  connection : Option OIDCConnection := none
  error : String := ""
  userID : Nat := 0
  operation : String := ""
  deriving DecidableEq

structure OIDCResultSession where
  result : OIDCSessionResult
  createdAt : Time
  expiresAt : Time
  deriving DecidableEq

/-! ## The two maps -/

structure OIDCSessions where
  states : Store String OIDCStateSession
  results : Store String OIDCResultSession
  deriving DecidableEq

/-- `cleanupOIDCSessionsLocked`. -/
def OIDCSessions.cleanup (now : Time) (sessions : OIDCSessions) : OIDCSessions :=
  ⟨sessions.states.filter fun e => !now.after e.2.expiresAt, sessions.results.filter fun e =>
    !now.after e.2.expiresAt⟩

def stampState (session : OIDCStateSession) (now : Time) : OIDCStateSession :=
  if session.createdAt.isZero then { session with createdAt := now } else session

/-- `cleanupNow` and `now` are the readings of the clock. -/
def storeOIDCStateSession (state : String) (session : OIDCStateSession) (cleanupNow now : Time)
    (sessions : OIDCSessions) :
    OIDCSessions :=
  let cleaned := sessions.cleanup cleanupNow
  { cleaned with
    states := put state (stampState session now)
      (enforceLimit (fun s => s.createdAt.nanos) maxOIDCStateSessions cleaned.states) }

def takeOIDCStateSession (state : String) (cleanupNow now : Time) (sessions : OIDCSessions) :
    OIDCSessions × Except String OIDCStateSession :=
  let cleaned := sessions.cleanup cleanupNow
  match lookup state cleaned.states with
  | none => (cleaned, .error "invalid or expired oidc session")
  | some session =>
    ({ cleaned with states := remove state cleaned.states },
      if now.after session.expiresAt then .error "oidc session expired" else .ok session)

def storeOIDCResultSession (sessionID : String) (result : OIDCSessionResult)
    (cleanupNow createdAt now : Time) (sessions : OIDCSessions) :
    OIDCSessions :=
  let cleaned := sessions.cleanup cleanupNow
  { cleaned with
    results := put sessionID ⟨result, createdAt, now.add oidcResultSessionTTL⟩
      (enforceLimit (fun s => s.createdAt.nanos) maxOIDCResultSession cleaned.results) }

def takeOIDCResultSession (sessionID : String) (cleanupNow now : Time) (sessions : OIDCSessions) :
    OIDCSessions × Except String OIDCSessionResult :=
  let cleaned := sessions.cleanup cleanupNow
  match lookup sessionID cleaned.results with
  | none => (cleaned, .error "invalid or expired oidc result session")
  | some session =>
    ({ cleaned with results := remove sessionID cleaned.results },
      if now.after session.expiresAt then .error "oidc result session expired" else .ok session.result)

def consumeOIDCSessionResult (sessionID : String) (cleanupNow now : Time) (sessions : OIDCSessions) :
    OIDCSessions × Except String OIDCSessionResult :=
  takeOIDCResultSession (trimSpace sessionID) cleanupNow now sessions

/-- What `ConsumeOIDCReauthResult` makes of the result it takes. -/
def checkReauthResult (result : OIDCSessionResult) (userID : Nat) (operation : String) :
    Except String Unit :=
  if result.error ≠ "" then .error result.error
  else if result.purpose ≠ .reauth ∨ result.userID ≠ userID ∨ result.operation ≠ operation then
    .error "invalid oidc reauth session"
  else .ok ()

def consumeOIDCReauthResult (sessionID : String) (userID : Nat) (operation : String)
    (cleanupNow now : Time) (sessions : OIDCSessions) :
    OIDCSessions × Except String Unit :=
  let taken := takeOIDCResultSession (trimSpace sessionID) cleanupNow now sessions
  (taken.1, taken.2.bind fun result => checkReauthResult result userID operation)

/-! ## The beginning -/

/-- Who asks for an authorization URL, and what for. -/
inductive OIDCBegin where
  | login
  | connect (userID : Nat)
  | reauth (userID : Nat) (operation : String)

def OIDCBegin.purpose : OIDCBegin → OIDCPurpose
  | login => .login
  | connect _ => .connect
  | reauth .. => .reauth

def OIDCBegin.userID : OIDCBegin → Nat
  | login => 0
  | connect userID | reauth userID _ => userID

def OIDCBegin.operation : OIDCBegin → String
  | login | connect _ => ""
  | reauth _ operation => operation

/-- The session that `buildOIDCAuthorizationURL` stores. -/
def OIDCBegin.session (b : OIDCBegin) (codeVerifier nonce : String) (now : Time) : OIDCStateSession :=
  ⟨b.purpose, b.userID, b.operation, codeVerifier, nonce, Time.zero, now.add oidcStateSessionTTL⟩

/-! ## The identity -/

/-- The claims of an ID token. -/
structure OIDCIdentity where
  claims : OIDCClaims
  nonce : String

/-- The second value, where the first is blank. -/
def orTrimmed (value other : String) : String := if trimSpace value = "" then trimSpace other else value

/-- `idToken` is the token that the provider's library verified, `userInfo` what the userinfo
endpoint answers. -/
def resolveOIDCIdentity (idToken : Except String OIDCIdentity) (userInfo : Option OIDCClaims)
    (expectedNonce : String) :
    Except String OIDCIdentity := do
  let identity ← idToken
  refuseIf (expectedNonce ≠ "" ∧ identity.nonce = "") "oidc nonce is missing"
  refuseIf (expectedNonce ≠ "" ∧ identity.nonce ≠ expectedNonce) "oidc nonce does not match"
  let claims := { identity.claims with subject := trimSpace identity.claims.subject }
  refuseIf (claims.subject = "") "oidc subject is missing"
  let needsUserInfo :=
    trimSpace claims.email = "" ∨ trimSpace claims.preferredUsername = "" ∨ trimSpace claims.name = ""
  match userInfo.filter fun _ => needsUserInfo with
  | none => return ⟨claims, identity.nonce⟩
  | some info =>
    refuseIf (info.subject ≠ "" ∧ info.subject ≠ claims.subject) "oidc subject mismatch"
    return ⟨⟨claims.subject, orTrimmed claims.email info.email,
      orTrimmed claims.preferredUsername info.preferredUsername,
      orTrimmed claims.name info.name⟩, identity.nonce⟩

/-! ## The callback -/

/-- What a callback is called with, and what it learns from the settings and the provider. -/
structure CallbackAnswer where
  code : String
  providerError : String
  providerErrorDescription : String
  available : Bool
  autoCreateUser : Bool
  idToken : Except String OIDCIdentity
  userInfo : Option OIDCClaims

def CallbackAnswer.identity (answer : CallbackAnswer) (session : OIDCStateSession) :
    Except String OIDCIdentity := do
  let message := if trimSpace answer.providerErrorDescription = "" then answer.providerError
    else trimSpace answer.providerErrorDescription
  refuseIf (answer.providerError ≠ "") ("oidc authorization failed: " ++ message)
  refuseIf (trimSpace answer.code = "") "missing OIDC authorization code"
  refuseIf (!answer.available) "oidc login is not available"
  resolveOIDCIdentity answer.idToken answer.userInfo session.nonce

/-- Where a call of `HandleOIDCCallback` stands, once it has taken its state session. A call that
matched the identity with a connection keeps both. -/
inductive Callback where
  | taken (state : String) (session : OIDCStateSession)
  | identified (state : String) (session : OIDCStateSession) (identity : OIDCIdentity)
    (autoCreateUser : Bool)
  /-- `finishOIDCConnect` and `finishOIDCReauth`, after `GetUser`. -/
  | userLoaded (state : String) (session : OIDCStateSession) (identity : OIDCIdentity)
  /-- `finishOIDCLogin`, after it found a connection. -/
  | linked (state : String) (session : OIDCStateSession) (identity : OIDCIdentity)
    (connection : OIDCConnection)
  /-- `finishOIDCLogin`, before `issueAuthResponse`. -/
  | authenticating (state : String) (session : OIDCStateSession) (identity : OIDCIdentity)
    (connection : OIDCConnection)
    (user : SessionUser)
  | finished (state : String) (session : OIDCStateSession) (identity : OIDCIdentity)
    (connection : OIDCConnection)
    (result : OIDCSessionResult)
  | failed (purpose : OIDCPurpose) (message : String)

def invalidOIDCSession (purpose : OIDCPurpose) : String :=
  if purpose = .reauth then "invalid oidc reauth session" else "invalid oidc connect session"

/-- The values that a step generates: a password hash and the two tokens. -/
structure Generated where
  hash : String
  token : String
  refreshToken : String

section Finish
variable (s : AccountStore)

def findUser (userID : Nat) : Option SessionUser := s.users.find? (·.id = userID)

def findConnection (subject : String) : Option OIDCConnection :=
  s.connections.find? (·.subject = subject)

/-- `GetUser`, and that the account is not disabled. -/
def loadEnabledUser (userID : Nat) (missing : String) : Except String SessionUser :=
  match findUser s userID with
  | none => .error missing
  | some user => if user.status = "disabled" then .error "account is disabled" else .ok user

def updateConnectionEmail (connection : OIDCConnection) (email : String) : AccountStore :=
  if email ≠ "" ∧ email ≠ connection.email then
    { s with
      connections := updateWhere (·.subject = connection.subject)
        ({ · with email := email }) s.connections }
  else s

/-- The transaction of `finishOIDCConnect`. -/
def connectOIDC (userID : Nat) (claims : OIDCClaims) : Except String (AccountStore × OIDCConnection) :=
  let email := trimSpace claims.email
  match findConnection s claims.subject with
  | some existing =>
    if existing.userID ≠ userID then .error "this oidc account is already linked to another user"
    else .ok (updateConnectionEmail s existing email, if email ≠ ""
      then { existing with email := email } else existing)
  | none =>
    if s.connections.any (·.userID = userID) then
      .error "you have already connected another oidc account"
    else .ok ({ s with connections := s.connections ++ [⟨userID, claims.subject, email⟩] },
      ⟨userID, claims.subject, email⟩)

/-- The connection read of `finishOIDCReauth`. -/
def matchReauthConnection (userID : Nat) (subject : String) : Except String OIDCConnection :=
  match findConnection s subject with
  | none => .error "oidc identity is not linked to this account"
  | some connection =>
    if connection.userID ≠ userID then .error "oidc identity is not linked to this account"
      else .ok connection

/-- `finishOIDCLogin` without a connection: `createOIDCUser`, where accounts are created. -/
def createLoginUser (state : String) (session : OIDCStateSession) (identity : OIDCIdentity)
    (hash : String) : AccountStore × Callback :=
  match createOIDCUser identity.claims hash s with
  | .error e => (s, .failed session.purpose e.text)
  | .ok created =>
    (created, (findUser created s.nextUserID).elim
      (.failed session.purpose AccountError.database.text) fun user =>
      .authenticating state session identity
        ⟨s.nextUserID, identity.claims.subject, trimSpace identity.claims.email⟩ user)

/-- The next statement of a callback, or its transaction; `none` where it has none left. -/
def Callback.next (generated : Generated) : Callback → Option (AccountStore × Callback)
  | .identified state session identity autoCreateUser =>
    match session.purpose with
    | .login =>
      match findConnection s identity.claims.subject with
      | some connection => some (s, .linked state session identity connection)
      | none =>
        if autoCreateUser then some (createLoginUser s state session identity generated.hash)
        else some (s, .failed session.purpose "oidc account is not linked")
    | .connect | .reauth =>
      if session.userID = 0 then some (s, .failed session.purpose (invalidOIDCSession session.purpose))
      else
        match loadEnabledUser s session.userID "user not found" with
        | .error message => some (s, .failed session.purpose message)
        | .ok _ => some (s, .userLoaded state session identity)
  | .userLoaded state session identity =>
    match session.purpose with
    | .reauth =>
      match matchReauthConnection s session.userID identity.claims.subject with
      | .error message => some (s, .failed session.purpose message)
      | .ok connection =>
        some (s, .finished state session identity connection
          { purpose := .reauth, userID := session.userID, operation := session.operation })
    | .login | .connect =>
      match connectOIDC s session.userID identity.claims with
      | .error message => some (s, .failed session.purpose message)
      | .ok (connected, connection) =>
        some (connected, .finished state session identity connection
          { purpose := .connect, connected := true, connection := some connection })
  | .linked state session identity connection =>
    match loadEnabledUser s connection.userID "linked user not found" with
    | .error message => some (s, .failed session.purpose message)
    | .ok user =>
      some (updateConnectionEmail s connection (trimSpace identity.claims.email),
        .authenticating state session identity connection user)
  | .authenticating state session identity connection user =>
    some (s, .finished state session identity connection
      { purpose := .login, token := generated.token, refreshToken := generated.refreshToken,
        user := some user })
  | .taken .. | .finished .. | .failed .. => none

end Finish

end Subdux
